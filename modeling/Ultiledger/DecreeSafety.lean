import Ultiledger.BallotSafety
import Ultiledger.DecreeRuns

/-! # Runs that never violate the ballot invariants -/

namespace Ultiledger

open AbortingProgram Program

def Calm (trace : List BallotEvent) : Prop := ∀ event ∈ trace, event.Safe

theorem calm_append (trace : List BallotEvent) (event : BallotEvent) :
    Calm (trace ++ [event]) ↔ Calm trace ∧ event.Safe := by
  simp [Calm, or_imp, forall_and]

theorem Calm.of_append {trace events : List BallotEvent} (calm : Calm (trace ++ events)) :
    Calm trace :=
  fun event mem => calm event (List.mem_append_left events mem)

/-- A fault is the model's own, or some call has not met its condition. -/
def Excused (fault : Fault) (d : DecreeState) : Prop := Calm d.trace → fault = .outOfFuel

/-- What holds of a decree that is about to check its ballots. -/
structure Poised (ctx : DecreeContext) (d : DecreeState) : Prop where
  orderly : Calm d.trace → d.ballot.Orderly
  ballots : UsableBallots ctx d.ballots
  nominations : UsableNominations ctx d.nominations

structure Steady (ctx : DecreeContext) (d : DecreeState) : Prop extends Poised ctx d where
  inOrder : d.ballot.InOrder

abbrev KeepsSteady (ctx : DecreeContext) {Value : Type} (program : DecreeM Value) : Prop :=
  Maintains (Steady ctx) Excused program

structure SafeDelivery (ctx : DecreeContext) (deliver : Delivery) : Prop where
  steady : ∀ (pledge : Pledge) nodeID index assembled, pledge.Usable ctx →
    KeepsSteady ctx (deliver (pledge.statement nodeID index) assembled)
  quiet : QuietDelivery deliver

section Frames

variable {ctx : DecreeContext} {d d' : DecreeState}

theorem Poised.frame (poised : Poised ctx d) (ballot : d'.ballot = d.ballot)
    (trace : d'.trace = d.trace) (ballots : d'.ballots = d.ballots)
    (nominations : d'.nominations = d.nominations) : Poised ctx d' where
  orderly := by
    rw [trace, ballot]
    exact poised.orderly
  ballots := by
    rw [ballots]
    exact poised.ballots
  nominations := by
    rw [nominations]
    exact poised.nominations

theorem Steady.frame (steady : Steady ctx d) (ballot : d'.ballot = d.ballot)
    (trace : d'.trace = d.trace) (ballots : d'.ballots = d.ballots)
    (nominations : d'.nominations = d.nominations) : Steady ctx d' where
  toPoised := steady.toPoised.frame ballot trace ballots nominations
  inOrder := by
    rw [ballot]
    exact steady.inOrder

theorem Steady.record (steady : Steady ctx d) (event : BallotEvent) :
    Steady ctx { d with trace := d.trace ++ [event] } where
  orderly calm := steady.orderly calm.of_append
  ballots := steady.ballots
  nominations := steady.nominations
  inOrder := steady.inOrder

theorem Steady.storeBallot {pledge : Pledge} (steady : Steady ctx d) (usable : pledge.Usable ctx)
    (ownID nodeID : String) (assembled : Bool) :
    Steady ctx (d.storeBallot ownID nodeID pledge assembled) where
  orderly := steady.orderly
  nominations := steady.nominations
  inOrder := steady.inOrder
  ballots := by
    intro other stored found
    by_cases same : other = nodeID
    · subst same
      rw [DecreeState.storeBallot, AList.lookup_insert, Option.some.injEq] at found
      rwa [← found]
    · rw [DecreeState.storeBallot, AList.lookup_insert_ne same] at found
      exact steady.ballots other stored found

theorem Pledge.Usable.clear {pledge : Pledge} (usable : pledge.Usable ctx) (q : Ballot) :
    (pledge.clear q).Usable ctx := by
  cases pledge <;> exact usable

theorem UsableBallots.resetQ (usable : UsableBallots ctx d.ballots) (nodeID : String) :
    UsableBallots ctx (d.resetQ nodeID).ballots := by
  unfold DecreeState.resetQ
  cases d.ballot.qBallot with
  | none => exact usable
  | some q =>
    cases d.ownIsAssembled with
    | false => exact usable
    | true =>
      cases own : d.ballots.lookup nodeID with
      | none => exact usable
      | some pledge =>
        intro other stored found
        by_cases same : other = nodeID
        · subst same
          rw [AList.lookup_insert, Option.some.injEq] at found
          rw [← found]
          exact (usable other pledge own).clear q
        · rw [AList.lookup_insert_ne same] at found
          exact usable other stored found

theorem nominations_resetQ (nodeID : String) : (d.resetQ nodeID).nominations = d.nominations := by
  unfold DecreeState.resetQ
  cases d.ballot.qBallot <;> rfl

end Frames

section Sending

variable {ctx : DecreeContext} {deliver : Delivery} {d : DecreeState}

variable {b : Ballot} {ballot : BallotState}

theorem assembleBallot_total (orderly : ballot.Orderly) (fault : Fault) :
    assembleBallot ctx ballot ≠ .error fault := by
  by_cases waiting : ballot.currentPhase = .prepare
  · obtain ⟨phase, current, p, q, h, c, shared⟩ := ballot
    obtain rfl : phase = .prepare := waiting
    simp [assembleBallot]
  · obtain ⟨p, c, pCase, cCase, -⟩ := orderly.settled waiting
    obtain ⟨h, hCase, -⟩ := orderly.commit c cCase
    obtain ⟨phase, current, pBallot, q, hBallot, cBallot, shared⟩ := ballot
    subst pCase cCase hCase
    cases phase <;> simp [assembleBallot]

theorem usable_of_assembleBallot {pledge : Pledge} (own : ctx.Knows ctx.quorumHash)
    (assembled : assembleBallot ctx ballot = .ok (some pledge)) : pledge.Usable ctx := by
  unfold assembleBallot at assembled
  split at assembled <;>
    simp only [Except.ok.injEq, Option.map_eq_some_iff, reduceCtorEq] at assembled
  · obtain ⟨B, -, rfl⟩ := assembled
    exact ⟨by simp, own⟩
  · obtain ⟨B, -, rfl⟩ := assembled
    exact own
  · obtain ⟨B, -, rfl⟩ := assembled
    trivial

theorem broadcastBallot_steady (stmt : Pledge) : KeepsSteady ctx (broadcastBallot ctx stmt) := by
  intro d steady
  simp only [broadcastBallot, holds_bind, holds_get]
  split_ifs
  · exact steady
  · cases news : isNews d.latestBallot ((d.reread stmt).statement ctx.nodeID ctx.index) with
    | error fault => exact absurd news (isNews_total _ fault)
    | ok fresh =>
      cases fresh
      · exact steady
      · exact steady.frame rfl rfl rfl rfl

theorem Poised.check (poised : Poised ctx d) :
    (lift d.ballot.checkBallotInvariants : DecreeM Unit).Holds d
      (fun _ d' => d = d' ∧ Steady ctx d) Excused := by
  cases checked : d.ballot.checkBallotInvariants with
  | error fault =>
    intro calm
    rw [(checkBallotInvariants_iff _).mpr (poised.orderly calm).toInOrder] at checked
    simp at checked
  | ok _ => exact ⟨rfl, poised, (checkBallotInvariants_iff _).mp checked⟩

theorem sendBallot_steady (safe : SafeDelivery ctx deliver) (own : ctx.Knows ctx.quorumHash)
    (poised : Poised ctx d) : (sendBallot ctx deliver).Holds d (fun _ => Steady ctx) Excused := by
  simp only [sendBallot, holds_bind, holds_get]
  refine poised.check.imp ?_
  rintro _ _ ⟨rfl, steady⟩
  cases assembled : assembleBallot ctx d.ballot with
  | error fault =>
    exact fun calm => absurd assembled (assembleBallot_total (poised.orderly calm) fault)
  | ok message =>
    cases message with
    | none => exact steady
    | some stmt =>
      have recorded := steady.record (.sendBallot d.ballot stmt)
      simp only [holds_lift_ok, record, holds_bind, holds_modify]
      split_ifs
      · exact recorded
      · have usable := usable_of_assembleBallot own assembled
        apply (safe.steady stmt _ _ true usable _ recorded).andThen
        rintro (err | _)
        · exact .pure _
        · exact (broadcastBallot_steady stmt).bind fun _ => .pure _

theorem updateBallot_of_running {check : Bool} (running : d.ballot.currentPhase ≠ .externalize)
    (forward : check = true → ∀ old, d.ballot.currentBallot = some old → old ≤ b) :
    (updateBallot (some b) check).Holds d
      (fun _ d' => d' = { d with
        trace := d.trace ++ [.updateBallot d.ballot b]
        ballot := d.ballot.replaceCurrent b })
      (fun _ _ => False) := by
  exact (holds_of_done (updateBallot_eq running forward)).mpr rfl

theorem updateBallotIfNeeded_of_running (running : d.ballot.currentPhase ≠ .externalize) :
    (updateBallotIfNeeded (some b)).Holds d
      (fun needed d' => ∃ trace, d' = { d with trace := trace, ballot := d.ballot.catchUp b } ∧
        (needed = false → d.ballot.catchUp b = d.ballot) ∧
          (Calm trace → Calm d.trace ∧
            ((∀ old, d.ballot.currentBallot = some old → old < b) →
              (BallotEvent.updateBallot d.ballot b).Safe)))
      (fun _ _ => False) := by
  obtain ⟨needed, ended, unneeded⟩ := updateBallotIfNeeded_eq b running
  refine (holds_of_done ended).mpr ⟨_, rfl, unneeded, ?_⟩
  unfold BallotState.catchUpEvents
  split_ifs with behind
  · rw [calm_append]
    exact fun calm => ⟨calm.1, fun _ => calm.2⟩
  · rw [List.append_nil]
    refine fun calm => ⟨calm, ?_⟩
    exact fun needed => absurd ((BallotState.behind_iff _ _).mpr needed) behind

theorem updateBallotValue_steady (steady : Steady ctx d)
    (first : d.ballot.currentBallot = none → b.counter ≠ 0) :
    (updateBallotValue b).Holds d (fun _ => Steady ctx) Excused := by
  simp only [updateBallotValue, holds_bind, holds_get]
  split_ifs with externalized incompatible forward
  · exact steady
  · exact steady
  · have upward : ∀ old, d.ballot.currentBallot = some old → old ≤ b := by
      intro old current
      simpa [current] using forward
    rw [holds_bind]
    refine (updateBallot_of_running externalized fun _ => upward).mono ?_ (fun _ _ => False.elim)
    rintro _ _ rfl
    have poised : Poised ctx { d with
        trace := d.trace ++ [.updateBallot d.ballot b]
        ballot := d.ballot.replaceCurrent b } := by
      refine ⟨?_, steady.ballots, steady.nominations⟩
      rw [calm_append]
      exact fun calm => (steady.orderly calm.1).replaceCurrent first upward calm.2
    simp only [holds_bind, holds_get]
    exact poised.check.mono (fun _ _ checked => checked.1 ▸ checked.2) (fun _ _ excused => excused)
  · simp only [holds_bind, holds_get, holds_pure]
    exact steady.check.mono (fun _ _ checked => checked.1 ▸ checked.2) (fun _ _ excused => excused)

variable (safe : SafeDelivery ctx deliver) (own : ctx.Knows ctx.quorumHash)

include safe own

theorem updateBallotPhaseWithCounter_steady (steady : Steady ctx d) {counter : Nat} (val : String)
    (first : d.ballot.currentBallot = none → counter ≠ 0) :
    (updateBallotPhaseWithCounter ctx deliver val counter).Holds d
      (fun _ => Steady ctx) Excused := by
  unfold updateBallotPhaseWithCounter
  rw [holds_bind, holds_get]
  split_ifs
  · exact steady
  · apply (updateBallotValue_steady steady first).andThen
    rintro (_ | _) middle kept
    · exact kept
    · exact (sendBallot_steady safe own kept.toPoised).andThen fun _ => .pure _

theorem updateBallotPhase_steady (val : String) (force : Bool) :
    KeepsSteady ctx (updateBallotPhase ctx deliver val force) := by
  intro d steady
  simp only [updateBallotPhase, holds_bind, holds_get]
  split_ifs
  · exact steady
  · apply updateBallotPhaseWithCounter_steady safe own steady
    intro missing
    simp [missing]

theorem abandonBallot_steady (c : Nat) : KeepsSteady ctx (abandonBallot ctx deliver c) := by
  intro d steady
  simp only [abandonBallot, holds_bind, holds_get]
  split_ifs with empty zero
  · exact steady
  · exact updateBallotPhase_steady safe own _ _ d steady
  · exact updateBallotPhaseWithCounter_steady safe own steady _ fun _ => zero

theorem update_steady : KeepsSteady ctx (update ctx deliver) := by
  intro d steady
  simp only [update, holds_bind, holds_get]
  cases found : findUpdate d with
  | error fault => exact absurd found (findUpdate_total steady.ballots fault)
  | ok choice =>
    cases choice with
    | none => exact steady
    | some c => exact abandonBallot_steady safe own c d steady

theorem updateLoop_steady (fuel : Nat) : KeepsSteady ctx (updateLoop ctx deliver fuel) := by
  induction fuel with
  | zero => exact fun _ _ _ => rfl
  | succ fuel ih =>
    apply (update_steady safe own).bind
    rintro (_ | _)
    · exact .pure _
    · exact ih.bind fun _ => .pure _

end Sending

section Voting

variable {ctx : DecreeContext} {deliver : Delivery} {d : DecreeState}

theorem findAcceptPrepared_excused (poised : Poised ctx d) {cands : List Ballot} {fault : Fault}
    (failed : findAcceptPrepared ctx d cands = .error fault) : Excused fault d := by
  intro calm
  induction cands with
  | nil => simp [findAcceptPrepared] at failed
  | cons head rest ih =>
    rw [findAcceptPrepared] at failed
    split_ifs at failed with old incompatible belowQ covered
    · exact ih failed
    · obtain ⟨p, c, pCase, cCase, same⟩ :=
        (poised.orderly calm).settled (by simp [incompatible.1])
      have continues : p ≤ head ∧ p.value = head.value := by
        simpa [incompatible.1, pCase] using old
      simp [cCase, ← same, continues.2] at incompatible
    · exact ih failed
    · exact ih failed
    · obtain ⟨verdict, accepted⟩ := federatedAccept_total poised.ballots.resolves
        (prepareVoteFilter head) (prepareAcceptFilter head)
      rw [accepted] at failed
      cases verdict with
      | true => simp at failed
      | false => exact ih failed

theorem acceptable_of_findAcceptPrepared {cands : List Ballot} {cand : Ballot}
    (found : findAcceptPrepared ctx d cands = .ok (some cand)) : d.ballot.Acceptable cand := by
  obtain ⟨continues, -, uncovered⟩ := findAcceptPrepared_spec found
  refine ⟨?_, uncovered⟩
  intro phase p pCase
  have fits := continues phase
  rwa [pCase, lessAndCompatibleBallots_some] at fits

theorem acceptPrepared_steady (safe : SafeDelivery ctx deliver) (own : ctx.Knows ctx.quorumHash)
    (stmt : Pledge) : KeepsSteady ctx (acceptPrepared ctx deliver stmt) := by
  intro d steady
  simp only [acceptPrepared, holds_bind, holds_get]
  split_ifs with externalized
  · exact steady
  · cases found : findAcceptPrepared ctx d (getPreparedCandidates stmt d.ballots) with
    | error fault => exact findAcceptPrepared_excused steady.toPoised found
    | ok choice =>
      cases choice with
      | none => exact steady
      | some cand =>
        have poised : Poised ctx { d with
            trace := d.trace ++ [.setAcceptPrepared d.ballot cand]
            ballot := (d.ballot.acceptPrepared cand).1 } := by
          refine ⟨?_, steady.ballots, steady.nominations⟩
          rw [calm_append]
          exact fun calm => (steady.orderly calm.1).acceptPrepared externalized
            (acceptable_of_findAcceptPrepared found) calm.2
        simp only [holds_lift_ok, record, moveBallots, holds_bind, holds_modify]
        split_ifs with updated
        · exact (sendBallot_steady safe own poised).andThen fun _ => .pure _
        · refine ⟨poised, ?_⟩
          rw [d.ballot.acceptPrepared_unchanged (by simpa using updated)]
          exact steady.inOrder

theorem confirmPrepared_steady (safe : SafeDelivery ctx deliver) (own : ctx.Knows ctx.quorumHash)
    (stmt : Pledge) : KeepsSteady ctx (confirmPrepared ctx deliver stmt) := by
  intro d steady
  simp only [confirmPrepared, holds_bind, holds_get]
  cases found : findConfirmPrepared ctx d stmt with
  | error fault => exact absurd found (findConfirmPrepared_total steady.ballots stmt fault)
  | ok choice =>
    cases choice with
    | none => exact steady
    | some choice =>
      obtain ⟨cb, hb⟩ := choice
      obtain ⟨waiting, above, commit⟩ := findConfirmPrepared_spec found
      simp only [holds_lift_ok, setConfirmPrepared, record, holds_bind, holds_modify, holds_get]
      refine (updateBallotIfNeeded_of_running (by simp [waiting])).mono ?_
        (fun _ _ => False.elim)
      rintro needed _ ⟨trace, rfl, unneeded, calmed⟩
      rw [calm_append] at calmed
      have poised : Poised ctx { d with
          nextValue := hb.value
          trace := trace
          ballot := (d.ballot.confirmPrepared cb hb).1.catchUp hb } := by
        refine ⟨?_, steady.ballots, steady.nominations⟩
        intro calm
        obtain ⟨⟨calmBefore, safeCall⟩, kept⟩ := calmed calm
        exact (steady.orderly calmBefore).confirmPrepared waiting above commit safeCall kept
      split_ifs with changed
      · exact (sendBallot_steady safe own poised).andThen fun _ => .pure _
      · simp only [Bool.or_eq_true, not_or, Bool.not_eq_true] at changed
        refine ⟨poised, ?_⟩
        rw [unneeded changed.1, d.ballot.confirmPrepared_unchanged changed.2]
        exact steady.inOrder

theorem enterConfirm_spec (hb : Ballot) :
    (enterConfirm ctx hb).Holds d
      (fun _ d' => d'.ballot = d.ballot.enterConfirm hb ∧ (Calm d'.trace → Calm d.trace) ∧
        (UsableBallots ctx d.ballots → UsableBallots ctx d'.ballots) ∧
          d'.nominations = d.nominations)
      (fun _ _ => False) := by
  refine (holds_of_done (enterConfirm_eq hb)).mpr ⟨rfl, ?_, fun usable => usable.resetQ _,
    nominations_resetQ _⟩
  intro calm
  rw [← trace_resetQ ctx.nodeID]
  exact calm.of_append

section

variable (safe : SafeDelivery ctx deliver) (own : ctx.Knows ctx.quorumHash)

include safe own

theorem raiseAndSend_steady (hb : Ballot) (high : d.ballot.hBallot = some hb)
    (running : d.ballot.currentPhase ≠ .externalize)
    (orderly : Calm d.trace → (d.ballot.catchUp hb).Orderly)
    (ballots : UsableBallots ctx d.ballots) (nominations : UsableNominations ctx d.nominations) :
    (do
      let d ← get
      let _ ← updateBallotIfNeeded d.ballot.hBallot
      let _ ← sendBallot ctx deliver
      pure true : DecreeM Bool).Holds d (fun _ => Steady ctx) Excused := by
  rw [holds_bind, holds_get, high, holds_bind]
  refine (updateBallotIfNeeded_of_running running).mono ?_ (fun _ _ => False.elim)
  rintro needed _ ⟨trace, rfl, -, calmed⟩
  have poised : Poised ctx { d with trace := trace, ballot := d.ballot.catchUp hb } :=
    ⟨fun calm => orderly (calmed calm).1, ballots, nominations⟩
  exact (sendBallot_steady safe own poised).andThen fun _ => .pure _

variable (fuel : Nat) {stmt pledge : Pledge}

theorem acceptCommit_steady (usable : stmt.Usable ctx)
    (named : ∀ ballot, votedCommit stmt = .ok (some ballot) → ballot.value ≠ "") :
    KeepsSteady ctx (acceptCommit ctx deliver stmt) := by
  intro d steady
  simp only [acceptCommit, holds_bind, holds_get]
  cases found : findAcceptCommit ctx d stmt with
  | error fault => exact absurd found (findAcceptCommit_total steady.ballots usable fault)
  | ok choice =>
    cases choice with
    | none => exact steady
    | some choice =>
      obtain ⟨cb, hb⟩ := choice
      obtain ⟨running, same, positive, ordered, continues⟩ := findAcceptCommit_spec found
      obtain ⟨ballot, voted, value⟩ := findAcceptCommit_value found
      obtain ⟨shared, accepted⟩ := d.ballot.acceptCommit_eq cb hb
      have locked : d.ballot.currentPhase ≠ .prepare →
          ∀ c, d.ballot.cBallot = some c → c.value = cb.value := by
        intro moved c cCase
        obtain ⟨h, high, sameHigh, -⟩ := continues ((phase_cases running).resolve_left moved)
        obtain ⟨_, high', -, sameCommit⟩ := steady.inOrder.commit c cCase
        cases high.symm.trans high'
        rw [sameCommit, ← sameHigh, same]
      simp only [holds_lift_ok, setAcceptCommit, record, holds_bind, holds_modify, holds_get]
      split_ifs with waiting changed changed
      · rw [holds_bind]
        refine (enterConfirm_spec hb).mono ?_ (fun _ _ => False.elim)
        rintro _ middle ⟨entered, calmed, ballots, nominations⟩
        obtain ⟨current, shape, -⟩ := BallotState.enterConfirm_high
          (show (d.ballot.acceptCommit cb hb).1.hBallot = some hb by rw [accepted]; rfl)
        rw [calm_append] at calmed
        refine raiseAndSend_steady safe own hb ?_ ?_ ?_ (ballots steady.ballots) ?_
        · rw [entered, shape, accepted]
          rfl
        · rw [entered, shape]
          simp
        · intro calm
          obtain ⟨calmBefore, safeCall⟩ := calmed calm
          rw [entered]
          exact (steady.orderly calmBefore).enterConfirm waiting same
            (value ▸ named ballot voted) positive ordered safeCall
        · rw [nominations]
          exact steady.nominations
      · simp [waiting] at changed
      · refine raiseAndSend_steady safe own hb ?_ ?_ ?_ steady.ballots steady.nominations
        · simp only [accepted]
          rfl
        · simpa using running
        · rw [calm_append]
          intro calm
          simp only [accepted]
          exact (steady.orderly calm.1).recommit waiting same ordered (locked waiting) shared
      · have kept : (d.ballot.acceptCommit cb hb).1 = d.ballot := by
          rcases d.ballot.acceptCommit_cases cb hb with unchanged | new
          · rw [unchanged]
          · simp [new] at changed
        refine ⟨⟨?_, steady.ballots, steady.nominations⟩, ?_⟩
        · rw [calm_append]
          intro calm
          simp only [kept]
          exact steady.orderly calm.1
        · simp only [kept]
          exact steady.inOrder

theorem confirmCommit_steady (stmt : Pledge) :
    KeepsSteady ctx (confirmCommit ctx deliver stmt) := by
  intro d steady
  simp only [confirmCommit, holds_bind, holds_get]
  cases found : findConfirmCommit ctx d stmt with
  | error fault => exact absurd found (findConfirmCommit_total steady.ballots stmt fault)
  | ok choice =>
    cases choice with
    | none => exact steady
    | some choice =>
      obtain ⟨cb, hb⟩ := choice
      obtain ⟨phase, same, -, ordered, ⟨c, cCase, value⟩, -⟩ := findConfirmCommit_spec found
      have locked : ∀ other, d.ballot.cBallot = some other → other.value = cb.value := by
        intro other otherCase
        rwa [← Option.some.inj (cCase.symm.trans otherCase)]
      simp only [holds_lift_ok, setConfirmCommit, moveBallots, holds_bind, holds_modify,
        holds_get]
      refine (updateBallotIfNeeded_of_running (by simp [phase])).mono ?_
        (fun _ _ => False.elim)
      rintro needed _ ⟨trace, rfl, -, calmed⟩
      have moved : d.ballot.currentPhase ≠ .prepare := by simp [phase]
      have poised : Poised ctx { d with
          trace := trace
          ballot := { (d.ballot.holdCommit cb hb false).catchUp hb with
            currentPhase := .externalize } } := by
        refine ⟨?_, steady.ballots, steady.nominations⟩
        intro calm
        apply ((steady.orderly (calmed calm).1).recommit moved same ordered locked
          false).externalize
        simpa [BallotState.holdCommit] using moved
      refine ((sendBallot_steady safe own poised).and
        (sendBallot_quiet safe.quiet rfl)).mono ?_ (fun _ _ stopped => stopped.1)
      rintro _ sent ⟨kept, unchanged⟩
      cases commit : sent.ballot.cBallot with
      | none =>
        refine absurd commit (kept.inOrder.committed ?_)
        rw [unchanged.ballot]
        simp
      | some c => exact kept.frame rfl rfl rfl rfl

theorem advance_steady (usable : stmt.Usable ctx)
    (named : ∀ ballot, votedCommit stmt = .ok (some ballot) → ballot.value ≠ "") :
    KeepsSteady ctx (advance ctx deliver fuel stmt) := by
  apply (acceptPrepared_steady safe own stmt).bind
  intro preparedAccepted
  apply (confirmPrepared_steady safe own stmt).bind
  intro preparedConfirmed
  apply (acceptCommit_steady safe own usable named).bind
  intro commitAccepted
  apply (confirmCommit_steady safe own stmt).bind
  intro commitConfirmed d steady
  simp only [holds_bind, holds_get]
  split_ifs
  · exact (updateLoop_steady safe own fuel d steady).andThen fun _ => .pure _
  · exact steady

theorem step_steady (usable : stmt.Usable ctx)
    (named : ∀ ballot, votedCommit stmt = .ok (some ballot) → ballot.value ≠ "") :
    KeepsSteady ctx (step ctx deliver fuel stmt) := by
  intro d steady
  have counted : Steady ctx { d with ballotMsgCount := d.ballotMsgCount + 1 } :=
    steady.frame rfl rfl rfl rfl
  simp only [step, record, holds_bind, holds_modify, holds_get]
  split_ifs
  · exact counted.record _
  · apply (advance_steady safe own fuel usable named _ counted).andThen
    intro updated middle kept
    split_ifs
    · exact kept.frame rfl rfl rfl rfl
    · exact kept.frame rfl rfl rfl rfl

theorem handleBallot_steady (nodeID : String) (usable : pledge.Usable ctx)
    (named : ∀ ballot, votedCommit pledge = .ok (some ballot) → ballot.value ≠ "")
    (assembled : Bool) :
    KeepsSteady ctx (handleBallot ctx deliver fuel nodeID pledge assembled) := by
  intro d steady
  have stored := steady.storeBallot usable ctx.nodeID nodeID assembled
  simp only [handleBallot, holds_bind, holds_get]
  split_ifs with running
  · apply (step_steady safe own fuel usable named _ stored).andThen
    rintro (err | _)
    · exact .pure _
    · exact .pure _
  · have moved : d.ballot.currentPhase ≠ .prepare := by
      rw [not_not.mp running]
      simp
    obtain ⟨c, cCase⟩ := Option.ne_none_iff_exists'.mp (steady.inOrder.committed moved)
    obtain ⟨wb, working⟩ : ∃ wb, getWorkingBallot pledge = some wb := by
      cases pledge with
      | prepare message => exact Option.ne_none_iff_exists'.mp usable.1
      | confirm B PC LC HC quorumHash => exact ⟨_, rfl⟩
      | externalize B HC quorumHash => exact ⟨_, rfl⟩
    simp only [cCase, working]
    split_ifs
    · exact steady
    · exact stored

theorem receiveBallot_steady (world : World) (fuel : Nat) (nodeID : String) (index : Nat)
    (assembled : Bool) (usable : pledge.Usable ctx) : KeepsSteady ctx
      (receiveBallot ctx deliver world fuel (pledge.statement nodeID index) assembled) := by
  intro d steady
  simp only [receiveBallot]
  split_ifs
  · exact steady
  · rw [holds_bind, holds_get]
    cases news : isNews (d.ballots.lookup (pledge.statement nodeID index).nodeID)
        (pledge.statement nodeID index) with
    | error fault => exact absurd news (isNews_total _ fault)
    | ok fresh =>
      cases fresh with
      | false => exact steady
      | true =>
        cases verdict : validateBallot ctx world d (pledge.statement nodeID index) with
        | error fault => exact absurd verdict (validateBallot_total world usable fault)
        | ok passed =>
          cases passed with
          | error err => exact steady
          | ok checked =>
            obtain rfl : pledge = checked :=
              Pledge.eq_of_statement (validateBallot_cases verdict).2.1
            exact handleBallot_steady safe own fuel _ usable
              (fun ballot voted => named_of_valid (valid_of_votedCommit verdict voted))
              assembled d steady

end

theorem recvBallot_safe (own : ctx.Knows ctx.quorumHash) (world : World) (fuel : Nat) :
    SafeDelivery ctx (recvBallot ctx world fuel) := by
  refine ⟨?_, recvBallot_quiet ctx world fuel⟩
  induction fuel with
  | zero => exact fun _ _ _ _ _ _ _ _ => rfl
  | succ fuel ih =>
    intro pledge nodeID index assembled usable
    exact receiveBallot_steady ⟨ih, recvBallot_quiet ctx world fuel⟩ own world fuel nodeID index
      assembled usable

end Voting

section Nominating

variable {ctx : DecreeContext}

def SafeNomination (ctx : DecreeContext) (deliver : Statement → DecreeM (Except String Unit)) :
    Prop :=
  ∀ stmt nom, stmt.getNominate = some nom → nom.Usable ctx →
    KeepsSteady ctx (deliver stmt)

theorem UsableNominations.resolves {d : DecreeState} (usable : UsableNominations ctx d.nominations)
    (nodeID : String) (nom : Nominate) (found : d.nominations.lookup nodeID = some nom) :
    ∃ quorum, getStatementQuorum (d.voting ctx) nom.quorumSource = .ok quorum :=
  getStatementQuorum_of_nominate (usable nodeID nom found)

theorem promoteToAccepts_steady (world : World) (votes : List String) :
    KeepsSteady ctx (promoteToAccepts ctx world votes) := by
  induction votes with
  | nil => exact .pure _
  | cons vote rest ih =>
    intro d steady
    simp only [promoteToAccepts, holds_bind, holds_get]
    split_ifs
    · exact ih d steady
    · rw [holds_bind]
      obtain ⟨verdict, accepted⟩ := federatedAccept_total steady.nominations.resolves
        (voteFilter vote) (acceptFilter vote)
      rw [accepted, holds_lift_ok]
      split_ifs
      · have promoted : Steady ctx
            ((d.addValue ctx world .votes vote).addValue ctx world .accepts vote) :=
          steady.frame rfl rfl rfl rfl
        exact (ih _ promoted).andThen fun _ => .pure _
      · exact ih d steady

theorem promoteToCandidates_steady (world : World) (accepts : List String) :
    KeepsSteady ctx (promoteToCandidates ctx world accepts) := by
  induction accepts with
  | nil => exact .pure _
  | cons accept rest ih =>
    intro d steady
    simp only [promoteToCandidates, holds_bind, holds_get]
    split_ifs
    · exact ih d steady
    · rw [holds_bind]
      obtain ⟨verdict, ratified⟩ := federatedRatify_total steady.nominations.resolves
        (acceptFilter accept)
      rw [ratified, holds_lift_ok]
      split_ifs
      · have promoted : Steady ctx (d.addValue ctx world .candidates accept) :=
          steady.frame rfl rfl rfl rfl
        exact (ih _ promoted).andThen fun _ => .pure _
      · exact ih d steady

theorem combineCandidates_steady (world : World) :
    KeepsSteady ctx (combineCandidates ctx world) := by
  intro d steady
  obtain ⟨read, decoded, unmasked⟩ := @decodeCandidates_empty ctx (world.iterate d.candidates)
  simp only [combineCandidates, holds_bind, holds_get, decoded, holds_lift_ok]
  rcases read with err | ⟨hash, vals⟩
  · exact steady
  obtain rfl := unmasked hash vals rfl
  obtain ⟨chosen, choice⟩ :=
    @chooseTxSet_empty ctx (d.getTxSet world) world.currLedgerHeaderHash vals
  simp only [holds_bind, choice, holds_lift_ok]
  rcases chosen with _ | ⟨txsetHash, txset⟩
  · exact steady
  dsimp only [encodeComposite]
  cases ctx.getTxSetKey txset with
  | error err => exact steady
  | ok newTxSetHash =>
    dsimp only
    cases world.addTxSet newTxSetHash txset with
    | error err => exact steady
    | ok _ =>
      cases ctx.encodeConsensusValue _ with
      | error err => exact steady.frame rfl rfl rfl rfl
      | ok candStr => exact steady.frame rfl rfl rfl rfl

theorem startBallot_steady (own : ctx.Knows ctx.quorumHash) (world : World) (fuel : Nat) :
    KeepsSteady ctx (startBallot ctx world fuel) := by
  apply (combineCandidates_steady world).bind
  rintro (err | compValue)
  · exact .pure _
  · apply Maintains.bind
    · exact Maintains.modify fun d steady => steady.frame rfl rfl rfl rfl
    · exact fun _ => (updateBallotPhase_steady (recvBallot_safe own world fuel) own compValue
        false).bind fun _ => .pure _

theorem sendNomination_steady (own : ctx.Knows ctx.quorumHash) (world : World)
    {deliver : Statement → DecreeM (Except String Unit)} (safe : SafeNomination ctx deliver) :
    KeepsSteady ctx (sendNomination ctx world deliver) := by
  intro d steady
  apply (safe _ _ rfl (.inr own) d steady).andThen
  rintro (err | _) middle kept
  · exact kept
  · simp only [holds_bind, holds_get]
    split_ifs
    · exact kept.frame rfl rfl rfl rfl
    · exact kept

theorem Steady.storeNomination {d : DecreeState} {nom : Nominate} (steady : Steady ctx d)
    (usable : nom.Usable ctx) (world : World) (nodeID : String) :
    Steady ctx (d.storeNomination ctx world nodeID nom) := by
  have inserted : UsableNominations ctx (d.nominations.insert nodeID nom) := by
    intro other stored found
    by_cases same : other = nodeID
    · subst same
      rw [AList.lookup_insert, Option.some.injEq] at found
      rwa [← found]
    · rw [AList.lookup_insert_ne same] at found
      exact steady.nominations other stored found
  refine ⟨⟨steady.orderly, steady.ballots, ?_⟩, steady.inOrder⟩
  unfold DecreeState.storeNomination storedAfter
  cases d.nominations.lookup nodeID with
  | none => exact inserted
  | some known =>
    dsimp only
    split_ifs
    · exact inserted
    · exact steady.nominations

theorem receiveNomination_steady (own : ctx.Knows ctx.quorumHash) (world : World)
    {deliver : Statement → DecreeM (Except String Unit)} (safe : SafeNomination ctx deliver)
    (fuel : Nat) : SafeNomination ctx (receiveNomination ctx world deliver fuel) := by
  intro stmt nom present usable
  simp only [receiveNomination, present]
  split_ifs
  · exact .pure _
  · apply Maintains.bind
    · exact Maintains.modify fun d steady => steady.storeNomination usable world stmt.nodeID
    intro _ d steady
    simp only [holds_bind, holds_get]
    split_ifs
    · exact steady
    · apply (promoteToAccepts_steady world nom.voteList d steady).andThen
      intro acceptUpdated
      apply (promoteToCandidates_steady world nom.acceptList).bind
      intro candidateUpdated
      have starts := startBallot_steady own world fuel
      cases acceptUpdated <;> cases candidateUpdated
      · exact .pure _
      · exact starts
      · exact (sendNomination_steady own world safe).bind fun _ => .pure _
      · exact (sendNomination_steady own world safe).bind fun _ => starts

theorem recvNomination_safe (own : ctx.Knows ctx.quorumHash) (world : World) (fuel : Nat) :
    SafeNomination ctx (recvNomination ctx world fuel) := by
  induction fuel with
  | zero => exact fun _ _ _ _ _ _ _ => rfl
  | succ fuel ih => exact receiveNomination_steady own world ih fuel

theorem followLeaders_steady (world : World) (currHash : String) (leaders : List String) :
    KeepsSteady ctx (followLeaders ctx world currHash leaders) := by
  induction leaders with
  | nil => exact .pure _
  | cons leader rest ih =>
    intro d steady
    simp only [followLeaders, holds_bind, holds_get]
    split
    · exact ih d steady
    · rename_i vote chosen
      have voted : Steady ctx (d.addValue ctx world .votes vote) :=
        steady.frame rfl rfl rfl rfl
      exact (ih _ voted).andThen fun _ => .pure _

theorem nominate_steady (own : ctx.Knows ctx.quorumHash) (world : World) (fuel : Nat)
    (prevHash currHash : String) (isRenominate : Bool) :
    KeepsSteady ctx (nominate ctx world fuel prevHash currHash isRenominate) := by
  intro d steady
  simp only [nominate, holds_bind, holds_get]
  split_ifs
  · exact steady
  · simp only [updateRoundLeaders, renominate, holds_bind, holds_modify, holds_get]
    refine (followLeaders_steady world currHash _ _ ?_).imp ?_
    · exact steady.frame rfl rfl rfl rfl
    intro updated middle kept
    have counted : Steady ctx (if middle.nominationStart = false ∨
        middle.renomCount > maxRenomCount then middle
        else { middle with renomCount := middle.renomCount + 1 }) := by
      split_ifs
      · exact kept
      · exact kept.frame rfl rfl rfl rfl
    cases updated with
    | false => exact counted
    | true =>
      apply (sendNomination_steady own world (recvNomination_safe own world fuel) _
        counted).andThen
      rintro (err | _) <;> exact .pure _

theorem recv_steady (own : ctx.Knows ctx.quorumHash) (world : World) (fuel : Nat)
    {stmt : Statement} (wellFormed : stmt.WellFormed ctx) :
    KeepsSteady ctx (recv ctx world fuel (some stmt)) := by
  have received : (∃ pledge : Pledge, stmt = pledge.statement stmt.nodeID stmt.index ∧
      pledge.Usable ctx) → KeepsSteady ctx (recvBallot ctx world fuel stmt false) := by
    rintro ⟨pledge, reads, usable⟩
    rw [reads]
    exact (recvBallot_safe own world fuel).steady pledge _ _ false usable
  unfold Statement.WellFormed at wellFormed
  simp only [recv]
  cases kind : stmt.statementType <;> rw [kind] at wellFormed
  case nominate =>
    obtain ⟨nom, present, usable⟩ := wellFormed
    apply (recvNomination_safe own world fuel stmt nom present usable).bind
    rintro (err | _) <;> exact .pure _
  case other => exact .pure _
  all_goals
    apply (received wellFormed).bind
    rintro (err | _) <;> exact .pure _

theorem runTurn_steady (own : ctx.Knows ctx.quorumHash) {turn : Turn}
    (wellFormed : ∀ stmt, turn.call = .recv (some stmt) → stmt.WellFormed ctx) :
    KeepsSteady ctx (runTurn ctx turn) := by
  unfold runTurn
  cases called : turn.call with
  | nominate prevHash currHash isRenominate =>
    exact (nominate_steady own turn.world turn.fuel prevHash currHash isRenominate).bind
      fun _ => .pure _
  | stopNomination => exact .modify fun d steady => steady.frame rfl rfl rfl rfl
  | recv stmt =>
    apply Maintains.bind
    · cases stmt with
      | none => exact .pure _
      | some stmt => exact recv_steady own turn.world turn.fuel (wellFormed stmt called)
    · exact fun _ => .pure _

theorem runTurns_steady (own : ctx.Knows ctx.quorumHash) {turns : List Turn}
    (wellFormed : ∀ turn ∈ turns, ∀ stmt, turn.call = .recv (some stmt) → stmt.WellFormed ctx) :
    KeepsSteady ctx (runTurns ctx turns) := by
  induction turns with
  | nil => exact .pure _
  | cons turn rest ih =>
    apply (runTurn_steady own (wellFormed turn (.head _))).bind
    exact fun _ => ih fun later laterMem => wellFormed later (.tail turn laterMem)

end Nominating

theorem steady_newDecree (ctx : DecreeContext) : Steady ctx (newDecree ctx) := by
  have orderly : (newDecree ctx).ballot.Orderly := by
    refine ⟨⟨?_, ?_, ?_, ?_, ?_⟩, ?_, ?_, ?_⟩ <;> simp [newDecree, BallotState.Uncontested]
  refine ⟨⟨fun _ => orderly, ?_, ?_⟩, orderly.toInOrder⟩
  · simp [UsableBallots, newDecree]
  · simp [UsableNominations, newDecree]

/-- A decree that receives well-formed statements keeps its ballots in order and reaches
no fatal error, in every run whose calls all meet their conditions. -/
theorem runTurns_keeps_order (ctx : DecreeContext) (own : ctx.Knows ctx.quorumHash)
    {turns : List Turn}
    (wellFormed : ∀ turn ∈ turns, ∀ stmt, turn.call = .recv (some stmt) → stmt.WellFormed ctx)
    (safe : ∀ event ∈ (runTurns ctx turns (newDecree ctx)).state.trace, event.Safe) :
    (∃ d, runTurns ctx turns (newDecree ctx) = .done () d ∧ d.ballot.InOrder) ∨
      ∃ d, runTurns ctx turns (newDecree ctx) = .abort .outOfFuel d := by
  have holds := runTurns_steady own wellFormed (newDecree ctx) (steady_newDecree ctx)
  unfold Holds at holds
  cases ended : runTurns ctx turns (newDecree ctx) with
  | done value d =>
    rw [ended] at holds
    exact .inl ⟨d, rfl, holds.inOrder⟩
  | abort fault d =>
    rw [ended] at holds safe
    obtain rfl := holds safe
    exact .inr ⟨d, rfl⟩

private def pairQuorum : Quorum := .mk (1 / 2) ["a", "b"] []

private def pairContext : DecreeContext :=
  .plain 7 "n" pairQuorum (fun _ => some pairQuorum) (fun _ => 0)

private def peerTurn (nodeID : String) (pledge : Pledge) : Turn where
  call := .recv (some (pledge.statement nodeID 7))
  world := .plain
  fuel := 12

private theorem wellFormed_of_peerTurns {ctx : DecreeContext} {peers : List (String × Pledge)}
    (usable : ∀ peer ∈ peers, peer.2.Usable ctx) :
    ∀ turn ∈ peers.map fun peer => peerTurn peer.1 peer.2,
      ∀ stmt, turn.call = .recv (some stmt) → stmt.WellFormed ctx := by
  intro turn turnMem stmt called
  obtain ⟨⟨nodeID, pledge⟩, peerMem, rfl⟩ := List.mem_map.mp turnMem
  obtain rfl : pledge.statement nodeID 7 = stmt := by simpa [peerTurn] using called
  have fits := usable (nodeID, pledge) peerMem
  cases pledge <;> exact ⟨_, rfl, fits⟩

private def confirmTurns : List Turn :=
  [("a", Pledge.confirm ⟨1, "v"⟩ 1 1 1 "a")].map fun peer => peerTurn peer.1 peer.2

private def confirmedDecree : DecreeState :=
  (runTurns pairContext confirmTurns (newDecree pairContext)).state

/-- A confirm statement takes the decree through all phases, and every call on
the way meets its condition. -/
theorem runTurns_keeps_order_through_confirm :
    confirmedDecree.ballot.currentPhase = .externalize ∧ confirmedDecree.ballot.InOrder := by
  have ended : runTurns pairContext confirmTurns (newDecree pairContext) =
      .done () confirmedDecree := Outcome.eq_done (by decide +kernel)
  have wellFormed : ∀ turn ∈ confirmTurns, ∀ stmt, turn.call = .recv (some stmt) →
      stmt.WellFormed pairContext := by
    apply wellFormed_of_peerTurns
    intro peer peerMem
    rw [List.mem_singleton.mp peerMem]
    exact (by decide +kernel : pairContext.Knows "a")
  have safe : ∀ event ∈ (runTurns pairContext confirmTurns (newDecree pairContext)).state.trace,
      event.Safe := by decide +kernel
  rcases runTurns_keeps_order pairContext (by decide +kernel) wellFormed safe with
    ⟨d, done, inOrder⟩ | ⟨d, stopped⟩
  · rw [ended, Outcome.done.injEq] at done
    exact ⟨by decide +kernel, done.2 ▸ inOrder⟩
  · simp [ended] at stopped

private def majorityQuorum : Quorum := .mk (1 / 2) ["a", "b", "c"] []

private def majorityContext : DecreeContext :=
  .plain 7 "n" majorityQuorum (fun _ => some majorityQuorum) (fun _ => 0)

private def preparing (nodeID : String) (B : Ballot) (P : Option Ballot) : String × Pledge :=
  (nodeID, .prepare ⟨some B, P, none, 0, 0, nodeID⟩)

private def contestedTurns : List Turn :=
  [preparing "a" ⟨1, "v"⟩ (some ⟨1, "v"⟩), preparing "b" ⟨1, "v"⟩ (some ⟨1, "v"⟩),
    preparing "a" ⟨2, "w"⟩ none, preparing "b" ⟨2, "w"⟩ none].map fun peer =>
      peerTurn peer.1 peer.2

/-- Two of three peers prepare one value and then vote for a higher ballot of another.
The commit ballot is reset, and the next check is fatal. -/
theorem runTurns_breaks_order :
    majorityContext.Knows majorityContext.quorumHash ∧
      (∀ turn ∈ contestedTurns, ∀ stmt, turn.call = .recv (some stmt) →
        stmt.WellFormed majorityContext) ∧
      ∃ d, runTurns majorityContext contestedTurns (newDecree majorityContext) =
        .abort (.fatal "current ballot and higher ballot invariant not satisfied") d := by
  refine ⟨by decide +kernel, ?_, _, Outcome.eq_abort (by decide +kernel)⟩
  apply wellFormed_of_peerTurns
  intro peer peerMem
  simp only [List.mem_cons, List.not_mem_nil, or_false] at peerMem
  rcases peerMem with rfl | rfl | rfl | rfl
  · exact ⟨by simp, by decide +kernel⟩
  · exact ⟨by simp, by decide +kernel⟩
  · exact ⟨by simp, by decide +kernel⟩
  · exact ⟨by simp, by decide +kernel⟩

end Ultiledger
