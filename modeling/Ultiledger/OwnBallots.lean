import Ultiledger.BallotHistory

/-! # The statements a decree builds and the checks of its peers

`checkBallotInvariants` implies what the peers check in `validateBallot` but for one
inequality, which `setConfirmPrepared` does not ask for.
-/

namespace Ultiledger

open AbortingProgram Program EventHistory

variable {b after : BallotState} {events : List BallotEvent}

/-- The counters and the order of the ballots of a statement, as `validateBallot` checks
them for the statement of another node. -/
def Pledge.WellShaped : Pledge → Prop
  | .prepare message => prepareProblem false message = .ok none
  | .confirm B _ LC HC _ => B.counter ≠ 0 ∧ LC ≤ HC ∧ HC ≤ B.counter
  | .externalize B HC _ => 0 < B.counter ∧ B.counter ≤ HC

instance (pledge : Pledge) : Decidable pledge.WellShaped := by
  cases pledge <;> unfold Pledge.WellShaped <;> infer_instance

def Pledge.values : Pledge → List String
  | .prepare message => prepareValues message
  | .confirm B _ _ _ _ => [B.value]
  | .externalize B _ _ => [B.value]

/-- A peer that knows the quorum of a statement and finds its values valid accepts the
statement exactly when its shape is right. -/
theorem validateBallot_iff_wellShaped {ctx : DecreeContext} {world : World} {d : DecreeState}
    {pledge : Pledge} {nodeID : String} (index : Nat)
    (other : ∀ message, pledge = .prepare message → nodeID ≠ ctx.nodeID)
    (source : validateSource ctx d pledge.quorumSource = .ok none)
    (valid : valuesProblem ctx world d pledge.values = none) :
    validateBallot ctx world d (pledge.statement nodeID index) = .ok (.ok pledge) ↔
      pledge.WellShaped := by
  cases pledge with
  | prepare message =>
    have stranger : (ctx.nodeID == nodeID) = false := by simpa using (other message rfl).symm
    simp only [Pledge.quorumSource] at source
    simp only [Pledge.values] at valid
    simp only [validateBallot, Pledge.statement, Pledge.statementType, Pledge.body,
      Statement.getPrepare, source, stranger, Pledge.WellShaped]
    rcases prepareProblem false message with fault | _ | err <;>
      simp [finishValidation, valid]
  | confirm B PC LC HC quorumHash =>
    simp only [Pledge.quorumSource] at source
    simp only [Pledge.values] at valid
    simp only [validateBallot, Pledge.statement, Pledge.statementType, Pledge.body,
      Statement.getConfirm, source, Pledge.WellShaped]
    split_ifs with zero ordered
    · simp [finishValidation, zero]
    · simp [finishValidation, valid, zero, ordered]
    · simp [finishValidation, zero, ordered]
  | externalize B HC quorumHash =>
    simp only [Pledge.quorumSource] at source
    simp only [Pledge.values] at valid
    simp only [validateBallot, Pledge.statement, Pledge.statementType, Pledge.body,
      Statement.getExternalize, source, Pledge.WellShaped]
    split_ifs with ordered <;> simp [finishValidation, valid, ordered]

def counterOf (b : Option Ballot) : Nat := (b.map (·.counter)).getD 0

def BallotState.HighCovered (d : BallotState) : Prop := counterOf d.hBallot ≤ counterOf d.pBallot

/-- A ballot that is confirmed and fits the current ballot does not exceed the prepared
one. -/
def BallotEvent.Covered : BallotEvent → Prop
  | .setConfirmPrepared before _ hb =>
    (∀ b ∈ before.currentBallot, b.value = hb.value) → hb.counter ≤ counterOf before.pBallot
  | _ => True

def SendsWellShaped (trace : List BallotEvent) : Prop :=
  ∀ before stmt, .sendBallot before stmt ∈ trace → stmt.WellShaped

section Shapes

variable {ctx : DecreeContext} {d : BallotState} {stmt : Pledge}

theorem prepareProblem_iff {B : Ballot} {p q : Option Ballot} {LC HC : Nat} {quorumHash : String}
    (positive : B.counter ≠ 0)
    (prepared : ¬ ((q.isSome && p.isSome && !((compareBallots q p).isLE &&
      !compatibleBallots q p)) = true))
    (lower : LC ≤ HC) (upper : LC ≠ 0 → HC ≤ B.counter) :
    prepareProblem false ⟨some B, p, q, LC, HC, quorumHash⟩ = .ok none ↔ HC ≤ counterOf p := by
  have high : ¬ ((!(HC == 0 || p.any (HC ≤ ·.counter))) = true) ↔ HC ≤ counterOf p := by
    cases p with
    | none => simp [counterOf]
    | some p =>
      simp only [Option.any_some, Bool.not_eq_true', Bool.or_eq_false_iff, beq_eq_false_iff_ne,
        decide_eq_false_iff_not, counterOf, Option.map_some, Option.getD_some]
      omega
  unfold prepareProblem
  dsimp only
  rw [if_neg (by simp), if_neg (by simpa using positive), if_neg prepared, ← high]
  split_ifs with exceeds noCommit noHigh ordered
  · exact iff_of_false (by simp) (not_not.mpr exceeds)
  · exact iff_of_true rfl exceeds
  · exact absurd (by omega) noCommit
  · exact iff_of_true rfl exceeds
  · exact absurd ⟨upper noCommit, lower⟩ ordered

/-- Ballots in order that are in the prepare phase make a statement of the right shape
exactly when the prepared ballot covers the high one. -/
theorem wellShaped_iff_highCovered (inOrder : d.InOrder) (waiting : d.currentPhase = .prepare)
    (built : assembleBallot ctx d = .ok (some stmt)) : stmt.WellShaped ↔ d.HighCovered := by
  obtain ⟨phase, current, p, q, h, c, shared⟩ := d
  obtain rfl : phase = .prepare := waiting
  simp only [assembleBallot, Except.ok.injEq, Option.map_eq_some_iff] at built
  obtain ⟨B, rfl, rfl⟩ := built
  have positive : B.counter ≠ 0 := inOrder.counter B rfl
  have prepared : ¬ ((q.isSome && p.isSome && !((compareBallots q p).isLE &&
      !compatibleBallots q p)) = true) := by
    cases p with
    | none => simp
    | some p =>
      cases q with
      | none => simp
      | some q =>
        obtain ⟨below, other⟩ := inOrder.prepared p q rfl rfl
        simp [compareBallots_some, compare_gt_iff_gt, not_lt.mpr below, other]
  have commit : counterOf c ≤ counterOf h ∧ (counterOf c ≠ 0 → counterOf h ≤ B.counter) := by
    cases c with
    | none => simp [counterOf]
    | some c =>
      obtain ⟨h, rfl, belowHigh, sameHigh⟩ := inOrder.commit c rfl
      obtain ⟨b, current, belowCurrent, sameCurrent⟩ := inOrder.high h rfl
      cases current
      exact ⟨(Ballot.le_iff_counter_le sameHigh).mp belowHigh,
        fun _ => (Ballot.le_iff_counter_le sameCurrent).mp belowCurrent⟩
  exact prepareProblem_iff positive prepared commit.1 commit.2

theorem exists_assembleBallot (ctx : DecreeContext) (d : BallotState) {b : Ballot}
    (waiting : d.currentPhase = .prepare) (current : d.currentBallot = some b) :
    ∃ stmt, assembleBallot ctx d = .ok (some stmt) := by
  obtain ⟨phase, currentBallot, p, q, h, c, shared⟩ := d
  obtain rfl : phase = .prepare := waiting
  obtain rfl : currentBallot = some b := current
  exact ⟨_, rfl⟩

theorem wellShaped_of_moved (inOrder : d.InOrder) (moved : d.currentPhase ≠ .prepare)
    (counted : d.currentPhase = .externalize → counterOf d.cBallot ≠ 0)
    (built : assembleBallot ctx d = .ok (some stmt)) : stmt.WellShaped := by
  obtain ⟨c, commit⟩ := Option.ne_none_iff_exists'.mp (inOrder.committed moved)
  obtain ⟨h, high, belowHigh, sameHigh⟩ := inOrder.commit c commit
  obtain ⟨b, current, belowCurrent, sameCurrent⟩ := inOrder.high h high
  have positive := inOrder.counter b current
  have lower := (Ballot.le_iff_counter_le sameHigh).mp belowHigh
  have upper := (Ballot.le_iff_counter_le sameCurrent).mp belowCurrent
  obtain ⟨phase, currentBallot, p, q, hBallot, cBallot, shared⟩ := d
  subst commit high current
  cases phase with
  | prepare => exact absurd rfl moved
  | confirm =>
    cases p with
    | none => simp [assembleBallot] at built
    | some p =>
      simp only [assembleBallot, Option.map_some, Except.ok.injEq, Option.some.injEq] at built
      rw [← built]
      exact ⟨positive, lower, upper⟩
  | externalize =>
    simp only [assembleBallot, Option.map_some, Except.ok.injEq, Option.some.injEq] at built
    rw [← built]
    exact ⟨Nat.pos_of_ne_zero (counted rfl), lower⟩

end Shapes

section Moves

variable {ctx : DecreeContext} {d : DecreeState}

theorem highCovered_of_zero (high : b.hBallot = some zeroBallot) : b.HighCovered := by
  rw [BallotState.HighCovered, high]
  exact Nat.zero_le _

theorem highCovered_replaceCurrent (covered : b.HighCovered) (next : Ballot) :
    (b.replaceCurrent next).HighCovered := by
  rcases b.replaceCurrent_cases next with same | ⟨-, cleared⟩
  · rw [same]
    exact covered
  · rw [cleared]
    exact highCovered_of_zero rfl

theorem highCovered_acceptPrepared (covered : b.HighCovered) (cand : Ballot) :
    (b.acceptPrepared cand).1.HighCovered := by
  have raised : (b.setAcceptPrepared cand).1.HighCovered := by
    have higher : ∀ p, b.pBallot = some p → p < cand → counterOf b.pBallot ≤ cand.counter := by
      intro p pCase above
      have counters := Ballot.lt_iff.mp above
      simp only [pCase, counterOf, Option.map_some, Option.getD_some]
      omega
    unfold BallotState.HighCovered at covered ⊢
    rcases b.setAcceptPrepared_cases cand with same | ⟨same, above⟩ | ⟨p, same, -⟩ |
      ⟨p, same, pCase, above, -⟩
    · rwa [same]
    · rw [same]
      cases pCase : b.pBallot with
      | none =>
        rw [pCase] at covered
        exact covered.trans (Nat.zero_le _)
      | some p => exact covered.trans (higher p pCase (above p pCase).1)
    · rwa [same]
    · rw [same]
      exact covered.trans (higher p pCase above)
  unfold BallotState.acceptPrepared
  dsimp only
  split_ifs
  · unfold BallotState.resetC
    split_ifs
    · exact highCovered_of_zero rfl
    · exact raised
  · exact raised

theorem highCovered_confirm {stmt : Pledge} {cb : Option Ballot} {hb : Ballot}
    (found : findConfirmPrepared ctx d stmt = .ok (some (cb, hb)))
    (covered : d.ballot.HighCovered) :
    (BallotEvent.setConfirmPrepared d.ballot cb hb).Covered →
      ((d.ballot.confirmPrepared cb hb).1.catchUp hb).HighCovered := by
  intro coveredNew
  by_cases fits : ∀ b, d.ballot.currentBallot = some b → b.value = hb.value
  · obtain ⟨shared, b, -, caughtUp⟩ := confirmPrepared_of_fits found fits
    rw [caughtUp]
    exact coveredNew fits
  · push Not at fits
    obtain ⟨b, current, other⟩ := fits
    rw [BallotState.confirmPrepared_of_other current other]
    unfold BallotState.catchUp
    split_ifs
    · exact highCovered_replaceCurrent covered hb
    · exact covered

theorem BallotMove.highCovered (move : BallotMove ctx d events after)
    (covered : d.ballot.currentPhase = .prepare → d.ballot.HighCovered)
    (coveredNew : ∀ event ∈ events, event.Covered) (waiting : after.currentPhase = .prepare) :
    after.HighCovered := by
  cases move with
  | @accept cands cand running found =>
    exact highCovered_acceptPrepared (covered (by simpa using waiting)) cand
  | confirm found =>
    have waits := (findConfirmPrepared_spec found).1
    exact highCovered_confirm found (covered waits) (coveredNew _ (.head _))
  | recommit phase found => simp [phase] at waiting
  | externalize found => simp at waiting
  | @bump b running fits forward =>
    exact highCovered_replaceCurrent (covered (by simpa using waiting)) b

theorem BallotMove.counted (move : BallotMove ctx d events after)
    (externalized : after.currentPhase = .externalize) : counterOf after.cBallot ≠ 0 := by
  cases move with
  | accept running found => exact absurd (by simpa using externalized) running
  | confirm found => simp [(findConfirmPrepared_spec found).1] at externalized
  | recommit phase found => simp [phase] at externalized
  | @externalize stmt cb hb found =>
    have high : (d.ballot.holdCommit cb hb false).hBallot = some hb := rfl
    obtain ⟨b, caughtUp, -⟩ := BallotState.catchUp_high high
    rw [caughtUp]
    exact (findConfirmCommit_spec found).2.2.1
  | bump running fits forward => exact absurd (by simpa using externalized) running

theorem covered_catchUpEvents (b : BallotState) (hb : Ballot) :
    ∀ event ∈ b.catchUpEvents hb, event.Covered := by
  intro event mem
  rw [BallotState.eq_of_mem_catchUpEvents mem]
  trivial

theorem BallotMove.wellShaped_iff (move : BallotMove ctx d events after) (inOrder : after.InOrder)
    (covered : d.ballot.currentPhase = .prepare → d.ballot.HighCovered) :
    (∀ stmt, assembleBallot ctx after = .ok (some stmt) → stmt.WellShaped) ↔
      ∀ event ∈ events, event.Covered := by
  constructor
  · intro shaped
    cases move with
    | accept running found => simp [BallotEvent.Covered]
    | @confirm stmt cb hb found =>
      refine List.forall_mem_cons.mpr ⟨?_, ?_⟩
      · intro fits
        have waiting := (findConfirmPrepared_spec found).1
        obtain ⟨shared, b, -, caughtUp⟩ := confirmPrepared_of_fits found fits
        rw [caughtUp] at shaped inOrder
        obtain ⟨sent, built⟩ := exists_assembleBallot ctx
          ({ d.ballot with
            currentBallot := some b, hBallot := some hb, cBallot := cb, hIsC := shared }) waiting rfl
        exact (wellShaped_iff_highCovered inOrder waiting built).mp (shaped sent built)
      · exact covered_catchUpEvents _ hb
    | @recommit stmt cb hb phase found =>
      exact List.forall_mem_cons.mpr ⟨trivial, covered_catchUpEvents _ hb⟩
    | @externalize stmt cb hb found => exact covered_catchUpEvents _ hb
    | bump running fits forward => simp [BallotEvent.Covered]
  · intro coveredNew stmt built
    by_cases waiting : after.currentPhase = .prepare
    · exact (wellShaped_iff_highCovered inOrder waiting built).mpr
        (move.highCovered covered coveredNew waiting)
    · exact wellShaped_of_moved inOrder waiting move.counted built

end Moves

section Histories

variable {ctx : DecreeContext} {d : DecreeState}

theorem sendsWellShaped_append (early late : List BallotEvent) :
    SendsWellShaped (early ++ late) ↔ SendsWellShaped early ∧ SendsWellShaped late := by
  simp only [SendsWellShaped, List.mem_append, or_imp, forall_and]

theorem sendsWellShaped_sentEvents (after : BallotState) :
    SendsWellShaped (sentEvents ctx after) ↔
      ∀ stmt, assembleBallot ctx after = .ok (some stmt) → stmt.WellShaped := by
  constructor
  · exact fun sends stmt built => sends after stmt (mem_sentEvents.mpr ⟨stmt, built, rfl⟩)
  · intro shaped before stmt mem
    obtain ⟨sent, built, same⟩ := mem_sentEvents.mp mem
    cases same
    exact shaped stmt built

theorem Confirming.sendsWellShaped {trace : List BallotEvent} (confirming : Confirming ctx trace) :
    SendsWellShaped trace := by
  intro before stmt mem
  obtain ⟨inOrder, phase, built⟩ := confirming before stmt mem
  exact wellShaped_of_moved inOrder (by simp [phase]) (by simp [phase]) built

theorem covered_sentEvents (after : BallotState) :
    ∀ event ∈ sentEvents ctx after, event.Covered := by
  intro event mem
  obtain ⟨stmt, -, rfl⟩ := mem_sentEvents.mp mem
  trivial

structure Shaped (trace : List BallotEvent) (d : BallotState) : Prop where
  inOrder : d.InOrder
  highCovered : (∀ event ∈ trace, event.Covered) → d.currentPhase = .prepare → d.HighCovered
  sends : SendsWellShaped trace ↔ ∀ event ∈ trace, event.Covered

theorem BallotChange.shaped (change : BallotChange ctx d events after) (inOrder : d.ballot.InOrder)
    (covered : d.ballot.currentPhase = .prepare → d.ballot.HighCovered) :
    ((∀ event ∈ events, event.Covered) → after.currentPhase = .prepare → after.HighCovered) ∧
      (SendsWellShaped events ↔ ∀ event ∈ events, event.Covered) := by
  cases change with
  | still => exact ⟨fun _ => covered, by simp [SendsWellShaped]⟩
  | limit => exact ⟨fun _ => covered, by simp [SendsWellShaped, BallotEvent.Covered]⟩
  | idle move =>
    have shaped : SendsWellShaped events := move.confirming.sendsWellShaped
    refine ⟨fun _ => covered, iff_of_true shaped ?_⟩
    refine (move.wellShaped_iff inOrder covered).mp ?_
    intro stmt built
    by_cases waiting : d.ballot.currentPhase = .prepare
    · exact (wellShaped_iff_highCovered inOrder waiting built).mpr (covered waiting)
    · exact wellShaped_of_moved inOrder waiting move.counted built
  | @move events after move inOrderAfter =>
    have coveredSent := @covered_sentEvents ctx after
    refine ⟨?_, ?_⟩
    · intro coveredNew
      rw [List.forall_mem_append] at coveredNew
      exact move.highCovered covered coveredNew.1
    · rw [sendsWellShaped_append, and_iff_right move.confirming.sendsWellShaped,
        sendsWellShaped_sentEvents, move.wellShaped_iff inOrderAfter covered,
        List.forall_mem_append, and_iff_left coveredSent]
  | @enter stmt cb hb waiting found inOrderAfter =>
    have phase := phase_entry d.ballot cb hb
    obtain ⟨later, events, confirming⟩ := @entry_events ctx d.ballot cb hb
    refine ⟨fun _ waits => by simp [phase] at waits, iff_of_true ?_ ?_⟩
    · rw [sendsWellShaped_append, sendsWellShaped_sentEvents]
      refine ⟨(confirming_entryEvents d.ballot cb hb : Confirming ctx _).sendsWellShaped, ?_⟩
      exact fun stmt built =>
        wellShaped_of_moved inOrderAfter (by simp [phase]) (by simp [phase]) built
    · rw [events]
      refine List.forall_mem_cons.mpr ⟨trivial, ?_⟩
      intro event mem
      rcases (confirming event mem).2 with ⟨next, same⟩ | ⟨sent, same⟩ <;> rw [same] <;> trivial

theorem shapedHistory (ctx : DecreeContext) : HistoryInvariant ctx Shaped where
  start := ⟨inOrder_newDecree ctx, fun _ _ => Nat.zero_le _, by simp [SendsWellShaped]⟩
  change d events after change := by
    rintro ⟨inOrder, highCovered, sends⟩
    refine ⟨change.inOrder inOrder, ?_, ?_⟩
    · intro covered
      rw [List.forall_mem_append] at covered
      exact (change.shaped inOrder (highCovered covered.1)).1 covered.2
    · rw [sendsWellShaped_append, List.forall_mem_append, sends]
      exact and_congr_right fun covered => (change.shaped inOrder (highCovered covered)).2

end Histories

/-- The statements that a decree builds have the shape that its peers check, as long as no
ballot is confirmed that exceeds the prepared one, and after calls that have ended
normally only then. -/
theorem runTurns_sendsWellShaped (ctx : DecreeContext) (turns : List Turn) :
    ((∀ event ∈ (runTurns ctx turns (newDecree ctx)).state.trace, event.Covered) →
        SendsWellShaped (runTurns ctx turns (newDecree ctx)).state.trace) ∧
      ∀ d, runTurns ctx turns (newDecree ctx) = .done () d → SendsWellShaped d.trace →
        ∀ event ∈ d.trace, event.Covered := by
  have leads := runTurns_run (fun _ mem => mem : ∀ turn ∈ turns, turn ∈ turns) _
    (soundDecree_newDecree ctx)
  cases ended : runTurns ctx turns (newDecree ctx) with
  | done _ d =>
    have shaped := (shapedHistory ctx).holds ended
    refine ⟨shaped.sends.mpr, ?_⟩
    rintro _ ⟨⟩
    exact shaped.sends.mp
  | abort fault d =>
    refine ⟨?_, fun _ => nofun⟩
    unfold Holds at leads
    rw [ended] at leads
    obtain ⟨last, run, rest, trace, confirming⟩ := leads
    simp only [Outcome.state, trace]
    intro covered
    rw [List.forall_mem_append] at covered
    exact (sendsWellShaped_append _ _).mpr
      ⟨((shapedHistory ctx).of_run run.decreeRun).sends.mpr covered.1, confirming.sendsWellShaped⟩

private def nestedQuorum : Quorum := .mk (2 / 3) ["b", "c"] [.mk 1 ["a"] []]

private def nestedContext : DecreeContext :=
  .plain 7 "n" nestedQuorum (fun _ => some nestedQuorum) (fun _ => 0)

private def prepareTurn (nodeID : String) (B : Ballot) (P : Option Ballot) : Turn where
  call := .recv (some ((Pledge.prepare ⟨some B, P, none, 0, 0, nodeID⟩).statement nodeID 7))
  world := .plain
  fuel := 12

private def nestedTurns : List Turn :=
  [prepareTurn "b" ⟨1, "v"⟩ none, prepareTurn "a" ⟨2, "v"⟩ none,
    prepareTurn "b" ⟨1, "v"⟩ (some ⟨2, "v"⟩)]

private def overreached : DecreeState :=
  (runTurns nestedContext nestedTurns (newDecree nestedContext)).state

/-- The nested quorum of one node counts as satisfied while that node is missing, so the
second ballot is ratified by b alone, but not accepted. -/
theorem runTurns_sends_misshaped :
    runTurns nestedContext nestedTurns (newDecree nestedContext) = .done () overreached ∧
      .sendBallot overreached.ballot
          (.prepare ⟨some ⟨2, "v"⟩, some ⟨1, "v"⟩, none, 1, 2, nestedContext.quorumHash⟩) ∈
        overreached.trace ∧
      ¬ (Pledge.prepare ⟨some ⟨2, "v"⟩, some ⟨1, "v"⟩, none, 1, 2,
        nestedContext.quorumHash⟩).WellShaped := by
  refine ⟨Outcome.eq_done ?_, ?_, ?_⟩ <;> decide +kernel

end Ultiledger
