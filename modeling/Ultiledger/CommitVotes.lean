import Ultiledger.BallotHistory
import Ultiledger.BallotSafety

/-! # Votes to commit that are forgotten

`confirmPrepared` hands nil to `setConfirmPrepared` when there is a commit ballot
already, and nil replaces it.
-/

namespace Ultiledger

open AbortingProgram Program EventHistory

namespace BallotState

def CommitSet (d : BallotState) : Prop := ∃ c ∈ d.cBallot, c ≠ zeroBallot

instance (d : BallotState) : Decidable d.CommitSet := by
  unfold CommitSet
  infer_instance

/-- A ballot accepted as prepared is at least the high ballot and incompatible with it. -/
def ContestedBy (d after : BallotState) : Prop :=
  ∃ h ∈ d.hBallot, (∃ p ∈ after.pBallot, Contests h p) ∨ ∃ q ∈ after.qBallot, Contests h q

instance (d after : BallotState) : Decidable (d.ContestedBy after) := by
  unfold ContestedBy
  infer_instance

end BallotState

def BallotEvent.confirmsHigher : BallotEvent → Prop
  | .setConfirmPrepared before _ hb => ∀ h ∈ before.hBallot, h < hb ∧ h.value = hb.value
  | _ => False

instance : (event : BallotEvent) → Decidable event.confirmsHigher
  | .setConfirmPrepared .. | .setAcceptPrepared .. | .setAcceptCommit .. | .updateBallot ..
  | .sendBallot .. | .stepLimit .. => by unfold BallotEvent.confirmsHigher; infer_instance

/-- In the prepare phase, a commit ballot that is set stays set unless a prepared ballot
contests the high ballot, and it stays set if a higher ballot of the same value is
confirmed. -/
def KeepsVote (event : BallotEvent) (after : BallotState) : Prop :=
  event.before.currentPhase = .prepare → after.currentPhase = .prepare →
    event.before.CommitSet →
      (after.CommitSet ∨ event.before.ContestedBy after) ∧
        (event.confirmsHigher → after.CommitSet)

instance (event : BallotEvent) (after : BallotState) : Decidable (KeepsVote event after) := by
  unfold KeepsVote
  infer_instance

/-- A ballot is confirmed while a commit ballot is set, and it has the value of the
current ballot or is above it. -/
def BallotEvent.Forgets : BallotEvent → Prop
  | .setConfirmPrepared before _ hb =>
    before.CommitSet ∧ ∃ b ∈ before.currentBallot, b.value = hb.value ∨ b < hb
  | _ => False

instance : (event : BallotEvent) → Decidable event.Forgets
  | .setConfirmPrepared .. | .setAcceptPrepared .. | .setAcceptCommit .. | .updateBallot ..
  | .sendBallot .. | .stepLimit .. => by unfold BallotEvent.Forgets; infer_instance

structure Steadfast (d : BallotState) : Prop where
  inOrder : d.InOrder
  uncontested : d.CommitSet → d.Uncontested

section Ballots

variable {d after : BallotState} {event : BallotEvent}

theorem keepsVote_of_kept (kept : event.before.CommitSet → after.CommitSet) :
    KeepsVote event after :=
  fun _ _ set => ⟨.inl (kept set), fun _ => kept set⟩

theorem keepsVote_of_moved (moved : after.currentPhase ≠ .prepare) : KeepsVote event after :=
  fun _ waiting => absurd waiting moved

theorem Steadfast.ballots (steadfast : Steadfast d) (set : d.CommitSet) :
    ∃ b h c, d.currentBallot = some b ∧ d.hBallot = some h ∧ d.cBallot = some c ∧
      c.value = h.value ∧ h.value = b.value := by
  obtain ⟨c, commit, -⟩ := set
  obtain ⟨h, high, -, sameHigh⟩ := steadfast.inOrder.commit c commit
  obtain ⟨b, current, -, sameCurrent⟩ := steadfast.inOrder.high h high
  exact ⟨b, h, c, current, high, commit, sameHigh, sameCurrent⟩

theorem Steadfast.not_keepsVote (steadfast : Steadfast d) (finds : event.before = d)
    (set : d.CommitSet) (lost : ¬ after.CommitSet) (waiting : d.currentPhase = .prepare)
    (waits : after.currentPhase = .prepare) (sameP : after.pBallot = d.pBallot)
    (sameQ : after.qBallot = d.qBallot) : ¬ KeepsVote event after := by
  subst finds
  intro keeps
  rcases (keeps waiting waits set).1 with stays | ⟨h, high, contested⟩
  · exact lost stays
  · obtain ⟨c, commit, -⟩ := id set
    have committed : event.before.cBallot ≠ none := by
      rw [Option.mem_def.mp commit]
      simp
    obtain ⟨pFree, qFree⟩ := steadfast.uncontested set waiting h high committed
    rw [sameP, sameQ] at contested
    rcases contested with ⟨p, pCase, contests⟩ | ⟨q, qCase, contests⟩
    · exact pFree p pCase contests
    · exact qFree q qCase contests

theorem not_commitSet_of_zero (inOrder : d.InOrder) (high : d.hBallot = some zeroBallot) :
    ¬ d.CommitSet := by
  rintro ⟨c, commit, set⟩
  obtain ⟨h, sameHigh, below, -⟩ := inOrder.commit c commit
  cases high.symm.trans sameHigh
  exact set (le_antisymm below (BallotState.zeroBallot_le c))

theorem Steadfast.replaceCurrent {b : Ballot} (steadfast : Steadfast d)
    (inOrder : (d.replaceCurrent b).InOrder) : Steadfast (d.replaceCurrent b) := by
  refine ⟨inOrder, ?_⟩
  rcases d.replaceCurrent_cases b with same | ⟨-, cleared⟩
  · rw [same]
    exact steadfast.uncontested
  · intro set
    rw [cleared] at set inOrder
    exact absurd set (not_commitSet_of_zero inOrder rfl)

theorem steadfast_acceptPrepared {cand : Ballot} (inOrder : (d.acceptPrepared cand).1.InOrder) :
    Steadfast (d.acceptPrepared cand).1 := by
  refine ⟨inOrder, ?_⟩
  unfold BallotState.acceptPrepared
  dsimp only
  split_ifs with loses
  · rintro ⟨c, commit, set⟩
    exact absurd (Option.some.inj commit).symm set
  · intro _
    exact (BallotState.uncontested_iff _).mpr (by simpa using loses)

theorem keepsVote_acceptPrepared (d : BallotState) (cand : Ballot) :
    KeepsVote (.setAcceptPrepared d cand) (d.acceptPrepared cand).1 := by
  have sameHigh : (d.setAcceptPrepared cand).1.hBallot = d.hBallot := by
    rcases d.setAcceptPrepared_cases cand with same | ⟨same, -⟩ | ⟨p, same, -⟩ | ⟨p, same, -⟩ <;>
      rw [same]
  have sameCommit := (d.setAcceptPrepared_keeps cand).2
  unfold BallotState.acceptPrepared
  dsimp only
  split_ifs with loses
  · intro waiting _ _
    refine ⟨.inr ?_, fun confirms => confirms.elim⟩
    simp only [BallotState.losesCommit, Bool.and_eq_true, Bool.or_eq_true, sameHigh] at loses
    obtain ⟨⟨⟨-, hasHigh⟩, -⟩, contested⟩ := loses
    obtain ⟨h, high⟩ := Option.isSome_iff_exists.mp hasHigh
    refine ⟨h, high, ?_⟩
    rw [high] at contested
    rcases contested with ⟨hasP, above⟩ | ⟨hasQ, above⟩
    · obtain ⟨p, pCase⟩ := Option.isSome_iff_exists.mp hasP
      rw [pCase, lessAndIncompatibleBallots_some] at above
      exact .inl ⟨p, pCase, above⟩
    · obtain ⟨q, qCase⟩ := Option.isSome_iff_exists.mp hasQ
      rw [qCase, lessAndIncompatibleBallots_some] at above
      exact .inr ⟨q, qCase, above⟩
  · apply keepsVote_of_kept
    rintro ⟨c, commit, set⟩
    exact ⟨c, sameCommit.trans commit, set⟩

theorem next_catchUpEvents (d : BallotState) (b : Ballot) :
    next BallotEvent.before (d.catchUp b) (d.catchUpEvents b) = d := by
  unfold BallotState.catchUp BallotState.catchUpEvents
  split_ifs <;> rfl

theorem not_forgets_catchUpEvents (d : BallotState) (b : Ballot) :
    ∀ event ∈ d.catchUpEvents b, ¬ event.Forgets := by
  intro event mem
  rw [BallotState.eq_of_mem_catchUpEvents mem]
  exact fun forgets => forgets

theorem along_catchUpEvents {b : Ballot} (kept : d.CommitSet → (d.catchUp b).CommitSet) :
    Along BallotEvent.before KeepsVote (d.catchUp b) (d.catchUpEvents b) := by
  unfold BallotState.catchUpEvents
  split_ifs
  · exact ⟨keepsVote_of_kept kept, trivial⟩
  · trivial

theorem along_sentEvents (ctx : DecreeContext) (after : BallotState) :
    Along BallotEvent.before KeepsVote after (sentEvents ctx after) := by
  unfold sentEvents
  split
  · exact ⟨keepsVote_of_kept id, trivial⟩
  · trivial

theorem not_forgets_sentEvents (ctx : DecreeContext) (after : BallotState) :
    ∀ event ∈ sentEvents ctx after, ¬ event.Forgets := by
  intro event mem
  obtain ⟨stmt, -, rfl⟩ := mem_sentEvents.mp mem
  exact fun forgets => forgets

end Ballots

section Confirmations

variable {ctx : DecreeContext} {d : DecreeState} {stmt : Pledge} {cb : Option Ballot}
  {hb : Ballot} (found : findConfirmPrepared ctx d stmt = .ok (some (cb, hb)))

include found

theorem steadfast_confirm (steadfast : Steadfast d.ballot)
    (inOrder : ((d.ballot.confirmPrepared cb hb).1.catchUp hb).InOrder) :
    Steadfast ((d.ballot.confirmPrepared cb hb).1.catchUp hb) := by
  by_cases fits : ∀ b, d.ballot.currentBallot = some b → b.value = hb.value
  · obtain ⟨-, -, commit⟩ := findConfirmPrepared_spec found
    obtain ⟨shared, b, -, caughtUp⟩ := confirmPrepared_of_fits found fits
    rw [caughtUp] at inOrder ⊢
    refine ⟨inOrder, ?_⟩
    rintro ⟨c, cCase, -⟩ _ h high _
    cases high
    exact (commit c cCase).2.2.2
  · push Not at fits
    obtain ⟨b, current, other⟩ := fits
    rw [BallotState.confirmPrepared_of_other current other] at inOrder ⊢
    unfold BallotState.catchUp at inOrder ⊢
    split_ifs at inOrder ⊢ with behind
    · exact steadfast.replaceCurrent inOrder
    · exact steadfast

theorem along_confirm_of_fits (steadfast : Steadfast d.ballot)
    (fits : ∀ b, d.ballot.currentBallot = some b → b.value = hb.value) :
    Along BallotEvent.before KeepsVote ((d.ballot.confirmPrepared cb hb).1.catchUp hb)
        (.setConfirmPrepared d.ballot cb hb ::
          (d.ballot.confirmPrepared cb hb).1.catchUpEvents hb) ↔
      ¬ (BallotEvent.setConfirmPrepared d.ballot cb hb).Forgets := by
  obtain ⟨waiting, -, commit⟩ := findConfirmPrepared_spec found
  obtain ⟨shared, b, confirmed, caughtUp⟩ := confirmPrepared_of_fits found fits
  have catchesUp := @along_catchUpEvents (d.ballot.confirmPrepared cb hb).1 hb (by
    rw [caughtUp, confirmed]
    exact id)
  rw [Along, next_catchUpEvents, and_iff_left catchesUp]
  by_cases set : d.ballot.CommitSet
  · have noCandidate : cb = none := by
      obtain ⟨c, cCase, -⟩ := id set
      by_contra candidate
      obtain ⟨c', same⟩ := Option.ne_none_iff_exists'.mp candidate
      rw [(commit c' same).1] at cCase
      simp at cCase
    obtain ⟨b', h, c, current, -⟩ := steadfast.ballots set
    have forgets : (BallotEvent.setConfirmPrepared d.ballot cb hb).Forgets :=
      ⟨set, b', current, .inl (fits b' current)⟩
    refine iff_of_false ?_ (not_not.mpr forgets)
    apply steadfast.not_keepsVote rfl set
    · rintro ⟨c', lost, -⟩
      rw [confirmed] at lost
      simp [noCandidate] at lost
    · exact waiting
    · simpa using waiting
    · rw [confirmed]
    · rw [confirmed]
  · refine iff_of_true (keepsVote_of_kept fun kept => absurd kept set) ?_
    exact fun forgets => set forgets.1

theorem along_confirm_of_other (steadfast : Steadfast d.ballot) {b : Ballot}
    (current : d.ballot.currentBallot = some b) (other : b.value ≠ hb.value)
    (inOrder : (d.ballot.catchUp hb).InOrder) :
    Along BallotEvent.before KeepsVote (d.ballot.catchUp hb) (d.ballot.catchUpEvents hb) ↔
      ¬ (BallotEvent.setConfirmPrepared d.ballot cb hb).Forgets := by
  have waiting := (findConfirmPrepared_spec found).1
  by_cases set : d.ballot.CommitSet
  · have behind_iff : (d.ballot.currentBallot.isNone ∨
        compareBallots d.ballot.currentBallot (some hb) = .lt) ↔ b < hb := by
      rw [BallotState.behind_iff, current]
      simp
    by_cases behind : b < hb
    · obtain ⟨b', h, c, current', high, -, -, sameCurrent⟩ := steadfast.ballots set
      cases current.symm.trans current'
      have forgets : (BallotEvent.setConfirmPrepared d.ballot cb hb).Forgets :=
        ⟨set, b, current, .inr behind⟩
      refine iff_of_false ?_ (not_not.mpr forgets)
      rw [BallotState.catchUp, if_pos (behind_iff.mpr behind)] at inOrder ⊢
      rw [BallotState.catchUpEvents, if_pos (behind_iff.mpr behind)]
      rintro ⟨keeps, -⟩
      rcases d.ballot.replaceCurrent_cases hb with same | ⟨-, cleared⟩
      · rw [same] at inOrder
        obtain ⟨next, nextCase, -, sameNext⟩ := inOrder.high h high
        cases nextCase
        exact other (sameCurrent.symm.trans sameNext)
      · rw [cleared] at inOrder keeps
        exact steadfast.not_keepsVote rfl set (not_commitSet_of_zero inOrder rfl) waiting
          waiting rfl rfl keeps
    · rw [BallotState.catchUpEvents, if_neg fun needed => behind (behind_iff.mp needed)]
      refine iff_of_true trivial ?_
      rintro ⟨-, b', current', fits | above⟩
      · cases current.symm.trans current'
        exact other fits
      · cases current.symm.trans current'
        exact behind above
  · refine iff_of_true (along_catchUpEvents fun kept => absurd kept set) ?_
    exact fun forgets => set forgets.1

theorem along_confirm (steadfast : Steadfast d.ballot)
    (inOrder : ((d.ballot.confirmPrepared cb hb).1.catchUp hb).InOrder) :
    Along BallotEvent.before KeepsVote ((d.ballot.confirmPrepared cb hb).1.catchUp hb)
        (.setConfirmPrepared d.ballot cb hb ::
          (d.ballot.confirmPrepared cb hb).1.catchUpEvents hb) ↔
      ¬ (BallotEvent.setConfirmPrepared d.ballot cb hb).Forgets := by
  by_cases fits : ∀ b, d.ballot.currentBallot = some b → b.value = hb.value
  · exact along_confirm_of_fits found steadfast fits
  · push Not at fits
    obtain ⟨b, current, other⟩ := fits
    rw [Along, next_catchUpEvents]
    rw [BallotState.confirmPrepared_of_other current other] at inOrder ⊢
    have kept : KeepsVote (.setConfirmPrepared d.ballot cb hb) d.ballot := keepsVote_of_kept id
    rw [and_iff_right kept]
    exact along_confirm_of_other found steadfast current other inOrder

end Confirmations

section Moves

variable {ctx : DecreeContext} {d : DecreeState}

variable {events : List BallotEvent} {after : BallotState}

theorem along_of_moved (moved : after.currentPhase ≠ .prepare)
    (later : ∀ event ∈ events.tail, event.before.currentPhase ≠ .prepare) :
    Along BallotEvent.before KeepsVote after events := by
  induction events with
  | nil => trivial
  | cons event rest ih =>
    have there := next_mem (fun d : BallotState => d.currentPhase ≠ .prepare) moved later
    refine ⟨keepsVote_of_moved there, ih fun event mem => ?_⟩
    exact later event (List.mem_of_mem_tail mem)

theorem BallotMove.steadfast (move : BallotMove ctx d events after)
    (steadfast : Steadfast d.ballot) (inOrder : after.InOrder) : Steadfast after := by
  cases move with
  | accept running found => exact steadfast_acceptPrepared inOrder
  | confirm found => exact steadfast_confirm found steadfast inOrder
  | recommit phase found =>
    exact ⟨inOrder, fun _ waiting => absurd waiting (by simp [phase])⟩
  | externalize found => exact ⟨inOrder, fun _ waiting => absurd waiting (by simp)⟩
  | bump running fits forward => exact steadfast.replaceCurrent inOrder

theorem BallotMove.along_iff (move : BallotMove ctx d events after)
    (steadfast : Steadfast d.ballot) (inOrder : after.InOrder) :
    Along BallotEvent.before KeepsVote after events ↔ ∀ event ∈ events, ¬ event.Forgets := by
  cases move with
  | @accept cands cand running found =>
    refine iff_of_true ⟨keepsVote_acceptPrepared d.ballot cand, trivial⟩ ?_
    simp [BallotEvent.Forgets]
  | @confirm stmt cb hb found =>
    rw [along_confirm found steadfast inOrder, List.forall_mem_cons,
      and_iff_left (not_forgets_catchUpEvents _ _)]
  | @recommit stmt cb hb phase found =>
    refine iff_of_true (along_of_moved (by simp [phase]) ?_) ?_
    · intro event mem
      rw [BallotState.eq_of_mem_catchUpEvents mem]
      simp [BallotEvent.before, phase]
    · rw [List.forall_mem_cons]
      exact ⟨fun forgets => forgets, not_forgets_catchUpEvents _ _⟩
  | @externalize stmt cb hb found =>
    refine iff_of_true (along_of_moved (by simp) ?_) (not_forgets_catchUpEvents _ _)
    unfold BallotState.catchUpEvents
    split_ifs <;> simp
  | @bump b running fits forward =>
    refine iff_of_true ⟨keepsVote_of_kept ?_, trivial⟩ (by simp [BallotEvent.Forgets])
    intro set
    obtain ⟨old, h, c, current, high, commit, sameHigh, -⟩ := steadfast.ballots set
    have same := fits c (by simp [current]) commit
    rw [d.ballot.replaceCurrent_of_compatible]
    · exact set
    · intro other otherHigh
      rw [← Option.some.inj (high.symm.trans otherHigh), ← sameHigh, same]

theorem BallotChange.steadfast (change : BallotChange ctx d events after)
    (steadfast : Steadfast d.ballot) : Steadfast after := by
  cases change with
  | still => exact steadfast
  | limit => exact steadfast
  | idle move => exact steadfast
  | move move inOrder => exact move.steadfast steadfast inOrder
  | enter waiting found inOrder =>
    exact ⟨inOrder, fun _ waiting => absurd waiting (by simp [phase_entry])⟩

theorem BallotChange.along_iff (change : BallotChange ctx d events after)
    (steadfast : Steadfast d.ballot) :
    Along BallotEvent.before KeepsVote after events ↔ ∀ event ∈ events, ¬ event.Forgets := by
  cases change with
  | still => exact iff_of_true trivial (by simp)
  | limit =>
    exact iff_of_true ⟨keepsVote_of_kept id, trivial⟩ (by simp [BallotEvent.Forgets])
  | idle move => exact move.along_iff steadfast steadfast.inOrder
  | @move events after move inOrder =>
    rw [along_append, next_sentEvents, move.along_iff steadfast inOrder,
      and_iff_left (along_sentEvents ctx after), List.forall_mem_append,
      and_iff_left (not_forgets_sentEvents ctx after)]
  | @enter stmt cb hb waiting found inOrder =>
    obtain ⟨later, events, confirming⟩ := @entry_events ctx d.ballot cb hb
    rw [events]
    refine iff_of_true (along_of_moved (by simp [phase_entry]) ?_) ?_
    · intro event mem
      simp [(confirming event mem).1]
    · rw [List.forall_mem_cons]
      refine ⟨fun forgets => forgets, ?_⟩
      intro event mem
      rcases (confirming event mem).2 with ⟨next, same⟩ | ⟨sent, same⟩ <;> rw [same] <;>
        exact fun forgets => forgets

end Moves

theorem votesKept (ctx : DecreeContext) : HistoryInvariant ctx fun trace d => Steadfast d ∧
    (Along BallotEvent.before KeepsVote d trace ↔ ∀ event ∈ trace, ¬ event.Forgets) where
  start := by
    refine ⟨⟨inOrder_newDecree ctx, ?_⟩, iff_of_true trivial (by simp)⟩
    simp [BallotState.CommitSet, newDecree]
  change d events after change := by
    rintro ⟨steadfast, kept⟩
    refine ⟨change.steadfast steadfast, ?_⟩
    have before : Along BallotEvent.before KeepsVote (next BallotEvent.before after events) d.trace ↔
        Along BallotEvent.before KeepsVote d.ballot d.trace := by
      rcases change.begins with same | ⟨moved, begun⟩
      · rw [same]
      · exact along_congr _ fun event =>
          iff_of_true (keepsVote_of_moved begun) (keepsVote_of_moved moved)
    rw [along_append, before, kept, change.along_iff steadfast, List.forall_mem_append]

/-- The vote to commit is forgotten exactly by a ballot that is confirmed while it is set,
with the value of the current ballot or above it. -/
theorem runTurns_keepsVotes_iff (ctx : DecreeContext) {turns : List Turn} {d : DecreeState}
    (ended : runTurns ctx turns (newDecree ctx) = .done () d) :
    Along BallotEvent.before KeepsVote d.ballot d.trace ↔ ∀ event ∈ d.trace, ¬ event.Forgets :=
  ((votesKept ctx).holds ended).2

private def commitQuorum : Quorum := .mk (1 / 2) ["a", "b"] []

private def commitContext : DecreeContext :=
  .plain 7 "n" commitQuorum (fun _ => some commitQuorum) (fun _ => 0)

private def preparedTurn (counter : Nat) : Turn where
  call := .recv (some ((Pledge.prepare
    ⟨some ⟨counter, "v"⟩, some ⟨counter, "v"⟩, none, 0, 0, "a"⟩).statement "a" 7))
  world := .plain
  fuel := 12

private def onceConfirmed : DecreeState :=
  (runTurns commitContext [preparedTurn 1] (newDecree commitContext)).state

private def twiceConfirmed : DecreeState :=
  (runTurns commitContext [preparedTurn 1, preparedTurn 2] (newDecree commitContext)).state

/-- The first confirmed ballot sets the commit ballot. -/
theorem runTurns_keepsVotes_once : onceConfirmed.ballot.cBallot = some ⟨1, "v"⟩ ∧
    Along BallotEvent.before KeepsVote onceConfirmed.ballot onceConfirmed.trace := by
  have ended : runTurns commitContext [preparedTurn 1] (newDecree commitContext) =
      .done () onceConfirmed := Outcome.eq_done (by decide +kernel)
  refine ⟨by decide +kernel, (runTurns_keepsVotes_iff commitContext ended).mpr ?_⟩
  decide +kernel

/-- A higher ballot of the same value is confirmed, nothing contests it, and the commit
ballot is nil. -/
theorem runTurns_forgets_vote :
    runTurns commitContext [preparedTurn 1, preparedTurn 2] (newDecree commitContext) =
        .done () twiceConfirmed ∧
      onceConfirmed.ballot.cBallot = some ⟨1, "v"⟩ ∧
      twiceConfirmed.ballot = ⟨.prepare, some ⟨2, "v"⟩, some ⟨2, "v"⟩, none, some ⟨2, "v"⟩, none,
        false⟩ ∧
      ¬ Along BallotEvent.before KeepsVote twiceConfirmed.ballot twiceConfirmed.trace := by
  refine ⟨Outcome.eq_done ?_, ?_, ?_, ?_⟩ <;> decide +kernel

end Ultiledger
