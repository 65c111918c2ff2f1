import Ultiledger.BallotRuns
import Ultiledger.UsableStatements

/-! # When the ballots stay in order -/

namespace Ultiledger

open AbortingProgram Program

namespace BallotState

variable {d : BallotState}

/-- A prepared ballot of another value stands above the high ballot. -/
def Contests (h other : Ballot) : Prop := h ≤ other ∧ h.value ≠ other.value

instance (h other : Ballot) : Decidable (Contests h other) := by
  unfold Contests
  infer_instance

def Uncontested (d : BallotState) : Prop :=
  d.currentPhase = .prepare → ∀ h, d.hBallot = some h → d.cBallot ≠ none →
    (∀ p, d.pBallot = some p → ¬ Contests h p) ∧ ∀ q, d.qBallot = some q → ¬ Contests h q

/-- The order that the check asks for, and what keeps it. -/
structure Orderly (d : BallotState) : Prop extends d.InOrder where
  pFirst : d.qBallot ≠ none → d.pBallot ≠ none
  uncontested : d.Uncontested
  settled : d.currentPhase ≠ .prepare →
    ∃ p c, d.pBallot = some p ∧ d.cBallot = some c ∧ p.value = c.value

end BallotState

/-- No ballot of another value is accepted above the high ballot while a commit ballot is
set; the first current ballot has a counter; the decree has prepared the value whose
commit it accepts; and the current ballot stays with the value of the high ballot. -/
def BallotEvent.Safe : BallotEvent → Prop
  | .setAcceptPrepared before b => before.currentPhase = .prepare → before.cBallot ≠ none →
      ∀ h ∈ before.hBallot, ¬ BallotState.Contests h b
  | .setConfirmPrepared before _ hb => before.currentBallot = none → hb.counter ≠ 0
  | .setAcceptCommit before cb _ => before.currentPhase = .prepare →
      ∃ p ∈ before.pBallot, p.value = cb.value
  | .updateBallot before b => ∀ h ∈ before.hBallot, h.value = b.value
  | .sendBallot _ _ => True
  | .stepLimit _ => True

instance (event : BallotEvent) : Decidable event.Safe := by
  cases event <;> unfold BallotEvent.Safe <;> infer_instance

section Acceptance

namespace BallotState

variable {d : BallotState} {b : Ballot}

theorem lessAndIncompatibleBallots_eq_false (h other : Ballot) :
    lessAndIncompatibleBallots (some h) (some other) = false ↔ ¬ Contests h other := by
  rw [Bool.eq_false_iff, ne_eq, lessAndIncompatibleBallots_some, Contests]

theorem uncontested_iff (d : BallotState) : d.Uncontested ↔ d.losesCommit = false := by
  obtain ⟨phase, current, p, q, h, c, shared⟩ := d
  cases h with
  | none => simp [Uncontested, losesCommit]
  | some h =>
    cases c with
    | none => simp [Uncontested, losesCommit]
    | some c =>
      cases p <;> cases q <;> cases phase <;>
        simp [Uncontested, losesCommit, lessAndIncompatibleBallots_eq_false]

/-- What a ballot that is accepted as prepared has passed. -/
structure Acceptable (d : BallotState) (b : Ballot) : Prop where
  continues : d.currentPhase = .confirm → ∀ p, d.pBallot = some p → p ≤ b ∧ p.value = b.value
  uncovered : ∀ p, d.pBallot = some p → ¬ (b ≤ p ∧ b.value = p.value)

theorem InOrder.setAcceptPrepared (inOrder : d.InOrder)
    (pFirst : d.qBallot ≠ none → d.pBallot ≠ none) (acceptable : d.Acceptable b) :
    (d.setAcceptPrepared b).1.InOrder := by
  obtain ⟨counter, prepared, high, commit, committed⟩ := inOrder
  rcases d.setAcceptPrepared_cases b with same | ⟨new, continues⟩ | ⟨p, new, pCase, below⟩ |
    ⟨p, new, pCase, above, incompatible⟩
  · rw [same]
    exact ⟨counter, prepared, high, commit, committed⟩
  · rw [new]
    refine ⟨counter, ?_, high, commit, committed⟩
    intro _ q pNew (qCase : d.qBallot = some q)
    cases pNew
    obtain ⟨p, pCase⟩ := Option.ne_none_iff_exists'.mp (pFirst (by simp [qCase]))
    obtain ⟨qBelow, qOther⟩ := prepared p q pCase qCase
    obtain ⟨pBelow, pSame⟩ := continues p pCase
    exact ⟨(qBelow.trans_lt pBelow).le, by rwa [pSame]⟩
  · rw [new]
    refine ⟨counter, ?_, high, commit, committed⟩
    intro other _ otherCase qNew
    cases qNew
    cases pCase.symm.trans otherCase
    exact ⟨below.le, fun same => acceptable.uncovered p pCase ⟨below.le, same⟩⟩
  · rw [new]
    refine ⟨counter, ?_, high, commit, committed⟩
    intro _ _ pNew qNew
    cases pNew
    cases qNew
    exact ⟨above.le, incompatible.symm⟩

theorem pFirst_setAcceptPrepared (b : Ballot) (pFirst : d.qBallot ≠ none → d.pBallot ≠ none) :
    (d.setAcceptPrepared b).1.qBallot ≠ none → (d.setAcceptPrepared b).1.pBallot ≠ none := by
  rcases d.setAcceptPrepared_cases b with same | ⟨new, -⟩ | ⟨p, new, pCase, -⟩ | ⟨p, new, -⟩
  · rwa [same]
  · simp [new]
  · simp [new, pCase]
  · simp [new]

theorem pBallot_setAcceptPrepared {b p : Ballot} (phase : d.currentPhase = .confirm)
    (acceptable : d.Acceptable b) (pCase : d.pBallot = some p) :
    ∃ p', (d.setAcceptPrepared b).1.pBallot = some p' ∧ p'.value = p.value := by
  have continues := acceptable.continues phase p pCase
  rcases d.setAcceptPrepared_cases b with same | ⟨new, -⟩ | ⟨p', new, pCase', -⟩ |
    ⟨p', new, -⟩
  · exact ⟨p, by rw [same]; exact pCase, rfl⟩
  · exact ⟨b, by rw [new], continues.2.symm⟩
  · exact ⟨p, by rw [new]; exact pCase, rfl⟩
  · exact ⟨b, by rw [new], continues.2.symm⟩

/-- The new p and q are the accepted ballot or were there before, so only the
accepted ballot can newly contest the high ballot. -/
theorem Uncontested.setAcceptPrepared (uncontested : d.Uncontested)
    (free : d.currentPhase = .prepare → d.cBallot ≠ none → ∀ h, d.hBallot = some h →
      ¬ Contests h b) : (d.setAcceptPrepared b).1.Uncontested := by
  rcases d.setAcceptPrepared_cases b with same | ⟨new, -⟩ | ⟨p, new, pCase, -⟩ |
    ⟨p, new, pCase, -⟩
  · rwa [same]
  · rw [new]
    intro phase h high commit
    obtain ⟨-, qFree⟩ := uncontested phase h high commit
    exact ⟨fun _ same => Option.some.inj same ▸ free phase commit h high, qFree⟩
  · rw [new]
    intro phase h high commit
    obtain ⟨pFree, -⟩ := uncontested phase h high commit
    exact ⟨pFree, fun _ same => Option.some.inj same ▸ free phase commit h high⟩
  · rw [new]
    intro phase h high commit
    obtain ⟨pFree, -⟩ := uncontested phase h high commit
    exact ⟨fun _ same => Option.some.inj same ▸ free phase commit h high,
      fun _ same => Option.some.inj same ▸ pFree p pCase⟩

theorem Orderly.acceptPrepared (orderly : d.Orderly)
    (running : d.currentPhase ≠ .externalize) (acceptable : d.Acceptable b)
    (safe : (BallotEvent.setAcceptPrepared d b).Safe) : (d.acceptPrepared b).1.Orderly := by
  have uncontested := orderly.uncontested.setAcceptPrepared safe
  have keeps : d.acceptPrepared b = d.setAcceptPrepared b := by
    unfold BallotState.acceptPrepared
    dsimp only
    rw [(uncontested_iff _).mp uncontested]
    rfl
  obtain ⟨samePhase, sameCommit⟩ := d.setAcceptPrepared_keeps b
  rw [keeps]
  refine ⟨orderly.toInOrder.setAcceptPrepared orderly.pFirst acceptable,
    pFirst_setAcceptPrepared b orderly.pFirst, uncontested, ?_⟩
  rw [samePhase, sameCommit]
  intro moved
  obtain ⟨p, c, pCase, cCase, same⟩ := orderly.settled moved
  have phase : d.currentPhase = .confirm := by
    cases phase : d.currentPhase <;> simp_all
  obtain ⟨p', pNew, keepsValue⟩ := pBallot_setAcceptPrepared phase acceptable pCase
  exact ⟨p', c, pNew, cCase, keepsValue.trans same⟩

end BallotState

end Acceptance

section Moves

namespace BallotState

variable {d : BallotState}

theorem inOrder_catchUp {hb : Ballot} (high : d.hBallot = some hb)
    (counter : ∀ b, d.currentBallot = some b → b.counter ≠ 0)
    (first : d.currentBallot = none → hb.counter ≠ 0)
    (fits : ∀ b, d.currentBallot = some b → b.value = hb.value)
    (prepared : ∀ p q, d.pBallot = some p → d.qBallot = some q → q ≤ p ∧ q.value ≠ p.value)
    (commit : ∀ c, d.cBallot = some c → c ≤ hb ∧ c.value = hb.value)
    (committed : d.currentPhase ≠ .prepare → d.cBallot ≠ none) : (d.catchUp hb).InOrder := by
  obtain ⟨b, caughtUp, reached⟩ := catchUp_high high
  have bounds : b.counter ≠ 0 ∧ hb ≤ b ∧ hb.value = b.value := by
    rcases reached with ⟨rfl, behind⟩ | ⟨current, below⟩
    · refine ⟨?_, le_refl _, rfl⟩
      cases current : d.currentBallot with
      | none => exact first current
      | some old =>
        have grows := Ballot.lt_iff.mp (behind old current)
        have positive := counter old current
        omega
    · exact ⟨counter b current, below, (fits b current).symm⟩
  rw [caughtUp]
  refine ⟨?_, prepared, ?_, ?_, committed⟩
  · intro other (current : some b = some other)
    rw [← Option.some.inj current]
    exact bounds.1
  · intro h (sameHigh : d.hBallot = some h)
    cases high.symm.trans sameHigh
    exact ⟨b, rfl, bounds.2⟩
  · intro c cCase
    exact ⟨hb, high, commit c cCase⟩

theorem Orderly.confirmPrepared {cb : Option Ballot} {hb : Ballot} (orderly : d.Orderly)
    (waiting : d.currentPhase = .prepare) (above : ∀ h, d.hBallot = some h → h < hb)
    (commit : ∀ c, cb = some c → d.cBallot = none ∧ c ≤ hb ∧ c.value = hb.value ∧
      (∀ p, d.pBallot = some p → ¬ Contests hb p) ∧ ∀ q, d.qBallot = some q → ¬ Contests hb q)
    (safe : (BallotEvent.setConfirmPrepared d cb hb).Safe)
    (kept : (∀ old, (d.confirmPrepared cb hb).1.currentBallot = some old → old < hb) →
      (BallotEvent.updateBallot (d.confirmPrepared cb hb).1 hb).Safe) :
    ((d.confirmPrepared cb hb).1.catchUp hb).Orderly := by
  by_cases fits : ∀ b, d.currentBallot = some b → b.value = hb.value
  · obtain ⟨shared, ended⟩ := confirmPrepared_eq fits above fun c same => (commit c same).1
    have confirmed : (d.confirmPrepared cb hb).1 =
        { d with hBallot := some hb, cBallot := cb, hIsC := shared } := by
      rw [ended]
    have high : (d.confirmPrepared cb hb).1.hBallot = some hb := by rw [confirmed]
    obtain ⟨b, caughtUp, -⟩ := catchUp_high high
    have inOrder : ((d.confirmPrepared cb hb).1.catchUp hb).InOrder := by
      apply inOrder_catchUp <;> rw [confirmed]
      · exact orderly.counter
      · exact safe
      · exact fits
      · exact orderly.prepared
      · exact fun c same => ⟨(commit c same).2.1, (commit c same).2.2.1⟩
      · exact fun moved => absurd waiting moved
    refine ⟨inOrder, ?_, ?_, ?_⟩ <;> rw [caughtUp, confirmed]
    · exact orderly.pFirst
    · intro _ h high committed
      obtain ⟨c, cCase⟩ := Option.ne_none_iff_exists'.mp committed
      cases high
      exact (commit c cCase).2.2.2
    · exact fun moved => absurd waiting moved
  · push Not at fits
    obtain ⟨b, current, other⟩ := fits
    rw [confirmPrepared_of_other current other] at kept ⊢
    by_cases behind : ∀ old, d.currentBallot = some old → old < hb
    · have noHigh : d.hBallot = none := by
        by_contra present
        obtain ⟨h, high⟩ := Option.ne_none_iff_exists'.mp present
        obtain ⟨_, sameCurrent, -, sameValue⟩ := orderly.high h high
        cases current.symm.trans sameCurrent
        exact other (sameValue.symm.trans (kept behind h high))
      have noCommit : d.cBallot = none := by
        by_contra present
        obtain ⟨c, cCase⟩ := Option.ne_none_iff_exists'.mp present
        obtain ⟨h, high, -⟩ := orderly.commit c cCase
        simp [noHigh] at high
      have caughtUp : d.catchUp hb = { d with currentBallot := some hb } := by
        unfold catchUp
        rw [if_pos ((behind_iff _ _).mpr behind),
          d.replaceCurrent_of_compatible (by simp [noHigh])]
      have positive : hb.counter ≠ 0 := by
        have grows := Ballot.lt_iff.mp (behind b current)
        have old := orderly.counter b current
        omega
      rw [caughtUp]
      refine ⟨⟨?_, orderly.prepared, ?_, ?_, orderly.committed⟩, orderly.pFirst,
        orderly.uncontested, orderly.settled⟩
      · intro _ same
        rwa [← Option.some.inj same]
      · simp [noHigh]
      · simp [noCommit]
    · have unchanged : d.catchUp hb = d := by
        unfold catchUp
        rw [if_neg fun needed => behind ((behind_iff _ _).mp needed)]
      rwa [unchanged]

theorem Orderly.recommit {cb hb : Ballot} (orderly : d.Orderly) (moved : d.currentPhase ≠ .prepare)
    (same : cb.value = hb.value) (ordered : cb.counter ≤ hb.counter)
    (locked : ∀ c, d.cBallot = some c → c.value = cb.value) (shared : Bool) :
    ((d.holdCommit cb hb shared).catchUp hb).Orderly := by
  obtain ⟨p, c, pCase, cCase, sameP⟩ := orderly.settled moved
  obtain ⟨h, high, -, sameH⟩ := orderly.commit c cCase
  obtain ⟨b, current, -, sameB⟩ := orderly.high h high
  have value := locked c cCase
  have fits : ∀ other, d.currentBallot = some other → other.value = hb.value := by
    intro other otherCurrent
    cases current.symm.trans otherCurrent
    rw [← sameB, ← sameH, value, same]
  have high' : (d.holdCommit cb hb shared).hBallot = some hb := rfl
  have inOrder : ((d.holdCommit cb hb shared).catchUp hb).InOrder := by
    apply inOrder_catchUp high' orderly.counter _ fits orderly.prepared
    · intro other otherCase
      cases otherCase
      exact ⟨(Ballot.le_iff_counter_le same).mpr ordered, same⟩
    · simp [holdCommit]
    · simp [holdCommit, current]
  obtain ⟨b', caughtUp, -⟩ := catchUp_high high'
  refine ⟨inOrder, ?_, ?_, ?_⟩ <;> rw [caughtUp]
  · exact orderly.pFirst
  · exact fun waiting => absurd waiting moved
  · exact fun _ => ⟨p, cb, pCase, rfl, sameP.trans value⟩

theorem Orderly.externalize (orderly : d.Orderly) (moved : d.currentPhase ≠ .prepare) :
    ({ d with currentPhase := .externalize } : BallotState).Orderly where
  counter := orderly.counter
  prepared := orderly.prepared
  high := orderly.high
  commit := orderly.commit
  committed _ := orderly.committed moved
  pFirst := orderly.pFirst
  uncontested := by
    intro waiting
    simp at waiting
  settled _ := orderly.settled moved

theorem zeroBallot_le (b : Ballot) : zeroBallot ≤ b := by
  rw [Ballot.le_iff]
  rcases Nat.eq_zero_or_pos b.counter with zero | positive
  · refine .inr ⟨zero.symm, ?_⟩
    exact List.not_lt_nil _
  · exact .inl positive

/-- A decree that has prepared the value enters the confirm phase in order.  The
cleared q is below p because the value is not empty. -/
theorem Orderly.enterConfirm {cb hb : Ballot} (orderly : d.Orderly)
    (waiting : d.currentPhase = .prepare) (same : cb.value = hb.value) (named : cb.value ≠ "")
    (positive : cb.counter ≠ 0) (ordered : cb.counter ≤ hb.counter)
    (safe : (BallotEvent.setAcceptCommit d cb hb).Safe) :
    (((d.acceptCommit cb hb).1.enterConfirm hb).catchUp hb).Orderly := by
  obtain ⟨p, pCase, pValue⟩ := safe waiting
  obtain ⟨shared, accepted⟩ := d.acceptCommit_eq cb hb
  obtain ⟨current, entered, missing, fits⟩ := enterConfirm_high (d.hBallot_acceptCommit cb hb)
  rw [accepted] at entered missing fits ⊢
  have high' : ((d.holdCommit cb hb shared).enterConfirm hb).hBallot = some hb := by
    rw [entered]
    rfl
  have inOrder : (((d.holdCommit cb hb shared).enterConfirm hb).catchUp hb).InOrder := by
    apply inOrder_catchUp high' <;> rw [entered]
    · intro b currentCase
      rcases (fits b currentCase).2 with rfl | old
      · omega
      · exact orderly.counter b old
    · omega
    · exact fun b currentCase => (fits b currentCase).1
    · intro p' q pNew qNew
      obtain ⟨_, -, rfl⟩ := Option.map_eq_some_iff.mp qNew
      cases pCase.symm.trans pNew
      exact ⟨zeroBallot_le p, fun empty => named (pValue ▸ empty.symm)⟩
    · intro c cCase
      cases cCase
      exact ⟨(Ballot.le_iff_counter_le same).mpr ordered, same⟩
    · simp [holdCommit]
  obtain ⟨b, caughtUp, -⟩ := catchUp_high high'
  refine ⟨inOrder, ?_, ?_, ?_⟩ <;> rw [caughtUp, entered]
  · exact fun _ missing => Option.some_ne_none p (pCase.symm.trans missing)
  · intro phase
    simp at phase
  · exact fun _ => ⟨p, cb, pCase, rfl, pValue⟩

theorem Orderly.replaceCurrent {b : Ballot} (orderly : d.Orderly)
    (first : d.currentBallot = none → b.counter ≠ 0)
    (forward : ∀ old, d.currentBallot = some old → old ≤ b)
    (safe : (BallotEvent.updateBallot d b).Safe) : (d.replaceCurrent b).Orderly := by
  rw [d.replaceCurrent_of_compatible fun h high => (safe h high).symm]
  refine ⟨⟨?_, orderly.prepared, ?_, orderly.commit, orderly.committed⟩, orderly.pFirst,
    orderly.uncontested, orderly.settled⟩
  · intro _ same
    cases same
    cases current : d.currentBallot with
    | none => exact first current
    | some old =>
      have grows := Ballot.le_iff.mp (forward old current)
      have positive := orderly.counter old current
      omega
  · intro h high
    obtain ⟨old, current, below, -⟩ := orderly.high h high
    exact ⟨b, rfl, below.trans (forward old current), safe h high⟩

end BallotState

end Moves

end Ultiledger
