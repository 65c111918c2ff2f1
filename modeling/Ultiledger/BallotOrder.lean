import Ultiledger.BallotProtocol

/-! # The order of the five ballots -/

namespace Ultiledger

/-- The order that `checkBallotInvariants` asks for. -/
structure BallotState.InOrder (d : BallotState) : Prop where
  counter : ∀ b, d.currentBallot = some b → b.counter ≠ 0
  prepared : ∀ p q, d.pBallot = some p → d.qBallot = some q → q ≤ p ∧ q.value ≠ p.value
  high : ∀ h, d.hBallot = some h → ∃ b, d.currentBallot = some b ∧ h ≤ b ∧ h.value = b.value
  commit : ∀ c, d.cBallot = some c → ∃ h, d.hBallot = some h ∧ c ≤ h ∧ c.value = h.value
  committed : d.currentPhase ≠ .prepare → d.cBallot ≠ none

theorem preparedInOrder_iff (d : BallotState) :
    d.preparedInOrder = true ↔
      ∀ p q, d.pBallot = some p → d.qBallot = some q → q ≤ p ∧ q.value ≠ p.value := by
  unfold BallotState.preparedInOrder
  cases pCase : d.pBallot with
  | none => simp
  | some p =>
    cases qCase : d.qBallot with
    | none => simp
    | some q => simp [← compatibleBallots_some]

theorem bounded_iff (lower upper : Option Ballot) :
    (lower.isSome && !lessAndCompatibleBallots lower upper) = false ↔
      ∀ low, lower = some low → ∃ high, upper = some high ∧ low ≤ high ∧
        low.value = high.value := by
  cases lower with
  | none => simp
  | some low =>
    cases upper with
    | none => simp [lessAndCompatibleBallots_none]
    | some high => simp [lessAndCompatibleBallots_some]

theorem checkBallotInvariants_iff (d : BallotState) :
    d.checkBallotInvariants = .ok () ↔ d.InOrder := by
  have counted : d.currentBallot.any (·.counter == 0) = false ↔
      ∀ b, d.currentBallot = some b → b.counter ≠ 0 := by
    cases d.currentBallot <;> simp
  unfold BallotState.checkBallotInvariants
  constructor
  · intro passed
    simp only [ite_eq_iff, reduceCtorEq, and_false, false_or, Bool.not_eq_true] at passed
    obtain ⟨counterOk, preparedOk, -, highOk, -, commitOk, -, phaseOk⟩ := passed
    refine ⟨counted.mp counterOk, (preparedInOrder_iff d).mp (by simpa using preparedOk),
      (bounded_iff _ _).mp highOk, (bounded_iff _ _).mp commitOk, ?_⟩
    rintro moved noCommit
    cases phase : d.currentPhase with
    | prepare => exact moved phase
    | confirm => simp [phase, noCommit] at phaseOk
    | externalize => simp [phase, noCommit] at phaseOk
  · intro inOrder
    rw [counted.mpr inOrder.counter, (preparedInOrder_iff d).mpr inOrder.prepared,
      (bounded_iff _ _).mpr inOrder.high, (bounded_iff _ _).mpr inOrder.commit]
    cases cCase : d.cBallot with
    | none =>
      have waiting : d.currentPhase = .prepare := by
        by_contra moved
        exact inOrder.committed moved cCase
      cases hCase : d.hBallot with
      | none => simp [waiting]
      | some h =>
        obtain ⟨b, current, -⟩ := inOrder.high h hCase
        simp [waiting, current]
    | some c =>
      obtain ⟨h, highCase, -⟩ := inOrder.commit c cCase
      obtain ⟨b, current, below, compatible⟩ := inOrder.high h highCase
      have fits := (lessAndCompatibleBallots_some h b).mpr ⟨below, compatible⟩
      simp only [highCase, current, fits]
      cases d.currentPhase <;> rfl

namespace BallotState

variable (d : BallotState)

/-- What `setAcceptPrepared` does: nothing, or a new p, or a new q below p, or
a new p whose predecessor becomes q. -/
theorem setAcceptPrepared_cases (b : Ballot) :
    d.setAcceptPrepared b = (d, false) ∨
      (d.setAcceptPrepared b = ({ d with pBallot := some b }, true) ∧
        ∀ p, d.pBallot = some p → p < b ∧ b.value = p.value) ∨
      (∃ p, d.setAcceptPrepared b = ({ d with qBallot := some b }, true) ∧
        d.pBallot = some p ∧ b < p) ∨
      ∃ p, d.setAcceptPrepared b = ({ d with pBallot := some b, qBallot := some p }, true) ∧
        d.pBallot = some p ∧ p < b ∧ b.value ≠ p.value := by
  unfold setAcceptPrepared
  cases pCase : d.pBallot with
  | none => exact .inr (.inl ⟨by simp, by simp⟩)
  | some p =>
    simp only [compareBallots_some]
    rcases lt_trichotomy b p with below | same | above
    · simp only [compare_lt_iff_lt.mpr below]
      split_ifs
      · exact .inr (.inr (.inl ⟨p, rfl, rfl, below⟩))
      · simp
    · simp [compare_eq_iff_eq.mpr same]
    · simp only [compare_gt_iff_gt.mpr above]
      split_ifs with compatible
      · refine .inr (.inl ⟨rfl, ?_⟩)
        rintro other found
        cases found
        exact ⟨above, by simpa using compatible⟩
      · exact .inr (.inr (.inr ⟨p, rfl, rfl, above, by simpa using compatible⟩))

end BallotState

/-- The value a decree is locked on from the confirm phase on. -/
def BallotState.lock (d : BallotState) : Option String :=
  if d.currentPhase = .prepare then none else d.cBallot.map (·.value)

variable {d : BallotState}

theorem lock_prepare (waiting : d.currentPhase = .prepare) : d.lock = none := by
  simp [BallotState.lock, waiting]

theorem lock_eq (moved : d.currentPhase ≠ .prepare) : d.lock = d.cBallot.map (·.value) := by
  simp [BallotState.lock, moved]

def BallotState.LockedOn (d : BallotState) (value : String) : Prop :=
  ∃ b h c, d.currentBallot = some b ∧ d.hBallot = some h ∧ d.cBallot = some c ∧
    c.value = value ∧ h.value = value ∧ b.value = value ∧ c ≤ h ∧ h ≤ b

theorem BallotState.InOrder.locked (inOrder : d.InOrder)
    (moved : d.currentPhase ≠ .prepare) : ∃ value, d.lock = some value ∧ d.LockedOn value := by
  obtain ⟨c, commit⟩ := Option.ne_none_iff_exists'.mp (inOrder.committed moved)
  obtain ⟨h, high, belowHigh, sameHigh⟩ := inOrder.commit c commit
  obtain ⟨b, current, belowCurrent, sameCurrent⟩ := inOrder.high h high
  refine ⟨c.value, by simp [lock_eq moved, commit], b, h, c, current, high, commit, rfl,
    sameHigh.symm, ?_, belowHigh, belowCurrent⟩
  rw [sameHigh, sameCurrent]

namespace BallotState

variable (d : BallotState)

variable (b : Ballot) (cb : Option Ballot) (hb : Ballot)

@[simp]
theorem currentPhase_replaceCurrent : (d.replaceCurrent b).currentPhase = d.currentPhase := by
  unfold replaceCurrent
  dsimp only
  split_ifs <;> rfl

theorem replaceCurrent_of_compatible {b : Ballot}
    (compatible : ∀ h, d.hBallot = some h → b.value = h.value) :
    d.replaceCurrent b = { d with currentBallot := some b } := by
  unfold replaceCurrent
  rw [if_neg]
  rintro ⟨isSome, incompatible⟩
  obtain ⟨h, high⟩ := Option.isSome_iff_exists.mp isSome
  rw [high, compatibleBallots_some] at incompatible
  exact incompatible (compatible h high)

theorem setAcceptPrepared_keeps :
    (d.setAcceptPrepared b).1.currentPhase = d.currentPhase ∧
      (d.setAcceptPrepared b).1.cBallot = d.cBallot := by
  rcases d.setAcceptPrepared_cases b with same | ⟨same, -⟩ | ⟨p, same, -⟩ | ⟨p, same, -⟩ <;>
    simp [same]

@[simp]
theorem currentPhase_acceptPrepared : (d.acceptPrepared b).1.currentPhase = d.currentPhase := by
  unfold acceptPrepared
  dsimp only
  split_ifs
  · exact (d.setAcceptPrepared_keeps b).1
  · exact (d.setAcceptPrepared_keeps b).1

theorem cBallot_acceptPrepared {b : Ballot} (moved : d.currentPhase ≠ .prepare) :
    (d.acceptPrepared b).1.cBallot = d.cBallot := by
  unfold acceptPrepared
  rw [if_neg, (d.setAcceptPrepared_keeps b).2]
  simp [losesCommit, (d.setAcceptPrepared_keeps b).1, moved]

theorem lock_acceptPrepared : (d.acceptPrepared b).1.lock = d.lock := by
  by_cases waiting : d.currentPhase = .prepare
  · rw [lock_prepare waiting, lock_prepare (by simpa using waiting)]
  · rw [lock_eq waiting, lock_eq (by simpa using waiting), cBallot_acceptPrepared d waiting]

theorem acceptPrepared_unchanged {b : Ballot} (same : (d.acceptPrepared b).2 = false) :
    (d.acceptPrepared b).1 = d := by
  unfold acceptPrepared at same ⊢
  dsimp only at same ⊢
  split_ifs at same ⊢ with loses
  rcases d.setAcceptPrepared_cases b with kept | ⟨new, -⟩ | ⟨p, new, -⟩ | ⟨p, new, -⟩
  · rw [kept]
  · simp [new] at same
  · simp [new] at same
  · simp [new] at same

theorem raiseHigh_cases :
    d.raiseHigh hb = (d, false) ∨
      d.raiseHigh hb = ({ d with hBallot := some hb, hIsC := false }, true) := by
  unfold raiseHigh
  split_ifs
  · exact .inr rfl
  · exact .inl rfl

theorem lowerCommit_cases (shared : Bool) :
    d.lowerCommit cb shared = (d, false) ∨
      d.lowerCommit cb shared = ({ d with cBallot := cb, hIsC := shared }, true) := by
  unfold lowerCommit
  split_ifs
  · exact .inr rfl
  · exact .inl rfl

theorem acceptCommit_cases (cb hb : Ballot) :
    d.acceptCommit cb hb = (d, false) ∨ d.acceptCommit cb hb =
      ({ d with hBallot := some hb, cBallot := some cb, hIsC := false }, true) := by
  unfold acceptCommit
  split_ifs
  · exact .inr rfl
  · exact .inl rfl

@[simp]
theorem currentPhase_acceptCommit (cb hb : Ballot) :
    (d.acceptCommit cb hb).1.currentPhase = d.currentPhase := by
  rcases d.acceptCommit_cases cb hb with same | new
  · rw [same]
  · rw [new]

@[simp]
theorem currentPhase_confirmPrepared :
    (d.confirmPrepared cb hb).1.currentPhase = d.currentPhase := by
  have raised : (d.raiseHigh hb).1.currentPhase = d.currentPhase := by
    rcases d.raiseHigh_cases hb with high | high <;> rw [high]
  unfold confirmPrepared
  dsimp only
  split_ifs
  · rw [← raised]
    rcases (d.raiseHigh hb).1.lowerCommit_cases cb
      ((d.raiseHigh hb).2 && decide (cb = some hb)) with low | low <;> rw [low]
  · rfl

theorem confirmPrepared_unchanged {cb : Option Ballot} {hb : Ballot}
    (same : (d.confirmPrepared cb hb).2 = false) : (d.confirmPrepared cb hb).1 = d := by
  unfold confirmPrepared at same ⊢
  dsimp only at same ⊢
  split_ifs at same ⊢
  · rw [Bool.or_eq_false_iff] at same
    rcases d.raiseHigh_cases hb with high | high
    · rw [high] at same ⊢
      rcases d.lowerCommit_cases cb (false && decide (cb = some hb)) with low | low
      · rw [low]
      · rw [low] at same
        exact absurd same.2 (by simp)
    · simp [high] at same
  · rfl

end BallotState

theorem BallotState.lock_replaceCurrent {b : Ballot}
    (compatible : ∀ h, d.hBallot = some h → b.value = h.value) :
    (d.replaceCurrent b).lock = d.lock := by
  rw [d.replaceCurrent_of_compatible compatible]
  rfl

end Ultiledger
