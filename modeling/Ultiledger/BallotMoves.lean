import Ultiledger.BallotOrder

/-! # The moves of the ballots in closed form

Before the externalize phase no fatal error of `updateBallot` can strike inside the
functions that move the ballots, so their programs are equations.
-/

namespace Ultiledger

open AbortingProgram Program

namespace BallotState

variable {d : BallotState} {hb : Ballot}

theorem replaceCurrent_cases (d : BallotState) (b : Ballot) :
    d.replaceCurrent b = { d with currentBallot := some b } ∨
      (∃ h, d.hBallot = some h ∧ h.value ≠ b.value) ∧
        d.replaceCurrent b = ({ d with currentBallot := some b } : BallotState).resetH := by
  unfold replaceCurrent
  dsimp only
  split_ifs with leaves
  · obtain ⟨h, high⟩ := Option.isSome_iff_exists.mp leaves.1
    refine .inr ⟨⟨h, high, ?_⟩, rfl⟩
    have other := leaves.2
    rw [high, compatibleBallots_some] at other
    exact fun same => other same.symm
  · exact .inl rfl

/-- The ballots after `updateBallotIfNeeded`. -/
def catchUp (d : BallotState) (b : Ballot) : BallotState :=
  if d.currentBallot.isNone ∨ compareBallots d.currentBallot (some b) = .lt then
    d.replaceCurrent b
  else
    d

/-- The call that `updateBallotIfNeeded` makes. -/
def catchUpEvents (d : BallotState) (b : Ballot) : List BallotEvent :=
  if d.currentBallot.isNone ∨ compareBallots d.currentBallot (some b) = .lt then
    [.updateBallot d b]
  else
    []

theorem eq_of_mem_catchUpEvents {d : BallotState} {b : Ballot} {event : BallotEvent}
    (mem : event ∈ d.catchUpEvents b) : event = .updateBallot d b := by
  unfold catchUpEvents at mem
  split_ifs at mem
  · exact List.mem_singleton.mp mem
  · simp at mem

theorem behind_iff (current : Option Ballot) (b : Ballot) :
    (current.isNone ∨ compareBallots current (some b) = .lt) ↔
      ∀ old, current = some old → old < b := by
  cases current with
  | none => simp
  | some old => simp [compareBallots_some, compare_lt_iff_lt]

@[simp]
theorem currentPhase_catchUp (b : Ballot) : (d.catchUp b).currentPhase = d.currentPhase := by
  unfold catchUp
  split_ifs
  · exact d.currentPhase_replaceCurrent b
  · rfl

theorem catchUp_high (high : d.hBallot = some hb) :
    ∃ b, d.catchUp hb = { d with currentBallot := some b } ∧
      (b = hb ∧ (∀ old, d.currentBallot = some old → old < hb) ∨
        d.currentBallot = some b ∧ hb ≤ b) := by
  unfold catchUp
  split_ifs with behind <;> rw [behind_iff] at behind
  · refine ⟨hb, d.replaceCurrent_of_compatible ?_, .inl ⟨rfl, behind⟩⟩
    intro h sameHigh
    rw [Option.some.inj (high.symm.trans sameHigh)]
  · push Not at behind
    obtain ⟨b, current, below⟩ := behind
    exact ⟨b, by rw [← current], .inr ⟨current, below⟩⟩

/-- A confirmed ballot that fits the current one becomes the high ballot, and
the commit ballot is the candidate. -/
theorem confirmPrepared_eq {cb : Option Ballot}
    (fits : ∀ b, d.currentBallot = some b → b.value = hb.value)
    (above : ∀ h, d.hBallot = some h → h < hb) (fresh : ∀ c, cb = some c → d.cBallot = none) :
    ∃ shared, d.confirmPrepared cb hb =
      ({ d with hBallot := some hb, cBallot := cb, hIsC := shared }, true) := by
  have applies : d.currentBallot.isNone ∨ compatibleBallots d.currentBallot (some hb) := by
    cases current : d.currentBallot with
    | none => simp
    | some b => simp [fits b current]
  have raised : d.raiseHigh hb = ({ d with hBallot := some hb, hIsC := false }, true) := by
    exact if_pos ((behind_iff _ _).mpr above)
  unfold confirmPrepared
  rw [if_pos applies, raised]
  cases cCase : d.cBallot with
  | none => exact ⟨_, rfl⟩
  | some c =>
    cases cb with
    | none => exact ⟨_, rfl⟩
    | some candidate => simp [fresh candidate rfl] at cCase

theorem confirmPrepared_of_other {cb : Option Ballot} {hb b : Ballot}
    (current : d.currentBallot = some b) (other : b.value ≠ hb.value) :
    d.confirmPrepared cb hb = (d, false) := by
  unfold confirmPrepared
  rw [if_neg (by simp [current, other])]

/-- The commit and high ballots, whether one object or two. -/
def holdCommit (d : BallotState) (cb hb : Ballot) (shared : Bool) : BallotState :=
  { d with hBallot := some hb, cBallot := some cb, hIsC := shared }

theorem acceptCommit_eq (d : BallotState) (cb hb : Ballot) :
    ∃ shared, (d.acceptCommit cb hb).1 = d.holdCommit cb hb shared := by
  unfold acceptCommit holdCommit
  split_ifs with new
  · exact ⟨false, rfl⟩
  · obtain ⟨phase, current, p, q, _ | h, _ | c, shared⟩ := d <;>
      simp_all [compareBallots_some, compare_eq_iff_eq]

/-- The ballots after `enterConfirm`. -/
def enterConfirm (d : BallotState) (hb : Ballot) : BallotState :=
  let d := { d with currentPhase := .confirm }
  let d :=
    if d.currentBallot.isSome ∧ ¬ lessAndCompatibleBallots (some hb) d.currentBallot then
      d.replaceCurrent hb
    else
      d
  { d with qBallot := d.qBallot.map fun _ => zeroBallot }

/-- The call that `enterConfirm` makes. -/
def enterEvents (d : BallotState) (hb : Ballot) : List BallotEvent :=
  let d := { d with currentPhase := .confirm }
  if d.currentBallot.isSome ∧ ¬ lessAndCompatibleBallots (some hb) d.currentBallot then
    [.updateBallot d hb]
  else
    []

theorem enterConfirm_high (high : d.hBallot = some hb) :
    ∃ current, d.enterConfirm hb = { d with
        currentPhase := .confirm
        currentBallot := current
        qBallot := d.qBallot.map fun _ => zeroBallot } ∧
      (current = none ↔ d.currentBallot = none) ∧
        ∀ b, current = some b → b.value = hb.value ∧ (b = hb ∨ d.currentBallot = some b) := by
  unfold enterConfirm
  dsimp only
  split_ifs with leaves
  · refine ⟨some hb, ?_, ?_, ?_⟩
    · rw [replaceCurrent_of_compatible]
      intro h sameHigh
      rw [Option.some.inj (high.symm.trans sameHigh)]
    · obtain ⟨b, current⟩ := Option.isSome_iff_exists.mp leaves.1
      simp [current]
    · intro b same
      cases same
      exact ⟨rfl, .inl rfl⟩
  · refine ⟨d.currentBallot, rfl, Iff.rfl, ?_⟩
    intro b current
    have stays : hb ≤ b ∧ hb.value = b.value := by simpa [current] using leaves
    exact ⟨stays.2.symm, .inr current⟩

/-- The ballots after `setAcceptCommit` in the prepare phase. -/
def entry (d : BallotState) (cb hb : Ballot) : BallotState :=
  ((d.acceptCommit cb hb).1.enterConfirm hb).catchUp hb

/-- The calls that `setAcceptCommit` makes in the prepare phase, itself included. -/
def entryEvents (d : BallotState) (cb hb : Ballot) : List BallotEvent :=
  .setAcceptCommit d cb hb :: ((d.acceptCommit cb hb).1.enterEvents hb ++
    ((d.acceptCommit cb hb).1.enterConfirm hb).catchUpEvents hb)

theorem hBallot_acceptCommit (d : BallotState) (cb hb : Ballot) :
    (d.acceptCommit cb hb).1.hBallot = some hb := by
  obtain ⟨shared, accepted⟩ := d.acceptCommit_eq cb hb
  rw [accepted, holdCommit]

theorem entry_eq (d : BallotState) (cb hb : Ballot) : ∃ current shared,
    d.entry cb hb = { d with
      currentPhase := .confirm
      currentBallot := some current
      qBallot := d.qBallot.map fun _ => zeroBallot
      hBallot := some hb
      cBallot := some cb
      hIsC := shared } := by
  obtain ⟨shared, accepted⟩ := d.acceptCommit_eq cb hb
  obtain ⟨current, entered, -⟩ := enterConfirm_high (d.hBallot_acceptCommit cb hb)
  have high : ((d.acceptCommit cb hb).1.enterConfirm hb).hBallot = some hb := by
    rw [entered, accepted, holdCommit]
  obtain ⟨b, caughtUp, -⟩ := catchUp_high high
  refine ⟨b, shared, ?_⟩
  rw [entry, caughtUp, entered, accepted, holdCommit]

end BallotState

namespace DecreeState

variable (d : DecreeState)

def moved (events : List BallotEvent) (after : BallotState) (nextValue : String) : DecreeState :=
  { d with ballot := after, trace := d.trace ++ events, nextValue := nextValue }

theorem moved_moved (first second : List BallotEvent) (between after : BallotState)
    (early late : String) :
    (d.moved first between early).moved second after late = d.moved (first ++ second) after late := by
  simp only [moved, List.append_assoc]

theorem resetQ_eq (nodeID : String) : ∃ clearedQ ballots latestBallot,
    d.resetQ nodeID = { d with
      ballot := { d.ballot with qBallot := d.ballot.qBallot.map fun _ => zeroBallot }
      clearedQ := clearedQ
      ballots := ballots
      latestBallot := latestBallot } := by
  cases qCase : d.ballot.qBallot with
  | none =>
    refine ⟨d.clearedQ, d.ballots, d.latestBallot, ?_⟩
    simp only [resetQ, qCase, Option.map_none]
    rw [← qCase]
  | some q => exact ⟨_, _, _, by simp only [resetQ, qCase, Option.map_some]; rfl⟩

theorem resetQ_moved (events : List BallotEvent) {after : BallotState} (nextValue : String)
    (sameQ : after.qBallot = d.ballot.qBallot) (nodeID : String) :
    (d.moved events after nextValue).resetQ nodeID =
      (d.resetQ nodeID).moved events
        { after with qBallot := after.qBallot.map fun _ => zeroBallot } nextValue := by
  cases qCase : d.ballot.qBallot with
  | none =>
    simp only [resetQ, moved, sameQ, qCase, Option.map_none]
    rw [← sameQ.trans qCase]
  | some q => simp only [resetQ, moved, sameQ, qCase, Option.map_some]

end DecreeState

section Programs

variable {ctx : DecreeContext} {deliver : Delivery} {d : DecreeState}

theorem updateBallot_eq {b : Ballot} {check : Bool} (running : d.ballot.currentPhase ≠ .externalize)
    (forward : check = true → ∀ old, d.ballot.currentBallot = some old → old ≤ b) :
    updateBallot (some b) check d =
      .done () (d.moved [.updateBallot d.ballot b] (d.ballot.replaceCurrent b) d.nextValue) := by
  have notSmaller : ¬ (check = true ∧
      compareBallots d.ballot.currentBallot (some b) = .gt) := by
    rintro ⟨checks, greater⟩
    cases current : d.ballot.currentBallot with
    | none => simp [current, compareBallots] at greater
    | some old =>
      rw [current, compareBallots_some, compare_gt_iff_gt] at greater
      exact absurd (forward checks old current) (not_le.mpr greater)
  have program : updateBallot (some b) check d =
      (if d.ballot.currentPhase = .externalize then
        abort (.fatal "should not update ballot in externalize phase")
      else if check ∧ compareBallots d.ballot.currentBallot (some b) = .gt then
        abort (.fatal "cannot update current ballot with smaller one")
      else
        moveBallots (·.replaceCurrent b) : DecreeM Unit)
        { d with trace := d.trace ++ [.updateBallot d.ballot b] } := rfl
  rw [program, if_neg running, if_neg notSmaller]
  rfl

theorem updateBallotIfNeeded_eq (b : Ballot) (running : d.ballot.currentPhase ≠ .externalize) :
    ∃ needed, updateBallotIfNeeded (some b) d =
        .done needed (d.moved (d.ballot.catchUpEvents b) (d.ballot.catchUp b) d.nextValue) ∧
      (needed = false → d.ballot.catchUp b = d.ballot) := by
  have program : updateBallotIfNeeded (some b) d =
      (if d.ballot.currentBallot.isNone ∨
          compareBallots d.ballot.currentBallot (some b) = .lt then do
        updateBallot (some b) true
        pure true
      else
        pure false : DecreeM Bool) d := rfl
  by_cases behind : d.ballot.currentBallot.isNone ∨
      compareBallots d.ballot.currentBallot (some b) = .lt
  · have forward := (BallotState.behind_iff _ _).mp behind
    refine ⟨true, ?_, by simp⟩
    rw [program, if_pos behind, bind_of_done (updateBallot_eq running
      fun _ old current => (forward old current).le), BallotState.catchUpEvents, if_pos behind,
      BallotState.catchUp, if_pos behind]
    rfl
  · refine ⟨false, ?_, fun _ => by rw [BallotState.catchUp, if_neg behind]⟩
    rw [program, if_neg behind, BallotState.catchUpEvents, if_neg behind, BallotState.catchUp,
      if_neg behind, DecreeState.moved, List.append_nil]
    rfl

theorem enterConfirm_eq (hb : Ballot) :
    enterConfirm ctx hb d = .done () ((d.resetQ ctx.nodeID).moved (d.ballot.enterEvents hb)
      (d.ballot.enterConfirm hb) d.nextValue) := by
  have entered : (enterConfirm ctx hb).Holds d
      (fun _ d' => d' = (d.resetQ ctx.nodeID).moved (d.ballot.enterEvents hb)
        (d.ballot.enterConfirm hb) d.nextValue) (fun _ _ => False) := by
    simp only [enterConfirm, moveBallots, holds_bind, holds_modify, holds_get]
    split_ifs with leaves
    · rw [BallotState.enterEvents, if_pos leaves, BallotState.enterConfirm, if_pos leaves,
        ← d.resetQ_moved _ d.nextValue]
      · rfl
      · unfold BallotState.replaceCurrent
        dsimp only
        split_ifs <;> rfl
    · rw [holds_modify, BallotState.enterEvents, if_neg leaves, BallotState.enterConfirm,
        if_neg leaves, ← d.resetQ_moved [] d.nextValue]
      · simp only [DecreeState.moved, List.append_nil]
      · rfl
  obtain ⟨_, _, ended, rfl⟩ := entered.exists_done
  exact ended

/-- How the functions that move the ballots end: they send what has changed. -/
def sendIfChanged (ctx : DecreeContext) (deliver : Delivery) (changed : Bool) : DecreeM Bool :=
  if changed then do
    let _ ← sendBallot ctx deliver
    pure true
  else
    pure false

theorem setConfirmPrepared_eq (cb : Option Ballot) (hb : Ballot)
    (running : d.ballot.currentPhase ≠ .externalize) :
    ∃ changed, setConfirmPrepared ctx deliver cb hb d = sendIfChanged ctx deliver changed
        (d.moved (.setConfirmPrepared d.ballot cb hb ::
            (d.ballot.confirmPrepared cb hb).1.catchUpEvents hb)
          ((d.ballot.confirmPrepared cb hb).1.catchUp hb) hb.value) ∧
      ((d.ballot.confirmPrepared cb hb).2 = true → changed = true) ∧
        (changed = false → (d.ballot.confirmPrepared cb hb).1.catchUp hb = d.ballot) := by
  have program : setConfirmPrepared ctx deliver cb hb d =
      (updateBallotIfNeeded (some hb) >>= fun needed =>
        sendIfChanged ctx deliver (needed || (d.ballot.confirmPrepared cb hb).2))
        (d.moved [.setConfirmPrepared d.ballot cb hb] (d.ballot.confirmPrepared cb hb).1
          hb.value) := rfl
  obtain ⟨needed, ended, unneeded⟩ := @updateBallotIfNeeded_eq
    (d.moved [.setConfirmPrepared d.ballot cb hb] (d.ballot.confirmPrepared cb hb).1 hb.value) hb
    (by simpa [DecreeState.moved] using running)
  refine ⟨needed || (d.ballot.confirmPrepared cb hb).2, ?_, by simp +contextual, ?_⟩
  · rw [program, bind_of_done ended, DecreeState.moved_moved]
    rfl
  · rw [Bool.or_eq_false_iff]
    rintro ⟨caughtUp, unchanged⟩
    exact (unneeded caughtUp).trans (d.ballot.confirmPrepared_unchanged unchanged)

theorem setAcceptCommit_of_confirm {cb hb : Ballot} (phase : d.ballot.currentPhase = .confirm)
    (changed : (d.ballot.acceptCommit cb hb).2 = true) :
    setAcceptCommit ctx deliver cb hb d = sendIfChanged ctx deliver true
      (d.moved (.setAcceptCommit d.ballot cb hb ::
          (d.ballot.acceptCommit cb hb).1.catchUpEvents hb)
        ((d.ballot.acceptCommit cb hb).1.catchUp hb) hb.value) := by
  have program : setAcceptCommit ctx deliver cb hb d =
      (updateBallotIfNeeded (d.ballot.acceptCommit cb hb).1.hBallot >>= fun _ =>
        sendIfChanged ctx deliver true)
        (d.moved [.setAcceptCommit d.ballot cb hb] (d.ballot.acceptCommit cb hb).1 hb.value) := by
    unfold setAcceptCommit
    rw [bind_of_done (rfl : record (.setAcceptCommit · cb hb) d = .done () _),
      bind_of_done (rfl : get _ = .done _ _)]
    simp only [phase, reduceCtorEq, if_false, changed, decide_false, Bool.or_false, if_true]
    rfl
  obtain ⟨needed, ended, -⟩ := @updateBallotIfNeeded_eq
    (d.moved [.setAcceptCommit d.ballot cb hb] (d.ballot.acceptCommit cb hb).1 hb.value) hb
    (by simp [DecreeState.moved, phase])
  rw [program, d.ballot.hBallot_acceptCommit, bind_of_done ended, DecreeState.moved_moved]
  rfl

theorem setAcceptCommit_of_prepare {cb hb : Ballot} (waiting : d.ballot.currentPhase = .prepare) :
    setAcceptCommit ctx deliver cb hb d = sendIfChanged ctx deliver true
      ((d.resetQ ctx.nodeID).moved (d.ballot.entryEvents cb hb) (d.ballot.entry cb hb)
        hb.value) := by
  obtain ⟨current, entered, -⟩ :=
    BallotState.enterConfirm_high (d.ballot.hBallot_acceptCommit cb hb)
  have high : ((d.ballot.acceptCommit cb hb).1.enterConfirm hb).hBallot = some hb := by
    rw [entered]
    exact d.ballot.hBallot_acceptCommit cb hb
  have program : setAcceptCommit ctx deliver cb hb d =
      (enterConfirm ctx hb >>= fun _ => get >>= fun d =>
        updateBallotIfNeeded d.ballot.hBallot >>= fun _ => sendIfChanged ctx deliver true)
        (d.moved [.setAcceptCommit d.ballot cb hb] (d.ballot.acceptCommit cb hb).1 hb.value) := by
    unfold setAcceptCommit
    rw [bind_of_done (rfl : record (.setAcceptCommit · cb hb) d = .done () _),
      bind_of_done (rfl : get _ = .done _ _)]
    simp only [waiting, decide_true, Bool.or_true, if_true]
    rfl
  have cleared : (d.moved [.setAcceptCommit d.ballot cb hb] (d.ballot.acceptCommit cb hb).1
      hb.value).resetQ ctx.nodeID = (d.resetQ ctx.nodeID).moved
        [.setAcceptCommit d.ballot cb hb]
        { (d.ballot.acceptCommit cb hb).1 with
          qBallot := (d.ballot.acceptCommit cb hb).1.qBallot.map fun _ => zeroBallot }
        hb.value := by
    obtain ⟨shared, accepted⟩ := d.ballot.acceptCommit_eq cb hb
    exact d.resetQ_moved _ _ (by rw [accepted]; rfl) ctx.nodeID
  obtain ⟨needed, ended, -⟩ := @updateBallotIfNeeded_eq ((d.resetQ ctx.nodeID).moved
    ([.setAcceptCommit d.ballot cb hb] ++ (d.ballot.acceptCommit cb hb).1.enterEvents hb)
    ((d.ballot.acceptCommit cb hb).1.enterConfirm hb) hb.value) hb
    (by simp [DecreeState.moved, entered])
  rw [program, bind_of_done (enterConfirm_eq hb), cleared, DecreeState.moved_moved]
  change (updateBallotIfNeeded ((d.ballot.acceptCommit cb hb).1.enterConfirm hb).hBallot >>=
    fun _ => sendIfChanged ctx deliver true) ((d.resetQ ctx.nodeID).moved
      ([.setAcceptCommit d.ballot cb hb] ++ (d.ballot.acceptCommit cb hb).1.enterEvents hb)
      ((d.ballot.acceptCommit cb hb).1.enterConfirm hb) hb.value) = _
  rw [high, bind_of_done ended, DecreeState.moved_moved]
  rfl

theorem acceptPrepared_eq {stmt : Pledge} {cand : Ballot}
    (running : d.ballot.currentPhase ≠ .externalize)
    (found : findAcceptPrepared ctx d (getPreparedCandidates stmt d.ballots) = .ok (some cand)) :
    acceptPrepared ctx deliver stmt d = sendIfChanged ctx deliver (d.ballot.acceptPrepared cand).2
      (d.moved [.setAcceptPrepared d.ballot cand] (d.ballot.acceptPrepared cand).1
        d.nextValue) := by
  unfold acceptPrepared
  rw [bind_of_done (rfl : get d = .done d d)]
  simp only [running, if_false, found]
  rfl

theorem setConfirmCommit_eq (cb hb : Ballot) (running : d.ballot.currentPhase ≠ .externalize) :
    setConfirmCommit ctx deliver cb hb d =
      (do
        let _ ← sendBallot ctx deliver
        modify fun d => { d with nominationStart := false }
        let d ← get
        match d.ballot.cBallot with
        | none => abort (.nilDereference "cBallot")
        | some c => do
          modify (·.externalize ctx.index c.value)
          pure true : DecreeM Bool)
      (d.moved ((d.ballot.holdCommit cb hb false).catchUpEvents hb)
        { (d.ballot.holdCommit cb hb false).catchUp hb with currentPhase := .externalize }
        d.nextValue) := by
  obtain ⟨needed, ended, -⟩ := @updateBallotIfNeeded_eq
    (d.moved [] (d.ballot.holdCommit cb hb false) d.nextValue) hb running
  rw [DecreeState.moved_moved] at ended
  have start : ({ d with ballot := d.ballot.holdCommit cb hb false } : DecreeState) =
      d.moved [] (d.ballot.holdCommit cb hb false) d.nextValue := by
    simp only [DecreeState.moved, List.append_nil]
  change (updateBallotIfNeeded (some hb) >>= _)
    ({ d with ballot := d.ballot.holdCommit cb hb false } : DecreeState) = _
  rw [start, bind_of_done ended]
  rfl

theorem updateBallotValue_cases (b : Ballot) :
    updateBallotValue b d = .done false d ∨ (∃ fault, updateBallotValue b d = .abort fault d) ∨
      d.ballot.currentPhase ≠ .externalize ∧
        (∀ c, d.ballot.currentBallot ≠ none → d.ballot.cBallot = some c → c.value = b.value) ∧
          (∀ old, d.ballot.currentBallot = some old → old ≤ b) ∧
            updateBallotValue b d = (do
              lift (d.ballot.replaceCurrent b).checkBallotInvariants
              pure true : DecreeM Bool)
              (d.moved [.updateBallot d.ballot b] (d.ballot.replaceCurrent b) d.nextValue) := by
  unfold updateBallotValue
  rw [bind_of_done (rfl : get d = .done d d)]
  split_ifs with externalized bound
  · exact .inl rfl
  · exact .inl rfl
  by_cases updates : d.ballot.currentBallot.isNone ∨
      (compareBallots d.ballot.currentBallot (some b)).isLE
  · have forward : ∀ old, d.ballot.currentBallot = some old → old ≤ b := by
      intro old current
      simpa [current] using updates
    refine .inr (.inr ⟨externalized, ?_, forward, ?_⟩)
    · intro c current commit
      obtain ⟨old, current⟩ := Option.ne_none_iff_exists'.mp current
      simpa [current, commit] using bound
    · simp only [updates, decide_true, if_true]
      rw [bind_of_done (updateBallot_eq externalized fun _ => forward)]
      rfl
  · simp only [updates, decide_false, Bool.false_eq_true, if_false]
    rw [bind_of_done (rfl : get d = .done d d)]
    cases d.ballot.checkBallotInvariants with
    | error fault => exact .inr (.inl ⟨fault, rfl⟩)
    | ok _ => exact .inl rfl

end Programs

end Ultiledger
