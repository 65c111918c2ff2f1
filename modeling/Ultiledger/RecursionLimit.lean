import Ultiledger.BallotProtocol

/-! # The count of nested steps

The count is not taken back where the limit ends a step, so a call leaves the count it
has found and one more for every such step.
-/

namespace Ultiledger

open AbortingProgram Program

def BallotEvent.isLimit : BallotEvent → Bool
  | .stepLimit _ => true
  | _ => false

def DecreeState.limitsHit (d : DecreeState) : Nat := d.trace.countP BallotEvent.isLimit

def Tallied (d d' : DecreeState) : Prop :=
  ∃ ended, d'.ballotMsgCount = d.ballotMsgCount + ended ∧ d'.limitsHit = d.limitsHit + ended

abbrev Tallies {Value : Type} (program : DecreeM Value) : Prop :=
  Leads (fun _ => True) Tallied (fun _ _ => True) program

theorem tallyJourney : Journey (fun _ => True) Tallied (fun _ _ => True) where
  refl d := ⟨0, rfl, rfl⟩
  trans first second third early late := by
    obtain ⟨earlyEnded, earlyCount, earlyLimits⟩ := early
    obtain ⟨lateEnded, lateCount, lateLimits⟩ := late
    exact ⟨earlyEnded + lateEnded, by omega, by omega⟩
  keeps _ _ _ _ := trivial
  halt _ := trivial
  resume _ _ _ _ _ := trivial

section Pieces

theorem modify_tallies {change : DecreeState → DecreeState}
    (count : ∀ d, (change d).ballotMsgCount = d.ballotMsgCount)
    (trace : ∀ d, (change d).trace = d.trace) : Tallies (modify change : DecreeM Unit) := by
  intro d _
  refine ⟨0, count d, ?_⟩
  simp only [DecreeState.limitsHit, trace, Nat.add_zero]

theorem record_tallies {event : BallotState → BallotEvent}
    (other : ∀ before, (event before).isLimit = false) : Tallies (record event) := by
  intro d _
  refine ⟨0, rfl, ?_⟩
  simp [DecreeState.limitsHit, List.countP_append, other]

theorem moveBallots_tallies (move : BallotState → BallotState) : Tallies (moveBallots move) :=
  modify_tallies (fun _ => rfl) (fun _ => rfl)

theorem resetQ_tallies (nodeID : String) :
    Tallies (modify (DecreeState.resetQ · nodeID) : DecreeM Unit) := by
  apply modify_tallies
  · intro d
    unfold DecreeState.resetQ
    cases d.ballot.qBallot <;> rfl
  · intro d
    unfold DecreeState.resetQ
    cases d.ballot.qBallot <;> rfl

end Pieces

section Sending

variable {ctx : DecreeContext} {deliver : Delivery}

theorem broadcastBallot_tallies (stmt : Pledge) : Tallies (broadcastBallot ctx stmt) := by
  apply tallyJourney.get
  intro d
  split_ifs
  · exact tallyJourney.pure ()
  · apply tallyJourney.bind (tallyJourney.lift _)
    intro news
    split_ifs
    · exact modify_tallies (fun _ => rfl) (fun _ => rfl)
    · exact tallyJourney.pure ()

theorem updateBallot_tallies (b : Option Ballot) (check : Bool) :
    Tallies (updateBallot b check) := by
  cases b with
  | none => exact tallyJourney.abort _
  | some b =>
    apply tallyJourney.bind (record_tallies fun _ => rfl)
    intro _
    apply tallyJourney.get
    intro d
    split_ifs
    · exact tallyJourney.abort _
    · exact tallyJourney.abort _
    · exact moveBallots_tallies _

theorem updateBallotIfNeeded_tallies (b : Option Ballot) : Tallies (updateBallotIfNeeded b) := by
  apply tallyJourney.get
  intro d
  split_ifs
  · exact tallyJourney.andReturn (updateBallot_tallies b true) true
  · exact tallyJourney.pure false

theorem updateBallotValue_tallies (b : Ballot) : Tallies (updateBallotValue b) := by
  have checked : ∀ updated : Bool, Tallies (do
      let d ← get
      lift d.ballot.checkBallotInvariants
      pure updated : DecreeM Bool) :=
    fun updated => tallyJourney.get fun d => tallyJourney.andReturn (tallyJourney.lift _) updated
  apply tallyJourney.get
  intro d
  dsimp only
  split_ifs
  · exact tallyJourney.pure false
  · exact tallyJourney.pure false
  · exact tallyJourney.bind (updateBallot_tallies _ true) fun _ => checked _
  · exact checked _

variable (deliveries : ∀ stmt assembled, Tallies (deliver stmt assembled))

include deliveries

theorem sendBallot_tallies : Tallies (sendBallot ctx deliver) := by
  intro d
  apply tallyJourney.bind (tallyJourney.lift _)
  intro _
  apply tallyJourney.bind (tallyJourney.lift _)
  intro message
  cases message with
  | none => exact tallyJourney.pure _
  | some stmt =>
    apply tallyJourney.bind (record_tallies fun _ => rfl)
    intro _
    split_ifs
    · exact tallyJourney.pure _
    · apply tallyJourney.bind (deliveries _ true)
      intro result
      cases result with
      | error err => exact tallyJourney.pure _
      | ok _ => exact tallyJourney.andReturn (broadcastBallot_tallies stmt) _

theorem updateBallotPhaseWithCounter_tallies (val : String) (counter : Nat) :
    Tallies (updateBallotPhaseWithCounter ctx deliver val counter) := by
  apply tallyJourney.get
  intro d
  split_ifs
  · exact tallyJourney.pure false
  · apply tallyJourney.bind (updateBallotValue_tallies _)
    intro updated
    split_ifs
    · exact tallyJourney.andReturn (sendBallot_tallies deliveries) true
    · exact tallyJourney.pure false

theorem updateBallotPhase_tallies (val : String) (force : Bool) :
    Tallies (updateBallotPhase ctx deliver val force) := by
  apply tallyJourney.get
  intro d
  split_ifs
  · exact tallyJourney.pure false
  · exact updateBallotPhaseWithCounter_tallies deliveries val _

theorem abandonBallot_tallies (c : Nat) : Tallies (abandonBallot ctx deliver c) := by
  apply tallyJourney.get
  intro d
  split_ifs
  · exact tallyJourney.pure false
  · exact updateBallotPhase_tallies deliveries _ true
  · exact updateBallotPhaseWithCounter_tallies deliveries _ c

theorem update_tallies : Tallies (update ctx deliver) := by
  intro d
  apply tallyJourney.bind (tallyJourney.lift _)
  intro choice
  cases choice with
  | none => exact tallyJourney.pure false
  | some c => exact abandonBallot_tallies deliveries c

theorem updateLoop_tallies (fuel : Nat) : Tallies (updateLoop ctx deliver fuel) := by
  induction fuel with
  | zero => exact tallyJourney.abort _
  | succ fuel ih =>
    apply tallyJourney.bind (update_tallies deliveries)
    intro updated
    split_ifs
    · exact tallyJourney.andReturn ih true
    · exact tallyJourney.pure false

end Sending

section Voting

variable {ctx : DecreeContext} {deliver : Delivery}
  (deliveries : ∀ stmt assembled, Tallies (deliver stmt assembled))

include deliveries

theorem acceptPrepared_tallies (stmt : Pledge) : Tallies (acceptPrepared ctx deliver stmt) := by
  apply tallyJourney.get
  intro d
  split_ifs
  · exact tallyJourney.pure false
  apply tallyJourney.bind (tallyJourney.lift _)
  intro choice
  cases choice with
  | none => exact tallyJourney.pure false
  | some cand =>
    apply tallyJourney.bind (record_tallies fun _ => rfl)
    intro _
    apply tallyJourney.bind (moveBallots_tallies _)
    intro _
    split_ifs
    · exact tallyJourney.andReturn (sendBallot_tallies deliveries) true
    · exact tallyJourney.pure false

theorem confirmPrepared_tallies (stmt : Pledge) : Tallies (confirmPrepared ctx deliver stmt) := by
  apply tallyJourney.get
  intro d
  apply tallyJourney.bind (tallyJourney.lift _)
  intro choice
  cases choice with
  | none => exact tallyJourney.pure false
  | some choice =>
    apply tallyJourney.bind (record_tallies fun _ => rfl)
    intro _
    apply tallyJourney.get
    intro d _
    apply tallyJourney.bind (updateBallotIfNeeded_tallies _)
    intro needed
    split_ifs
    · exact tallyJourney.andReturn (sendBallot_tallies deliveries) true
    · exact tallyJourney.pure false

omit deliveries in
theorem enterConfirm_tallies (hb : Ballot) : Tallies (enterConfirm ctx hb) := by
  apply tallyJourney.bind (moveBallots_tallies _)
  intro _
  apply tallyJourney.get
  intro d
  split_ifs
  · exact tallyJourney.bind (updateBallot_tallies _ false) fun _ => resetQ_tallies _
  · exact resetQ_tallies _

theorem acceptCommit_tallies (stmt : Pledge) : Tallies (acceptCommit ctx deliver stmt) := by
  have sending : Tallies (do
      let d ← get
      let _ ← updateBallotIfNeeded d.ballot.hBallot
      let _ ← sendBallot ctx deliver
      pure true : DecreeM Bool) :=
    tallyJourney.get fun d => tallyJourney.bind (updateBallotIfNeeded_tallies _) fun _ =>
      tallyJourney.andReturn (sendBallot_tallies deliveries) true
  intro d
  apply tallyJourney.bind (tallyJourney.lift _)
  intro choice
  cases choice with
  | none => exact tallyJourney.pure false
  | some choice =>
    apply tallyJourney.bind (record_tallies fun _ => rfl)
    intro _
    apply tallyJourney.get
    intro d
    refine tallyJourney.bind (modify_tallies (fun _ => rfl) fun _ => rfl) ?_
    intro _
    split_ifs
    · exact tallyJourney.bind (enterConfirm_tallies _) fun _ => sending
    · exact sending
    · exact tallyJourney.andReturn (enterConfirm_tallies _) false
    · exact tallyJourney.pure false

theorem confirmCommit_tallies (stmt : Pledge) : Tallies (confirmCommit ctx deliver stmt) := by
  intro d
  apply tallyJourney.bind (tallyJourney.lift _)
  intro choice
  cases choice with
  | none => exact tallyJourney.pure false
  | some choice =>
    intro _
    apply tallyJourney.bind (updateBallotIfNeeded_tallies _)
    intro _
    apply tallyJourney.bind (moveBallots_tallies _)
    intro _
    apply tallyJourney.bind (sendBallot_tallies deliveries)
    intro _
    refine tallyJourney.bind (modify_tallies (fun _ => rfl) fun _ => rfl) ?_
    intro _
    apply tallyJourney.get
    intro d
    cases d.ballot.cBallot with
    | none => exact tallyJourney.abort _
    | some c => exact tallyJourney.andReturn (modify_tallies (fun _ => rfl) fun _ => rfl) true

theorem advance_tallies (fuel : Nat) (stmt : Pledge) : Tallies (advance ctx deliver fuel stmt) := by
  apply tallyJourney.bind (acceptPrepared_tallies deliveries stmt)
  intro _
  apply tallyJourney.bind (confirmPrepared_tallies deliveries stmt)
  intro _
  apply tallyJourney.bind (acceptCommit_tallies deliveries stmt)
  intro _
  apply tallyJourney.bind (confirmCommit_tallies deliveries stmt)
  intro _
  apply tallyJourney.get
  intro d
  split_ifs
  · exact tallyJourney.bind (updateLoop_tallies deliveries fuel) fun _ => tallyJourney.pure _
  · exact tallyJourney.pure _

/-- The count is taken back, but not what the steps that the limit has ended have
left on it. -/
theorem step_tallies (fuel : Nat) (stmt : Pledge) : Tallies (step ctx deliver fuel stmt) := by
  intro d _
  simp only [step, record, holds_bind, holds_modify, holds_get]
  split_ifs with atLimit
  · refine ⟨1, rfl, ?_⟩
    simp [DecreeState.limitsHit, BallotEvent.isLimit]
  · rw [holds_bind]
    refine (advance_tallies deliveries fuel stmt _ trivial).imp ?_
    rintro updated final ⟨ended, count, limits⟩
    have returned : Tallied d { final with ballotMsgCount := final.ballotMsgCount - 1 } := by
      refine ⟨ended, ?_, limits⟩
      simp only at count ⊢
      omega
    split_ifs
    · exact tallyJourney.trans _ _ _ returned ⟨0, rfl, rfl⟩
    · exact returned

theorem receiveBallot_tallies (world : World) (fuel : Nat) (stmt : Statement)
    (assembled : Bool) : Tallies (receiveBallot ctx deliver world fuel stmt assembled) := by
  unfold receiveBallot
  split_ifs
  · exact tallyJourney.pure _
  intro d
  apply tallyJourney.bind (tallyJourney.lift _)
  intro news
  split_ifs
  · apply tallyJourney.bind (tallyJourney.lift _)
    intro verdict
    cases verdict with
    | error err => exact tallyJourney.pure _
    | ok pledge =>
      have stores : Tallies (modify (·.storeBallot ctx.nodeID stmt.nodeID pledge assembled) :
          DecreeM Unit) := modify_tallies (fun _ => rfl) fun _ => rfl
      apply tallyJourney.get
      intro d
      split_ifs
      · intro _
        apply tallyJourney.bind (step_tallies deliveries fuel pledge)
        intro result
        cases result with
        | error err => exact tallyJourney.pure _
        | ok _ => exact tallyJourney.pure _
      · split
        · split_ifs
          · exact tallyJourney.pure _
          · exact tallyJourney.andReturn stores _
        · exact tallyJourney.abort _
        · exact tallyJourney.abort _
  · exact tallyJourney.pure _

end Voting

theorem recvBallot_tallies (ctx : DecreeContext) (world : World) (fuel : Nat) :
    ∀ stmt assembled, Tallies (recvBallot ctx world fuel stmt assembled) := by
  induction fuel with
  | zero => exact fun _ _ => tallyJourney.abort _
  | succ fuel ih => exact fun stmt => receiveBallot_tallies ih world fuel stmt

/-- The count of a decree is zero again after a statement exactly when the limit has ended
none of the steps it has led to. -/
theorem recvBallot_restores_count_iff (ctx : DecreeContext) (world : World) (fuel : Nat)
    (stmt : Statement) (assembled : Bool) {d d' : DecreeState} {result : Except String Unit}
    (idle : d.ballotMsgCount = 0)
    (returned : recvBallot ctx world fuel stmt assembled d = .done result d') :
    d'.ballotMsgCount = 0 ↔ d'.limitsHit = d.limitsHit := by
  obtain ⟨ended, count, limits⟩ :=
    (holds_of_done returned).mp (recvBallot_tallies ctx world fuel stmt assembled d trivial)
  omega

private def callersQuorum : Quorum := .mk (1 / 2) ["a", "b"] []

private def callersContext : DecreeContext :=
  .plain 7 "n" callersQuorum (fun _ => some callersQuorum) (fun _ => 0)

private def preparedByPeer : Statement :=
  (Pledge.prepare ⟨some ⟨1, "v"⟩, some ⟨1, "v"⟩, none, 0, 0, "a"⟩).statement "a" 7

private def limitedDecree (maxRecursions : Nat) : DecreeState :=
  { newDecree callersContext with maxRecursions := maxRecursions }

private def afterPeer (maxRecursions : Nat) : Outcome DecreeState Fault (Except String Unit) :=
  recvBallot callersContext .plain 12 preparedByPeer false (limitedDecree maxRecursions)

/-- The decree confirms the ballot of its peer and delivers its own statement to itself,
within the limit. -/
theorem recvBallot_restores_count_within_limit :
    (limitedDecree 10).ballotMsgCount = 0 ∧ (afterPeer 10).state.ballotMsgCount = 0 := by
  obtain ⟨result, returned⟩ := Outcome.exists_eq_done
    (show (afterPeer 10).isDone = true by decide +kernel)
  refine ⟨rfl, (recvBallot_restores_count_iff callersContext .plain 12 preparedByPeer false rfl
    returned).mpr ?_⟩
  decide +kernel

/-- With a limit of two, the step of the nested delivery hits it.  The statement is
received, but the count stays at one. -/
theorem recvBallot_leaves_count :
    (limitedDecree 2).ballotMsgCount = 0 ∧ (limitedDecree 2).maxRecursions = 2 ∧
      (afterPeer 2).isDone = true ∧ (afterPeer 2).state.limitsHit = 1 ∧
        (afterPeer 2).state.ballotMsgCount = 1 := by
  refine ⟨rfl, rfl, ?_, ?_, ?_⟩ <;> decide +kernel

end Ultiledger
