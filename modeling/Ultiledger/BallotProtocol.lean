import Ultiledger.BallotDecisions

/-!
# The ballot protocol

The functions of `consensus/decree.go` that move the ballots and deliver the
decree's own statements to itself.  `recvBallot`, `step` and `sendBallot` call each
other: the delivery is a parameter, and `recvBallot` ties the knot with a bound on the
depth that the source does not have.
-/

namespace Ultiledger

open AbortingProgram Program

abbrev DecreeM := Program DecreeState Fault

/-- The delivery of a statement, which is either assembled by the decree itself
or has come from outside. -/
abbrev Delivery := Statement → Bool → DecreeM (Except String Unit)

namespace BallotState

variable (d : BallotState)

/-- The last lines of `updateBallot`. -/
def replaceCurrent (b : Ballot) : BallotState :=
  let d := { d with currentBallot := some b }
  if d.hBallot.isSome ∧ ¬ compatibleBallots d.currentBallot d.hBallot then d.resetH else d

/-- `setAcceptPrepared`, and whether it updates anything. -/
def setAcceptPrepared (b : Ballot) : BallotState × Bool :=
  match d.pBallot with
  | none => ({ d with pBallot := some b }, true)
  | some p =>
    match compareBallots (some b) (some p) with
    | .lt =>
      if d.qBallot.isNone ∨ (compareBallots (some b) d.qBallot = .gt ∧
          ¬ compatibleBallots (some b) (some p)) then
        ({ d with qBallot := some b }, true)
      else
        (d, false)
    | .eq => (d, false)
    | .gt =>
      if compatibleBallots (some b) (some p) then
        ({ d with pBallot := some b }, true)
      else
        ({ d with pBallot := some b, qBallot := some p }, true)

/-- The test of `acceptPrepared` whether the commit ballot has to be given up. -/
def losesCommit : Bool :=
  d.cBallot.isSome && d.hBallot.isSome && decide (d.currentPhase = .prepare) &&
    ((d.pBallot.isSome && lessAndIncompatibleBallots d.hBallot d.pBallot) ||
      (d.qBallot.isSome && lessAndIncompatibleBallots d.hBallot d.qBallot))

/-- The ballots after `acceptPrepared` has accepted `b`, before it sends. -/
def acceptPrepared (b : Ballot) : BallotState × Bool :=
  let accepted := d.setAcceptPrepared b
  if accepted.1.losesCommit then (accepted.1.resetC, true) else accepted

/-- The new high ballot of `setConfirmPrepared`. -/
def raiseHigh (hb : Ballot) : BallotState × Bool :=
  if d.hBallot.isNone ∨ compareBallots d.hBallot (some hb) = .lt then
    ({ d with hBallot := some hb, hIsC := false }, true)
  else
    (d, false)

/-- The new commit ballot of `setConfirmPrepared`.  A nil candidate is below
every commit ballot, so it removes the one there is. -/
def lowerCommit (cb : Option Ballot) (sharesHigh : Bool) : BallotState × Bool :=
  if d.cBallot.isNone ∨ compareBallots cb d.cBallot = .lt then
    ({ d with cBallot := cb, hIsC := sharesHigh }, true)
  else
    (d, false)

/-- The first half of `setConfirmPrepared`. -/
def confirmPrepared (cb : Option Ballot) (hb : Ballot) : BallotState × Bool :=
  if d.currentBallot.isNone ∨ compatibleBallots d.currentBallot (some hb) then
    let raised := d.raiseHigh hb
    let lowered := raised.1.lowerCommit cb (raised.2 && decide (cb = some hb))
    (lowered.1, raised.2 || lowered.2)
  else
    (d, false)

/-- The first lines of `setAcceptCommit`. -/
def acceptCommit (cb hb : Ballot) : BallotState × Bool :=
  if d.hBallot.isNone ∨ d.cBallot.isNone ∨ compareBallots d.hBallot (some hb) ≠ .eq ∨
      compareBallots d.cBallot (some cb) ≠ .eq then
    ({ d with hBallot := some hb, cBallot := some cb, hIsC := false }, true)
  else
    (d, false)

end BallotState

namespace DecreeState

variable (d : DecreeState)

/-- `qBallot.Reset()`, seen also through the statements that hold this q. -/
def resetQ (nodeID : String) : DecreeState :=
  match d.ballot.qBallot with
  | none => d
  | some q =>
    { d with
      ballot := { d.ballot with qBallot := some zeroBallot }
      clearedQ := some q
      ballots :=
        match d.ownIsAssembled, d.ballots.lookup nodeID with
        | true, some pledge => d.ballots.insert nodeID (pledge.clear q)
        | _, _ => d.ballots
      latestBallot := d.latestBallot.map (·.clear q) }

def storeBallot (ownID nodeID : String) (pledge : Pledge) (assembled : Bool) : DecreeState :=
  { d with
    ballots := d.ballots.insert nodeID pledge
    ownIsAssembled := if nodeID = ownID then assembled else d.ownIsAssembled }

/-- The latest statement becomes this one and is put on the channel. -/
def announce (nodeID : String) (index : Nat) (pledge : Pledge) : DecreeState :=
  { d with
    latestBallot := some pledge
    statementChan := d.statementChan ++ [pledge.statement nodeID index] }

def resend (nodeID : String) (index : Nat) : DecreeState :=
  { d with
    statementChan := d.statementChan ++
      (d.latestBallot.map (·.statement nodeID index)).toList }

def externalize (index : Nat) (value : String) : DecreeState :=
  { d with externalizeChan := d.externalizeChan ++ [⟨index, value⟩] }

/-- The value of a new ballot in `updateBallotPhaseWithCounter`. -/
def nextOr (val : String) : String :=
  if d.nextValue ≠ "" then d.nextValue else val

/-- The value that `abandonBallot` goes on with. -/
def abandonValue : String :=
  if d.latestComposite ≠ "" then d.latestComposite
  else (d.ballot.currentBallot.map (·.value)).getD ""

def reread (pledge : Pledge) : Pledge :=
  match d.clearedQ with
  | none => pledge
  | some q => pledge.clear q

end DecreeState

def isNews (known : Option Pledge) (stmt : Statement) : Except Fault Bool :=
  match known with
  | none => .ok true
  | some s => isNewerBallot s stmt

def record (event : BallotState → BallotEvent) : DecreeM Unit :=
  modify fun d => { d with trace := d.trace ++ [event d.ballot] }

def moveBallots (move : BallotState → BallotState) : DecreeM Unit :=
  modify fun d => { d with ballot := move d.ballot }

section Sending

variable (ctx : DecreeContext) (deliver : Delivery)

/-- The end of `sendBallot`: remember and broadcast the statement if it is newer
than the latest one. -/
def broadcastBallot (stmt : Pledge) : DecreeM Unit := do
  let d ← get
  if d.ballot.currentBallot.isNone then
    pure ()
  else
    let stmt := d.reread stmt
    if ← lift (isNews d.latestBallot (stmt.statement ctx.nodeID ctx.index)) then
      modify (·.announce ctx.nodeID ctx.index stmt)
    else
      pure ()

def sendBallot : DecreeM (Except String Unit) := do
  let d ← get
  lift d.ballot.checkBallotInvariants
  match ← lift (assembleBallot ctx d.ballot) with
  | none => pure (.ok ())
  | some stmt => do
    record (.sendBallot · stmt)
    if d.ballots.lookup ctx.nodeID = some stmt then
      pure (.ok ())
    else
      match ← deliver (stmt.statement ctx.nodeID ctx.index) true with
      | .error err => pure (.error ("recv local ballot failed: " ++ err))
      | .ok () => do
        broadcastBallot ctx stmt
        pure (.ok ())

def updateBallot (b : Option Ballot) (check : Bool) : DecreeM Unit :=
  match b with
  | none => abort (.fatal "cannot update ballot with nil ballot")
  | some b => do
    record (.updateBallot · b)
    let d ← get
    if d.ballot.currentPhase = .externalize then
      abort (.fatal "should not update ballot in externalize phase")
    else if check ∧ compareBallots d.ballot.currentBallot (some b) = .gt then
      abort (.fatal "cannot update current ballot with smaller one")
    else
      moveBallots (·.replaceCurrent b)

def updateBallotIfNeeded (b : Option Ballot) : DecreeM Bool := do
  let d ← get
  if d.ballot.currentBallot.isNone ∨ compareBallots d.ballot.currentBallot b = .lt then do
    updateBallot b true
    pure true
  else
    pure false

def updateBallotValue (b : Ballot) : DecreeM Bool := do
  let d ← get
  if d.ballot.currentPhase = .externalize then
    pure false
  else if d.ballot.currentBallot.isSome ∧ d.ballot.cBallot.isSome ∧
      ¬ compatibleBallots d.ballot.cBallot (some b) then
    pure false
  else do
    let updated := decide (d.ballot.currentBallot.isNone ∨
      (compareBallots d.ballot.currentBallot (some b)).isLE)
    if updated then updateBallot (some b) true else pure ()
    let d ← get
    lift d.ballot.checkBallotInvariants
    pure updated

def updateBallotPhaseWithCounter (val : String) (counter : Nat) : DecreeM Bool := do
  let d ← get
  if d.ballot.currentPhase = .externalize then
    pure false
  else do
    let updated ← updateBallotValue ⟨counter, d.nextOr val⟩
    if updated then do
      let _ ← sendBallot ctx deliver
      pure true
    else
      pure false

/-- `updateBallotPhase`; the counter is a `uint32`. -/
def updateBallotPhase (val : String) (force : Bool) : DecreeM Bool := do
  let d ← get
  if !force ∧ d.ballot.currentBallot.isSome then
    pure false
  else
    let counter := match d.ballot.currentBallot with
      | none => 1
      | some b => (b.counter + 1) % 2 ^ 32
    updateBallotPhaseWithCounter ctx deliver val counter

def abandonBallot (c : Nat) : DecreeM Bool := do
  let d ← get
  if d.abandonValue = "" then
    pure false
  else if c = 0 then
    updateBallotPhase ctx deliver d.abandonValue true
  else
    updateBallotPhaseWithCounter ctx deliver d.abandonValue c

def update : DecreeM Bool := do
  let d ← get
  match ← lift (findUpdate d) with
  | none => pure false
  | some c => abandonBallot ctx deliver c

/-- The loop of `step` around `update`. -/
def updateLoop : Nat → DecreeM Bool
  | 0 => abort .outOfFuel
  | fuel + 1 => do
    if ← update ctx deliver then do
      let _ ← updateLoop fuel
      pure true
    else
      pure false

end Sending

section Voting

variable (ctx : DecreeContext) (deliver : Delivery)

def acceptPrepared (stmt : Pledge) : DecreeM Bool := do
  let d ← get
  if d.ballot.currentPhase = .externalize then
    pure false
  else
    match ← lift (findAcceptPrepared ctx d (getPreparedCandidates stmt d.ballots)) with
    | none => pure false
    | some cand => do
      record (.setAcceptPrepared · cand)
      let accepted := d.ballot.acceptPrepared cand
      moveBallots fun _ => accepted.1
      if accepted.2 then do
        let _ ← sendBallot ctx deliver
        pure true
      else
        pure false

def setConfirmPrepared (cb : Option Ballot) (hb : Ballot) : DecreeM Bool := do
  record (.setConfirmPrepared · cb hb)
  let d ← get
  let confirmed := d.ballot.confirmPrepared cb hb
  modify fun d => { d with nextValue := hb.value, ballot := confirmed.1 }
  let needed ← updateBallotIfNeeded (some hb)
  if needed || confirmed.2 then do
    let _ ← sendBallot ctx deliver
    pure true
  else
    pure false

def confirmPrepared (stmt : Pledge) : DecreeM Bool := do
  let d ← get
  match ← lift (findConfirmPrepared ctx d stmt) with
  | none => pure false
  | some (cb, hb) => setConfirmPrepared ctx deliver cb hb

/-- The entry to the confirm phase in `setAcceptCommit`. -/
def enterConfirm (hb : Ballot) : DecreeM Unit := do
  moveBallots fun d => { d with currentPhase := .confirm }
  let d ← get
  if d.ballot.currentBallot.isSome ∧
      ¬ lessAndCompatibleBallots (some hb) d.ballot.currentBallot then
    updateBallot (some hb) false
  else
    pure ()
  modify (·.resetQ ctx.nodeID)

def setAcceptCommit (cb hb : Ballot) : DecreeM Bool := do
  record (.setAcceptCommit · cb hb)
  let d ← get
  let accepted := d.ballot.acceptCommit cb hb
  modify fun d => { d with nextValue := hb.value, ballot := accepted.1 }
  if d.ballot.currentPhase = .prepare then enterConfirm ctx hb else pure ()
  if accepted.2 || decide (d.ballot.currentPhase = .prepare) then do
    let d ← get
    let _ ← updateBallotIfNeeded d.ballot.hBallot
    let _ ← sendBallot ctx deliver
    pure true
  else
    pure false

def acceptCommit (stmt : Pledge) : DecreeM Bool := do
  let d ← get
  match ← lift (findAcceptCommit ctx d stmt) with
  | none => pure false
  | some (cb, hb) => setAcceptCommit ctx deliver cb hb

def setConfirmCommit (cb hb : Ballot) : DecreeM Bool := do
  moveBallots fun d => { d with cBallot := some cb, hBallot := some hb, hIsC := false }
  let _ ← updateBallotIfNeeded (some hb)
  moveBallots fun d => { d with currentPhase := .externalize }
  let _ ← sendBallot ctx deliver
  modify fun d => { d with nominationStart := false }
  let d ← get
  match d.ballot.cBallot with
  | none => abort (.nilDereference "cBallot")
  | some c => do
    modify (·.externalize ctx.index c.value)
    pure true

def confirmCommit (stmt : Pledge) : DecreeM Bool := do
  let d ← get
  match ← lift (findConfirmCommit ctx d stmt) with
  | none => pure false
  | some (cb, hb) => setConfirmCommit ctx deliver cb hb

/-- The four attempts of `step` and the loop after them. -/
def advance (fuel : Nat) (stmt : Pledge) : DecreeM Bool := do
  let preparedAccepted ← acceptPrepared ctx deliver stmt
  let preparedConfirmed ← confirmPrepared ctx deliver stmt
  let commitAccepted ← acceptCommit ctx deliver stmt
  let commitConfirmed ← confirmCommit ctx deliver stmt
  let d ← get
  let counterUpdated ←
    if d.ballotMsgCount = 1 then updateLoop ctx deliver fuel else pure false
  pure (preparedAccepted || preparedConfirmed || commitAccepted || commitConfirmed ||
    counterUpdated)

def step (fuel : Nat) (stmt : Pledge) : DecreeM (Except String Unit) := do
  modify fun d => { d with ballotMsgCount := d.ballotMsgCount + 1 }
  let d ← get
  if d.ballotMsgCount = d.maxRecursions then do
    record .stepLimit
    pure (.error "max number of invoking reached in step")
  else do
    let updated ← advance ctx deliver fuel stmt
    modify fun d => { d with ballotMsgCount := d.ballotMsgCount - 1 }
    if updated then modify (·.resend ctx.nodeID ctx.index) else pure ()
    pure (.ok ())

def handleBallot (fuel : Nat) (nodeID : String) (pledge : Pledge) (assembled : Bool) :
    DecreeM (Except String Unit) := do
  let d ← get
  if d.ballot.currentPhase ≠ .externalize then do
    modify (·.storeBallot ctx.nodeID nodeID pledge assembled)
    match ← step ctx deliver fuel pledge with
    | .error err => pure (.error ("step forward ballot state failed: " ++ err))
    | .ok () => pure (.ok ())
  else
    match d.ballot.cBallot, getWorkingBallot pledge with
    | some c, some wb =>
      if c.value ≠ wb.value then
        pure (.error "incompatible working ballot value")
      else do
        modify (·.storeBallot ctx.nodeID nodeID pledge assembled)
        pure (.ok ())
    | none, _ => abort (.nilDereference "cBallot")
    | _, none => abort (.nilDereference "prepare.B")

/-- `recvBallot` with a given delivery of the decree's own statements. -/
def receiveBallot (world : World) (fuel : Nat) (stmt : Statement) (assembled : Bool) :
    DecreeM (Except String Unit) := do
  if stmt.index ≠ ctx.index then
    pure (.error "ballot indices are incompatible")
  else do
    let d ← get
    if ← lift (isNews (d.ballots.lookup stmt.nodeID) stmt) then
      match ← lift (validateBallot ctx world d stmt) with
      | .error err => pure (.error ("ballot is invalid: " ++ err))
      | .ok pledge => handleBallot ctx deliver fuel stmt.nodeID pledge assembled
    else
      pure (.ok ())

end Voting

def recvBallot (ctx : DecreeContext) (world : World) : Nat → Delivery
  | 0 => fun _ _ => abort .outOfFuel
  | fuel + 1 => receiveBallot ctx (recvBallot ctx world fuel) world fuel

end Ultiledger
