import Ultiledger.Nomination

/-!
# The ledger manager

`ledger/manager.go` and `ledger/buffer.go`: closing ledgers, catching up with
downloaded ledgers, and recovering from the checkpoint.

Sequence numbers are natural numbers and the bucket holds messages, not encodings.
Failing writes, the clock and the order of a transaction list are parameters of a step.
The goroutine of `Start` is taken apart into the steps between which a `RecvExtVal` may
come.  The log of close infos is not part of the program.
-/

namespace Ultiledger

open AbortingProgram Program

/-- `LedgerState` of the manager. -/
inductive LedgerSyncState where
  | synced
  | syncing
  | notSynced
  deriving DecidableEq, Repr

structure LedgerHeader where
  version : Nat
  prevLedgerHash : String
  txSetHash : String
  consensusValue : String
  maxTxListSize : Nat
  seqNum : Nat
  totalTokens : Int64
  baseFee : Int64
  baseReserve : Int64
  deriving DecidableEq, Repr

structure LedgerCheckpoint where
  lastCloseTime : Int
  ledgerHeaderCount : Int
  largestConsensusIndex : Nat
  prevLedgerHeader : Option LedgerHeader
  prevLedgerHeaderHash : String
  currLedgerHeader : Option LedgerHeader
  currLedgerHeaderHash : String
  deriving DecidableEq, Repr

structure CloseInfo where
  index : Nat
  value : String
  txSet : TxSet
  deriving DecidableEq, Repr

inductive LedgerRecord where
  | header (header : LedgerHeader)
  | checkpoint (checkpoint : LedgerCheckpoint)
  deriving DecidableEq, Repr

structure LedgerContext where
  marshalHeader : LedgerHeader → Except String (List UInt8)
  marshalCheckpoint : LedgerCheckpoint → Except String (List UInt8)
  headerKey : List UInt8 → String
  getTxSetKey : TxSet → Except String String
  decodeBase58 : String → Except String (List UInt8)
  decodeConsensusValue : List UInt8 → Except String ConsensusValue

def LedgerContext.getLedgerHeaderKey (ctx : LedgerContext) (lh : LedgerHeader) :
    Except String String :=
  (ctx.marshalHeader lh).map ctx.headerKey

/-- What a step meets: the clock, the order of the transactions, and how the two
writes of `advanceLedger` end. -/
structure LedgerMoment where
  now : Nat
  schedule : Schedule
  putHeader : Except String Unit
  putCheckpoint : Except String Unit

def LedgerMoment.WritesSucceed (moment : LedgerMoment) : Prop :=
  moment.putHeader = .ok () ∧ moment.putCheckpoint = .ok ()

inductive CatchUp where
  | waiting
  | received (info : CloseInfo)
  | checkSize
  | peekHead
  | loopSize
  | popHead
  | closing (head : CloseInfo)
  | clearing
  | settingSynced
  deriving DecidableEq, Repr

/-- The fields of `Manager` that `advanceLedger` moves, with the bucket and the
log. -/
structure LedgerCore where
  lastCloseTime : Int
  ledgerHeaderCount : Int
  prevLedgerHeader : Option LedgerHeader
  prevLedgerHeaderHash : String
  currLedgerHeader : Option LedgerHeader
  currLedgerHeaderHash : String
  bucket : Finmap fun _ : String => LedgerRecord
  closed : List CloseInfo

structure LedgerManager (tm : TxManager) extends LedgerCore where
  ledgerState : LedgerSyncState
  largestConsensusIndex : Nat
  buffer : List CloseInfo
  tasks : List (Nat × Nat)
  catchUp : CatchUp
  accounts : LedgerState tm

abbrev LedgerM (tm : TxManager) (Value : Type) := Program (LedgerManager tm) Fault Value

def newManager {tm : TxManager} (bucket : Finmap fun _ : String => LedgerRecord)
    (accounts : LedgerState tm) (closed : List CloseInfo) : LedgerManager tm where
  lastCloseTime := 0
  ledgerHeaderCount := 0
  prevLedgerHeader := none
  prevLedgerHeaderHash := ""
  currLedgerHeader := none
  currLedgerHeaderHash := ""
  bucket := bucket
  closed := closed
  ledgerState := .notSynced
  largestConsensusIndex := 0
  buffer := []
  tasks := []
  catchUp := .waiting
  accounts := accounts

def genesisSeqNum : Nat := 1

/-- The header that `advanceLedger` builds. -/
def newHeader (seq : Nat) (prevHeaderHash txHash cv : String) : LedgerHeader where
  version := 1
  prevLedgerHash := prevHeaderHash
  txSetHash := txHash
  consensusValue := cv
  maxTxListSize := 100
  seqNum := seq
  totalTokens := 4500000000000000000
  baseFee := genesisBaseFee
  baseReserve := 100000000

def appendInfo (infos : List CloseInfo) (info : CloseInfo) : List CloseInfo :=
  match infos.getLast? with
  | some lastInfo => if lastInfo.index + 1 ≠ info.index then infos else infos ++ [info]
  | none => infos ++ [info]

section Core

variable (core : LedgerCore)

def LedgerCore.nextLedgerHeaderSeq : Nat :=
  match core.currLedgerHeader with
  | none => 1
  | some header => header.seqNum + 1

/-- The checkpoint that `saveCheckpoint` writes; the largest index is left out. -/
def LedgerCore.checkpoint : LedgerCheckpoint where
  lastCloseTime := core.lastCloseTime
  ledgerHeaderCount := core.ledgerHeaderCount
  largestConsensusIndex := 0
  prevLedgerHeader := core.prevLedgerHeader
  prevLedgerHeaderHash := core.prevLedgerHeaderHash
  currLedgerHeader := core.currLedgerHeader
  currLedgerHeaderHash := core.currLedgerHeaderHash

def LedgerCore.saveHeader (header : LedgerHeader) : LedgerCore :=
  { core with bucket := core.bucket.insert (Nat.repr header.seqNum) (.header header) }

def LedgerCore.advance (header : LedgerHeader) (h : String) (now : Nat) : LedgerCore :=
  { core with
    prevLedgerHeader := core.currLedgerHeader
    prevLedgerHeaderHash := core.currLedgerHeaderHash
    currLedgerHeader := some header
    currLedgerHeaderHash := h
    ledgerHeaderCount := core.ledgerHeaderCount + 1
    lastCloseTime := now }

def LedgerCore.putCheckpoint : LedgerCore :=
  { core with bucket := core.bucket.insert "CHECKPOINT" (.checkpoint core.checkpoint) }

end Core

section Closing

variable {tm : TxManager} (ctx : LedgerContext) (moment : LedgerMoment)

def modifyCore (change : LedgerCore → LedgerCore) : LedgerM tm Unit :=
  modify fun lm => { lm with toLedgerCore := change lm.toLedgerCore }

def saveCheckpoint : LedgerM tm (Except String Unit) := do
  let lm ← get
  match ctx.marshalCheckpoint lm.checkpoint with
  | .error err => pure (.error ("encode checkpoint failed: " ++ err))
  | .ok _ =>
    match moment.putCheckpoint with
    | .error err => pure (.error ("save checkpoint in db failed: " ++ err))
    | .ok () => do
      modifyCore LedgerCore.putCheckpoint
      pure (.ok ())

/-- `advanceLedger`.  The error of saving the header is dropped. -/
def advanceLedger (seq : Nat) (prevHeaderHash txHash cv : String) :
    LedgerM tm (Except String Unit) :=
  let header := newHeader seq prevHeaderHash txHash cv
  match ctx.marshalHeader header with
  | .error err => pure (.error ("encode ledger header failed: " ++ err))
  | .ok _ =>
    match ctx.getLedgerHeaderKey header with
    | .error err => pure (.error ("encode ledger header to key failed: " ++ err))
    | .ok h => do
      match moment.putHeader with
      | .error _ => pure ()
      | .ok () => modifyCore fun core => core.saveHeader header
      modifyCore fun core => core.advance header h moment.now
      match ← saveCheckpoint ctx moment with
      | .error err => pure (.error ("save ledger checkpoint failed: " ++ err))
      | .ok () => pure (.ok ())

def applyToAccounts (txList : List Tx) (ledgerSeqNum : Nat) : LedgerM tm (Except String Unit) :=
  fun lm =>
    match applyTxList tm moment.schedule txList (UInt64.ofNat ledgerSeqNum) lm.accounts with
    | .done _ accounts => .done (.ok ()) { lm with accounts := accounts }
    | .abort (.returned message) accounts =>
      .done (.error message) { lm with accounts := accounts }
    | .abort (.panicked what) accounts =>
      .abort (.nilDereference what) { lm with accounts := accounts }

def LedgerContext.closeValue (value : String) : Except String ConsensusValue :=
  match ctx.decodeBase58 value with
  | .error err => .error ("hex decode consensus value failed: " ++ err)
  | .ok b =>
    match ctx.decodeConsensusValue b with
    | .error err => .error ("decode consensus value failed: " ++ err)
    | .ok cv => .ok cv

/-- `closeLedger` once its checks are passed. -/
def closeChecked (info : CloseInfo) (txsetHash : String) : LedgerM tm (Except String Unit) := do
  let lm ← get
  match ← applyToAccounts moment info.txSet.txList lm.nextLedgerHeaderSeq with
  | .error err => pure (.error ("apply tx list failed: " ++ err))
  | .ok () =>
    match ← advanceLedger ctx moment info.index info.txSet.prevLedgerHash txsetHash
      info.value with
    | .error err => abort (.fatal ("advance ledger failed: " ++ err))
    | .ok () => do
      modifyCore fun core => { core with closed := core.closed ++ [info] }
      pure (.ok ())

def closeLedger (info : CloseInfo) : LedgerM tm (Except String Unit) := do
  let lm ← get
  if lm.currLedgerHeader.isSome ∧ lm.nextLedgerHeaderSeq ≠ info.index then
    pure (.error ("ledger seqnum mismatch: expect " ++ toString lm.nextLedgerHeaderSeq ++
      ", got " ++ toString info.index))
  else if lm.currLedgerHeader.isSome ∧ lm.currLedgerHeaderHash ≠ info.txSet.prevLedgerHash then
    abort (.fatal "ledger tx header hash mismatch")
  else
    match ctx.getTxSetKey info.txSet with
    | .error err => pure (.error ("get txset hash failed: " ++ err))
    | .ok txsetHash =>
      match ctx.closeValue info.value with
      | .error err => pure (.error err)
      | .ok cv =>
        if cv.txSetHash ≠ txsetHash then
          pure (.error ("txset hash mismatch: cv txset hash " ++ cv.txSetHash ++
            ", computed txset hash " ++ txsetHash))
        else
          closeChecked ctx moment info txsetHash

def createGenesisLedger : LedgerM tm (Except String Unit) := do
  modify fun lm => { lm with ledgerState := .synced }
  match ← advanceLedger ctx moment genesisSeqNum "" "" "" with
  | .error err => abort (.fatal ("advance ledger failed: " ++ err))
  | .ok () => pure (.ok ())

end Closing

section Receiving

variable {tm : TxManager} (ctx : LedgerContext) (moment : LedgerMoment)

def currHeaderHash : LedgerM tm String := do
  let lm ← get
  if lm.currLedgerHeaderHash = "" then abort (.fatal "current ledger header hash is empty")
  else pure lm.currLedgerHeaderHash

def addTask (start finish : Nat) : LedgerM tm (Except String Unit) :=
  if start > finish then pure (.error "invalid ledger index range")
  else do
    modify fun lm => { lm with tasks := lm.tasks ++ [(start, finish)] }
    pure (.ok ())

def recvNext (info : CloseInfo) : LedgerM tm (Except String Unit) := do
  let hash ← currHeaderHash
  if hash = info.txSet.prevLedgerHash then
    match ← closeLedger ctx moment info with
    | .error err => pure (.error ("close ledger failed: " ++ err))
    | .ok () => do
      modify fun lm => { lm with
        largestConsensusIndex := info.index
        ledgerState := .synced }
      pure (.ok ())
  else
    abort (.fatal "ledger hash inconsistent")

def recvEarly (info : CloseInfo) : LedgerM tm (Except String Unit) := do
  modify fun lm => { lm with buffer := appendInfo lm.buffer info }
  let lm ← get
  if info.index ≤ lm.largestConsensusIndex then pure (.ok ())
  else
    match ← addTask (lm.largestConsensusIndex + 1) (info.index - 1) with
    | .error err => pure (.error ("add task to downloader failed: " ++ err))
    | .ok () => do
      modify fun lm => { lm with
        largestConsensusIndex := info.index - 1
        ledgerState := .syncing }
      pure (.ok ())

def recvExtVal (info : CloseInfo) : LedgerM tm (Except String Unit) := do
  let lm ← get
  match lm.ledgerState with
  | .syncing => do
    modify fun lm => { lm with buffer := appendInfo lm.buffer info }
    pure (.ok ())
  | _ =>
    if lm.nextLedgerHeaderSeq = info.index then recvNext ctx moment info
    else if info.index < lm.nextLedgerHeaderSeq then pure (.ok ())
    else recvEarly info

def goTo (next : CatchUp) : LedgerM tm Unit := modify fun lm => { lm with catchUp := next }

/-- One step of the goroutine that handles downloaded ledgers.  The checks on a
downloaded info only write to the log, but reading the current hash can end the
process. -/
def catchUpStep : LedgerM tm Unit := do
  let lm ← get
  match lm.catchUp with
  | .waiting => pure ()
  | .received info => do
    let _ ← currHeaderHash
    let _ ← closeLedger ctx moment info
    goTo .checkSize
  | .checkSize => if lm.buffer = [] then goTo .waiting else goTo .peekHead
  | .peekHead =>
    match lm.buffer.head? with
    | none => abort (.nilDereference "head")
    | some head => if lm.nextLedgerHeaderSeq ≠ head.index then goTo .waiting else goTo .loopSize
  | .loopSize => if lm.buffer = [] then goTo .clearing else goTo .popHead
  | .popHead =>
    match lm.buffer with
    | [] => abort (.nilDereference "head")
    | head :: rest => modify fun lm => { lm with buffer := rest, catchUp := .closing head }
  | .closing head => do
    match ← closeLedger ctx moment head with
    | .error _ => goTo .clearing
    | .ok () => goTo .loopSize
  | .clearing => modify fun lm => { lm with buffer := [], catchUp := .settingSynced }
  | .settingSynced => modify fun lm => { lm with ledgerState := .synced, catchUp := .waiting }

/-- The downloader hands over an info, if the goroutine waits for one. -/
def deliver (info : CloseInfo) : LedgerM tm Unit :=
  modify fun lm =>
    if lm.catchUp = .waiting then { lm with catchUp := .received info } else lm

end Receiving

section Recovery

variable {tm : TxManager} (ctx : LedgerContext)

/-- `GetLedgerHeaderKey` of a header that may be missing. -/
def LedgerContext.optionalHeaderKey : Option LedgerHeader → Except String String
  | none => .error "proto: Marshal called with nil"
  | some header => ctx.getLedgerHeaderKey header

/-- The check of the previous header, made for indices after the first one. -/
def prevHeaderProblem (checkpoint : LedgerCheckpoint) : Option String :=
  if checkpoint.largestConsensusIndex > 1 then
    match ctx.optionalHeaderKey checkpoint.prevLedgerHeader with
    | .error err => some ("get prev ledger header key failed: " ++ err)
    | .ok prevHash =>
      if prevHash ≠ checkpoint.prevLedgerHeaderHash then some "incompatible prev ledger hash"
      else none
  else
    none

def currHeaderProblem (checkpoint : LedgerCheckpoint) : Option String :=
  match ctx.optionalHeaderKey checkpoint.currLedgerHeader with
  | .error err => some ("get curr ledger header key failed: " ++ err)
  | .ok currHash =>
    if currHash ≠ checkpoint.currLedgerHeaderHash then
      some "incompatible curr ledger hash"
    else if checkpoint.currLedgerHeader.any
        (·.prevLedgerHash != checkpoint.prevLedgerHeaderHash) then
      some "incompatible prev hash of current ledger"
    else
      none

/-- The sanity checks of `RecoverFromCheckpoint`.  The largest index is unsigned, so
its own check never fails. -/
def checkpointProblem (now : Nat) (checkpoint : LedgerCheckpoint) : Option String :=
  if checkpoint.lastCloseTime < 0 ∨ checkpoint.lastCloseTime > now then
    some "invalid LastCloseTime"
  else if checkpoint.ledgerHeaderCount < 0 then
    some "invalid LedgerHeaderCount"
  else if checkpoint.prevLedgerHeader = none ∧ checkpoint.ledgerHeaderCount ≠ 1 then
    some "PrevLedgerHeader is missing"
  else
    match prevHeaderProblem ctx checkpoint with
    | some problem => some problem
    | none => currHeaderProblem ctx checkpoint

def LedgerManager.restore (lm : LedgerManager tm) (checkpoint : LedgerCheckpoint) :
    LedgerManager tm :=
  { lm with
    lastCloseTime := checkpoint.lastCloseTime
    ledgerHeaderCount := checkpoint.ledgerHeaderCount
    prevLedgerHeader := checkpoint.prevLedgerHeader
    prevLedgerHeaderHash := checkpoint.prevLedgerHeaderHash
    currLedgerHeader := checkpoint.currLedgerHeader
    currLedgerHeaderHash := checkpoint.currLedgerHeaderHash
    largestConsensusIndex := (checkpoint.currLedgerHeader.map (·.seqNum)).getD 0 }

/-- `RecoverFromCheckpoint`.  Under its key there is a checkpoint or nothing. -/
def recoverFromCheckpoint (now : Nat) : LedgerM tm (Except String Unit) := do
  let lm ← get
  match lm.bucket.lookup "CHECKPOINT" with
  | some (.checkpoint checkpoint) => do
    modify fun lm => { lm with ledgerState := .notSynced }
    match checkpointProblem ctx now checkpoint with
    | some err => pure (.error err)
    | none => do
      modify fun lm => lm.restore checkpoint
      pure (.ok ())
  | some (.header _) => pure (.error "decode ledger checkpoint failed: ")
  | none => pure (.error "ledger checkpoint is nil")

def restart (now : Nat) : LedgerM tm Unit := do
  modify fun lm => newManager lm.bucket lm.accounts lm.closed
  match ← recoverFromCheckpoint ctx now with
  | .error err => abort (.fatal ("recover ledger from checkpoint failed: " ++ err))
  | .ok () => pure ()

end Recovery

section Moves

variable {tm : TxManager} (ctx : LedgerContext)

inductive LedgerMove where
  | recvExtVal (moment : LedgerMoment) (info : CloseInfo)
  | deliver (info : CloseInfo)
  | catchUp (moment : LedgerMoment)
  | closeLedger (moment : LedgerMoment) (info : CloseInfo)
  | restart (now : Nat)

def LedgerMove.Allowed (allowed : LedgerMoment → Prop) : LedgerMove → Prop
  | .recvExtVal moment _ => allowed moment
  | .deliver _ => True
  | .catchUp moment => allowed moment
  | .closeLedger moment _ => allowed moment
  | .restart _ => True

def LedgerMove.perform (move : LedgerMove) : LedgerM tm Unit :=
  match move with
  | .recvExtVal moment info => do
    let _ ← Ultiledger.recvExtVal ctx moment info
    pure ()
  | .deliver info => Ultiledger.deliver info
  | .catchUp moment => catchUpStep ctx moment
  | .closeLedger moment info => do
    let _ ← Ultiledger.closeLedger ctx moment info
    pure ()
  | .restart now => Ultiledger.restart ctx now

/-- The states of runs from the genesis ledger over an empty bucket, at allowed
moments and as long as the process goes on. -/
inductive Reached (allowed : LedgerMoment → Prop) : LedgerManager tm → Prop where
  | genesis (moment : LedgerMoment) (accounts : LedgerState tm) (lm : LedgerManager tm)
      (permitted : allowed moment)
      (created : createGenesisLedger ctx moment (newManager ∅ accounts []) = .done (.ok ()) lm) :
      Reached allowed lm
  | step (move : LedgerMove) (before after : LedgerManager tm)
      (reached : Reached allowed before) (permitted : move.Allowed allowed)
      (performed : move.perform ctx before = .done () after) : Reached allowed after

end Moves

end Ultiledger
