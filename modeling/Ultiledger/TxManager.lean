import Ultiledger.AbortingProgram
import Ultiledger.Operations
import Mathlib.Data.List.Sort

/-!
# Applying a transaction list

`Manager.ApplyTxList` of `tx/manager.go`.  The fee phase charges and saves account by
account; the execution phase runs each charged transaction inside a database transaction
of its own.  The order that `sort.Sort` gives to equal sequence numbers and the order of
the map of accounts are parameters.

The log is not part of the program.  It records every charged account, every operation
that succeeded and every transaction whose execution began.
-/

namespace Ultiledger

open AbortingProgram

structure CreateAccountOp where
  accountID : String
  balance : Int64
  deriving DecidableEq, Repr

structure PaymentOp where
  accountID : String
  asset : Option Asset
  amount : Int64
  deriving DecidableEq, Repr

structure PathPaymentOp where
  srcAsset : Option Asset
  srcAmount : Int64
  accountID : String
  dstAsset : Option Asset
  path : List Asset
  deriving DecidableEq, Repr

structure TrustOp where
  asset : Option Asset
  limit : Int64
  deriving DecidableEq, Repr

/-- The `oneof` field of `ultpb.Op`; path payments are refused by their type. -/
inductive OpBody where
  | createAccount (op : CreateAccountOp)
  | payment (op : PaymentOp)
  | pathPayment (op : PathPaymentOp)
  | trust (op : TrustOp)
  deriving DecidableEq, Repr

inductive OpType where
  | createAccount
  | payment
  | pathPayment
  | trust
  | other (number : Int32) (unknown : number ∉ [0, 1, 2, 3])
  deriving DecidableEq, Repr

def OpType.text : OpType → String
  | .createAccount => "CREATE_ACCOUNT"
  | .payment => "PAYMENT"
  | .pathPayment => "PATH_PAYMENT"
  | .trust => "TRUST"
  | .other number _ => toString number.toInt

/-- `ultpb.Op`. -/
structure TxOp where
  opType : OpType
  op : Option OpBody
  deriving DecidableEq, Repr

@[ext]
structure Tx where
  accountID : String
  fee : Int64
  note : String
  seqNum : UInt64
  opList : List TxOp
  deriving DecidableEq, Repr

inductive TxStatusCode where
  | notExist
  | rejected
  | accepted
  | confirmed
  | failed
  deriving DecidableEq, Repr

structure TxStatus where
  statusCode : TxStatusCode
  errorMessage : String
  deriving DecidableEq, Repr

def errInvalidSeqNum : String := "invalid sequence number"

def errInsufficientForFee : String := "insufficient balance for fee"

/-- What `ApplyTxList` uses of `tx.Manager`. -/
structure TxManager where
  am : AccountManager
  em : Exchange
  baseReserve : Int64
  txKey : Tx → String

/-- A manager without offers to exchange, which tells transactions apart by their
note. -/
def TxManager.plain : TxManager where
  am := ⟨100⟩
  em := fun _ _ => .error (.failed "no offers")
  baseReserve := 100
  txKey := Tx.note

/-- The choices left open by `sort.Sort` and by map iteration. -/
structure Schedule where
  sort : List Tx → List Tx
  sort_perm : ∀ txs, (sort txs).Perm txs
  sort_sorted : ∀ txs, (sort txs).Pairwise fun first second => first.seqNum ≤ second.seqNum
  order : List String → List String
  order_perm : ∀ ids, (order ids).Perm ids

def Schedule.insertion : Schedule where
  sort := List.insertionSort fun first second => first.seqNum ≤ second.seqNum
  sort_perm := List.perm_insertionSort _
  sort_sorted := by
    have : Std.Total fun first second : Tx => first.seqNum ≤ second.seqNum :=
      ⟨fun first second => UInt64.le_total first.seqNum second.seqNum⟩
    have : IsTrans Tx fun first second => first.seqNum ≤ second.seqNum :=
      ⟨fun _ _ _ => UInt64.le_trans⟩
    exact List.pairwise_insertionSort _
  order := id
  order_perm := fun _ => .refl _

/-- How a call ends early: with an error, or with the process. -/
inductive Halt where
  | returned (message : String)
  | panicked (what : String)
  deriving DecidableEq, Repr

/-- The charge of a fee that has passed both checks of the fee phase, with the
account before it. -/
structure Charge where
  acc : Account
  tx : Tx
  seqNumAllowed : ¬ acc.seqNum > tx.seqNum
  feeCovered : ¬ acc.balance < tx.fee

def Charge.after (charge : Charge) : Account :=
  { charge.acc with
    balance := charge.acc.balance - charge.tx.fee
    seqNum := charge.tx.seqNum }

/-- The inner loop of the fee phase over the transactions of one account, on the
account held in memory.  Rejected transactions are listed with their error. -/
def chargeTxs : Account → List Tx → Account × List (Charge ⊕ Tx × String)
  | acc, [] => (acc, [])
  | acc, tx :: rest =>
    if old : acc.seqNum > tx.seqNum then
      let later := chargeTxs acc rest
      (later.1, .inr (tx, errInvalidSeqNum) :: later.2)
    else if poor : acc.balance < tx.fee then
      let later := chargeTxs acc rest
      (later.1, .inr (tx, errInsufficientForFee) :: later.2)
    else
      let charge : Charge := ⟨acc, tx, old, poor⟩
      let later := chargeTxs charge.after rest
      (later.1, .inl charge :: later.2)

structure FeeRound where
  bucket : Bucket
  accountID : String
  acc : Account
  txs : List Tx
  read : getAccount bucket accountID = some acc
  own : ∀ tx ∈ txs, tx.accountID = accountID

namespace FeeRound

def after (round : FeeRound) : Account := (chargeTxs round.acc round.txs).1

def charges (round : FeeRound) : List Charge :=
  (chargeTxs round.acc round.txs).2.filterMap Sum.getLeft?

end FeeRound

structure Application (tm : TxManager) where
  before : Bucket
  operation : Operation
  after : Bucket
  succeeded : operation.apply tm.am tm.em before = .ok after

inductive Event (tm : TxManager) where
  | charged (round : FeeRound)
  | executed (tx : Tx)
  | applied (application : Application tm)

/-- The part of the database that `ApplyTxList` changes, and the log. -/
structure LedgerState (tm : TxManager) where
  bucket : Bucket
  statuses : Finmap fun _ : String => TxStatus
  events : List (Event tm)

section Manager

variable (tm : TxManager)

abbrev LedgerProgram (Value : Type) := Program (LedgerState tm) Halt Value

def updateTxStatus (tx : Tx) (status : TxStatus) : LedgerProgram tm Unit :=
  Program.modify fun state =>
    { state with statuses := state.statuses.insert (tm.txKey tx) status }

def rejectTxs : List (Charge ⊕ Tx × String) → LedgerProgram tm Unit
  | [] => pure ()
  | .inl _ :: rest => rejectTxs rest
  | .inr (tx, message) :: rest => do
    updateTxStatus tm tx ⟨.failed, message⟩
    rejectTxs rest

def chargeAccount (sorted : List Tx) (accountID : String) : LedgerProgram tm (List Tx) := do
  let state ← Program.get
  match read : getAccount state.bucket accountID with
  | none => Program.abort (.returned "account not exist")
  | some acc => do
    let round : FeeRound :=
      { bucket := state.bucket
        accountID := accountID
        acc := acc
        txs := sorted.filter fun tx => tx.accountID = accountID
        read := read
        own := fun tx txMem => by simpa using (List.mem_filter.mp txMem).2 }
    rejectTxs tm (chargeTxs acc round.txs).2
    match saveAccount state.bucket round.after with
    | .error (.failed message) =>
      Program.abort (.returned ("update account failed: " ++ message))
    | .error (.nilDereference what) => Program.abort (.panicked what)
    | .ok bucket => do
      Program.modify fun state =>
        { state with bucket := bucket, events := state.events ++ [.charged round] }
      pure (round.charges.map Charge.tx)

def chargeAccounts (sorted : List Tx) : List String → LedgerProgram tm (List Tx)
  | [] => pure []
  | accountID :: rest => do
    let charged ← chargeAccount tm sorted accountID
    let others ← chargeAccounts sorted rest
    pure (charged ++ others)

/-- One entry of `getTxOpList`. -/
def getTxOp (accountID : String) (ledgerSeqNum : UInt64) (txOp : TxOp) :
    Except OpError Operation :=
  match txOp.opType with
  | .createAccount =>
    match txOp.op with
    | some (.createAccount ca) => .ok (.createAccount
        ⟨accountID, ca.accountID, ca.balance, tm.baseReserve, ledgerSeqNum⟩)
    | _ => .error (.nilDereference "ca")
  | .payment =>
    match txOp.op with
    | some (.payment payment) => .ok (.payment
        ⟨accountID, payment.accountID, payment.asset, payment.amount⟩)
    | _ => .error (.nilDereference "payment")
  | .trust =>
    match txOp.op with
    | some (.trust trust) => .ok (.trust ⟨accountID, trust.asset, trust.limit⟩)
    | _ => .error (.nilDereference "trust")
  | opType => .error (.failed ("received invalid op type: " ++ opType.text))

def getTxOpList (opList : List TxOp) (accountID : String) (ledgerSeqNum : UInt64) :
    Except OpError (List Operation) :=
  opList.mapM (getTxOp tm accountID ledgerSeqNum)

/-- The loop over the operations of a transaction, with the log of those that
succeeded. -/
def applyOps : List Operation → Bucket → Except OpError Bucket × List (Application tm)
  | [], dt => (.ok dt, [])
  | operation :: rest, dt =>
    match succeeded : operation.apply tm.am tm.em dt with
    | .error error => (.error error, [])
    | .ok next =>
      let later := applyOps rest next
      (later.1, ⟨dt, operation, next, succeeded⟩ :: later.2)

def executeOps (tx : Tx) (ops : List Operation) : LedgerProgram tm Unit := do
  let state ← Program.get
  let results := applyOps tm ops state.bucket
  Program.modify fun state =>
    { state with events := state.events ++ results.2.map .applied }
  match results.1 with
  | .ok bucket => do
    Program.modify fun state => { state with bucket := bucket }
    updateTxStatus tm tx ⟨.confirmed, ""⟩
  | .error (.failed message) => updateTxStatus tm tx ⟨.failed, message⟩
  | .error (.nilDereference what) => Program.abort (.panicked what)

/-- One round of the execution phase.  When the operation list cannot be built
the transaction is marked failed, and then confirmed with no operations. -/
def executeTx (ledgerSeqNum : UInt64) (tx : Tx) : LedgerProgram tm Unit := do
  Program.modify fun state => { state with events := state.events ++ [.executed tx] }
  match getTxOpList tm tx.opList tx.accountID ledgerSeqNum with
  | .ok ops => executeOps tm tx ops
  | .error (.failed message) => do
    updateTxStatus tm tx ⟨.failed, message⟩
    executeOps tm tx []
  | .error (.nilDereference what) => Program.abort (.panicked what)

def executeTxs (ledgerSeqNum : UInt64) : List Tx → LedgerProgram tm Unit
  | [] => pure ()
  | tx :: rest => do
    executeTx tm ledgerSeqNum tx
    executeTxs ledgerSeqNum rest

def applyTxList (schedule : Schedule) (txList : List Tx) (ledgerSeqNum : UInt64) :
    LedgerProgram tm Unit := do
  let sorted := schedule.sort txList
  let accountIDs := schedule.order (sorted.map Tx.accountID).dedup
  let restTxList ← chargeAccounts tm sorted accountIDs
  executeTxs tm ledgerSeqNum (schedule.sort restTxList)

/-- A call of `ApplyTxList`. -/
structure Call where
  schedule : Schedule
  txList : List Tx
  ledgerSeqNum : UInt64

/-- The database after a sequence of calls.  What a call that ends early has
saved stays saved. -/
def runCalls (calls : List Call) (state : LedgerState tm) : LedgerState tm :=
  calls.foldl
    (fun state call =>
      (applyTxList tm call.schedule call.txList call.ledgerSeqNum state).state)
    state

end Manager

end Ultiledger
