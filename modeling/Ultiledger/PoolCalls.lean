import Ultiledger.FinmapTotals
import Ultiledger.PendingPool

/-! # The calls on the pending pool

`DeleteTxList` leaves the lock taken when an account has nothing pending: the call that
asks for it next does not return.
-/

namespace Ultiledger

open FinmapTotals MachineIntegers

def Pool.history (pool : Pool) (accountID : String) : TxHistory :=
  (pool.accTxMap.lookup accountID).getD newTxHistory

def Pool.opened (pool : Pool) (accountID : String) : Pool :=
  { pool with accTxMap := pool.accTxMap.insert accountID (pool.history accountID) }

def Pool.file (pool : Pool) (txKey : String) (tx : Tx) : Pool where
  txSet := insert txKey pool.txSet
  accTxMap := pool.accTxMap.insert tx.accountID
    ⟨tx.seqNum, (pool.history tx.accountID).totalFees + tx.fee,
      (pool.history tx.accountID).txMap.insert txKey tx⟩

/-- The checks of `AddTx`, which open the history of the account. -/
def checkTx (baseReserve : Int64) (bucket : Bucket) (tx : Tx) (pool : Pool) :
    Pool × Except String Unit :=
  match getAccount bucket tx.accountID with
  | none => (pool, .error "account not exist")
  | some acc =>
    if max tx.seqNum (pool.history tx.accountID).maxSeqNum > tx.seqNum then
      (pool.opened tx.accountID, .error errInvalidSeqNum)
    else if acc.balance - baseReserve * acc.entryCount.toInt64 <
        tx.fee + (pool.history tx.accountID).totalFees then
      (pool.opened tx.accountID, .error "insufficient account balance")
    else if (utf8 tx.note).length > maxTxNote then
      (pool.opened tx.accountID, .error "tx note is too long")
    else if tx.opList.length > maxTxOpList then
      (pool.opened tx.accountID, .error "too much tx ops")
    else
      (pool.opened tx.accountID, .ok ())

structure TxAdmissible (baseReserve : Int64) (bucket : Bucket) (tx : Tx) (pool : Pool) (acc : Account) :
    Prop where
  read : getAccount bucket tx.accountID = some acc
  inOrder : (pool.history tx.accountID).maxSeqNum ≤ tx.seqNum
  funded : ¬ acc.balance - baseReserve * acc.entryCount.toInt64 <
    tx.fee + (pool.history tx.accountID).totalFees

section Checks

variable {baseReserve : Int64} {bucket : Bucket} {tx : Tx} {pool : Pool}

theorem le_of_not_max_gt {first second : UInt64} (inOrder : ¬ max first second > first) :
    second ≤ first := by
  change ¬ first < (if first ≤ second then second else first) at inOrder
  split_ifs at inOrder with larger
  · exact UInt64.not_lt.mp inOrder
  · exact UInt64.le_of_lt (UInt64.not_le.mp larger)

theorem checkTx_pool :
    (checkTx baseReserve bucket tx pool).1 = pool ∨
      (checkTx baseReserve bucket tx pool).1 = pool.opened tx.accountID := by
  unfold checkTx
  cases getAccount bucket tx.accountID with
  | none => exact .inl rfl
  | some acc =>
    right
    dsimp only
    split_ifs <;> rfl

theorem admissible_of_checkTx (passed : (checkTx baseReserve bucket tx pool).2 = .ok ()) :
    ∃ acc, TxAdmissible baseReserve bucket tx pool acc := by
  unfold checkTx at passed
  cases read : getAccount bucket tx.accountID with
  | none => simp [read] at passed
  | some acc =>
    simp only [read] at passed
    split_ifs at passed with disordered underfunded long crowded
    exact ⟨acc, read, le_of_not_max_gt disordered, underfunded⟩

theorem addTx_eq (view : PoolView) (txKey : String) :
    addTx baseReserve view txKey tx pool =
      if txKey ∈ pool.txSet then (pool, .ok ())
      else
        match checkTx baseReserve view.bucket tx pool with
        | (opened, .error err) => (opened, .error err)
        | (_, .ok ()) => (pool.file txKey tx, view.saveTx txKey tx) := by
  unfold addTx checkTx
  by_cases known : txKey ∈ pool.txSet
  · rw [if_pos known, if_pos known]
  rw [if_neg known, if_neg known]
  cases getAccount view.bucket tx.accountID with
  | none => rfl
  | some acc =>
    have history : (pool.accTxMap.lookup tx.accountID).getD newTxHistory =
        pool.history tx.accountID := rfl
    simp only [history]
    by_cases disordered : max tx.seqNum (pool.history tx.accountID).maxSeqNum > tx.seqNum
    · rw [if_pos disordered, if_pos disordered]
      rfl
    rw [if_neg disordered]
    have filed : (pool.history tx.accountID).addTx txKey tx = .ok ⟨tx.seqNum,
        (pool.history tx.accountID).totalFees + tx.fee,
        (pool.history tx.accountID).txMap.insert txKey tx⟩ := by
      rw [TxHistory.addTx, if_neg (UInt64.not_lt.mpr (le_of_not_max_gt disordered))]
    rw [filed]
    split_ifs <;> rfl

end Checks

structure GuardedPool where
  pool : Pool
  rwmHeld : Bool

def GuardedPool.empty : GuardedPool := ⟨Pool.empty, false⟩

/-- `AddTx` up to the lock and past it; without a reply the call does not return. -/
def GuardedPool.addTx (baseReserve : Int64) (view : PoolView) (txKey : String) (tx : Tx)
    (guarded : GuardedPool) : GuardedPool × Option (Except String Unit) :=
  if txKey ∈ guarded.pool.txSet then (guarded, some (.ok ()))
  else
    match checkTx baseReserve view.bucket tx guarded.pool with
    | (opened, .error err) => ({ guarded with pool := opened }, some (.error err))
    | (opened, .ok ()) =>
      if guarded.rwmHeld then ({ guarded with pool := opened }, none)
      else ({ guarded with pool := guarded.pool.file txKey tx }, some (view.saveTx txKey tx))

theorem GuardedPool.addTx_of_free (baseReserve : Int64) (view : PoolView) (txKey : String) (tx : Tx)
    (pool : Pool) :
    GuardedPool.addTx baseReserve view txKey tx ⟨pool, false⟩ =
      (⟨(Ultiledger.addTx baseReserve view txKey tx pool).1, false⟩,
        some (Ultiledger.addTx baseReserve view txKey tx pool).2) := by
  rw [addTx_eq, GuardedPool.addTx]
  by_cases known : txKey ∈ pool.txSet
  · rw [if_pos known, if_pos known]
  · rw [if_neg known, if_neg known]
    rcases checkTx baseReserve view.bucket tx pool with ⟨opened, err | ⟨⟨⟩⟩⟩
    · rfl
    · rfl

inductive Admission (baseReserve : Int64) (bucket : Bucket) (txKey : String) (tx : Tx)
    (pool : Pool) : Pool → Prop where
  | ignored : Admission baseReserve bucket txKey tx pool pool
  | opened : Admission baseReserve bucket txKey tx pool (pool.opened tx.accountID)
  | filed (acc : Account) (fresh : txKey ∉ pool.txSet)
      (admissible : TxAdmissible baseReserve bucket tx pool acc) :
      Admission baseReserve bucket txKey tx pool (pool.file txKey tx)

theorem admission_of_opened {baseReserve : Int64} {bucket : Bucket} {txKey : String} {tx : Tx}
    {pool after : Pool} (same : after = pool ∨ after = pool.opened tx.accountID) :
    Admission baseReserve bucket txKey tx pool after := by
  rcases same with rfl | rfl
  · exact .ignored
  · exact .opened

theorem admission_addTx (baseReserve : Int64) (view : PoolView) (txKey : String) (tx : Tx)
    (guarded : GuardedPool) :
    Admission baseReserve view.bucket txKey tx guarded.pool
      (guarded.addTx baseReserve view txKey tx).1.pool := by
  unfold GuardedPool.addTx
  by_cases known : txKey ∈ guarded.pool.txSet
  · rw [if_pos known]
    exact .ignored
  rw [if_neg known]
  have pools := @checkTx_pool baseReserve view.bucket tx guarded.pool
  have admissible := @admissible_of_checkTx baseReserve view.bucket tx guarded.pool
  rcases checked : checkTx baseReserve view.bucket tx guarded.pool with ⟨after, err | ⟨⟨⟩⟩⟩
  · rw [checked] at pools
    exact admission_of_opened pools
  · rw [checked] at pools admissible
    split_ifs with held
    · exact admission_of_opened pools
    · obtain ⟨acc, passed⟩ := admissible rfl
      exact .filed acc known passed

section Deletion

def tallyStep (sums : UInt64 × Int64) (tx : Tx) : UInt64 × Int64 :=
  (if tx.seqNum > sums.1 then tx.seqNum else sums.1, sums.2 + tx.fee)

theorem tallyStep_comm (sums : UInt64 × Int64) (first second : Tx) :
    tallyStep (tallyStep sums first) second = tallyStep (tallyStep sums second) first := by
  unfold tallyStep
  refine Prod.ext ?_ ?_
  · apply UInt64.toNat_inj.mp
    simp only [gt_iff_lt, UInt64.lt_iff_toNat_lt, apply_ite UInt64.toNat]
    split_ifs <;> omega
  · simp only [Int64.add_assoc, Int64.add_comm first.fee]

def tally (txMap : Finmap fun _ : String => Tx) : UInt64 × Int64 :=
  txMap.foldl (fun sums _ tx => tallyStep sums tx)
    (fun sums _ first _ second => tallyStep_comm sums first second) (0, 0)

def TxHistory.deleteTxList (th : TxHistory) (txKeys : List String) : TxHistory :=
  let txMap := eraseAll txKeys th.txMap
  ⟨(tally txMap).1, (tally txMap).2, txMap⟩

def TxHistory.size (th : TxHistory) : Nat := th.txMap.keys.card

def Pool.drop (pool : Pool) (accountID : String) (th : TxHistory) (txKeys : List String) : Pool :=
  let left := th.deleteTxList txKeys
  { pool with accTxMap :=
      if left.size = 0 then pool.accTxMap.erase accountID
      else pool.accTxMap.insert accountID left }

/-- The loop of `DeleteTxList` over the accounts, and whether it ends. -/
def deleteAccounts (keysOf : String → List String) :
    List String → GuardedPool → GuardedPool × Bool
  | [], guarded => (guarded, true)
  | accountID :: rest, guarded =>
    if guarded.rwmHeld then (guarded, false)
    else
      match guarded.pool.accTxMap.lookup accountID with
      | none => deleteAccounts keysOf rest { guarded with rwmHeld := true }
      | some th => deleteAccounts keysOf rest
          { guarded with pool := guarded.pool.drop accountID th (keysOf accountID) }

def keysOfList (getTxKey : Tx → Except String String) (txList : List Tx) (accountID : String) :
    List String :=
  (txList.filter fun tx => tx.accountID = accountID).map fun tx =>
    (getTxKey tx).toOption.getD ""

/-- `DeleteTxList`, with the accounts in the order in which the map is traversed, and
whether the call returns. -/
def GuardedPool.deleteTxList (getTxKey : Tx → Except String String)
    (order : List String → List String) (txList : List Tx) (guarded : GuardedPool) :
    GuardedPool × Bool :=
  deleteAccounts (keysOfList getTxKey txList) (order (txList.map Tx.accountID).dedup) guarded

/-- `GetTxList`, up to the order of the maps. -/
def Pool.getTxList (pool : Pool) : Multiset Tx :=
  pool.accTxMap.entries.bind fun entry => entry.2.txMap.entries.map fun filed => filed.2

theorem deleteAccounts_induction {property : Pool → Prop} {keysOf : String → List String}
    (kept : ∀ pool accountID th, pool.accTxMap.lookup accountID = some th → property pool →
      property (pool.drop accountID th (keysOf accountID)))
    (accounts : List String) {guarded : GuardedPool} (start : property guarded.pool) :
    property (deleteAccounts keysOf accounts guarded).1.pool := by
  induction accounts generalizing guarded with
  | nil => exact start
  | cons accountID rest ih =>
    unfold deleteAccounts
    split_ifs
    · exact start
    · cases found : guarded.pool.accTxMap.lookup accountID with
      | none => exact ih start
      | some th => exact ih (kept guarded.pool accountID th found start)

end Deletion

end Ultiledger
