import Ultiledger.TxManager

/-! # The pending pool -/

namespace Ultiledger

def maxTxNote : Nat := 128

def maxTxOpList : Nat := 100

structure TxHistory where
  maxSeqNum : UInt64
  totalFees : Int64
  txMap : Finmap fun _ : String => Tx

def newTxHistory : TxHistory := ⟨0, 0, ∅⟩

def TxHistory.addTx (th : TxHistory) (txKey : String) (tx : Tx) : Except String TxHistory :=
  if tx.seqNum < th.maxSeqNum then
    .error ("tx seqnum mismatch: max " ++ toString th.maxSeqNum ++ ", input " ++ toString tx.seqNum)
  else
    .ok ⟨tx.seqNum, th.totalFees + tx.fee, th.txMap.insert txKey tx⟩

/-- The sets of `tx.Manager` that hold what is pending. -/
structure Pool where
  txSet : Finset String
  accTxMap : Finmap fun _ : String => TxHistory

def Pool.empty : Pool := ⟨∅, ∅⟩

def Pool.Holds (pool : Pool) (tx : Tx) : Prop :=
  ∃ accountID history txKey, pool.accTxMap.lookup accountID = some history ∧
    history.txMap.lookup txKey = some tx

/-- What a call of `AddTx` sees of the database: the accounts, and whether the
transaction and its status can be saved. -/
structure PoolView where
  bucket : Bucket
  saveTx : String → Tx → Except String Unit

/-- `Manager.AddTx`.  The history of an account is opened before the transaction is
checked.  The error of the history itself is dropped. -/
def addTx (baseReserve : Int64) (view : PoolView) (txKey : String) (tx : Tx) (pool : Pool) :
    Pool × Except String Unit :=
  if txKey ∈ pool.txSet then (pool, .ok ())
  else
    match getAccount view.bucket tx.accountID with
    | none => (pool, .error "account not exist")
    | some acc =>
      let history := (pool.accTxMap.lookup tx.accountID).getD newTxHistory
      let opened := { pool with accTxMap := pool.accTxMap.insert tx.accountID history }
      if max tx.seqNum history.maxSeqNum > tx.seqNum then
        (opened, .error errInvalidSeqNum)
      else if acc.balance - baseReserve * acc.entryCount.toInt64 < tx.fee + history.totalFees then
        (opened, .error "insufficient account balance")
      else if (utf8 tx.note).length > maxTxNote then
        (opened, .error "tx note is too long")
      else if tx.opList.length > maxTxOpList then
        (opened, .error "too much tx ops")
      else
        let filed := (history.addTx txKey tx).toOption.getD history
        (⟨insert txKey pool.txSet, pool.accTxMap.insert tx.accountID filed⟩,
          view.saveTx txKey tx)

section Facts

variable {pool : Pool} {accountID : String} {tx : Tx}

theorem holds_of_insert_history {history : TxHistory}
    (held : (⟨pool.txSet, pool.accTxMap.insert accountID history⟩ : Pool).Holds tx) :
    pool.Holds tx ∨ ∃ txKey, history.txMap.lookup txKey = some tx := by
  obtain ⟨otherID, other, txKey, found, listed⟩ := held
  by_cases same : otherID = accountID
  · subst same
    rw [Finmap.lookup_insert] at found
    cases found
    exact .inr ⟨txKey, listed⟩
  · rw [Finmap.lookup_insert_of_ne _ same] at found
    exact .inl ⟨otherID, other, txKey, found, listed⟩

theorem holds_of_history {txKey : String}
    (listed : ((pool.accTxMap.lookup accountID).getD newTxHistory).txMap.lookup txKey = some tx) :
    pool.Holds tx := by
  cases found : pool.accTxMap.lookup accountID with
  | none =>
    rw [found, newTxHistory] at listed
    simp at listed
  | some history =>
    rw [found] at listed
    exact ⟨accountID, history, txKey, found, listed⟩

theorem lookup_addTx {history : TxHistory} {txKey otherKey : String} {other : Tx}
    (listed : ((history.addTx txKey tx).toOption.getD history).txMap.lookup otherKey = some other) :
    other = tx ∨ ∃ key, history.txMap.lookup key = some other := by
  unfold TxHistory.addTx at listed
  split_ifs at listed with old
  · exact .inr ⟨otherKey, listed⟩
  · by_cases same : otherKey = txKey
    · subst same
      rw [Except.toOption, Option.getD_some, Finmap.lookup_insert] at listed
      exact .inl (Option.some.inj listed).symm
    · rw [Except.toOption, Option.getD_some, Finmap.lookup_insert_of_ne _ same] at listed
      exact .inr ⟨otherKey, listed⟩

theorem holds_of_addTx {baseReserve : Int64} {view : PoolView} {txKey : String} {other : Tx}
    (held : (addTx baseReserve view txKey tx pool).1.Holds other) :
    pool.Holds other ∨ other = tx := by
  unfold addTx at held
  by_cases known : txKey ∈ pool.txSet
  · rw [if_pos known] at held
    exact .inl held
  rw [if_neg known] at held
  cases read : getAccount view.bucket tx.accountID with
  | none =>
    rw [read] at held
    exact .inl held
  | some acc =>
    have opened : (⟨pool.txSet, pool.accTxMap.insert tx.accountID
        ((pool.accTxMap.lookup tx.accountID).getD newTxHistory)⟩ : Pool).Holds other →
          pool.Holds other := by
      intro stillHeld
      rcases holds_of_insert_history stillHeld with before | ⟨key, listed⟩
      · exact before
      · exact holds_of_history listed
    simp only [read] at held
    split_ifs at held
    · exact .inl (opened held)
    · exact .inl (opened held)
    · exact .inl (opened held)
    · exact .inl (opened held)
    · rcases @holds_of_insert_history pool _ _ _ held with before | ⟨key, listed⟩
      · exact .inl before
      · rcases lookup_addTx listed with same | ⟨oldKey, old⟩
        · exact .inr same
        · exact .inl (holds_of_history old)

end Facts

end Ultiledger
