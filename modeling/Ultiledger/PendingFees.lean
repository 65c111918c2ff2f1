import Ultiledger.PoolCalls
import Mathlib.Algebra.Order.Group.Int

/-! # The fees of pending transactions

The history of an account carries the total of its pending fees and its largest
sequence number, in machine integers, and no fee is checked for its sign.
-/

namespace Ultiledger

open FinmapTotals MachineIntegers Relation

def pendingFees (txMap : Finmap fun _ : String => Tx) : Int := total (fun tx => tx.fee.toInt) txMap

/-- The number is the largest sequence number, and zero if there is none. -/
structure LargestSeqNum (txMap : Finmap fun _ : String => Tx) (number : UInt64) : Prop where
  above : ∀ txKey tx, txMap.lookup txKey = some tx → tx.seqNum ≤ number
  attained : (txMap = ∅ ∧ number = 0) ∨ ∃ txKey tx, txMap.lookup txKey = some tx ∧ tx.seqNum = number

def spendable (baseReserve : Int64) (acc : Account) : Int :=
  acc.balance.toInt - acc.entryCount.toInt * baseReserve.toInt

section Tally

variable (entries : List (Sigma fun _ : String => Tx)) (txMap : Finmap fun _ : String => Tx)
  (sums : UInt64 × Int64)

theorem foldl_tallyStep_fees :
    (entries.foldl (fun sums entry => tallyStep sums entry.2) sums).2.toInt =
      (sums.2.toInt + ((entries : Multiset (Sigma fun _ : String => Tx)).map
        fun entry => entry.2.fee.toInt).sum).bmod (2 ^ 64) := by
  induction entries generalizing sums with
  | nil =>
    rw [Multiset.coe_nil, Multiset.map_zero, Multiset.sum_zero, Int.add_zero]
    exact (Int.bmod_eq_of_le sums.2.le_toInt sums.2.toInt_lt).symm
  | cons entry rest ih =>
    rw [List.foldl_cons, ih, tallyStep, Int64.toInt_add, Int.bmod_add_bmod, ← Multiset.cons_coe,
      Multiset.map_cons, Multiset.sum_cons, Int.add_assoc]

theorem toInt_tally_fees : (tally txMap).2.toInt = (pendingFees txMap).bmod (2 ^ 64) := by
  induction txMap using Finmap.induction_on with
  | H entries =>
    have folded := foldl_tallyStep_fees entries.entries (0, 0)
    rw [Int64.toInt_zero, Int.zero_add] at folded
    exact folded

theorem foldl_tallyStep_seqNum :
    sums.1 ≤ (entries.foldl (fun sums entry => tallyStep sums entry.2) sums).1 ∧
      (∀ entry ∈ entries,
        entry.2.seqNum ≤ (entries.foldl (fun sums entry => tallyStep sums entry.2) sums).1) ∧
      ((entries.foldl (fun sums entry => tallyStep sums entry.2) sums).1 = sums.1 ∨
        ∃ entry ∈ entries,
          entry.2.seqNum = (entries.foldl (fun sums entry => tallyStep sums entry.2) sums).1) := by
  induction entries generalizing sums with
  | nil => exact ⟨UInt64.le_refl _, by simp, .inl rfl⟩
  | cons entry rest ih =>
    obtain ⟨grown, above, attained⟩ := ih (tallyStep sums entry.2)
    have step : sums.1 ≤ (tallyStep sums entry.2).1 ∧ entry.2.seqNum ≤ (tallyStep sums entry.2).1 ∧
        ((tallyStep sums entry.2).1 = sums.1 ∨ (tallyStep sums entry.2).1 = entry.2.seqNum) := by
      unfold tallyStep
      split_ifs with larger
      · exact ⟨UInt64.le_of_lt larger, UInt64.le_refl _, .inr rfl⟩
      · exact ⟨UInt64.le_refl _, UInt64.not_lt.mp larger, .inl rfl⟩
    refine ⟨UInt64.le_trans step.1 grown, ?_, ?_⟩
    · intro other otherMem
      rcases List.mem_cons.mp otherMem with rfl | later
      · exact UInt64.le_trans step.2.1 grown
      · exact above other later
    · rcases attained with same | ⟨other, otherMem, same⟩
      · rcases step.2.2 with kept | taken
        · exact .inl (same.trans kept)
        · exact .inr ⟨entry, .head _, (same.trans taken).symm⟩
      · exact .inr ⟨other, .tail _ otherMem, same⟩

theorem largestSeqNum_tally : LargestSeqNum txMap (tally txMap).1 := by
  induction txMap using Finmap.induction_on with
  | H entries =>
    obtain ⟨-, above, attained⟩ := foldl_tallyStep_seqNum entries.entries (0, 0)
    change (∀ entry ∈ entries.entries, entry.2.seqNum ≤ (tally entries.toFinmap).1) at above
    change (tally entries.toFinmap).1 = 0 ∨
      ∃ entry ∈ entries.entries, entry.2.seqNum = (tally entries.toFinmap).1 at attained
    have listed : ∀ entry ∈ entries.entries,
        entries.toFinmap.lookup entry.1 = some entry.2 :=
      fun entry entryMem => List.mem_dlookup entries.nodupKeys entryMem
    constructor
    · intro txKey tx found
      exact above ⟨txKey, tx⟩ (AList.mem_lookup_iff.mp found)
    · rcases attained with zero | ⟨entry, entryMem, same⟩
      · rcases empty : entries.entries with _ | ⟨first, rest⟩
        · left
          refine ⟨Finmap.ext_lookup fun txKey => ?_, zero⟩
          change entries.entries.dlookup txKey = none
          rw [empty, List.dlookup_nil]
        · have firstMem : first ∈ entries.entries := by simp [empty]
          refine .inr ⟨first.1, first.2, listed first firstMem, ?_⟩
          apply UInt64.le_antisymm (above first firstMem)
          rw [zero]
          exact UInt64.zero_le
      · exact .inr ⟨entry.1, entry.2, listed entry entryMem, same⟩

end Tally

section Soundness

variable (baseReserve : Int64) (bucket : Bucket)

/-- The aggregates of a history are exact, its fees are not negative, and the account can
pay them. -/
structure HistorySound (accountID : String) (history : TxHistory) : Prop where
  exact : history.totalFees.toInt = pendingFees history.txMap
  nonneg : ∀ txKey tx, history.txMap.lookup txKey = some tx → 0 ≤ tx.fee.toInt
  largest : LargestSeqNum history.txMap history.maxSeqNum
  covered : history.txMap ≠ ∅ → ∃ acc, getAccount bucket accountID = some acc ∧
    pendingFees history.txMap ≤ spendable baseReserve acc

structure PoolSound (pool : Pool) : Prop where
  known : ∀ accountID history, pool.accTxMap.lookup accountID = some history →
    ∀ txKey ∈ history.txMap, txKey ∈ pool.txSet
  sound : ∀ accountID history, pool.accTxMap.lookup accountID = some history →
    HistorySound baseReserve bucket accountID history

structure FeeFits (tx : Tx) (pool : Pool) : Prop where
  nonneg : 0 ≤ tx.fee.toInt
  total : tx.fee.toInt + (pool.history tx.accountID).totalFees.toInt ≤ maxInt64
  spendable : ∀ acc, getAccount bucket tx.accountID = some acc →
    minInt64 ≤ spendable baseReserve acc ∧ spendable baseReserve acc ≤ maxInt64

variable {baseReserve bucket}

theorem historySound_new (accountID : String) :
    HistorySound baseReserve bucket accountID newTxHistory where
  exact := rfl
  nonneg txKey tx found := by simp [newTxHistory] at found
  largest := ⟨fun txKey tx found => by simp [newTxHistory] at found, .inl ⟨rfl, rfl⟩⟩
  covered pending := absurd rfl pending

variable {history : TxHistory} {acc : Account}

theorem HistorySound.fees_nonneg {accountID : String}
    (sound : HistorySound baseReserve bucket accountID history) : 0 ≤ pendingFees history.txMap :=
  total_nonneg sound.nonneg

theorem toInt_spendable (above : minInt64 ≤ spendable baseReserve acc)
    (below : spendable baseReserve acc ≤ maxInt64) :
    (acc.balance - baseReserve * acc.entryCount.toInt64).toInt = spendable baseReserve acc := by
  unfold spendable minInt64 maxInt64 at *
  rw [Int64.toInt_sub, Int64.toInt_mul, Int32.toInt_toInt64, Int.sub_bmod_bmod,
    Int.mul_comm baseReserve.toInt]
  exact Int.bmod_eq_of_le (by omega) (by omega)

variable {pool : Pool} {tx : Tx} {txKey accountID : String}

section

variable (sound : PoolSound baseReserve bucket pool)

include sound

theorem PoolSound.history_sound (accountID : String) :
    HistorySound baseReserve bucket accountID (pool.history accountID) := by
  unfold Pool.history
  cases found : pool.accTxMap.lookup accountID with
  | none => exact historySound_new accountID
  | some history => exact sound.sound accountID history found

theorem PoolSound.history_known (accountID : String) :
    ∀ txKey ∈ (pool.history accountID).txMap, txKey ∈ pool.txSet := by
  unfold Pool.history
  cases found : pool.accTxMap.lookup accountID with
  | none => exact fun txKey listed => absurd listed Finmap.notMem_empty
  | some history => exact sound.known accountID history found

theorem PoolSound.insert {txSet : Finset String} (grown : pool.txSet ⊆ txSet)
    {history : TxHistory} (known : ∀ txKey ∈ history.txMap, txKey ∈ txSet)
    (historySound : HistorySound baseReserve bucket accountID history) :
    PoolSound baseReserve bucket ⟨txSet, pool.accTxMap.insert accountID history⟩ := by
  constructor
  · intro otherID other found
    by_cases same : otherID = accountID
    · subst same
      rw [Finmap.lookup_insert] at found
      cases found
      exact known
    · rw [Finmap.lookup_insert_of_ne _ same] at found
      exact fun txKey txKeyMem => grown (sound.known otherID other found txKey txKeyMem)
  · intro otherID other found
    by_cases same : otherID = accountID
    · subst same
      rw [Finmap.lookup_insert] at found
      cases found
      exact historySound
    · rw [Finmap.lookup_insert_of_ne _ same] at found
      exact sound.sound otherID other found

theorem PoolSound.erase (accountID : String) :
    PoolSound baseReserve bucket { pool with accTxMap := pool.accTxMap.erase accountID } := by
  have kept : ∀ otherID other, (pool.accTxMap.erase accountID).lookup otherID = some other →
      pool.accTxMap.lookup otherID = some other := by
    intro otherID other found
    by_cases same : otherID = accountID
    · rw [same] at found
      simp at found
    · rwa [Finmap.lookup_erase_ne same] at found
  exact ⟨fun otherID other found => sound.known otherID other (kept otherID other found),
    fun otherID other found => sound.sound otherID other (kept otherID other found)⟩

theorem PoolSound.opened (accountID : String) :
    PoolSound baseReserve bucket (pool.opened accountID) :=
  sound.insert (Finset.Subset.refl _) (sound.history_known accountID)
    (sound.history_sound accountID)

end

/-- What is filed is added to the exact sum, and the balance check has compared the sum
with what the account can spend. -/
theorem HistorySound.file (sound : HistorySound baseReserve bucket tx.accountID history)
    (fresh : txKey ∉ history.txMap) (nonneg : 0 ≤ tx.fee.toInt)
    (fits : tx.fee.toInt + history.totalFees.toInt ≤ maxInt64)
    (read : getAccount bucket tx.accountID = some acc)
    (above : minInt64 ≤ spendable baseReserve acc) (below : spendable baseReserve acc ≤ maxInt64)
    (inOrder : history.maxSeqNum ≤ tx.seqNum)
    (funded : ¬ acc.balance - baseReserve * acc.entryCount.toInt64 < tx.fee + history.totalFees) :
    HistorySound baseReserve bucket tx.accountID
      ⟨tx.seqNum, history.totalFees + tx.fee, history.txMap.insert txKey tx⟩ := by
  have before := sound.fees_nonneg
  have exact := sound.exact
  have summed : pendingFees (history.txMap.insert txKey tx) = pendingFees history.txMap + tx.fee.toInt := by
    have inserted := total_insert (fun tx : Tx => tx.fee.toInt) history.txMap txKey tx
    rw [held, Finmap.lookup_eq_none.mpr fresh, Option.elim_none, add_zero] at inserted
    exact inserted
  have listed : ∀ otherKey other, (history.txMap.insert txKey tx).lookup otherKey = some other →
      other = tx ∨ history.txMap.lookup otherKey = some other := by
    intro otherKey other found
    by_cases same : otherKey = txKey
    · subst same
      rw [Finmap.lookup_insert] at found
      exact .inl (Option.some.inj found).symm
    · rw [Finmap.lookup_insert_of_ne _ same] at found
      exact .inr found
  have lowest : minInt64 ≤ 0 := by decide
  constructor
  · rw [toInt_add_of_fits (by omega) (by omega), exact, summed]
  · intro otherKey other found
    rcases listed otherKey other found with rfl | old
    · exact nonneg
    · exact sound.nonneg otherKey other old
  · refine ⟨?_, .inr ⟨txKey, tx, Finmap.lookup_insert _, rfl⟩⟩
    intro otherKey other found
    rcases listed otherKey other found with rfl | old
    · exact UInt64.le_refl _
    · exact UInt64.le_trans (sound.largest.above otherKey other old) inOrder
  · intro _
    refine ⟨acc, read, ?_⟩
    rw [Int64.lt_iff_toInt_lt, toInt_spendable above below,
      toInt_add_of_fits (by omega) fits] at funded
    change pendingFees (history.txMap.insert txKey tx) ≤ _
    omega

theorem PoolSound.admit (sound : PoolSound baseReserve bucket pool) {after : Pool}
    (fits : FeeFits baseReserve bucket tx pool)
    (admission : Admission baseReserve bucket txKey tx pool after) :
    PoolSound baseReserve bucket after := by
  cases admission with
  | ignored => exact sound
  | opened => exact sound.opened tx.accountID
  | filed acc fresh admissible =>
    obtain ⟨above, below⟩ := fits.spendable acc admissible.read
    refine sound.insert (Finset.subset_insert _ _) ?_ ?_
    · intro otherKey otherMem
      rcases Finmap.mem_insert.mp otherMem with rfl | old
      · exact Finset.mem_insert_self _ _
      · exact Finset.mem_insert_of_mem (sound.history_known tx.accountID otherKey old)
    · exact (sound.history_sound tx.accountID).file
        (fun old => fresh (sound.history_known tx.accountID txKey old)) fits.nonneg fits.total
        admissible.read above below admissible.inOrder admissible.funded

theorem HistorySound.deleteTxList (sound : HistorySound baseReserve bucket accountID history)
    (txKeys : List String) :
    HistorySound baseReserve bucket accountID (history.deleteTxList txKeys) := by
  have left : ∀ txKey tx, (eraseAll txKeys history.txMap).lookup txKey = some tx →
      history.txMap.lookup txKey = some tx := by
    intro txKey tx found
    rw [lookup_eraseAll] at found
    split_ifs at found
    exact found
  have nonneg : ∀ txKey tx, (eraseAll txKeys history.txMap).lookup txKey = some tx →
      0 ≤ tx.fee.toInt :=
    fun txKey tx found => sound.nonneg txKey tx (left txKey tx found)
  have above : 0 ≤ pendingFees (eraseAll txKeys history.txMap) := total_nonneg nonneg
  have below : pendingFees (eraseAll txKeys history.txMap) ≤ pendingFees history.txMap :=
    total_eraseAll_le txKeys history.txMap sound.nonneg
  constructor
  · have small := le_maxInt64 history.totalFees
    rw [sound.exact] at small
    unfold maxInt64 at small
    change (tally (eraseAll txKeys history.txMap)).2.toInt = pendingFees (eraseAll txKeys history.txMap)
    rw [toInt_tally_fees]
    exact Int.bmod_eq_of_le (by omega) (by omega)
  · exact nonneg
  · exact largestSeqNum_tally _
  · intro pending
    have wasPending : history.txMap ≠ ∅ := by
      intro empty
      apply pending
      apply Finmap.ext_lookup
      intro txKey
      change (eraseAll txKeys history.txMap).lookup txKey = _
      rw [lookup_eraseAll, empty]
      split_ifs <;> rfl
    obtain ⟨acc, read, covered⟩ := sound.covered wasPending
    exact ⟨acc, read, below.trans covered⟩

theorem PoolSound.drop (sound : PoolSound baseReserve bucket pool)
    (found : pool.accTxMap.lookup accountID = some history) (txKeys : List String) :
    PoolSound baseReserve bucket (pool.drop accountID history txKeys) := by
  unfold Pool.drop
  dsimp only
  split_ifs
  · exact sound.erase accountID
  · refine sound.insert (Finset.Subset.refl _) ?_
      ((sound.sound accountID history found).deleteTxList txKeys)
    intro txKey txKeyMem
    obtain ⟨tx, listed⟩ := Finmap.mem_iff.mp txKeyMem
    change (eraseAll txKeys history.txMap).lookup txKey = some tx at listed
    rw [lookup_eraseAll] at listed
    split_ifs at listed
    exact sound.known accountID history found txKey (Finmap.mem_of_lookup_eq_some listed)

end Soundness

section Runs

variable (baseReserve : Int64) (bucket : Bucket) (getTxKey : Tx → Except String String)

/-- A call on the pool, with what the database answers or the order of the accounts. -/
inductive PoolCall where
  | addTx (txKey : String) (tx : Tx) (saved : Except String Unit)
  | deleteTxList (txList : List Tx) (order : List String → List String)

def PoolCall.run : PoolCall → GuardedPool → GuardedPool
  | .addTx txKey tx saved, guarded =>
    (guarded.addTx baseReserve ⟨bucket, fun _ _ => saved⟩ txKey tx).1
  | .deleteTxList txList order, guarded => (guarded.deleteTxList getTxKey order txList).1

def PoolCall.Fits : PoolCall → GuardedPool → Prop
  | .addTx _ tx _, guarded => FeeFits baseReserve bucket tx guarded.pool
  | .deleteTxList _ _, _ => True

def FittingCall (guarded after : GuardedPool) : Prop :=
  ∃ call : PoolCall, call.Fits baseReserve bucket guarded ∧
    after = call.run baseReserve bucket getTxKey guarded

variable {baseReserve bucket getTxKey}

theorem poolSound_call {guarded after : GuardedPool}
    (call : FittingCall baseReserve bucket getTxKey guarded after)
    (sound : PoolSound baseReserve bucket guarded.pool) :
    PoolSound baseReserve bucket after.pool := by
  obtain ⟨call, fits, rfl⟩ := call
  cases call with
  | addTx txKey tx saved =>
    exact sound.admit fits
      (admission_addTx baseReserve ⟨bucket, fun _ _ => saved⟩ txKey tx guarded)
  | deleteTxList txList order =>
    exact deleteAccounts_induction
      (fun pool accountID th found kept => kept.drop found _) _ sound

theorem poolSound_run {guarded : GuardedPool}
    (run : ReflTransGen (FittingCall baseReserve bucket getTxKey) .empty guarded) :
    PoolSound baseReserve bucket guarded.pool := by
  induction run with
  | refl =>
    exact ⟨fun accountID history found => by simp [GuardedPool.empty, Pool.empty] at found,
      fun accountID history found => by simp [GuardedPool.empty, Pool.empty] at found⟩
  | tail _ call ih => exact poolSound_call call ih

/-- Along calls that fit, every history has the exact sum of its fees and the largest of
its sequence numbers, and while something is pending the sum is within what the account
can spend. -/
theorem pending_fees_of_calls {guarded : GuardedPool}
    (run : ReflTransGen (FittingCall baseReserve bucket getTxKey) .empty guarded) :
    ∀ accountID history, guarded.pool.accTxMap.lookup accountID = some history →
      history.totalFees.toInt = pendingFees history.txMap ∧
      LargestSeqNum history.txMap history.maxSeqNum ∧
      (history.txMap ≠ ∅ → ∃ acc, getAccount bucket accountID = some acc ∧
        pendingFees history.txMap ≤ spendable baseReserve acc) := by
  intro accountID history found
  have sound := (poolSound_run run).sound accountID history found
  exact ⟨sound.exact, sound.largest, sound.covered⟩

end Runs

section Sample

private def aliceHasHundred : Bucket := Bucket.empty.insert (.account ⟨"alice", 100, "", 0, 0, none⟩)

private def aliceCosts (fee : Int64) (seqNum : UInt64) : Tx := ⟨"alice", fee, "", seqNum, []⟩

private def bySeqNum (tx : Tx) : Except String String := .ok (toString tx.seqNum)

private def aliceAdds (fee : Int64) (seqNum : UInt64) : PoolCall :=
  .addTx (toString seqNum) (aliceCosts fee seqNum) (.ok ())

private def afterCalls (calls : List PoolCall) : GuardedPool :=
  calls.foldl (fun guarded call => call.run 0 aliceHasHundred bySeqNum guarded) .empty

private theorem aliceAdds_fits {guarded : GuardedPool} {fee : Int64} (seqNum : UInt64)
    (nonneg : 0 ≤ fee.toInt)
    (total : fee.toInt + (guarded.pool.history "alice").totalFees.toInt ≤ maxInt64) :
    (aliceAdds fee seqNum).Fits 0 aliceHasHundred guarded := by
  refine ⟨nonneg, total, ?_⟩
  change ∀ acc ∈ getAccount aliceHasHundred "alice",
    minInt64 ≤ spendable 0 acc ∧ spendable 0 acc ≤ maxInt64
  decide +kernel

private theorem aliceRun : ReflTransGen (FittingCall 0 aliceHasHundred bySeqNum) .empty
    (afterCalls [aliceAdds 60 1, aliceAdds 40 2, .deleteTxList [aliceCosts 60 1] id]) :=
  .tail (.tail (.tail .refl
    ⟨aliceAdds 60 1, aliceAdds_fits 1 (by decide) (by decide +kernel), rfl⟩)
    ⟨aliceAdds 40 2, aliceAdds_fits 2 (by decide) (by decide +kernel), rfl⟩)
    ⟨.deleteTxList [aliceCosts 60 1] id, trivial, rfl⟩

/-- Fees of sixty and forty come in and the first one is deleted. -/
theorem pending_fees_alice :
    ∃ history, (afterCalls [aliceAdds 60 1, aliceAdds 40 2,
        .deleteTxList [aliceCosts 60 1] id]).pool.accTxMap.lookup "alice" = some history ∧
      pendingFees history.txMap = 40 ∧ history.totalFees.toInt = pendingFees history.txMap ∧
      LargestSeqNum history.txMap history.maxSeqNum := by
  obtain ⟨history, found, fees⟩ : ∃ history ∈ (afterCalls [aliceAdds 60 1, aliceAdds 40 2,
      .deleteTxList [aliceCosts 60 1] id]).pool.accTxMap.lookup "alice",
      pendingFees history.txMap = 40 := by
    decide +kernel
  obtain ⟨exact, largest, -⟩ := pending_fees_of_calls aliceRun "alice" history found
  exact ⟨history, found, fees, exact, largest⟩

/-- An account of a hundred gets in a fee that overflows the total; and after a negative
fee, one of two hundred that stays when the negative one goes. -/
theorem pending_fees_unbounded :
    (∃ history ∈ (afterCalls [aliceAdds 100 1,
        aliceAdds 9223372036854775807 2]).pool.accTxMap.lookup "alice",
      history.totalFees.toInt = -9223372036854775709 ∧
      pendingFees history.txMap = 9223372036854775907) ∧
    (∃ history ∈ (afterCalls [aliceAdds (-100) 1, aliceAdds 200 2,
        .deleteTxList [aliceCosts (-100) 1] id]).pool.accTxMap.lookup "alice",
      pendingFees history.txMap = 200 ∧
      ∀ acc ∈ getAccount aliceHasHundred "alice", spendable 0 acc = 100) := by
  decide +kernel

end Sample

end Ultiledger
