import Ultiledger.PoolCalls
import Ultiledger.TxStatuses
import Ultiledger.WriteThrough

/-! # Stored transactions and their statuses -/

namespace Ultiledger

open AbortingProgram WriteThrough Relation

/-- `rpcpb.TxStatus`, with the transaction it may carry. -/
structure FullTxStatus extends TxStatus where
  data : List UInt8
  deriving DecidableEq, Repr

/-- The part of `tx.Manager` and its database that holds transactions and statuses. -/
structure TxStore where
  accounts : Bucket
  pool : Pool
  txBucket : String → Option (List UInt8)
  txStatus : CachedMap String FullTxStatus

def TxStore.new (accounts : Bucket) : TxStore := ⟨accounts, Pool.empty, fun _ => none, .empty⟩

structure DbAnswers where
  putTx : Except String Unit
  encodeStatus : Except String Unit
  putStatus : Except String Unit

def DbAnswers.SavesStatus (answers : DbAnswers) : Prop :=
  answers.encodeStatus = .ok () ∧ answers.putStatus = .ok ()

section Calls

variable (tm : TxManager) (fillOrder : DbTx.FillOrder) (encodeTx : Tx → Except String (List UInt8))

/-- `UpdateTxStatus`, which fills the cache before it saves the status. -/
def TxStore.updateTxStatus (answers : DbAnswers) (txKey : String) (status : FullTxStatus)
    (store : TxStore) : TxStore × Except String Unit :=
  let filled := { store with txStatus := store.txStatus.fill txKey status }
  match answers.encodeStatus with
  | .error err => (filled, .error ("encode status failed: " ++ err))
  | .ok () =>
    match answers.putStatus with
    | .error err => (filled, .error ("save status in db failed: " ++ err))
    | .ok () => ({ store with txStatus := store.txStatus.put txKey status }, .ok ())

def TxStore.addTx (answers : DbAnswers) (txKey : String) (tx : Tx) (store : TxStore) :
    TxStore × Except String Unit :=
  if txKey ∈ store.pool.txSet then (store, .ok ())
  else
    match checkTx tm.baseReserve store.accounts tx store.pool with
    | (opened, .error err) => ({ store with pool := opened }, .error err)
    | (_, .ok ()) =>
      let filed := { store with pool := store.pool.file txKey tx }
      match encodeTx tx with
      | .error err => (filed, .error ("encode tx failed: " ++ err))
      | .ok b =>
        match answers.putTx with
        | .error err => (filed, .error ("save tx in db failed: " ++ err))
        | .ok () =>
          let saved := { filed with txBucket := Function.update filed.txBucket txKey (some b) }
          match saved.updateTxStatus answers txKey ⟨⟨.accepted, ""⟩, []⟩ with
          | (updated, .error err) => (updated, .error ("update tx status failed: " ++ err))
          | (updated, .ok ()) => (updated, .ok ())

def TxStore.getTxStatus (store : TxStore) (txKey : String) : Except Halt FullTxStatus :=
  match store.txStatus.cached txKey with
  | some status => .ok status
  | none =>
    match store.txStatus.stored txKey with
    | none => .ok ⟨⟨.notExist, ""⟩, []⟩
    | some status =>
      match store.txBucket txKey with
      | none => .error (.panicked "tx is missing while tx status is present")
      | some b => .ok { status with data := b }

def TxStore.applyTxList (schedule : Schedule) (txList : List Tx) (ledgerSeqNum : UInt64)
    (store : TxStore) : TxStore :=
  let final := (DbTx.applyTxList tm fillOrder schedule txList ledgerSeqNum
    ⟨store.accounts, ∅, []⟩).state
  { store with
    accounts := final.bucket
    txStatus := store.txStatus.putAll fun txKey =>
      (final.statuses.lookup txKey).map fun status => ⟨status, []⟩ }

inductive StoreCall where
  | addTx (answers : DbAnswers) (txKey : String) (tx : Tx)
  | updateTxStatus (answers : DbAnswers) (txKey : String) (status : FullTxStatus)
  | getTxStatus (txKey : String)
  | applyTxList (schedule : Schedule) (txList : List Tx) (ledgerSeqNum : UInt64)
  | evict (txKey : String)

def StoreCall.run : StoreCall → TxStore → TxStore
  | .addTx answers txKey tx, store => (store.addTx tm encodeTx answers txKey tx).1
  | .updateTxStatus answers txKey status, store => (store.updateTxStatus answers txKey status).1
  | .getTxStatus _, store => store
  | .applyTxList schedule txList ledgerSeqNum, store =>
    store.applyTxList tm fillOrder schedule txList ledgerSeqNum
  | .evict txKey, store => { store with txStatus := store.txStatus.evict txKey }

end Calls

section Effects

variable {tm : TxManager} {encodeTx : Tx → Except String (List UInt8)} {answers : DbAnswers}
  {txKey : String} {store : TxStore}

theorem updateTxStatus_cases (answers : DbAnswers) (txKey : String) (status : FullTxStatus)
    (store : TxStore) :
    (¬ answers.SavesStatus ∧ (store.updateTxStatus answers txKey status).1 =
        { store with txStatus := store.txStatus.fill txKey status }) ∨
      (store.updateTxStatus answers txKey status).1 =
        { store with txStatus := store.txStatus.put txKey status } := by
  unfold TxStore.updateTxStatus DbAnswers.SavesStatus
  cases answers.encodeStatus with
  | error err => exact .inl ⟨by simp, rfl⟩
  | ok encoded =>
    cases answers.putStatus with
    | error err => exact .inl ⟨by simp, rfl⟩
    | ok saved => exact .inr rfl

/-- All that `AddTx` can do: it changes the pool, and if the transaction is saved it
updates the status. -/
theorem addTx_cases (answers : DbAnswers) (txKey : String) (tx : Tx) (store : TxStore) :
    ∃ pool, (store.addTx tm encodeTx answers txKey tx).1 = { store with pool := pool } ∨
      ∃ b, encodeTx tx = .ok b ∧ (store.addTx tm encodeTx answers txKey tx).1 =
        (TxStore.updateTxStatus answers txKey ⟨⟨.accepted, ""⟩, []⟩
          { store with
            pool := pool
            txBucket := Function.update store.txBucket txKey (some b) }).1 := by
  unfold TxStore.addTx
  split_ifs
  · exact ⟨store.pool, .inl rfl⟩
  rcases checkTx tm.baseReserve store.accounts tx store.pool with ⟨opened, err | ⟨⟨⟩⟩⟩
  · exact ⟨opened, .inl rfl⟩
  refine ⟨store.pool.file txKey tx, ?_⟩
  cases encodeTx tx with
  | error err => exact .inl rfl
  | ok b =>
    cases answers.putTx with
    | error err => exact .inl rfl
    | ok saved =>
      refine .inr ⟨b, rfl, ?_⟩
      dsimp only
      rcases TxStore.updateTxStatus answers txKey ⟨⟨.accepted, ""⟩, []⟩ _ with
        ⟨updated, err | ⟨⟨⟩⟩⟩
      · rfl
      · rfl

theorem TxStore.addTx_refines (answers : DbAnswers) (txKey : String) (tx : Tx) (store : TxStore) :
    Ultiledger.addTx tm.baseReserve
        ⟨store.accounts, fun _ _ => (store.addTx tm encodeTx answers txKey tx).2⟩ txKey tx
        store.pool =
      ((store.addTx tm encodeTx answers txKey tx).1.pool,
        (store.addTx tm encodeTx answers txKey tx).2) := by
  rw [addTx_eq]
  unfold TxStore.addTx
  by_cases known : txKey ∈ store.pool.txSet
  · rw [if_pos known, if_pos known]
  rw [if_neg known, if_neg known]
  rcases checkTx tm.baseReserve store.accounts tx store.pool with ⟨opened, err | ⟨⟨⟩⟩⟩
  · rfl
  cases encodeTx tx with
  | error err => rfl
  | ok b =>
    cases answers.putTx with
    | error err => rfl
    | ok saved =>
      unfold TxStore.updateTxStatus
      cases answers.encodeStatus with
      | error err => rfl
      | ok encoded =>
        cases answers.putStatus with
        | error err => rfl
        | ok put => rfl

end Effects

section Sample

private def aliceAlone : Bucket :=
  Bucket.empty.insert (.account ⟨"alice", 1000, "alice", 1, 0, some ⟨0, 0⟩⟩)

private def aliceWrites : Tx := ⟨"alice", 10, "note", 2, []⟩

private def noOffers : DbTx.FillOrder := fun _ => Program.abort (.failed "no offers")

private def asSeven (_ : Tx) : Except String (List UInt8) := .ok [7]

private def allSaved : DbAnswers := ⟨.ok (), .ok (), .ok ()⟩

private def statusLost : DbAnswers := ⟨.ok (), .ok (), .error "disk full"⟩

private def addNote : StoreCall := .addTx allSaved "note" aliceWrites

private def applyNote : StoreCall := .applyTxList Schedule.insertion [aliceWrites] 9

private def afterStoreCalls (calls : List StoreCall) : TxStore :=
  calls.foldl (fun store call => call.run .plain noOffers asSeven store) (.new aliceAlone)

end Sample

section Cache

variable (tm : TxManager) (fillOrder : DbTx.FillOrder) (encodeTx : Tx → Except String (List UInt8))

def StoreCall.SavesStatus : StoreCall → Prop
  | .addTx answers _ _ => answers.SavesStatus
  | .updateTxStatus answers _ _ => answers.SavesStatus
  | _ => True

def SavingCall (store after : TxStore) : Prop :=
  ∃ call : StoreCall, call.SavesStatus ∧ after = call.run tm fillOrder encodeTx store

def TxStore.uncached (store : TxStore) : TxStore := { store with txStatus := store.txStatus.cold }

variable {tm fillOrder encodeTx}

theorem coherent_updateTxStatus {answers : DbAnswers} (saves : answers.SavesStatus)
    (txKey : String) (status : FullTxStatus) {store : TxStore} (coherent : store.txStatus.Coherent) :
    (store.updateTxStatus answers txKey status).1.txStatus.Coherent := by
  rcases updateTxStatus_cases answers txKey status store with ⟨unsaved, -⟩ | updated
  · exact absurd saves unsaved
  · rw [updated]
    exact coherent.put txKey status

theorem coherent_call {store after : TxStore} (call : SavingCall tm fillOrder encodeTx store after)
    (coherent : store.txStatus.Coherent) : after.txStatus.Coherent := by
  obtain ⟨call, saves, rfl⟩ := call
  cases call with
  | addTx answers txKey tx =>
    change (store.addTx tm encodeTx answers txKey tx).1.txStatus.Coherent
    obtain ⟨pool, unsaved | ⟨b, -, updated⟩⟩ := @addTx_cases tm encodeTx answers txKey tx store
    · rw [unsaved]
      exact coherent
    · rw [updated]
      exact coherent_updateTxStatus saves txKey _ coherent
  | updateTxStatus answers txKey status => exact coherent_updateTxStatus saves txKey status coherent
  | getTxStatus txKey => exact coherent
  | applyTxList schedule txList ledgerSeqNum => exact coherent.putAll _
  | evict txKey => exact coherent.evict txKey

theorem coherent_run {accounts : Bucket} {store : TxStore}
    (run : ReflTransGen (SavingCall tm fillOrder encodeTx) (.new accounts) store) :
    store.txStatus.Coherent := by
  induction run with
  | refl => exact CachedMap.coherent_empty
  | tail _ call ih => exact coherent_call call ih

/-- As long as every status is saved, the answer does not depend on the cache exactly if a
cached status carries the transaction. -/
theorem getTxStatus_uncached_iff {accounts : Bucket} {store : TxStore}
    (run : ReflTransGen (SavingCall tm fillOrder encodeTx) (.new accounts) store)
    {txKey : String} {b : List UInt8} (added : store.txBucket txKey = some b) :
    store.getTxStatus txKey = store.uncached.getTxStatus txKey ↔
      ∀ status, store.txStatus.cached txKey = some status → status.data = b := by
  have coherent := coherent_run run txKey
  unfold TxStore.getTxStatus TxStore.uncached CachedMap.cold
  cases cached : store.txStatus.cached txKey with
  | none => simp
  | some status =>
    have stored := coherent status cached
    simp only [stored, added, Option.some.injEq, forall_eq', Except.ok.injEq]
    constructor
    · intro same
      exact congrArg FullTxStatus.data same
    · rintro rfl
      rfl

end Cache

/-- Once its status has left the cache, a transaction is reported as without a cache. -/
theorem getTxStatus_uncached_evicted :
    (afterStoreCalls [addNote, .evict "note"]).getTxStatus "note" =
      (afterStoreCalls [addNote, .evict "note"]).uncached.getTxStatus "note" := by
  have run : ReflTransGen (SavingCall .plain noOffers asSeven) (.new aliceAlone)
      (afterStoreCalls [addNote, .evict "note"]) :=
    .tail (.tail .refl ⟨addNote, ⟨rfl, rfl⟩, rfl⟩) ⟨.evict "note", trivial, rfl⟩
  have added : (afterStoreCalls [addNote, .evict "note"]).txBucket "note" = some [7] := by
    decide +kernel
  have gone : (afterStoreCalls [addNote, .evict "note"]).txStatus.cached "note" = none := by
    decide +kernel
  exact (getTxStatus_uncached_iff run added).mpr fun status cached => by simp [gone] at cached

/-- The cached status of a new transaction lacks the transaction; and a status that could
not be saved is reported from the cache only. -/
theorem getTxStatus_cached_differs :
    (afterStoreCalls [addNote]).getTxStatus "note" = .ok ⟨⟨.accepted, ""⟩, []⟩ ∧
      (afterStoreCalls [addNote]).uncached.getTxStatus "note" = .ok ⟨⟨.accepted, ""⟩, [7]⟩ ∧
      (afterStoreCalls [addNote, .updateTxStatus statusLost "note"
        ⟨⟨.confirmed, ""⟩, [7]⟩]).getTxStatus "note" = .ok ⟨⟨.confirmed, ""⟩, [7]⟩ ∧
      (afterStoreCalls [addNote, .updateTxStatus statusLost "note"
        ⟨⟨.confirmed, ""⟩, [7]⟩]).uncached.getTxStatus "note" = .ok ⟨⟨.accepted, ""⟩, [7]⟩ := by
  refine ⟨?_, ?_, ?_, ?_⟩ <;> decide +kernel

section Stored

variable (tm : TxManager) (fillOrder : DbTx.FillOrder) (encodeTx : Tx → Except String (List UInt8))

/-- The transactions whose statuses the call writes are stored, or are stored by it. -/
def StoreCall.KnowsTxs (store : TxStore) : StoreCall → Prop
  | .updateTxStatus _ txKey _ => (store.txBucket txKey).isSome
  | .applyTxList _ txList _ => ∀ tx ∈ txList, (store.txBucket (tm.txKey tx)).isSome
  | _ => True

def KnowingCall (store after : TxStore) : Prop :=
  ∃ call : StoreCall, call.KnowsTxs tm store ∧ after = call.run tm fillOrder encodeTx store

def TxStore.Backed (store : TxStore) : Prop :=
  ∀ txKey, (store.txStatus.stored txKey).isSome → (store.txBucket txKey).isSome

variable {tm fillOrder encodeTx} {store : TxStore}

theorem TxStore.Backed.updateTxStatus (backed : store.Backed) (answers : DbAnswers) {txKey : String}
    (status : FullTxStatus) (present : (store.txBucket txKey).isSome) :
    (store.updateTxStatus answers txKey status).1.Backed := by
  rcases updateTxStatus_cases answers txKey status store with ⟨-, updated⟩ | updated
  · rw [updated]
    exact backed
  · rw [updated]
    intro otherKey found
    by_cases same : otherKey = txKey
    · subst same
      exact present
    · simp only [CachedMap.put, Function.update_of_ne same] at found
      exact backed otherKey found

theorem TxStore.Backed.save (backed : store.Backed) (pool : Pool)
    (txKey : String) (b : List UInt8) :
    TxStore.Backed { store with
      pool := pool
      txBucket := Function.update store.txBucket txKey (some b) } := by
  intro otherKey found
  by_cases same : otherKey = txKey
  · subst same
    simp
  · simp only [Function.update_of_ne same]
    exact backed otherKey found

theorem TxStore.Backed.applyTxList (backed : store.Backed) (schedule : Schedule) {txList : List Tx}
    (ledgerSeqNum : UInt64) (present : ∀ tx ∈ txList, (store.txBucket (tm.txKey tx)).isSome) :
    (store.applyTxList tm fillOrder schedule txList ledgerSeqNum).Backed := by
  intro txKey found
  by_contra missing
  have others : ∀ tx ∈ schedule.sort txList, tm.txKey tx ≠ txKey := by
    rintro tx txMem rfl
    exact missing (present tx ((schedule.sort_perm txList).mem_iff.mp txMem))
  have writes := (applyTxList_writes fillOrder ledgerSeqNum schedule txList
    ⟨store.accounts, ∅, []⟩).atEnd txKey others
  apply missing
  apply backed
  simpa [TxStore.applyTxList, CachedMap.putAll, writes] using found

theorem backed_call {store after : TxStore} (call : KnowingCall tm fillOrder encodeTx store after)
    (backed : store.Backed) : after.Backed := by
  obtain ⟨call, knows, rfl⟩ := call
  cases call with
  | addTx answers txKey tx =>
    change (store.addTx tm encodeTx answers txKey tx).1.Backed
    obtain ⟨pool, unsaved | ⟨b, -, updated⟩⟩ := @addTx_cases tm encodeTx answers txKey tx store
    · rw [unsaved]
      exact backed
    · rw [updated]
      exact (backed.save pool txKey b).updateTxStatus answers _ (by simp)
  | updateTxStatus answers txKey status => exact backed.updateTxStatus answers status knows
  | getTxStatus txKey => exact backed
  | applyTxList schedule txList ledgerSeqNum =>
    exact backed.applyTxList schedule ledgerSeqNum knows
  | evict txKey => exact backed

theorem backed_run {accounts : Bucket}
    (run : ReflTransGen (KnowingCall tm fillOrder encodeTx) (.new accounts) store) :
    store.Backed := by
  induction run with
  | refl => exact fun txKey found => by simp [TxStore.new, CachedMap.empty] at found
  | tail _ call ih => exact backed_call call ih

/-- As long as only the statuses of stored transactions are written, every transaction
with a status is stored, and no query ends the process. -/
theorem statuses_stored_of_calls {accounts : Bucket} {store : TxStore}
    (run : ReflTransGen (KnowingCall tm fillOrder encodeTx) (.new accounts) store) :
    (∀ txKey, (store.txStatus.stored txKey).isSome → (store.txBucket txKey).isSome) ∧
      ∀ txKey, ∃ status, store.getTxStatus txKey = .ok status := by
  have backed := backed_run run
  refine ⟨backed, fun txKey => ?_⟩
  unfold TxStore.getTxStatus
  cases store.txStatus.cached txKey with
  | some status => exact ⟨status, rfl⟩
  | none =>
    cases stored : store.txStatus.stored txKey with
    | none => exact ⟨_, rfl⟩
    | some status =>
      obtain ⟨b, found⟩ := Option.isSome_iff_exists.mp (backed txKey (by simp [stored]))
      simp only [found]
      exact ⟨_, rfl⟩

end Stored

/-- A transaction that was added before it is applied can be queried without a cache. -/
theorem statuses_stored_added :
    ((afterStoreCalls [addNote, applyNote, .evict "note"]).txStatus.stored "note").isSome ∧
      ∃ status, (afterStoreCalls [addNote, applyNote, .evict "note"]).getTxStatus "note" =
        .ok status := by
  have knows : applyNote.KnowsTxs .plain (afterStoreCalls [addNote]) := by
    change ∀ tx ∈ [aliceWrites], ((afterStoreCalls [addNote]).txBucket tx.note).isSome
    decide +kernel
  have run : ReflTransGen (KnowingCall .plain noOffers asSeven) (.new aliceAlone)
      (afterStoreCalls [addNote, applyNote, .evict "note"]) :=
    .tail (.tail (.tail .refl ⟨addNote, trivial, rfl⟩) ⟨applyNote, knows, rfl⟩)
      ⟨.evict "note", trivial, rfl⟩
  exact ⟨by decide +kernel, (statuses_stored_of_calls run).2 "note"⟩

/-- A transaction of an agreed set that was never added has a status and is not stored:
the query ends the process. -/
theorem statuses_not_stored :
    ((afterStoreCalls [applyNote, .evict "note"]).txStatus.stored "note").isSome ∧
      (afterStoreCalls [applyNote, .evict "note"]).txBucket "note" = none ∧
      (afterStoreCalls [applyNote, .evict "note"]).getTxStatus "note" =
        .error (.panicked "tx is missing while tx status is present") := by
  refine ⟨?_, ?_, ?_⟩ <;> decide +kernel

end Ultiledger
