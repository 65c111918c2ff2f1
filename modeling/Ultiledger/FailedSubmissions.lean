import Ultiledger.StatusStore

/-! # Submissions that fail -/

namespace Ultiledger

section Records

/-- An account without a history counts as one with an empty history. -/
structure TxStore.SameRecords (before after : TxStore) : Prop where
  txSet : after.pool.txSet = before.pool.txSet
  history : ∀ accountID, after.pool.history accountID = before.pool.history accountID
  txBucket : after.txBucket = before.txBucket
  txStatus : after.txStatus = before.txStatus

theorem Pool.history_opened (pool : Pool) (openedID accountID : String) :
    (pool.opened openedID).history accountID = pool.history accountID := by
  by_cases same : accountID = openedID
  · subst same
    change ((pool.accTxMap.insert accountID (pool.history accountID)).lookup accountID).getD
      newTxHistory = pool.history accountID
    rw [Finmap.lookup_insert, Option.getD_some]
  · change ((pool.accTxMap.insert openedID (pool.history openedID)).lookup accountID).getD
      newTxHistory = pool.history accountID
    rw [Finmap.lookup_insert_of_ne _ same]
    rfl

variable {tm : TxManager} {encodeTx : Tx → Except String (List UInt8)} {answers : DbAnswers}
  {txKey : String} {tx : Tx} {before after : TxStore}

theorem sameRecords_checkTx (baseReserve : Int64) (tx : Tx) (store : TxStore) :
    store.SameRecords
      { store with pool := (checkTx baseReserve store.accounts tx store.pool).1 } := by
  rcases @checkTx_pool baseReserve store.accounts tx store.pool with same | opened
  · rw [same]
    exact ⟨rfl, fun _ => rfl, rfl, rfl⟩
  · rw [opened]
    exact ⟨rfl, store.pool.history_opened tx.accountID, rfl, rfl⟩

theorem checkTx_reply_congr {first second : Pool} (baseReserve : Int64) (bucket : Bucket) (tx : Tx)
    (same : first.history tx.accountID = second.history tx.accountID) :
    (checkTx baseReserve bucket tx first).2 = (checkTx baseReserve bucket tx second).2 := by
  unfold checkTx
  rw [same]
  cases getAccount bucket tx.accountID with
  | none => rfl
  | some acc =>
    dsimp only
    split_ifs <;> rfl

theorem TxStore.SameRecords.addTx_reply (same : before.SameRecords after) (accounts : Bucket)
    (answers : DbAnswers) (txKey : String) (tx : Tx) :
    (TxStore.addTx tm encodeTx answers txKey tx { after with accounts := accounts }).2 =
      (TxStore.addTx tm encodeTx answers txKey tx { before with accounts := accounts }).2 := by
  have checks := checkTx_reply_congr tm.baseReserve accounts tx (same.history tx.accountID)
  unfold TxStore.addTx
  rw [same.txSet]
  by_cases known : txKey ∈ before.pool.txSet
  · rw [if_pos known, if_pos known]
  rw [if_neg known, if_neg known]
  revert checks
  rcases checkTx tm.baseReserve accounts tx after.pool with ⟨openedAfter, reply⟩
  rcases checkTx tm.baseReserve accounts tx before.pool with ⟨openedBefore, replyBefore⟩
  rintro (rfl : reply = replyBefore)
  rcases reply with err | ⟨⟨⟩⟩
  · rfl
  cases encodeTx tx with
  | error err => rfl
  | ok b =>
    cases answers.putTx with
    | error err => rfl
    | ok saved =>
      unfold TxStore.updateTxStatus
      cases answers.encodeStatus with
      | error err => rfl
      | ok encoded =>
        cases answers.putStatus with
        | error err => rfl
        | ok put => rfl

theorem addTx_pool_of_passed (fresh : txKey ∉ before.pool.txSet)
    (passed : (checkTx tm.baseReserve before.accounts tx before.pool).2 = .ok ()) :
    (before.addTx tm encodeTx answers txKey tx).1.pool = before.pool.file txKey tx := by
  have pools := congrArg Prod.fst (@TxStore.addTx_refines tm encodeTx answers txKey tx before)
  rw [addTx_eq, if_neg fresh] at pools
  rcases checked : checkTx tm.baseReserve before.accounts tx before.pool with ⟨opened, reply⟩
  rw [checked] at passed pools
  obtain rfl : reply = .ok () := passed
  exact pools.symm

/-- A submission that fails was refused and has changed nothing, or has been filed, and
then submitting it again changes nothing and is reported as a success. -/
theorem addTx_refused_or_filed {err : String}
    (failed : before.addTx tm encodeTx answers txKey tx = (after, .error err)) :
    ((checkTx tm.baseReserve before.accounts tx before.pool).2 = .error err ∧
      before.SameRecords after ∧
      ∀ accounts later,
        (TxStore.addTx tm encodeTx later txKey tx { after with accounts := accounts }).2 =
          (TxStore.addTx tm encodeTx later txKey tx { before with accounts := accounts }).2) ∨
    ((checkTx tm.baseReserve before.accounts tx before.pool).2 = .ok () ∧
      ¬ before.SameRecords after ∧ after.pool = before.pool.file txKey tx ∧
      ∀ accounts later,
        TxStore.addTx tm encodeTx later txKey tx { after with accounts := accounts } =
          ({ after with accounts := accounts }, .ok ())) := by
  have fresh : txKey ∉ before.pool.txSet := by
    intro known
    rw [TxStore.addTx, if_pos known] at failed
    cases failed
  cases checked : (checkTx tm.baseReserve before.accounts tx before.pool).2 with
  | error refusal =>
    left
    have refused : before.addTx tm encodeTx answers txKey tx =
        ({ before with pool := (checkTx tm.baseReserve before.accounts tx before.pool).1 },
          .error refusal) := by
      rw [TxStore.addTx, if_neg fresh]
      rcases checks : checkTx tm.baseReserve before.accounts tx before.pool with ⟨opened, reply⟩
      rw [checks] at checked
      obtain rfl : reply = .error refusal := checked
      rfl
    obtain ⟨rfl, same⟩ := Prod.mk.inj (refused.symm.trans failed)
    cases same
    have unchanged := sameRecords_checkTx tm.baseReserve tx before
    exact ⟨rfl, unchanged, fun accounts later => unchanged.addTx_reply accounts later txKey tx⟩
  | ok passed =>
    right
    have filed : after.pool = before.pool.file txKey tx := by
      rw [← addTx_pool_of_passed fresh checked, failed]
    have known : txKey ∈ after.pool.txSet := by
      rw [filed]
      exact Finset.mem_insert_self txKey before.pool.txSet
    refine ⟨rfl, fun same => ?_, filed, fun accounts later => ?_⟩
    · exact fresh (same.txSet ▸ known)
    · rw [TxStore.addTx, if_pos known]

end Records

section Samples

private def aliceOwnsThousand : Bucket :=
  Bucket.empty.insert (.account ⟨"alice", 1000, "alice", 1, 0, some ⟨0, 0⟩⟩)

private def aliceSends (fee : Int64) : Tx := ⟨"alice", fee, "", 1, []⟩

private def asOneByte (_ : Tx) : Except String (List UInt8) := .ok [7]

private def disk (putTx putStatus : Except String Unit) : DbAnswers := ⟨putTx, .ok (), putStatus⟩

private def submission (answers : DbAnswers) (fee : Int64) (store : TxStore) :
    TxStore × Except String Unit :=
  store.addTx .plain asOneByte answers "sent" (aliceSends fee)

/-- A transaction whose fee Alice cannot pay is refused without a trace. -/
theorem addTx_refused_for_fee :
    ∃ after, submission (disk (.ok ()) (.ok ())) 2000 (.new aliceOwnsThousand) =
        (after, .error "insufficient account balance") ∧
      (TxStore.new aliceOwnsThousand).SameRecords after := by
  have failed : submission (disk (.ok ()) (.ok ())) 2000 (.new aliceOwnsThousand) =
      (_, .error "insufficient account balance") := Prod.ext rfl (by decide +kernel)
  rcases addTx_refused_or_filed failed with ⟨-, unchanged, -⟩ | ⟨passed, -⟩
  · exact ⟨_, failed, unchanged⟩
  · exact absurd passed (by decide +kernel)

/-- The disk is full when the transaction is to be saved.  Submitted again, it is
accepted, and still not saved. -/
theorem addTx_lost_on_retry :
    (submission (disk (.error "disk full") (.ok ())) 10 (.new aliceOwnsThousand)).2 =
        .error "save tx in db failed: disk full" ∧
      (submission (disk (.ok ()) (.ok ())) 10
        (submission (disk (.error "disk full") (.ok ())) 10 (.new aliceOwnsThousand)).1).2 = .ok () ∧
      (submission (disk (.ok ()) (.ok ())) 10
        (submission (disk (.error "disk full") (.ok ())) 10
          (.new aliceOwnsThousand)).1).1.txBucket "sent" = none ∧
    (submission (disk (.ok ()) (.error "disk full")) 10 (.new aliceOwnsThousand)).2 =
        .error "update tx status failed: save status in db failed: disk full" ∧
      (submission (disk (.ok ()) (.ok ())) 10
        (submission (disk (.ok ()) (.error "disk full")) 10 (.new aliceOwnsThousand)).1).2 = .ok () ∧
      (submission (disk (.ok ()) (.ok ())) 10
        (submission (disk (.ok ()) (.error "disk full")) 10
          (.new aliceOwnsThousand)).1).1.txStatus.stored "sent" = none := by
  refine ⟨?_, ?_, ?_, ?_, ?_, ?_⟩ <;> decide +kernel

end Samples

end Ultiledger
