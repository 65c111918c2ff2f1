import Ultiledger.PendingKeys

/-! # Deleting the transactions of a ledger

`Manager.DeleteTxList` takes the lock for each account, and for an account without a
history it goes on with the lock still taken.
-/

namespace Ultiledger

section Deletions

variable {pool : Pool} {keysOf : String → List String}

/-- After an account without a history the lock stays taken, and there is no next account
if the call returns. -/
theorem deleteAccounts_of_unknown {accounts : List String} (nodup : accounts.Nodup)
    {unknown : String} (listed : unknown ∈ accounts) (absent : unknown ∉ pool.accTxMap) :
    (deleteAccounts keysOf accounts ⟨pool, false⟩).1.rwmHeld = true ∧
      ((deleteAccounts keysOf accounts ⟨pool, false⟩).2 = true →
        ∀ other ∈ accounts, other ∉ pool.accTxMap → other = unknown) := by
  induction accounts generalizing pool with
  | nil => cases listed
  | cons first rest ih =>
    obtain ⟨apart, restNodup⟩ := List.nodup_cons.mp nodup
    rw [deleteAccounts]
    cases found : pool.accTxMap.lookup first with
    | none =>
      cases rest with
      | nil =>
        refine ⟨rfl, fun _ other otherListed _ => ?_⟩
        rw [List.mem_singleton.mp otherListed, List.mem_singleton.mp listed]
      | cons next later =>
        exact ⟨rfl, fun returned => absurd returned (by simp [deleteAccounts])⟩
    | some th =>
      have known : first ∈ pool.accTxMap := Finmap.mem_iff.mpr ⟨th, found⟩
      have restListed : ∀ accountID ∈ first :: rest, accountID ∉ pool.accTxMap →
          accountID ∈ rest ∧ accountID ∉ (pool.drop first th (keysOf first)).accTxMap := by
        intro accountID accountListed missing
        have other : accountID ≠ first := fun same => missing (same ▸ known)
        refine ⟨(List.mem_cons.mp accountListed).resolve_left other, ?_⟩
        rwa [Pool.mem_drop_ne th _ other]
      obtain ⟨later, stillAbsent⟩ := restListed unknown listed absent
      obtain ⟨held, unique⟩ := ih restNodup later stillAbsent
      refine ⟨held, fun returned other otherListed missing => ?_⟩
      obtain ⟨otherLater, otherAbsent⟩ := restListed other otherListed missing
      exact unique returned other otherLater otherAbsent

/-- No transaction of the list has the key of a pending transaction of another account. -/
def KeysTellAccounts (getTxKey : Tx → Except String String) (txList : List Tx) (pool : Pool) :
    Prop :=
  ∀ accountID txKey tx, pool.Files accountID txKey tx →
    ∀ listed ∈ txList, (getTxKey listed).toOption.getD "" = txKey → listed.accountID = accountID

variable {getTxKey : Tx → Except String String} {txList : List Tx} {accountID txKey : String}

theorem mem_keysOfList : txKey ∈ keysOfList getTxKey txList accountID ↔
    ∃ tx ∈ txList, tx.accountID = accountID ∧ (getTxKey tx).toOption.getD "" = txKey := by
  unfold keysOfList
  simp only [List.mem_map, List.mem_filter, decide_eq_true_eq, and_assoc]

theorem account_of_mem_keysOfList (listed : txKey ∈ keysOfList getTxKey txList accountID) :
    accountID ∈ txList.map Tx.accountID := by
  obtain ⟨tx, txMem, rfl, -⟩ := mem_keysOfList.mp listed
  exact List.mem_map_of_mem txMem

/-- If all accounts of the list are known, the call returns with the lock released and
exactly the listed keys are gone.  If an account is unknown the lock is never released,
and the call returns only if that account is the only one. -/
theorem deleteTxList_clears (getTxKey : Tx → Except String String) (traversal : Traversal)
    (txList : List Tx) (pool : Pool) :
    ((∀ tx ∈ txList, tx.accountID ∈ pool.accTxMap) →
      ∃ after, GuardedPool.deleteTxList getTxKey traversal.order txList ⟨pool, false⟩ =
          (⟨after, false⟩, true) ∧
        (∀ accountID txKey tx, after.Files accountID txKey tx ↔
          pool.Files accountID txKey tx ∧ txKey ∉ keysOfList getTxKey txList accountID) ∧
        (∀ accountID, accountID ∈ after.accTxMap ↔ accountID ∈ pool.accTxMap ∧
          (accountID ∈ txList.map Tx.accountID → ∃ txKey tx, after.Files accountID txKey tx)) ∧
        (KeysTellAccounts getTxKey txList pool → ∀ accountID txKey tx,
          after.Files accountID txKey tx ↔ pool.Files accountID txKey tx ∧
            txKey ∉ txList.map fun listed => (getTxKey listed).toOption.getD "")) ∧
    ∀ tx ∈ txList, tx.accountID ∉ pool.accTxMap →
      (GuardedPool.deleteTxList getTxKey traversal.order txList ⟨pool, false⟩).1.rwmHeld = true ∧
      ((GuardedPool.deleteTxList getTxKey traversal.order txList ⟨pool, false⟩).2 = true →
        ∀ other ∈ txList, other.accountID ∉ pool.accTxMap → other.accountID = tx.accountID) := by
  have visited := traversal.permuted (txList.map Tx.accountID).dedup
  have nodup := visited.nodup_iff.mpr (List.nodup_dedup _)
  have visits : ∀ accountID, accountID ∈ traversal.order (txList.map Tx.accountID).dedup ↔
      accountID ∈ txList.map Tx.accountID := by
    intro accountID
    rw [visited.mem_iff, List.mem_dedup]
  constructor
  · intro known
    have present : ∀ accountID ∈ traversal.order (txList.map Tx.accountID).dedup,
        accountID ∈ pool.accTxMap := by
      intro accountID accountMem
      obtain ⟨tx, txMem, rfl⟩ := List.mem_map.mp ((visits accountID).mp accountMem)
      exact known tx txMem
    obtain ⟨after, ended, cleared⟩ := @deleteAccounts_of_present pool
      (keysOfList getTxKey txList) _ nodup present
    have files : ∀ accountID txKey tx, after.Files accountID txKey tx ↔
        pool.Files accountID txKey tx ∧ txKey ∉ keysOfList getTxKey txList accountID := by
      intro accountID txKey tx
      rw [cleared.files, visits]
      refine and_congr_right fun _ => ⟨fun spared listed => ?_, fun spared _ => spared⟩
      exact spared (account_of_mem_keysOfList listed) listed
    refine ⟨after, ended, files, ?_, ?_⟩
    · intro accountID
      rw [cleared.stays, visits]
    · intro tell accountID txKey tx
      rw [files]
      refine and_congr_right fun filed => not_congr ?_
      rw [mem_keysOfList, List.mem_map]
      constructor
      · rintro ⟨listed, listedMem, -, keyIs⟩
        exact ⟨listed, listedMem, keyIs⟩
      · rintro ⟨listed, listedMem, keyIs⟩
        exact ⟨listed, listedMem, tell accountID txKey tx filed listed listedMem keyIs, keyIs⟩
  · intro tx txMem absent
    obtain ⟨held, unique⟩ := @deleteAccounts_of_unknown pool (keysOfList getTxKey txList) _ nodup _
      ((visits tx.accountID).mpr (List.mem_map_of_mem txMem)) absent
    refine ⟨held, fun returned other otherMem missing => ?_⟩
    exact unique returned other.accountID
      ((visits other.accountID).mpr (List.mem_map_of_mem otherMem)) missing

end Deletions

section Samples

private def numbered (accountID : String) (seqNum : UInt64) : Tx := ⟨accountID, 1, "", seqNum, []⟩

private def accountAndNumber (tx : Tx) : Except String String :=
  .ok (tx.accountID ++ toString tx.seqNum)

private def asListed : Traversal := ⟨id, List.Perm.refl⟩

private def twoOfAlice : Pool :=
  (Pool.empty.file "alice1" (numbered "alice" 1)).file "alice2" (numbered "alice" 2)

private def deletesFrom (txList : List Tx) : GuardedPool × Bool :=
  GuardedPool.deleteTxList accountAndNumber asListed.order txList ⟨twoOfAlice, false⟩

/-- The first transaction of Alice is deleted and the second one stays. -/
theorem deleteTxList_clears_first :
    ∃ after, deletesFrom [numbered "alice" 1] = (⟨after, false⟩, true) ∧
      (∀ tx, ¬ after.Files "alice" "alice1" tx) ∧
      after.Files "alice" "alice2" (numbered "alice" 2) := by
  obtain ⟨after, ended, files, -⟩ := (deleteTxList_clears accountAndNumber asListed
    [numbered "alice" 1] twoOfAlice).1 (by decide +kernel)
  refine ⟨after, ended, fun tx filed => ?_, ?_⟩
  · exact absurd ((files "alice" "alice1" tx).mp filed).2 (by decide +kernel)
  · refine (files "alice" "alice2" (numbered "alice" 2)).mpr ⟨?_, by decide +kernel⟩
    exact ⟨_, Finmap.lookup_insert _, Finmap.lookup_insert _⟩

/-- After a transaction of an unknown account the lock stays taken, and the next
transaction of Alice waits; with one of Alice after it, the call itself waits. -/
theorem deleteTxList_keeps_lock :
    (deletesFrom [numbered "stranger" 1]).1.rwmHeld = true ∧
      (deletesFrom [numbered "stranger" 1]).2 = true ∧
    ((deletesFrom [numbered "stranger" 1]).1.addTx 0
      ⟨Bucket.empty.insert (.account ⟨"alice", 100, "", 0, 0, none⟩), fun _ _ => .ok ()⟩
      "alice3" (numbered "alice" 3)).2.isNone = true ∧
    (deletesFrom [numbered "stranger" 1, numbered "alice" 1]).2 = false ∧
      ((deletesFrom [numbered "stranger" 1, numbered "alice" 1]).1.pool.history "alice").txMap.lookup
        "alice1" = some (numbered "alice" 1) := by
  decide +kernel

end Samples

end Ultiledger
