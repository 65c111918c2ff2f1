import Ultiledger.TypedAccess
import Ultiledger.TiedPermutations
import Ultiledger.TwoRuns

/-! # Replicated execution -/

namespace Ultiledger

open AbortingProgram Program

variable {bucket : Bucket} {accountID first second : String} {acc : Account} {rest : List String}
  {sorted txList txList' : List Tx}

section Replicas

variable {tm : TxManager}

def SameLedger (state state' : LedgerState tm) : Prop :=
  state.bucket = state'.bucket ∧ state.statuses = state'.statuses

theorem SameLedger.trans (first second third : LedgerState tm)
    (firstSame : SameLedger first second) (secondSame : SameLedger second third) :
    SameLedger first third :=
  ⟨firstSame.1.trans secondSame.1, firstSame.2.trans secondSame.2⟩

variable (ledgerSeqNum : UInt64) (schedule : Schedule) {sorted' : List Tx} (tx : Tx) (txs : List Tx)
  {accountIDs : List String} {state state' : LedgerState tm}

theorem updateTxStatus_agree (status : TxStatus) :
    Agree SameLedger Eq (updateTxStatus tm tx status) (updateTxStatus tm tx status) :=
  Agree.modify fun _ _ same => ⟨same.1, by simp only [same.2]⟩

theorem executeOps_agree (ops : List Operation) :
    Agree SameLedger Eq (executeOps tm tx ops) (executeOps tm tx ops) := by
  apply Agree.get_bind
  intro state state' same
  rw [← same.1]
  refine Agree.seq ?_ ?_ state state' same
  · exact Agree.modify fun _ _ same => same
  · split
    · refine Agree.seq ?_ (updateTxStatus_agree tx _)
      exact Agree.modify fun _ _ same => ⟨rfl, same.2⟩
    · exact updateTxStatus_agree tx _
    · exact Agree.abort _ _

theorem executeTx_agree :
    Agree SameLedger Eq (executeTx tm ledgerSeqNum tx) (executeTx tm ledgerSeqNum tx) := by
  refine Agree.seq ?_ ?_
  · exact Agree.modify fun _ _ same => same
  · split
    · exact executeOps_agree tx _
    · exact Agree.seq (updateTxStatus_agree tx _) (executeOps_agree tx [])
    · exact Agree.abort _ _

theorem executeTxs_agree :
    Agree SameLedger Eq (executeTxs tm ledgerSeqNum txs)
      (executeTxs tm ledgerSeqNum txs) := by
  induction txs with
  | nil => exact Agree.pure rfl
  | cons tx rest ih => exact Agree.seq (executeTx_agree ledgerSeqNum tx) ih

theorem executeTxs_append (first second : List Tx) :
    executeTxs tm ledgerSeqNum (first ++ second) =
      executeTxs tm ledgerSeqNum first >>= fun _ => executeTxs tm ledgerSeqNum second := by
  induction first with
  | nil => rfl
  | cons tx rest ih =>
    rw [List.cons_append, executeTxs, ih, executeTxs, bind_assoc]

def ledgerView (outcome : Outcome (LedgerState tm) Halt Unit) :
    Bool × Bucket × Finmap fun _ : String => TxStatus :=
  (outcome.isDone, outcome.state.bucket, outcome.state.statuses)

theorem ledgerView_eq_iff {first second : Outcome (LedgerState tm) Halt Unit} :
    ledgerView first = ledgerView second ↔ first.Agree SameLedger Eq second := by
  cases first <;> cases second <;>
    simp [ledgerView, Outcome.Agree, SameLedger, Outcome.isDone, Outcome.state]

def ownTxs (sorted : List Tx) (accountID : String) : List Tx :=
  sorted.filter fun tx => tx.accountID = accountID

def chargedOf (acc : Account) (txs : List Tx) : List Tx :=
  ((chargeTxs acc txs).2.filterMap Sum.getLeft?).map Charge.tx

structure Bucket.Stores (bucket : Bucket) (accountID : String) (acc : Account) : Prop where
  found : bucket.get (accountKey accountID) = some (.account acc)
  nonempty : accountKey accountID ≠ []
  fits : (accountKey accountID).length ≤ 32768

theorem Bucket.Stores.own (stored : bucket.Stores accountID acc) : acc.accountID = accountID :=
  utf8_injective (bucket.ownKey _ _ stored.found)

theorem chargeAccount_of_stores (sorted : List Tx) {state : LedgerState tm}
    (stored : state.bucket.Stores accountID acc) :
    ∃ events, chargeAccount tm sorted accountID state =
      .done (chargedOf acc (ownTxs sorted accountID))
        ⟨state.bucket.insert (.account (chargeTxs acc (ownTxs sorted accountID)).1),
          failedStatuses tm (chargeTxs acc (ownTxs sorted accountID)).2 state.statuses,
          events⟩ := by
  have reads : getAccount state.bucket accountID = some acc := by
    simp [getAccount, stored.found, Record.decodeAccount]
  have key : (Record.account (chargeTxs acc (ownTxs sorted accountID)).1).key =
      accountKey accountID := by
    rw [Record.key_account, accountID_of_chargeTxs, stored.own]
  have saves : saveAccount state.bucket (chargeTxs acc (ownTxs sorted accountID)).1 =
      .ok (state.bucket.insert (.account (chargeTxs acc (ownTxs sorted accountID)).1)) := by
    unfold saveAccount Bucket.put
    rw [key, if_neg stored.nonempty, if_neg (not_lt.mpr stored.fits)]
    rfl
  have ends : (chargeAccount tm sorted accountID).Holds state
      (fun charged final => charged = chargedOf acc (ownTxs sorted accountID) ∧
        final.bucket =
          state.bucket.insert (.account (chargeTxs acc (ownTxs sorted accountID)).1) ∧
        final.statuses =
          failedStatuses tm (chargeTxs acc (ownTxs sorted accountID)).2 state.statuses)
      (fun _ _ => False) := by
    rw [chargeAccount, holds_bind, holds_get]
    split
    · rename_i missing
      simp [reads] at missing
    · rename_i acc' read
      cases read.symm.trans reads
      simp only [holds_bind]
      rw [holds_of_done (rejectTxs_eq tm _ state)]
      split
      · rename_i message failed
        exact absurd (failed.symm.trans saves) (by simp)
      · rename_i what failed
        exact absurd (failed.symm.trans saves) (by simp)
      · rename_i bucket saved
        exact ⟨rfl, Except.ok.inj (saved.symm.trans saves), rfl⟩
  obtain ⟨charged, final, ended, rfl, sameBucket, sameStatuses⟩ := ends.exists_done
  refine ⟨final.events, ?_⟩
  rw [ended, ← sameBucket, ← sameStatuses]

theorem Bucket.Stores.insert {written : Account} (stored : bucket.Stores accountID acc)
    (apart : accountID ≠ written.accountID) :
    (bucket.insert (.account written)).Stores accountID acc := by
  refine ⟨?_, stored.nonempty, stored.fits⟩
  rw [Bucket.get_insert, Record.key_account, if_neg (accountKey_ne apart)]
  exact stored.found

theorem failedStatuses_insert {results : List (Charge ⊕ Tx × String)} {key : String}
    (apart : ∀ tx message, .inr (tx, message) ∈ results → key ≠ tm.txKey tx)
    (statuses : Finmap fun _ : String => TxStatus) (status : TxStatus) :
    failedStatuses tm results (statuses.insert key status) =
      (failedStatuses tm results statuses).insert key status := by
  induction results generalizing statuses with
  | nil => rfl
  | cons result rest ih =>
    have restApart : ∀ tx message, .inr (tx, message) ∈ rest → key ≠ tm.txKey tx :=
      fun tx message rejected => apart tx message (.tail _ rejected)
    cases result with
    | inl charge => exact ih restApart statuses
    | inr rejected =>
      change failedStatuses tm rest ((statuses.insert key status).insert _ _) =
        (failedStatuses tm rest (statuses.insert _ _)).insert key status
      rw [Finmap.insert_insert_of_ne _ (apart rejected.1 rejected.2 (.head _))]
      exact ih restApart _

theorem failedStatuses_comm {first second : List (Charge ⊕ Tx × String)}
    (apart : ∀ tx message tx' message', .inr (tx, message) ∈ first →
      .inr (tx', message') ∈ second → tm.txKey tx ≠ tm.txKey tx')
    (statuses : Finmap fun _ : String => TxStatus) :
    failedStatuses tm first (failedStatuses tm second statuses) =
      failedStatuses tm second (failedStatuses tm first statuses) := by
  induction first generalizing statuses with
  | nil => rfl
  | cons result rest ih =>
    have restApart : ∀ tx message tx' message', .inr (tx, message) ∈ rest →
        .inr (tx', message') ∈ second → tm.txKey tx ≠ tm.txKey tx' :=
      fun tx message tx' message' rejected =>
        apart tx message tx' message' (.tail _ rejected)
    cases result with
    | inl charge => exact ih restApart statuses
    | inr rejected =>
      change failedStatuses tm rest ((failedStatuses tm second statuses).insert _ _) =
        failedStatuses tm second (failedStatuses tm rest (statuses.insert _ _))
      rw [← failedStatuses_insert fun tx message other =>
        apart rejected.1 rejected.2 tx message (.head _) other]
      exact ih restApart _

theorem mem_of_rejected {txs : List Tx} {tx : Tx} {message : String}
    (rejected : .inr (tx, message) ∈ (chargeTxs acc txs).2) : tx ∈ txs := by
  induction txs generalizing acc with
  | nil => simp [chargeTxs] at rejected
  | cons first rest ih =>
    unfold chargeTxs at rejected
    split_ifs at rejected
    · rcases List.mem_cons.mp rejected with same | later
      · simp_all
      · exact .tail _ (ih later)
    · rcases List.mem_cons.mp rejected with same | later
      · simp_all
      · exact .tail _ (ih later)
    · rcases List.mem_cons.mp rejected with same | later
      · simp at same
      · exact .tail _ (ih later)

/-- The round of one account, after which the other accounts are still stored. -/
theorem chargeAccounts_cons_agree {rest' : List String} (fresh : accountID ∉ rest)
    (stored : ∀ other ∈ accountID :: rest, ∃ acc, state.bucket.Stores other acc)
    (same : SameLedger state state') (sameTxs : ownTxs sorted accountID = ownTxs sorted' accountID)
    (restAgree : ∀ middle middle' : LedgerState tm,
      (∀ other ∈ rest, ∃ acc, middle.bucket.Stores other acc) → SameLedger middle middle' →
      (chargeAccounts tm sorted rest middle).Agree SameLedger List.Perm
        (chargeAccounts tm sorted' rest' middle')) :
    (chargeAccounts tm sorted (accountID :: rest) state).Agree SameLedger List.Perm
      (chargeAccounts tm sorted' (accountID :: rest') state') := by
  obtain ⟨acc, accStored⟩ := stored accountID (.head _)
  have accStored' : state'.bucket.Stores accountID acc := same.1 ▸ accStored
  obtain ⟨events, ended⟩ := chargeAccount_of_stores sorted accStored
  obtain ⟨events', ended'⟩ := chargeAccount_of_stores sorted' accStored'
  rw [← sameTxs, ← same.1, ← same.2] at ended'
  rw [chargeAccounts, bind_of_done ended, chargeAccounts, bind_of_done ended']
  refine agree_bind_outcome (restAgree _ _ ?_ ⟨rfl, rfl⟩) ?_
  · intro other otherMem
    obtain ⟨otherAcc, otherStored⟩ := stored other (.tail _ otherMem)
    refine ⟨otherAcc, otherStored.insert ?_⟩
    rw [accountID_of_chargeTxs, accStored.own]
    rintro rfl
    exact fresh otherMem
  · intro others others' perm
    exact Agree.pure (List.Perm.append_left _ perm)

theorem chargeAccounts_agree
    (sameTxs : ∀ accountID, ownTxs sorted accountID = ownTxs sorted' accountID)
    (distinct : accountIDs.Nodup)
    (stored : ∀ accountID ∈ accountIDs, ∃ acc, state.bucket.Stores accountID acc)
    (same : SameLedger state state') :
    (chargeAccounts tm sorted accountIDs state).Agree SameLedger List.Perm
      (chargeAccounts tm sorted' accountIDs state') := by
  induction accountIDs generalizing state state' with
  | nil => exact ⟨.refl _, same⟩
  | cons accountID rest ih =>
    obtain ⟨fresh, restDistinct⟩ := List.nodup_cons.mp distinct
    exact chargeAccounts_cons_agree fresh stored same (sameTxs accountID) fun _ _ => ih restDistinct

theorem chargeAccounts_two {firstAcc secondAcc : Account} {state : LedgerState tm}
    (apart : first ≠ second) (firstStored : state.bucket.Stores first firstAcc)
    (secondStored : state.bucket.Stores second secondAcc) :
    ∃ events, chargeAccounts tm sorted (first :: second :: rest) state =
      (chargeAccounts tm sorted rest >>= fun others =>
        pure (chargedOf firstAcc (ownTxs sorted first) ++
          (chargedOf secondAcc (ownTxs sorted second) ++ others)))
      ⟨(state.bucket.insert (.account (chargeTxs firstAcc (ownTxs sorted first)).1)).insert
          (.account (chargeTxs secondAcc (ownTxs sorted second)).1),
        failedStatuses tm (chargeTxs secondAcc (ownTxs sorted second)).2
          (failedStatuses tm (chargeTxs firstAcc (ownTxs sorted first)).2 state.statuses),
        events⟩ := by
  obtain ⟨events, ended⟩ := chargeAccount_of_stores sorted firstStored
  have stillStored :
      (state.bucket.insert (.account (chargeTxs firstAcc (ownTxs sorted first)).1)).Stores
        second secondAcc := by
    apply secondStored.insert
    rw [accountID_of_chargeTxs, firstStored.own]
    exact apart.symm
  obtain ⟨events', ended'⟩ := @chargeAccount_of_stores second secondAcc tm sorted
    ⟨state.bucket.insert (.account (chargeTxs firstAcc (ownTxs sorted first)).1),
      failedStatuses tm (chargeTxs firstAcc (ownTxs sorted first)).2 state.statuses,
      events⟩ stillStored
  refine ⟨events', ?_⟩
  rw [chargeAccounts, bind_of_done ended, chargeAccounts, bind_assoc,
    bind_of_done ended', bind_assoc]
  rfl

theorem chargeAccounts_swap_agree
    (apart : ∀ tx ∈ sorted, ∀ other ∈ sorted, tx.accountID ≠ other.accountID →
      tm.txKey tx ≠ tm.txKey other) (distinct : (first :: second :: rest).Nodup)
    (stored : ∀ accountID ∈ first :: second :: rest, ∃ acc, state.bucket.Stores accountID acc)
    (same : SameLedger state state') :
    (chargeAccounts tm sorted (first :: second :: rest) state).Agree SameLedger List.Perm
      (chargeAccounts tm sorted (second :: first :: rest) state') := by
  obtain ⟨firstAcc, firstStored⟩ := stored first (by simp)
  obtain ⟨secondAcc, secondStored⟩ := stored second (by simp)
  simp only [List.nodup_cons, List.mem_cons, not_or] at distinct
  obtain ⟨⟨firstApart, firstFresh⟩, secondFresh, restDistinct⟩ := distinct
  have firstKey : (Record.account (chargeTxs firstAcc (ownTxs sorted first)).1).key =
      accountKey first := by
    rw [Record.key_account, accountID_of_chargeTxs, firstStored.own]
  have secondKey : (Record.account (chargeTxs secondAcc (ownTxs sorted second)).1).key =
      accountKey second := by
    rw [Record.key_account, accountID_of_chargeTxs, secondStored.own]
  obtain ⟨events, ended⟩ := @chargeAccounts_two first second rest sorted tm _ _ state
    firstApart firstStored secondStored
  obtain ⟨events', ended'⟩ := @chargeAccounts_two second first rest sorted tm _ _ state'
    (Ne.symm firstApart) (same.1 ▸ secondStored) (same.1 ▸ firstStored)
  rw [ended, ended']
  refine agree_bind_outcome
    (chargeAccounts_agree (fun _ => rfl) restDistinct ?_ ⟨?_, ?_⟩) ?_
  · intro other otherMem
    obtain ⟨otherAcc, otherStored⟩ := stored other (by simp [otherMem])
    refine ⟨otherAcc, (otherStored.insert ?_).insert ?_⟩
    · rw [accountID_of_chargeTxs, firstStored.own]
      rintro rfl
      exact firstFresh otherMem
    · rw [accountID_of_chargeTxs, secondStored.own]
      rintro rfl
      exact secondFresh otherMem
  · rw [← same.1]
    apply Bucket.insert_comm
    rw [firstKey, secondKey]
    exact accountKey_ne firstApart
  · rw [← same.2]
    apply failedStatuses_comm
    intro tx message other message' rejected rejected'
    obtain ⟨otherMem, otherOwn⟩ := List.mem_filter.mp (mem_of_rejected rejected')
    obtain ⟨txMem, txOwn⟩ := List.mem_filter.mp (mem_of_rejected rejected)
    refine apart tx txMem other otherMem ?_
    rw [of_decide_eq_true txOwn, of_decide_eq_true otherOwn]
    exact Ne.symm firstApart
  · intro others others' perm
    apply Agree.pure
    refine (List.Perm.append_left _ (List.Perm.append_left _ perm)).trans ?_
    rw [← List.append_assoc, ← List.append_assoc]
    exact List.Perm.append_right _ List.perm_append_comm

theorem chargeAccounts_perm_agree
    (apart : ∀ tx ∈ sorted, ∀ other ∈ sorted, tx.accountID ≠ other.accountID →
      tm.txKey tx ≠ tm.txKey other) {accountIDs' : List String} (perm : accountIDs.Perm accountIDs')
    (distinct : accountIDs.Nodup)
    (stored : ∀ accountID ∈ accountIDs, ∃ acc, state.bucket.Stores accountID acc)
    (same : SameLedger state state') :
    (chargeAccounts tm sorted accountIDs state).Agree SameLedger List.Perm
      (chargeAccounts tm sorted accountIDs' state') := by
  induction perm generalizing state state' with
  | nil => exact ⟨.refl _, same⟩
  | cons accountID perm ih =>
    obtain ⟨fresh, restDistinct⟩ := List.nodup_cons.mp distinct
    exact chargeAccounts_cons_agree fresh stored same rfl fun _ _ => ih restDistinct
  | swap second first rest =>
    exact chargeAccounts_swap_agree apart distinct stored same
  | trans perm perm' ih ih' =>
    have first := ih distinct stored ⟨rfl, rfl⟩
    have second := ih' (perm.nodup_iff.mp distinct)
      (fun accountID idMem => stored accountID (perm.mem_iff.mpr idMem)) same
    exact first.trans SameLedger.trans (fun _ _ _ perm perm' => perm.trans perm') second

theorem chargeAccounts_of_missing (missing : getAccount state.bucket accountID = none) :
    chargeAccounts tm sorted (accountID :: rest) state =
      .abort (.returned "account not exist") state := by
  have ends : (chargeAccount tm sorted accountID).Holds state (fun _ _ => False)
      (fun fault final => fault = .returned "account not exist" ∧ final = state) := by
    rw [chargeAccount, holds_bind, holds_get]
    split
    · exact ⟨rfl, rfl⟩
    · rename_i acc read
      simp [missing] at read
  unfold Holds at ends
  cases ended : chargeAccount tm sorted accountID state with
  | done charged final => simp [ended] at ends
  | abort fault final =>
    rw [ended] at ends
    obtain ⟨rfl, rfl⟩ := ends
    rw [chargeAccounts, bind_of_abort ended]

/-- Sorting leaves no choice for the transactions of one account when they have
different sequence numbers. -/
theorem ownTxs_sort_eq (first second : Schedule) (perm : txList.Perm txList')
    (numbers : ∀ tx ∈ txList, ∀ other ∈ txList, tx.accountID = other.accountID →
      tx.seqNum = other.seqNum → tx = other) (accountID : String) :
    ownTxs (first.sort txList) accountID = ownTxs (second.sort txList') accountID := by
  apply @List.Perm.eq_of_pairwise Tx (fun tx other => tx.seqNum ≤ other.seqNum)
  · intro tx other txMem otherMem below above
    obtain ⟨txMem, txOwn⟩ := List.mem_filter.mp txMem
    obtain ⟨otherMem, otherOwn⟩ := List.mem_filter.mp otherMem
    refine numbers tx ((first.sort_perm txList).mem_iff.mp txMem) other
      (perm.mem_iff.mpr ((second.sort_perm txList').mem_iff.mp otherMem)) ?_
      (UInt64.le_antisymm below above)
    rw [of_decide_eq_true txOwn, of_decide_eq_true otherOwn]
  · exact (first.sort_sorted txList).filter _
  · exact (second.sort_sorted txList').filter _
  · exact (((first.sort_perm txList).trans perm).trans (second.sort_perm txList').symm).filter _

def accountOrder (schedule : Schedule) (txList : List Tx) : List String :=
  schedule.order ((schedule.sort txList).map Tx.accountID).dedup

theorem nodup_accountOrder (schedule : Schedule) (txList : List Tx) :
    (accountOrder schedule txList).Nodup :=
  (schedule.order_perm _).nodup_iff.mpr (List.nodup_dedup _)

theorem mem_accountOrder {schedule : Schedule} :
    accountID ∈ accountOrder schedule txList ↔ ∃ tx ∈ txList, tx.accountID = accountID := by
  unfold accountOrder
  rw [(schedule.order_perm _).mem_iff, List.mem_dedup, List.mem_map]
  simp only [(schedule.sort_perm txList).mem_iff]

theorem accountOrder_perm (first second : Schedule) (perm : txList.Perm txList') :
    (accountOrder first txList).Perm (accountOrder second txList') := by
  refine (first.order_perm _).trans (.trans ?_ (second.order_perm _).symm)
  apply List.Perm.dedup
  exact (((first.sort_perm txList).trans perm).trans (second.sort_perm txList').symm).map _

theorem feePhase_agree (first second : Schedule) (perm : txList.Perm txList')
    {state : LedgerState tm}
    (keys : ∀ tx ∈ txList, ∀ other ∈ txList, tm.txKey tx = tm.txKey other → tx = other)
    (numbers : ∀ tx ∈ txList, ∀ other ∈ txList, tx.accountID = other.accountID →
      tx.seqNum = other.seqNum → tx = other)
    (accounts : (∀ tx ∈ txList, ∃ acc, state.bucket.Stores tx.accountID acc) ∨
      ∀ tx ∈ txList, getAccount state.bucket tx.accountID = none) :
    (chargeAccounts tm (first.sort txList) (accountOrder first txList) state).Agree
      SameLedger List.Perm
      (chargeAccounts tm (second.sort txList') (accountOrder second txList') state) := by
  have orders := accountOrder_perm first second perm
  rcases accounts with stored | missing
  · have distinct : (accountOrder first txList).Nodup :=
      (first.order_perm _).nodup_iff.mpr (List.nodup_dedup _)
    have apart : ∀ tx ∈ first.sort txList, ∀ other ∈ first.sort txList,
        tx.accountID ≠ other.accountID → tm.txKey tx ≠ tm.txKey other := by
      intro tx txMem other otherMem accountsApart sameKey
      rw [(first.sort_perm txList).mem_iff] at txMem otherMem
      exact accountsApart (congrArg Tx.accountID (keys tx txMem other otherMem sameKey))
    have allStored : ∀ accountID ∈ accountOrder first txList,
        ∃ acc, state.bucket.Stores accountID acc := by
      intro accountID idMem
      obtain ⟨tx, txMem, rfl⟩ := mem_accountOrder.mp idMem
      exact stored tx txMem
    have reordered := chargeAccounts_perm_agree apart orders distinct allStored
      (⟨rfl, rfl⟩ : SameLedger state state)
    have resorted := chargeAccounts_agree (ownTxs_sort_eq first second perm numbers)
      (orders.nodup_iff.mp distinct)
      (fun accountID idMem => allStored accountID (orders.mem_iff.mpr idMem))
      (⟨rfl, rfl⟩ : SameLedger state state)
    exact reordered.trans SameLedger.trans (fun _ _ _ perm perm' => perm.trans perm') resorted
  · have missingID : ∀ accountID ∈ accountOrder first txList,
        getAccount state.bucket accountID = none := by
      intro accountID idMem
      obtain ⟨tx, txMem, rfl⟩ := mem_accountOrder.mp idMem
      exact missing tx txMem
    cases ids : accountOrder first txList with
    | nil =>
      rw [ids, List.nil_perm] at orders
      rw [orders]
      exact ⟨.refl _, rfl, rfl⟩
    | cons accountID rest =>
      cases ids' : accountOrder second txList' with
      | nil =>
        rw [ids, ids'] at orders
        exact absurd orders.length_eq (by simp)
      | cons accountID' rest' =>
        have mem' : accountID' ∈ accountOrder first txList :=
          orders.mem_iff.mpr (by simp [ids'])
        rw [chargeAccounts_of_missing (missingID accountID (by simp [ids])),
          chargeAccounts_of_missing (missingID accountID' mem')]
        exact ⟨rfl, rfl⟩

/-- Wherever the execution phase of the schedule comes to two different
transactions with one sequence number, it may execute them in either order. -/
def TiesCommute (tm : TxManager) (schedule : Schedule) (txList : List Tx)
    (ledgerSeqNum : UInt64) (state : LedgerState tm) : Prop :=
  ∀ charged middle,
    chargeAccounts tm (schedule.sort txList) (accountOrder schedule txList) state =
      .done charged middle →
    ∀ pre tx other post, (pre ++ tx :: other :: post).Perm charged →
      TiedPermutations.Sorted (fun tx : Tx => tx.seqNum.toNat) (pre ++ tx :: other :: post) →
      tx.seqNum = other.seqNum → tx ≠ other →
      ∀ reached, executeTxs tm ledgerSeqNum pre middle = .done () reached →
        (executeTxs tm ledgerSeqNum [tx, other] reached).Agree SameLedger Eq
          (executeTxs tm ledgerSeqNum [other, tx] reached)

theorem executeTxs_sorted_agree {ledgerSeqNum : UInt64} {middle : LedgerState tm}
    {charged : List Tx} (ties : TiesCommute tm schedule txList ledgerSeqNum state)
    (feePhase : chargeAccounts tm (schedule.sort txList) (accountOrder schedule txList) state =
      .done charged middle) {first second : List Tx} (firstPerm : first.Perm charged)
    (perm : first.Perm second)
    (firstSorted : TiedPermutations.Sorted (fun tx : Tx => tx.seqNum.toNat) first)
    (secondSorted : TiedPermutations.Sorted (fun tx : Tx => tx.seqNum.toNat) second) :
    (executeTxs tm ledgerSeqNum first middle).Agree SameLedger Eq
      (executeTxs tm ledgerSeqNum second middle) := by
  apply ledgerView_eq_iff.mp
  refine @TiedPermutations.eq_of_sorted Tx _ ℕ _ (fun tx => tx.seqNum.toNat)
    (fun txs => ledgerView (executeTxs tm ledgerSeqNum txs middle)) _ _ ?_ perm firstSorted
    secondSorted
  intro pre tx other post arranges sorted tie
  by_cases same : tx = other
  · rw [same]
  apply ledgerView_eq_iff.mpr
  have regroup : ∀ tx other : Tx, pre ++ tx :: other :: post = pre ++ ([tx, other] ++ post) :=
    fun _ _ => rfl
  rw [regroup tx other, regroup other tx, executeTxs_append, executeTxs_append _ pre]
  cases ended : executeTxs tm ledgerSeqNum pre middle with
  | done value reached =>
    rw [bind_of_done ended, bind_of_done ended, executeTxs_append,
      executeTxs_append _ [other, tx]]
    have swapped := ties charged middle feePhase pre tx other post
      (arranges.trans firstPerm) sorted (UInt64.toNat_inj.mp tie) same reached ended
    exact agree_bind_outcome swapped (fun _ _ _ => executeTxs_agree ledgerSeqNum post)
  | abort fault reached =>
    rw [bind_of_abort ended, bind_of_abort ended]
    exact ⟨rfl, rfl⟩

theorem sorted_of_sort :
    TiedPermutations.Sorted (fun tx : Tx => tx.seqNum.toNat) (schedule.sort txs) :=
  (schedule.sort_sorted txs).imp fun below => UInt64.le_iff_toNat_le.mp below

end Replicas

/-- Two validators that apply the same transactions, in any orders, end with the same
accounts, trust lines and statuses, where the orders they are free to choose do not
matter. -/
theorem applyTxList_replicated (tm : TxManager) (first second : Schedule)
    (txList txList' : List Tx) (perm : txList.Perm txList') (ledgerSeqNum : UInt64)
    (bucket : Bucket) (statuses : Finmap fun _ : String => TxStatus)
    (keys : ∀ tx ∈ txList, ∀ other ∈ txList, tm.txKey tx = tm.txKey other → tx = other)
    (numbers : ∀ tx ∈ txList, ∀ other ∈ txList, tx.accountID = other.accountID →
      tx.seqNum = other.seqNum → tx = other)
    (accounts : (∀ tx ∈ txList, ∃ acc, bucket.Stores tx.accountID acc) ∨
      ∀ tx ∈ txList, getAccount bucket tx.accountID = none)
    (ties : TiesCommute tm first txList ledgerSeqNum ⟨bucket, statuses, []⟩) :
    ledgerView (applyTxList tm first txList ledgerSeqNum ⟨bucket, statuses, []⟩) =
      ledgerView (applyTxList tm second txList' ledgerSeqNum ⟨bucket, statuses, []⟩) := by
  apply ledgerView_eq_iff.mpr
  have fees := @feePhase_agree txList txList' tm first second perm ⟨bucket, statuses, []⟩
    keys numbers accounts
  change ((chargeAccounts tm (first.sort txList) (accountOrder first txList) >>= fun charged =>
      executeTxs tm ledgerSeqNum (first.sort charged)) _).Agree SameLedger Eq
    ((chargeAccounts tm (second.sort txList') (accountOrder second txList') >>= fun charged =>
      executeTxs tm ledgerSeqNum (second.sort charged)) _)
  cases ended : chargeAccounts tm (first.sort txList) (accountOrder first txList)
      ⟨bucket, statuses, []⟩ with
  | abort fault middle =>
    cases ended' : chargeAccounts tm (second.sort txList') (accountOrder second txList')
        ⟨bucket, statuses, []⟩ with
    | abort fault' middle' =>
      rw [ended, ended'] at fees
      rw [bind_of_abort ended, bind_of_abort ended']
      exact fees
    | done charged' middle' =>
      rw [ended, ended'] at fees
      exact fees.elim
  | done charged middle =>
    cases ended' : chargeAccounts tm (second.sort txList') (accountOrder second txList')
        ⟨bucket, statuses, []⟩ with
    | abort fault' middle' =>
      rw [ended, ended'] at fees
      exact fees.elim
    | done charged' middle' =>
      rw [ended, ended'] at fees
      obtain ⟨chargedPerm, same⟩ := fees
      rw [bind_of_done ended, bind_of_done ended']
      have sortPerm : (first.sort charged).Perm (second.sort charged') :=
        ((first.sort_perm charged).trans chargedPerm).trans (second.sort_perm charged').symm
      have reordered := executeTxs_sorted_agree first ties ended (first.sort_perm charged)
        sortPerm (sorted_of_sort first charged) (sorted_of_sort second charged')
      have continued := executeTxs_agree ledgerSeqNum (second.sort charged') middle middle' same
      exact reordered.trans SameLedger.trans (fun _ _ _ eq eq' => eq.trans eq') continued

private def founders : Bucket :=
  .ofRecords [.account ⟨"alice", 1000, "alice", 1, 0, some ⟨0, 0⟩⟩,
    .account ⟨"bob", 1000, "bob", 1, 0, some ⟨0, 0⟩⟩]

private def idle (accountID : String) : Tx := ⟨accountID, 10, accountID, 2, []⟩

private theorem idle_agree (apart : first ≠ second) (reached : LedgerState TxManager.plain) :
    (executeTxs .plain 9 [idle first, idle second] reached).Agree SameLedger Eq
      (executeTxs .plain 9 [idle second, idle first] reached) := by
  refine ⟨rfl, rfl, ?_⟩
  exact Finmap.insert_insert_of_ne _ apart

private def chargedBy : AbortingProgram.Outcome (LedgerState TxManager.plain) Halt (List Tx) →
    List Tx
  | .done charged _ => charged
  | .abort _ _ => []

private def found (accountID : String) (balance : Int64) : Tx :=
  ⟨accountID, 10, accountID, 2,
    [⟨.createAccount, some (.createAccount ⟨"carol", balance⟩)⟩]⟩

private def close (txList : List Tx) :
    AbortingProgram.Outcome (LedgerState .plain) Halt Unit :=
  applyTxList .plain .insertion txList 9 ⟨founders, ∅, []⟩

theorem applyTxList_replicated_of_idle_ties :
    ledgerView (close [idle "alice", idle "bob"]) =
        ledgerView (close [idle "bob", idle "alice"]) ∧
      balanceOf (close [idle "alice", idle "bob"]).state.bucket "bob" = 990 := by
  refine ⟨applyTxList_replicated .plain .insertion .insertion
    [idle "alice", idle "bob"] [idle "bob", idle "alice"] (.swap _ _ _) 9 founders ∅
    (by decide +kernel) (by decide +kernel) (.inl ?_) ?_, by decide +kernel⟩
  · simp only [List.mem_cons, List.not_mem_nil, or_false, forall_eq_or_imp, forall_eq]
    exact ⟨⟨⟨"alice", 1000, "alice", 1, 0, some ⟨0, 0⟩⟩, by decide +kernel, by decide +kernel,
        by decide +kernel⟩,
      ⟨"bob", 1000, "bob", 1, 0, some ⟨0, 0⟩⟩, by decide +kernel, by decide +kernel,
        by decide +kernel⟩
  · intro charged middle feePhase pre tx other post perm _ _ apart reached _
    have evaluated : chargedBy (chargeAccounts .plain
        (Schedule.insertion.sort [idle "alice", idle "bob"])
        (accountOrder .insertion [idle "alice", idle "bob"]) ⟨founders, ∅, []⟩) =
          [idle "alice", idle "bob"] := by
      decide +kernel
    rw [feePhase] at evaluated
    have named : ∀ tx ∈ charged, tx = idle "alice" ∨ tx = idle "bob" := by
      rw [show charged = _ from evaluated]
      simp
    rcases named tx (perm.mem_iff.mp (by simp)) with rfl | rfl <;>
      rcases named other (perm.mem_iff.mp (by simp)) with rfl | rfl
    · exact absurd rfl apart
    · exact idle_agree (by decide) reached
    · exact idle_agree (by decide) reached
    · exact absurd rfl apart

/-- Two accounts that create the same new account with one sequence number: who
comes first depends on the order of the list. -/
theorem applyTxList_not_replicated :
    [found "alice" 300, found "bob" 400].Perm [found "bob" 400, found "alice" 300] ∧
      balanceOf (close [found "alice" 300, found "bob" 400]).state.bucket "carol" = 300 ∧
      balanceOf (close [found "bob" 400, found "alice" 300]).state.bucket "carol" = 400 ∧
      (close [found "alice" 300, found "bob" 400]).state.statuses.lookup "bob" =
        some ⟨.failed, "dst account already exists"⟩ ∧
      (close [found "bob" 400, found "alice" 300]).state.statuses.lookup "bob" =
        some ⟨.confirmed, ""⟩ := by
  decide +kernel

end Ultiledger
