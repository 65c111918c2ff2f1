import Ultiledger.AtomicTransactions
import Ultiledger.PanicFreedom

/-! # The status of an applied transaction

When the operation list cannot be built, the round marks the transaction as failed, goes
on without operations and confirms it.
-/

namespace Ultiledger

open AbortingProgram Program

section Rounds

variable (tm : TxManager) (fillOrder : DbTx.FillOrder) (ledgerSeqNum : UInt64)

def Tx.Applies (tx : Tx) (bucket : Bucket) : Prop :=
  ∃ ops after, getTxOpList tm tx.opList tx.accountID ledgerSeqNum = .ok ops ∧
    ops.foldlM (fun bucket operation => operation.apply tm.am tm.em bucket) bucket = .ok after

/-- The ways in which the round of a transaction can end without an error. -/
inductive RoundEnd (tx : Tx) (before : LedgerState tm) : LedgerState tm → Prop where
  | confirmed (ops : List Operation) (bucket : Bucket)
      (built : getTxOpList tm tx.opList tx.accountID ledgerSeqNum = .ok ops)
      (applied : ops.foldlM (fun bucket operation => operation.apply tm.am tm.em bucket)
        before.bucket = .ok bucket) :
      RoundEnd tx before
        { before with
          bucket := bucket
          statuses := before.statuses.insert (tm.txKey tx) ⟨.confirmed, ""⟩ }
  | failed (ops : List Operation) (message : String)
      (built : getTxOpList tm tx.opList tx.accountID ledgerSeqNum = .ok ops)
      (rolledBack : ops.foldlM (fun bucket operation => operation.apply tm.am tm.em bucket)
        before.bucket = .error (.failed message)) :
      RoundEnd tx before
        { before with statuses := before.statuses.insert (tm.txKey tx) ⟨.failed, message⟩ }
  | overwritten (message : String)
      (unbuilt : getTxOpList tm tx.opList tx.accountID ledgerSeqNum =
        .error (.failed message)) :
      RoundEnd tx before
        { before with
          statuses := (before.statuses.insert (tm.txKey tx) ⟨.failed, message⟩).insert
            (tm.txKey tx) ⟨.confirmed, ""⟩ }

def Executes (executed : List Tx) (start : LedgerState tm) (tx : Tx)
    (before after : LedgerState tm) : Prop :=
  ∃ earlier later, executed = earlier ++ tx :: later ∧
    DbTx.executeTxs tm fillOrder ledgerSeqNum earlier start = .done () before ∧
    DbTx.executeTx tm fillOrder ledgerSeqNum tx before = .done () after

/-- The transaction is confirmed exactly if it was executed with all of its operations,
and else failed and without effect. -/
@[mk_iff]
structure TruthfulStatus (executed : List Tx) (start final : LedgerState tm) (tx : Tx) :
    Prop where
  confirmed_iff : (final.statuses.lookup (tm.txKey tx)).map TxStatus.statusCode =
      some .confirmed ↔
    ∃ before after, Executes tm fillOrder ledgerSeqNum executed start tx before after ∧
      tx.Applies tm ledgerSeqNum before.bucket
  otherwise : (¬ ∃ before after,
      Executes tm fillOrder ledgerSeqNum executed start tx before after ∧
        tx.Applies tm ledgerSeqNum before.bucket) →
    (final.statuses.lookup (tm.txKey tx)).map TxStatus.statusCode = some .failed ∧
      ∀ before after, Executes tm fillOrder ledgerSeqNum executed start tx before after →
        after.bucket = before.bucket

variable {tm fillOrder ledgerSeqNum} {tx : Tx} {before after start final : LedgerState tm}

theorem roundEnd_of_done
    (ended : DbTx.executeTx tm fillOrder ledgerSeqNum tx before = .done () after) :
    RoundEnd tm ledgerSeqNum tx before after := by
  cases built : getTxOpList tm tx.opList tx.accountID ledgerSeqNum with
  | ok ops =>
    rw [executeTx_eq_of_txOps tm fillOrder ledgerSeqNum
      (txOps_of_ok tm ledgerSeqNum before built)] at ended
    cases result : ops.foldlM (fun bucket operation => operation.apply tm.am tm.em bucket)
        before.bucket with
    | ok bucket =>
      rw [result] at ended
      cases ended
      exact .confirmed ops bucket built result
    | error error =>
      rw [result] at ended
      cases error with
      | failed message =>
        cases ended
        exact .failed ops message built result
      | nilDereference what => simp [finishTx, Program.abort] at ended
  | error error =>
    cases error with
    | failed message =>
      rw [executeTx_eq_of_txOps tm fillOrder ledgerSeqNum
        (txOps_of_failed tm ledgerSeqNum before built)] at ended
      cases ended
      exact .overwritten message built
    | nilDereference what =>
      rw [DbTx.executeTx, bind_of_abort (txOps_of_panic tm ledgerSeqNum before built)]
        at ended
      simp at ended

theorem RoundEnd.truthful_iff (ended : RoundEnd tm ledgerSeqNum tx before after) :
    (((after.statuses.lookup (tm.txKey tx)).map TxStatus.statusCode = some .confirmed ↔
        tx.Applies tm ledgerSeqNum before.bucket) ∧
      (¬ tx.Applies tm ledgerSeqNum before.bucket →
        (after.statuses.lookup (tm.txKey tx)).map TxStatus.statusCode = some .failed ∧
          after.bucket = before.bucket)) ↔
      ∃ ops, getTxOpList tm tx.opList tx.accountID ledgerSeqNum = .ok ops := by
  cases ended with
  | confirmed ops bucket built applied =>
    have applies : tx.Applies tm ledgerSeqNum before.bucket := ⟨ops, bucket, built, applied⟩
    simp [applies, built]
  | failed ops message built rolledBack =>
    have fails : ¬ tx.Applies tm ledgerSeqNum before.bucket := by
      rintro ⟨others, bucket, builtAgain, applied⟩
      cases built.symm.trans builtAgain
      simp [rolledBack] at applied
    simp [fails, built]
  | overwritten message unbuilt =>
    have fails : ¬ tx.Applies tm ledgerSeqNum before.bucket := by
      rintro ⟨ops, bucket, built, -⟩
      simp [unbuilt] at built
    simp [fails, unbuilt]

end Rounds

section Statuses

variable {tm : TxManager} (fillOrder : DbTx.FillOrder) (ledgerSeqNum : UInt64)

def WritesStatuses (tm : TxManager) (txs : List Tx) (state final : LedgerState tm) : Prop :=
  ∀ key, (∀ tx ∈ txs, tm.txKey tx ≠ key) →
    final.statuses.lookup key = state.statuses.lookup key

variable {txs : List Tx}

theorem writesStatuses_refl (state : LedgerState tm) : WritesStatuses tm txs state state :=
  fun _ _ => rfl

theorem writesStatuses_trans (first second third : LedgerState tm)
    (writes : WritesStatuses tm txs first second)
    (writesAgain : WritesStatuses tm txs second third) : WritesStatuses tm txs first third :=
  fun key others => (writesAgain key others).trans (writes key others)

theorem updateTxStatus_writes {tx : Tx} (txMem : tx ∈ txs) (status : TxStatus) :
    Steps (WritesStatuses tm txs) (updateTxStatus tm tx status) :=
  fun _ _ others => Finmap.lookup_insert_of_ne _ (others tx txMem).symm

theorem lookup_failedStatuses {results : List (Charge ⊕ Tx × String)} {key : String}
    (others : ∀ tx message, .inr (tx, message) ∈ results → tm.txKey tx ≠ key)
    (statuses : Finmap fun _ : String => TxStatus) :
    (failedStatuses tm results statuses).lookup key = statuses.lookup key := by
  induction results generalizing statuses with
  | nil => rfl
  | cons result rest ih =>
    have later := ih fun tx message listed => others tx message (.tail _ listed)
    rcases result with charge | ⟨tx, message⟩
    · exact later statuses
    · have other := others tx message (.head _)
      exact (later _).trans (Finmap.lookup_insert_of_ne _ other.symm)

theorem chargedOf_sublist (acc : Account) (txs : List Tx) : (chargedOf acc txs).Sublist txs := by
  unfold chargedOf
  induction txs generalizing acc with
  | nil => exact List.Sublist.refl _
  | cons tx rest ih =>
    rw [chargeTxs]
    split_ifs with old poor
    · exact (ih acc).cons tx
    · exact (ih acc).cons tx
    · exact (ih _).cons_cons tx

/-- The round of an account charges some of its transactions in order, and writes only
their statuses. -/
theorem chargeAccount_writes (sorted : List Tx) (accountID : String) (state : LedgerState tm) :
    (chargeAccount tm sorted accountID).Holds state
      (fun charged final => charged.Sublist (ownTxs sorted accountID) ∧
        WritesStatuses tm sorted state final)
      (fun _ final => WritesStatuses tm sorted state final) := by
  rw [chargeAccount, holds_bind, holds_get]
  split
  · exact writesStatuses_refl state
  · rename_i acc read
    have writes : WritesStatuses tm sorted state
        { state with
          statuses :=
            failedStatuses tm (chargeTxs acc (ownTxs sorted accountID)).2 state.statuses } := by
      intro key others
      refine lookup_failedStatuses (fun tx message rejected => ?_) _
      exact others tx (List.mem_of_mem_filter (mem_of_rejected rejected))
    simp only [holds_bind]
    rw [holds_of_done (rejectTxs_eq tm _ state)]
    split
    · exact writes
    · exact writes
    · exact ⟨chargedOf_sublist acc (ownTxs sorted accountID), writes⟩

theorem chargeAccounts_writes {sorted : List Tx} {accountIDs : List String}
    (accountsNodup : accountIDs.Nodup) (state : LedgerState tm) :
    (chargeAccounts tm sorted accountIDs).Holds state
      (fun charged final =>
        (∀ tx ∈ charged, tx ∈ sorted ∧ tx.accountID ∈ accountIDs) ∧
        (sorted.Nodup → charged.Nodup) ∧ WritesStatuses tm sorted state final)
      (fun _ final => WritesStatuses tm sorted state final) := by
  induction accountIDs generalizing state with
  | nil => exact ⟨by simp, fun _ => List.nodup_nil, writesStatuses_refl state⟩
  | cons accountID rest ih =>
    obtain ⟨apart, restNodup⟩ := List.nodup_cons.mp accountsNodup
    rw [chargeAccounts, holds_bind]
    refine (chargeAccount_writes sorted accountID state).imp ?_
    rintro charged middle ⟨own, writes⟩
    rw [holds_bind]
    refine (ih restNodup middle).mono ?_
      (fun _ final later => writesStatuses_trans state middle final writes later)
    rintro others final ⟨listed, nodup, later⟩
    have ownListed : ∀ tx ∈ charged, tx ∈ sorted ∧ tx.accountID = accountID := by
      intro tx txMem
      obtain ⟨txListed, txOwn⟩ := List.mem_filter.mp (own.subset txMem)
      exact ⟨txListed, by simpa using txOwn⟩
    refine ⟨?_, ?_, writesStatuses_trans state middle final writes later⟩
    · intro tx txMem
      rcases List.mem_append.mp txMem with now | laterMem
      · obtain ⟨txListed, rfl⟩ := ownListed tx now
        exact ⟨txListed, .head _⟩
      · obtain ⟨txListed, txLater⟩ := listed tx laterMem
        exact ⟨txListed, .tail _ txLater⟩
    · intro sortedNodup
      refine List.nodup_append.mpr ⟨own.nodup (sortedNodup.filter _), nodup sortedNodup, ?_⟩
      rintro tx now other laterMem rfl
      exact apart ((ownListed tx now).2 ▸ (listed tx laterMem).2)

theorem txOps_writes {tx : Tx} (txMem : tx ∈ txs) :
    Steps (WritesStatuses tm txs) (DbTx.txOps tm ledgerSeqNum tx) := by
  unfold DbTx.txOps
  split
  · exact .pure writesStatuses_refl _
  · exact Steps.bind writesStatuses_trans (updateTxStatus_writes txMem _)
      fun _ => .pure writesStatuses_refl _
  · exact .abort writesStatuses_refl _

theorem executeTx_writes {tx : Tx} (txMem : tx ∈ txs) :
    Steps (WritesStatuses tm txs) (DbTx.executeTx tm fillOrder ledgerSeqNum tx) := by
  have ends : ∀ (change : LedgerState tm → Bucket) (status : TxStatus),
      Steps (WritesStatuses tm txs) (do
        Program.modify fun state => { state with bucket := change state }
        updateTxStatus tm tx status) := fun change status =>
    Steps.bind writesStatuses_trans (fun _ _ _ => rfl)
      fun _ => updateTxStatus_writes txMem status
  refine Steps.bind writesStatuses_trans (txOps_writes ledgerSeqNum txMem) fun ops => ?_
  intro state
  rw [holds_bind, holds_get]
  split
  · exact ends _ _ state
  · exact ends _ _ state
  · exact writesStatuses_refl state

theorem executeTxs_writes {executed : List Tx} (listed : ∀ tx ∈ executed, tx ∈ txs) :
    Steps (WritesStatuses tm txs) (DbTx.executeTxs tm fillOrder ledgerSeqNum executed) := by
  induction executed with
  | nil => exact .pure writesStatuses_refl ()
  | cons tx rest ih =>
    exact Steps.bind writesStatuses_trans
      (executeTx_writes fillOrder ledgerSeqNum (listed tx (.head _)))
      fun _ => ih (List.forall_mem_cons.mp listed).2

theorem applyTxList_writes (schedule : Schedule) (txList : List Tx) :
    Steps (WritesStatuses tm (schedule.sort txList))
      (DbTx.applyTxList tm fillOrder schedule txList ledgerSeqNum) := by
  intro state
  rw [DbTx.applyTxList, holds_bind]
  refine (chargeAccounts_writes (nodup_accountOrder schedule txList) state).mono ?_
    (fun _ _ writes => writes)
  rintro charged middle ⟨listed, -, writes⟩
  have chargedListed : ∀ tx ∈ schedule.sort charged, tx ∈ schedule.sort txList :=
    fun tx txMem => (listed tx ((schedule.sort_perm charged).mem_iff.mp txMem)).1
  refine (executeTxs_writes fillOrder ledgerSeqNum chargedListed middle).mono ?_ ?_
  · exact fun _ final later => writesStatuses_trans state middle final writes later
  · exact fun _ final later => writesStatuses_trans state middle final writes later

end Statuses

section Truth

variable {tm : TxManager} {fillOrder : DbTx.FillOrder} {ledgerSeqNum : UInt64}
  {executed : List Tx} {start final : LedgerState tm} {tx : Tx}

theorem executeTxs_append_done {earlier later : List Tx}
    (ended : DbTx.executeTxs tm fillOrder ledgerSeqNum (earlier ++ tx :: later) start =
      .done () final) :
    ∃ before after, DbTx.executeTxs tm fillOrder ledgerSeqNum earlier start = .done () before ∧
      DbTx.executeTx tm fillOrder ledgerSeqNum tx before = .done () after ∧
      DbTx.executeTxs tm fillOrder ledgerSeqNum later after = .done () final := by
  induction earlier generalizing start with
  | nil =>
    obtain ⟨_, after, round, rest⟩ := bind_eq_done.mp ended
    exact ⟨start, after, rfl, round, rest⟩
  | cons first others ih =>
    obtain ⟨_, next, round, rest⟩ := bind_eq_done.mp ended
    obtain ⟨before, after, firsts, own, lasts⟩ := ih rest
    exact ⟨before, after, (bind_of_done round).trans firsts, own, lasts⟩

theorem truthfulStatus_iff_of_mem (distinct : (executed.map tm.txKey).Nodup)
    (ended : DbTx.executeTxs tm fillOrder ledgerSeqNum executed start = .done () final)
    (txMem : tx ∈ executed) :
    TruthfulStatus tm fillOrder ledgerSeqNum executed start final tx ↔
      ∃ ops, getTxOpList tm tx.opList tx.accountID ledgerSeqNum = .ok ops := by
  obtain ⟨earlier, later, rfl⟩ := List.append_of_mem txMem
  obtain ⟨before, after, firsts, round, lasts⟩ := executeTxs_append_done ended
  rw [List.map_append] at distinct
  have notEarlier : tx ∉ earlier := fun listed =>
    (List.disjoint_of_nodup_append distinct) (List.mem_map_of_mem listed) (.head _)
  have notLaterKey : tm.txKey tx ∉ later.map tm.txKey :=
    (List.nodup_cons.mp (List.nodup_append.mp distinct).2.1).1
  have lastStatus : final.statuses.lookup (tm.txKey tx) = after.statuses.lookup (tm.txKey tx) := by
    have others : ∀ other ∈ later, tm.txKey other ≠ tm.txKey tx := fun other listed same =>
      notLaterKey (same ▸ List.mem_map_of_mem listed)
    have writes := executeTxs_writes fillOrder ledgerSeqNum (fun tx (txMem : tx ∈ later) => txMem) after
    rw [holds_of_done lasts] at writes
    exact writes _ others
  have only : ∀ other last, Executes tm fillOrder ledgerSeqNum (earlier ++ tx :: later) start tx
      other last ↔ other = before ∧ last = after := by
    intro other last
    constructor
    · rintro ⟨firstTxs, lastTxs, split, reached, ran⟩
      have notLater : tx ∉ later := fun listed => notLaterKey (List.mem_map_of_mem listed)
      obtain ⟨rfl, -, rfl⟩ := (List.append_cons_inj_of_notMem notEarlier notLater).mp split
      cases reached.symm.trans firsts
      cases ran.symm.trans round
      exact ⟨rfl, rfl⟩
    · rintro ⟨rfl, rfl⟩
      exact ⟨earlier, later, rfl, firsts, round⟩
  have ran_iff : (∃ other last, Executes tm fillOrder ledgerSeqNum (earlier ++ tx :: later) start
      tx other last ∧ tx.Applies tm ledgerSeqNum other.bucket) ↔
      tx.Applies tm ledgerSeqNum before.bucket := by
    constructor
    · rintro ⟨other, last, ran, applies⟩
      obtain ⟨rfl, -⟩ := (only other last).mp ran
      exact applies
    · exact fun applies => ⟨before, after, (only before after).mpr ⟨rfl, rfl⟩, applies⟩
  have idle_iff : (∀ other last, Executes tm fillOrder ledgerSeqNum (earlier ++ tx :: later) start
      tx other last → last.bucket = other.bucket) ↔ after.bucket = before.bucket := by
    constructor
    · exact fun idle => idle before after ((only before after).mpr ⟨rfl, rfl⟩)
    · rintro same other last ran
      obtain ⟨rfl, rfl⟩ := (only other last).mp ran
      exact same
  rw [truthfulStatus_iff, ran_iff, idle_iff, lastStatus]
  exact (roundEnd_of_done round).truthful_iff

theorem truthfulStatus_of_uncharged (marked : MarkedFailed tm start.statuses tx)
    (others : ∀ other ∈ executed, tm.txKey other ≠ tm.txKey tx)
    (ended : DbTx.executeTxs tm fillOrder ledgerSeqNum executed start = .done () final) :
    TruthfulStatus tm fillOrder ledgerSeqNum executed start final tx := by
  have writes := executeTxs_writes fillOrder ledgerSeqNum (fun tx (txMem : tx ∈ executed) => txMem) start
  rw [holds_of_done ended] at writes
  obtain ⟨message, found⟩ := marked
  have failed : (final.statuses.lookup (tm.txKey tx)).map TxStatus.statusCode = some .failed := by
    rw [writes _ others, found]
    rfl
  have idle : ∀ before after,
      ¬ Executes tm fillOrder ledgerSeqNum executed start tx before after := by
    rintro before after ⟨earlier, later, rfl, -⟩
    exact others tx (List.mem_append_right _ (.head _)) rfl
  constructor
  · rw [failed]
    constructor
    · simp
    · rintro ⟨before, after, ran, -⟩
      exact absurd ran (idle before after)
  · exact fun _ => ⟨failed, fun before after ran => absurd ran (idle before after)⟩

end Truth

/-- After a call that returns nil on transactions with different keys, the last status of
a transaction is truthful exactly if it was not charged or all of its operations can be
built. -/
theorem applyTxList_truthful_iff (tm : TxManager) (fillOrder : DbTx.FillOrder) (schedule : Schedule)
    (txList : List Tx) (ledgerSeqNum : UInt64) (state final : LedgerState tm)
    (distinct : (txList.map tm.txKey).Nodup)
    (returned : DbTx.applyTxList tm fillOrder schedule txList ledgerSeqNum state = .done () final) :
    ∃ charged afterFees,
      chargeAccounts tm (schedule.sort txList) (accountOrder schedule txList) state =
        .done charged afterFees ∧
      ∀ tx ∈ txList,
        (TruthfulStatus tm fillOrder ledgerSeqNum (schedule.sort charged) afterFees final tx ↔
          (tx ∈ charged → ∀ txOp ∈ tx.opList, txOp.Fits)) := by
  obtain ⟨charged, afterFees, feePhase, ended⟩ := bind_eq_done.mp returned
  change chargeAccounts tm (schedule.sort txList) (accountOrder schedule txList) state = _
    at feePhase
  refine ⟨charged, afterFees, feePhase, ?_⟩
  have sortedPerm := schedule.sort_perm txList
  have chargedPerm := schedule.sort_perm charged
  have marks := chargeAccounts_marks (schedule.sort txList) (accountOrder schedule txList) state
  have writes := @chargeAccounts_writes tm (schedule.sort txList) _
    (nodup_accountOrder schedule txList) state
  rw [holds_of_done feePhase] at marks writes
  obtain ⟨listed, nodup, -⟩ := writes
  have chargedListed : ∀ tx ∈ charged, tx ∈ txList :=
    fun tx txMem => sortedPerm.mem_iff.mp (listed tx txMem).1
  have sameTx : ∀ first ∈ txList, ∀ second ∈ txList, tm.txKey first = tm.txKey second →
      first = second :=
    fun first firstMem second secondMem => List.inj_on_of_nodup_map distinct firstMem secondMem
  have distinctCharged : ((schedule.sort charged).map tm.txKey).Nodup := by
    have sortedNodup : (schedule.sort txList).Nodup :=
      sortedPerm.nodup_iff.mpr (List.Nodup.of_map _ distinct)
    refine (chargedPerm.nodup_iff.mpr (nodup sortedNodup)).map_on ?_
    intro first firstMem second secondMem
    exact sameTx first (chargedListed first (chargedPerm.mem_iff.mp firstMem)) second
      (chargedListed second (chargedPerm.mem_iff.mp secondMem))
  intro tx txMem
  by_cases isCharged : tx ∈ charged
  · rw [truthfulStatus_iff_of_mem distinctCharged ended (chargedPerm.mem_iff.mpr isCharged),
      ← fits_iff_getTxOpList]
    exact ⟨fun fits _ => fits, fun fits => fits isCharged⟩
  · refine iff_of_true ?_ (fun charge => absurd charge isCharged)
    have inOrder : tx.accountID ∈ accountOrder schedule txList :=
      mem_accountOrder.mpr ⟨tx, txMem, rfl⟩
    have marked := (marks.2 tx (sortedPerm.mem_iff.mpr txMem) inOrder).resolve_left isCharged
    refine truthfulStatus_of_uncharged marked ?_ ended
    intro other otherMem same
    have otherCharged := chargedPerm.mem_iff.mp otherMem
    exact isCharged (sameTx other (chargedListed other otherCharged) tx txMem same ▸ otherCharged)

section Sample

private def ownerAndBank : Bucket :=
  .ofRecords [.account ⟨"owner", 1000, "owner", 1, 0, some ⟨0, 0⟩⟩,
    .account ⟨"bank", 500, "bank", 1, 0, some ⟨0, 0⟩⟩]

private def nativeTokens : Option Asset := some ⟨.native, "", ""⟩

private def openShop (note : String) (seqNum : UInt64) : Tx :=
  ⟨"owner", 10, note, seqNum, [⟨.createAccount, some (.createAccount ⟨"shop", 200⟩)⟩]⟩

private def payByPath : Tx :=
  ⟨"owner", 10, "path", 2,
    [⟨.pathPayment, some (.pathPayment ⟨nativeTokens, 200, "bank", nativeTokens, []⟩)⟩]⟩

private def shopRun (txList : List Tx) : Outcome (LedgerState TxManager.plain) Halt Unit :=
  DbTx.applyTxList .plain (fun _ => Program.abort (.failed "no offers"))
    .insertion txList 9 ⟨ownerAndBank, ∅, []⟩

end Sample

/-- An account is created twice: the first transaction is confirmed and the second fails,
and both statuses are truthful. -/
theorem applyTxList_truthful_shop :
    ((shopRun [openShop "first" 2, openShop "second" 3]).state.statuses.lookup "first").map
        TxStatus.statusCode = some .confirmed ∧
      ((shopRun [openShop "first" 2, openShop "second" 3]).state.statuses.lookup "second").map
        TxStatus.statusCode = some .failed ∧
      ∃ charged afterFees, ∀ tx ∈ [openShop "first" 2, openShop "second" 3],
        TruthfulStatus .plain (fun _ => Program.abort (.failed "no offers")) 9
          (Schedule.insertion.sort charged) afterFees
          (shopRun [openShop "first" 2, openShop "second" 3]).state tx := by
  obtain ⟨charged, afterFees, -, truthful⟩ := applyTxList_truthful_iff .plain
    (fun _ => Program.abort (.failed "no offers")) .insertion
    [openShop "first" 2, openShop "second" 3] 9 ⟨ownerAndBank, ∅, []⟩
    (shopRun [openShop "first" 2, openShop "second" 3]).state (by decide)
    (Outcome.eq_done (by decide +kernel))
  refine ⟨by decide +kernel, by decide +kernel, charged, afterFees, fun tx txMem =>
    (truthful tx txMem).mpr fun _ => ?_⟩
  simp only [List.mem_cons, List.not_mem_nil, or_false] at txMem
  rcases txMem with rfl | rfl <;> simp [openShop, TxOp.Fits]

/-- A path payment is charged, confirmed and never made.  A transaction that is listed
twice takes effect once and is marked as failed. -/
theorem applyTxList_untruthful :
    ((shopRun [payByPath]).fault = none ∧
      (shopRun [payByPath]).state.statuses.lookup "path" = some ⟨.confirmed, ""⟩ ∧
      getTxOpList .plain payByPath.opList "owner" 9 =
        .error (.failed "received invalid op type: PATH_PAYMENT") ∧
      (shopRun [payByPath]).state.bucket.get (accountKey "bank") =
        some (.account ⟨"bank", 500, "bank", 1, 0, some ⟨0, 0⟩⟩)) ∧
    ((shopRun [openShop "twice" 2, openShop "twice" 2]).fault = none ∧
      ((shopRun [openShop "twice" 2, openShop "twice" 2]).state.statuses.lookup "twice").map
        TxStatus.statusCode = some .failed ∧
      (getAccount (shopRun [openShop "twice" 2, openShop "twice" 2]).state.bucket "shop").map
        Account.balance = some 200) := by
  refine ⟨⟨?_, ?_, rfl, ?_⟩, ?_⟩ <;> decide +kernel

end Ultiledger
