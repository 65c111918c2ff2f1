import Ultiledger.TypedAccess

/-! # Replay

The fee phase accepts a transaction with the stored sequence number itself.
-/

namespace Ultiledger

open AbortingProgram Program

def KeepsSeqNums (before after : Bucket) : Prop :=
  ∀ accountID acc, before.get (accountKey accountID) = some (.account acc) →
    ∃ kept, after.get (accountKey accountID) = some (.account kept) ∧
      kept.seqNum = acc.seqNum

namespace KeepsSeqNums

variable {first bucket : Bucket}

theorem trans {last : Bucket} (keeps : KeepsSeqNums first bucket)
    (keepsLast : KeepsSeqNums bucket last) : KeepsSeqNums first last := by
  intro accountID acc found
  obtain ⟨middle, middleFound, middleSame⟩ := keeps accountID acc found
  obtain ⟨kept, keptFound, keptSame⟩ := keepsLast accountID middle middleFound
  exact ⟨kept, keptFound, keptSame.trans middleSame⟩

theorem refl (bucket : Bucket) : KeepsSeqNums bucket bucket :=
  fun _ acc found => ⟨acc, found, rfl⟩

theorem insert_account {written : Account} (keeps : KeepsSeqNums first bucket)
    (same : ∀ stored, bucket.get (accountKey written.accountID) = some (.account stored) →
      written.seqNum = stored.seqNum) :
    KeepsSeqNums first (bucket.insert (.account written)) := by
  intro accountID acc found
  obtain ⟨kept, keptFound, keptSame⟩ := keeps accountID acc found
  rw [Bucket.get_insert, Record.key_account]
  by_cases here : accountKey accountID = accountKey written.accountID
  · rw [if_pos here]
    exact ⟨written, rfl, (same kept (here ▸ keptFound)).trans keptSame⟩
  · rw [if_neg here]
    exact ⟨kept, keptFound, keptSame⟩

theorem insert_stored {stored written : Account} {accountID : String}
    (keeps : KeepsSeqNums first bucket)
    (found : bucket.get (accountKey accountID) = some (.account stored))
    (own : written.accountID = accountID) (same : written.seqNum = stored.seqNum) :
    KeepsSeqNums first (bucket.insert (.account written)) := by
  apply keeps.insert_account
  intro other otherFound
  rw [own, found] at otherFound
  cases otherFound
  exact same

theorem insert_trust {line : Trust} (keeps : KeepsSeqNums first bucket)
    (typed : bucket.NoAccountAt (Record.trust line).key) :
    KeepsSeqNums first (bucket.insert (.trust line)) := by
  intro accountID acc found
  obtain ⟨kept, keptFound, keptSame⟩ := keeps accountID acc found
  rw [Bucket.get_insert]
  split_ifs with here
  · exact absurd (here ▸ keptFound) (typed kept)
  · exact ⟨kept, keptFound, keptSame⟩

theorem delete {key : List UInt8} (keeps : KeepsSeqNums first bucket)
    (typed : bucket.NoAccountAt key) : KeepsSeqNums first (bucket.delete key) := by
  intro accountID acc found
  obtain ⟨kept, keptFound, keptSame⟩ := keeps accountID acc found
  rw [Bucket.get_delete]
  split_ifs with here
  · exact absurd (here ▸ keptFound) (typed kept)
  · exact ⟨kept, keptFound, keptSame⟩

end KeepsSeqNums

variable {am : AccountManager} {em : Exchange} {before after : Bucket} {tm : TxManager}

theorem createAccount_keepsSeqNums {c : Op.CreateAccount}
    (typed : (Operation.createAccount c).Typed before) (done : c.apply am before = .ok after) :
    KeepsSeqNums before after := by
  obtain ⟨srcAcc, apart, fresh, read, _, rfl⟩ := of_createAccount done
  obtain ⟨found, own⟩ := get_of_getAccount typed read
  have debited : KeepsSeqNums before
      (before.insert (.account { srcAcc with balance := srcAcc.balance - c.balance })) :=
    (KeepsSeqNums.refl before).insert_stored found own rfl
  apply debited.insert_account
  intro stored storedFound
  rw [Bucket.get_insert, Record.key_account, if_neg (accountKey_ne (own ▸ apart.symm)),
    getAccount_eq_none.mp fresh] at storedFound
  simp at storedFound

theorem payment_keepsSeqNums {p : Op.Payment} (typed : (Operation.payment p).Typed before)
    (done : p.apply em before = .ok after) : KeepsSeqNums before after := by
  obtain ⟨asset, _, given, _⟩ := of_payment done
  by_cases native : asset.assetType = .native
  · obtain ⟨dstAcc, srcAcc, dstFound, dstOwn, srcFound, srcOwn, _, _, _, rfl⟩ :=
      of_native_payment given native typed done
    have credited : KeepsSeqNums before
        (before.insert (.account { dstAcc with balance := dstAcc.balance + p.amount })) :=
      (KeepsSeqNums.refl before).insert_stored dstFound dstOwn rfl
    exact credited.insert_stored srcFound srcOwn rfl
  · obtain ⟨dstLine, srcLine, _, dstKey, _, _, _, srcKey, rfl⟩ :=
      of_custom_payment given native typed done
    have lineTyped := typed asset given
    rw [if_neg native] at lineTyped
    have credited : KeepsSeqNums before
        (before.insert (.trust { dstLine with balance := dstLine.balance + p.amount })) :=
      (KeepsSeqNums.refl before).insert_trust (dstKey ▸ lineTyped.1)
    exact credited.insert_trust (srcKey ▸ noAccountAt_insert_trust lineTyped.2)

theorem trust_keepsSeqNums {t : Op.Trust} (typed : (Operation.trust t).Typed before)
    (done : t.apply am before = .ok after) : KeepsSeqNums before after := by
  obtain ⟨asset, srcAcc, _, found, own, lineTyped, effect⟩ := of_typed_trust typed done
  have keysApart : accountKey t.srcAccountID ≠ trustKey t.srcAccountID asset := by
    intro same
    exact lineTyped srcAcc (same ▸ found)
  rcases effect with ⟨entries, rfl⟩ | ⟨entries, rfl⟩ | ⟨line, lineKey, _, rfl⟩
  · have counted : KeepsSeqNums before
        (before.insert (.account { srcAcc with entryCount := entries })) :=
      (KeepsSeqNums.refl before).insert_stored found own rfl
    apply counted.insert_trust
    intro acc accFound
    change (before.insert (.account { srcAcc with entryCount := entries })).get
      (trustKey t.srcAccountID asset) = _ at accFound
    rw [Bucket.get_insert, Record.key_account, own, if_neg keysApart.symm] at accFound
    exact lineTyped acc accFound
  · have closed := (KeepsSeqNums.refl before).delete lineTyped
    have stillFound : (before.delete (trustKey t.srcAccountID asset)).get
        (accountKey t.srcAccountID) = some (.account srcAcc) := by
      rw [Bucket.get_delete, if_neg keysApart]
      exact found
    exact closed.insert_stored stillFound own rfl
  · exact (KeepsSeqNums.refl before).insert_trust (lineKey ▸ lineTyped)

theorem Operation.keepsSeqNums {operation : Operation} (typed : operation.Typed before)
    (done : operation.apply am em before = .ok after) : KeepsSeqNums before after := by
  cases operation with
  | createAccount c => exact createAccount_keepsSeqNums typed done
  | payment p => exact payment_keepsSeqNums typed done
  | trust t => exact trust_keepsSeqNums typed done

/-- In the order of a history, a transaction of the same account has a larger
sequence number. -/
def LaterSeqNum (first second : Tx) : Prop :=
  first.accountID = second.accountID → first.seqNum < second.seqNum

def chargedTxs {tm : TxManager} (events : List (Event tm)) : List Tx :=
  (chargesIn events).map Charge.tx

def Charge.Advances (charge : Charge) : Prop := charge.acc.seqNum ≠ charge.tx.seqNum

/-- In a round whose charges advance, the sequence numbers climb from the account
read to the account saved. -/
theorem FeeRound.seqNums_climb {round : FeeRound}
    (advances : ∀ charge ∈ round.charges, charge.Advances) :
    (∀ tx ∈ round.charges.map Charge.tx,
      round.acc.seqNum < tx.seqNum ∧ tx.seqNum ≤ round.after.seqNum) ∧
    round.acc.seqNum ≤ round.after.seqNum ∧
    (round.charges.map Charge.tx).Pairwise LaterSeqNum := by
  refine chargeTxs_induction (motive := fun acc last charges =>
    (∀ charge ∈ charges, charge.Advances) →
      (∀ tx ∈ charges.map Charge.tx, acc.seqNum < tx.seqNum ∧ tx.seqNum ≤ last.seqNum) ∧
      acc.seqNum ≤ last.seqNum ∧ (charges.map Charge.tx).Pairwise LaterSeqNum)
    ?_ ?_ round.acc advances
  · simp
  · intro charge last later _ ih climbs
    obtain ⟨between, grows, ordered⟩ :=
      ih (List.forall_mem_cons.mp climbs).2
    have advance : charge.acc.seqNum < charge.tx.seqNum := by
      have allowed := charge.seqNumAllowed
      have distinct : charge.acc.seqNum ≠ charge.tx.seqNum := climbs charge (.head _)
      grind
    change charge.tx.seqNum ≤ last.seqNum at grows
    refine ⟨?_, by grind, ?_⟩
    · rintro tx txMem
      rcases List.mem_cons.mp txMem with rfl | txLater
      · exact ⟨advance, grows⟩
      · obtain ⟨above, below⟩ := between tx txLater
        change charge.tx.seqNum < tx.seqNum at above
        exact ⟨by grind, below⟩
    · refine List.pairwise_cons.mpr ⟨?_, ordered⟩
      intro tx txLater _
      exact (between tx txLater).1

/-- The stored sequence numbers bound the history, and the history climbs. -/
structure HistoryOrdered {tm : TxManager} (state : LedgerState tm) : Prop where
  bounded : ∀ tx ∈ chargedTxs state.events, ∃ acc,
    state.bucket.get (accountKey tx.accountID) = some (.account acc) ∧
      tx.seqNum ≤ acc.seqNum
  ordered : (chargedTxs state.events).Pairwise LaterSeqNum

theorem HistoryOrdered.of_keepsSeqNums {state final : LedgerState tm}
    (history : HistoryOrdered state) (same : chargedTxs final.events = chargedTxs state.events)
    (keeps : KeepsSeqNums state.bucket final.bucket) : HistoryOrdered final := by
  refine ⟨?_, same ▸ history.ordered⟩
  intro tx txMem
  obtain ⟨acc, found, bound⟩ := history.bounded tx (same ▸ txMem)
  obtain ⟨kept, keptFound, keptSame⟩ := keeps tx.accountID acc found
  exact ⟨kept, keptFound, keptSame ▸ bound⟩

theorem HistoryOrdered.charge {state : LedgerState tm}
    (history : HistoryOrdered state) (round : FeeRound) (current : round.bucket = state.bucket)
    (typed : round.bucket.NoTrustAt (accountKey round.accountID))
    (advances : ∀ charge ∈ round.charges, charge.Advances) :
    @HistoryOrdered tm { state with
      bucket := state.bucket.insert (.account round.after)
      events := state.events ++ [.charged round] } := by
  obtain ⟨found, own⟩ := FeeRound.stored typed
  obtain ⟨between, grows, ordered⟩ := FeeRound.seqNums_climb advances
  have ownTxs : ∀ tx ∈ round.charges.map Charge.tx, tx.accountID = round.accountID := by
    intro tx txMem
    obtain ⟨charge, chargeMem, rfl⟩ := List.mem_map.mp txMem
    exact FeeRound.own_of_mem_charges chargeMem
  have log : chargedTxs (state.events ++ [.charged round]) =
      chargedTxs state.events ++ round.charges.map Charge.tx := by
    simp [chargedTxs]
  have earlier : ∀ tx ∈ chargedTxs state.events, tx.accountID = round.accountID →
      tx.seqNum ≤ round.acc.seqNum := by
    intro tx txMem sameAccount
    obtain ⟨acc, accFound, bound⟩ := history.bounded tx txMem
    rw [sameAccount, ← current, found] at accFound
    cases accFound
    exact bound
  constructor
  · intro tx txMem
    rw [log, List.mem_append] at txMem
    rw [Bucket.get_insert, Record.key_account, own]
    by_cases here : tx.accountID = round.accountID
    · rw [if_pos (congrArg accountKey here)]
      refine ⟨round.after, rfl, ?_⟩
      rcases txMem with old | new
      · grind
      · exact (between tx new).2
    · rw [if_neg (accountKey_ne here)]
      rcases txMem with old | new
      · exact history.bounded tx old
      · exact absurd (ownTxs tx new) here
  · rw [log, List.pairwise_append]
    refine ⟨history.ordered, ordered, ?_⟩
    intro tx old next new sameAccount
    grind

theorem Reaches.historyOrdered {state final : LedgerState tm} (reaches : Reaches tm state final)
    (started : state.events = []) (typed : ∀ event ∈ final.events, event.Typed)
    (advances : ∀ charge ∈ chargesIn final.events, charge.Advances) : HistoryOrdered final := by
  have run := @Reaches.invariant tm HistoryOrdered
    (fun event => event.Typed ∧ ∀ round, event = .charged round →
      ∀ charge ∈ round.charges, charge.Advances)
  refine run ?_ reaches ?_ ?_
  · intro current next step conditions history
    cases step with
    | status tx status => exact history.of_keepsSeqNums rfl (.refl _)
    | charge round bucket fresh saved =>
      obtain ⟨roundTyped, roundAdvances⟩ := conditions (.charged round) (by simp)
      rw [eq_of_saveAccount saved]
      exact history.charge round fresh roundTyped (roundAdvances round rfl)
    | execute tx =>
      exact history.of_keepsSeqNums (by simp [chargedTxs]) (.refl _)
    | commit ops bucket succeeded =>
      refine history.of_keepsSeqNums (by simp [chargedTxs]) ?_
      have chain := @applyOps_induction tm (KeepsSeqNums current.bucket)
      refine chain succeeded ?_ (.refl _)
      intro application applicationMem keeps
      have applicationTyped := (conditions (.applied application) (by simp [applicationMem])).1
      exact keeps.trans (Operation.keepsSeqNums applicationTyped application.succeeded)
    | rollback ops =>
      exact history.of_keepsSeqNums (by simp [chargedTxs]) (.refl _)
  · intro event eventMem
    refine ⟨typed event eventMem, ?_⟩
    rintro round rfl charge chargeMem
    exact advances charge (mem_chargesIn.mpr ⟨round, eventMem, chargeMem⟩)
  · exact ⟨by simp [started, chargedTxs, chargesIn], by simp [started, chargedTxs, chargesIn]⟩

section Execution

variable {tm : TxManager}

def Logs (charged executed : List Tx) (state final : LedgerState tm) : Prop :=
  chargedTxs final.events = chargedTxs state.events ++ charged ∧
    executedIn final.events = executedIn state.events ++ executed

variable (schedule : Schedule) (sorted : List Tx) {charged : List Tx} (ledgerSeqNum : UInt64)
  {executed : List Tx} {final : LedgerState tm}

theorem Logs.trans {laterCharged laterExecuted : List Tx} {state middle : LedgerState tm}
    (first : Logs charged executed state middle)
    (second : Logs laterCharged laterExecuted middle final) :
    Logs (charged ++ laterCharged) (executed ++ laterExecuted) state final := by
  simp [Logs, first.1, first.2, second.1, second.2]

theorem chargeAccount_logs (accountID : String) (state : LedgerState tm) :
    (chargeAccount tm sorted accountID).Holds state
      (fun charged final => Logs charged [] state final)
      (fun _ final => Logs [] [] state final) := by
  rw [chargeAccount, holds_bind, holds_get]
  split
  · simp [Logs]
  · simp only [holds_bind]
    rw [holds_of_done (rejectTxs_eq tm _ state)]
    split <;> simp [Logs, chargedTxs]

theorem chargeAccounts_logs (accountIDs : List String) (state : LedgerState tm) :
    (chargeAccounts tm sorted accountIDs).Holds state
      (fun charged final => Logs charged [] state final)
      (fun _ final => ∃ charged, Logs charged [] state final) := by
  induction accountIDs generalizing state with
  | nil => simp [chargeAccounts, Logs]
  | cons accountID rest ih =>
    simp only [chargeAccounts, holds_bind, holds_pure]
    refine (chargeAccount_logs sorted accountID state).mono ?_ ?_
    · intro charged middle logged
      refine (ih middle).mono ?_ ?_
      · intro others final loggedRest
        exact logged.trans loggedRest
      · rintro fault final ⟨others, loggedRest⟩
        exact ⟨_, logged.trans loggedRest⟩
    · intro fault final logged
      exact ⟨[], logged⟩

theorem executeOps_logs (tx : Tx) (ops : List Operation) (state : LedgerState tm) :
    (executeOps tm tx ops).Holds state (fun _ final => Logs [] [] state final)
      (fun _ final => Logs [] [] state final) := by
  simp only [executeOps, updateTxStatus, holds_bind, holds_get,
    holds_modify]
  split <;> simp [Logs, chargedTxs]

theorem executeTx_logs (tx : Tx) (state : LedgerState tm) :
    (executeTx tm ledgerSeqNum tx).Holds state (fun _ final => Logs [] [tx] state final)
      (fun _ final => Logs [] [tx] state final) := by
  simp only [executeTx, holds_bind, holds_modify]
  have begun : Logs [] [tx] state { state with events := state.events ++ [.executed tx] } := by
    simp [Logs, chargedTxs]
  rcases getTxOpList tm tx.opList tx.accountID ledgerSeqNum with error | ops
  · cases error with
    | failed message =>
      simp only [updateTxStatus, holds_bind, holds_modify]
      refine (executeOps_logs tx [] _).mono ?_ ?_
      · exact fun _ final logged => begun.trans logged
      · exact fun _ final logged => begun.trans logged
    | nilDereference what => exact begun
  · refine (executeOps_logs tx ops _).mono ?_ ?_
    · exact fun _ final logged => begun.trans logged
    · exact fun _ final logged => begun.trans logged

theorem executeTxs_logs (txs : List Tx) (state : LedgerState tm) :
    (executeTxs tm ledgerSeqNum txs).Holds state (fun _ final => Logs [] txs state final)
      (fun _ final => ∃ executed, executed <+: txs ∧ Logs [] executed state final) := by
  induction txs generalizing state with
  | nil => simp [executeTxs, Logs]
  | cons tx rest ih =>
    simp only [executeTxs, holds_bind]
    refine (executeTx_logs ledgerSeqNum tx state).mono ?_ ?_
    · intro _ middle logged
      refine (ih middle).mono ?_ ?_
      · intro _ final loggedRest
        exact logged.trans loggedRest
      · rintro fault final ⟨executed, isInitial, loggedRest⟩
        exact ⟨tx :: executed, List.prefix_cons_inj tx |>.mpr isInitial,
          logged.trans loggedRest⟩
    · intro fault final logged
      exact ⟨[tx], by simp, logged⟩

/-- A call executes, in the order of their sequence numbers, transactions it has
charged; all of them if it returns. -/
theorem applyTxList_logs (txList : List Tx) (ledgerSeqNum : UInt64) (state : LedgerState tm) :
    ∃ charged executed, executed <+: schedule.sort charged ∧
      Logs charged executed state
        (applyTxList tm schedule txList ledgerSeqNum state).state := by
  apply @Holds.atEnd _ _ _ state _ (fun final => ∃ charged executed,
    executed <+: schedule.sort charged ∧ Logs charged executed state final)
  simp only [applyTxList, holds_bind]
  refine (chargeAccounts_logs _ _ state).mono ?_ ?_
  · intro charged middle logged
    refine (executeTxs_logs ledgerSeqNum (schedule.sort charged) middle).mono ?_ ?_
    · intro _ final loggedRest
      exact ⟨charged, _, List.prefix_refl _, by simpa using logged.trans loggedRest⟩
    · rintro fault final ⟨executed, isInitial, loggedRest⟩
      exact ⟨charged, executed, isInitial, by simpa using logged.trans loggedRest⟩
  · rintro fault final ⟨charged, logged⟩
    exact ⟨charged, [], List.nil_prefix, logged⟩

/-- Sorting transactions with distinct numbers for each account, and dropping
some at the end, leaves a history that climbs. -/
theorem pairwise_of_prefix_sort (ordered : charged.Pairwise LaterSeqNum)
    (isInitial : executed <+: schedule.sort charged) : executed.Pairwise LaterSeqNum := by
  have distinct : charged.Pairwise fun first second =>
      first.accountID = second.accountID → first.seqNum ≠ second.seqNum :=
    ordered.imp fun later sameAccount sameSeqNum => by
      have below := later sameAccount
      grind
  have symmetric : ∀ {first second : Tx},
      (first.accountID = second.accountID → first.seqNum ≠ second.seqNum) →
        second.accountID = first.accountID → second.seqNum ≠ first.seqNum :=
    fun apart sameAccount => (apart sameAccount.symm).symm
  have sortedDistinct :=
    ((schedule.sort_perm charged).pairwise_iff symmetric).mpr distinct
  refine List.Pairwise.sublist isInitial.sublist ?_
  refine ((schedule.sort_sorted charged).and sortedDistinct).imp ?_
  rintro first second ⟨notAbove, apart⟩ sameAccount
  grind

theorem chargedTxs_initial {state : LedgerState tm} (reaches : Reaches tm state final) :
    chargedTxs state.events <+: chargedTxs final.events := by
  obtain ⟨later, log⟩ := reaches.events_initial
  simp [chargedTxs, chargesIn, ← log]

theorem runCalls_executed (calls : List Call) {state : LedgerState tm}
    (ordered : (chargedTxs (runCalls tm calls state).events).Pairwise LaterSeqNum)
    (covered : executedIn state.events ⊆ chargedTxs state.events)
    (climbs : (executedIn state.events).Pairwise LaterSeqNum) :
    (executedIn (runCalls tm calls state).events).Pairwise LaterSeqNum := by
  induction calls generalizing state with
  | nil => exact climbs
  | cons call rest ih =>
    obtain ⟨charged, executed, isInitial, chargedLog, executedLog⟩ :=
      applyTxList_logs call.schedule call.txList call.ledgerSeqNum state
    have ordered' := List.Pairwise.sublist
      (chargedTxs_initial (runCalls_reaches tm rest _)).sublist ordered
    rw [chargedLog, List.pairwise_append] at ordered'
    have fromCharged : executed ⊆ charged := fun tx txMem =>
      (call.schedule.sort_perm charged).mem_iff.mp (isInitial.subset txMem)
    refine ih ordered ?_ ?_
    · rw [chargedLog, executedLog]
      exact List.append_subset.mpr
        ⟨fun tx txMem => List.mem_append_left _ (covered txMem),
          fun tx txMem => List.mem_append_right _ (fromCharged txMem)⟩
    · rw [executedLog, List.pairwise_append]
      refine ⟨climbs, pairwise_of_prefix_sort call.schedule ordered'.2.1 isInitial, ?_⟩
      intro tx txMem next nextMem
      exact ordered'.2.2 tx (covered txMem) next (fromCharged nextMem)

end Execution

theorem nodup_of_laterSeqNum {txs : List Tx} (ordered : txs.Pairwise LaterSeqNum) : txs.Nodup := by
  refine ordered.imp ?_
  rintro first second later rfl
  have below := later rfl
  grind

/-- Over any calls, no transaction is charged or executed twice, and the numbers of an
account climb, exactly when no charge meets the stored number itself. -/
theorem runCalls_no_replay_iff (tm : TxManager) (calls : List Call) (bucket : Bucket)
    (statuses : Finmap fun _ : String => TxStatus)
    (typed : ∀ event ∈ (runCalls tm calls ⟨bucket, statuses, []⟩).events, event.Typed) :
    ((∀ charge ∈ chargesIn (runCalls tm calls ⟨bucket, statuses, []⟩).events,
        charge.acc.seqNum < charge.after.seqNum) ∧
      (chargedTxs (runCalls tm calls ⟨bucket, statuses, []⟩).events).Pairwise LaterSeqNum ∧
      (executedIn (runCalls tm calls ⟨bucket, statuses, []⟩).events).Pairwise LaterSeqNum ∧
      (chargedTxs (runCalls tm calls ⟨bucket, statuses, []⟩).events).Nodup ∧
      (executedIn (runCalls tm calls ⟨bucket, statuses, []⟩).events).Nodup) ↔
    ∀ charge ∈ chargesIn (runCalls tm calls ⟨bucket, statuses, []⟩).events,
      charge.acc.seqNum ≠ charge.tx.seqNum := by
  constructor
  · rintro ⟨climbs, _⟩ charge chargeMem same
    have below : charge.acc.seqNum < charge.tx.seqNum := climbs charge chargeMem
    grind
  · intro advances
    have history := (runCalls_reaches tm calls ⟨bucket, statuses, []⟩).historyOrdered rfl
      typed advances
    have executed := runCalls_executed calls history.ordered (by simp [executedIn])
      (by simp [executedIn])
    refine ⟨?_, history.ordered, executed, nodup_of_laterSeqNum history.ordered,
      nodup_of_laterSeqNum executed⟩
    intro charge chargeMem
    change charge.acc.seqNum < charge.tx.seqNum
    have allowed := charge.seqNumAllowed
    grind

private def numberedPayment (seqNum : UInt64) : Tx :=
  ⟨"alice", 10, "", seqNum,
    [⟨.payment, some (.payment ⟨"bob", some ⟨.native, "", ""⟩, 5⟩)⟩]⟩

private def paidTwice (first second : UInt64) : LedgerState TxManager.plain :=
  runCalls .plain
    [⟨.insertion, [numberedPayment first], 9⟩,
      ⟨.insertion, [numberedPayment second], 10⟩]
    ⟨aliceAndBob, ∅, []⟩

theorem runCalls_no_replay_of_fresh_numbers :
    (executedIn (paidTwice 2 3).events).Nodup ∧
      executedIn (paidTwice 2 3).events = [numberedPayment 2, numberedPayment 3] := by
  have run := (runCalls_no_replay_iff .plain _ _ ∅
    (show ∀ event ∈ (paidTwice 2 3).events, event.Typed by decide +kernel)).mpr
    (show ∀ charge ∈ chargesIn (paidTwice 2 3).events,
      charge.acc.seqNum ≠ charge.tx.seqNum by decide +kernel)
  exact ⟨run.2.2.2.2, by decide +kernel⟩

/-- The same transaction, submitted again, is charged and executed again. -/
theorem runCalls_replays :
    chargedTxs (paidTwice 2 2).events = [numberedPayment 2, numberedPayment 2] ∧
      executedIn (paidTwice 2 2).events = [numberedPayment 2, numberedPayment 2] ∧
      balanceOf (paidTwice 2 2).bucket "alice" = 970 ∧
      balanceOf (paidTwice 2 2).bucket "bob" = 510 := by
  decide +kernel

end Ultiledger
