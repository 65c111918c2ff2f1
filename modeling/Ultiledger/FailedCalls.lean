import Ultiledger.ReplicatedExecution

/-! # Calls that fail on a missing account -/

namespace Ultiledger

open AbortingProgram Program

def SameAccounts (before after : Bucket) : Prop :=
  ∀ accountID, getAccount after accountID = getAccount before accountID

/-- The transactions that pass the checks of the fee phase cost nothing and carry
the sequence number that the account already has. -/
def ChargedNothing (acc : Account) (txs : List Tx) : Prop :=
  ((chargedOf acc txs).map Tx.fee).sum = 0 ∧ ∀ tx ∈ chargedOf acc txs, tx.seqNum = acc.seqNum

instance (acc : Account) (txs : List Tx) : Decidable (ChargedNothing acc txs) := by
  unfold ChargedNothing
  infer_instance

def servedIDs (bucket : Bucket) (accountIDs : List String) : List String :=
  accountIDs.takeWhile fun accountID => (getAccount bucket accountID).isSome

structure RoundEffect (acc last : Account) (charges : List Charge) : Prop where
  kept : last = { acc with balance := last.balance, seqNum := last.seqNum }
  balance : last.balance = acc.balance - ((charges.map Charge.tx).map Tx.fee).sum
  climbs : acc.seqNum ≤ last.seqNum
  between : ∀ tx ∈ charges.map Charge.tx, acc.seqNum ≤ tx.seqNum ∧ tx.seqNum ≤ last.seqNum
  reached : last.seqNum = acc.seqNum ∨ ∃ tx ∈ charges.map Charge.tx, last.seqNum = tx.seqNum

theorem roundEffect_chargeTxs (acc : Account) (txs : List Tx) :
    RoundEffect acc (chargeTxs acc txs).1
      ((chargeTxs acc txs).2.filterMap Sum.getLeft?) := by
  refine chargeTxs_induction ?_ ?_ acc
  · intro acc
    refine ⟨rfl, ?_, UInt64.le_refl _, by simp, .inl rfl⟩
    simp
  · intro charge last later _ effect
    have allowed : charge.acc.seqNum ≤ charge.tx.seqNum := UInt64.not_lt.mp charge.seqNumAllowed
    have climbs : charge.tx.seqNum ≤ last.seqNum := effect.climbs
    refine ⟨effect.kept, ?_, UInt64.le_trans allowed climbs, ?_, ?_⟩
    · have balance := effect.balance
      change last.balance = charge.acc.balance - charge.tx.fee - _ at balance
      grind
    · intro tx txMem
      rcases List.mem_cons.mp txMem with rfl | laterMem
      · exact ⟨allowed, climbs⟩
      · obtain ⟨above, below⟩ := effect.between tx laterMem
        exact ⟨UInt64.le_trans allowed above, below⟩
    · rcases effect.reached with same | ⟨tx, txMem, same⟩
      · exact .inr ⟨charge.tx, .head _, same⟩
      · exact .inr ⟨tx, .tail _ txMem, same⟩

theorem chargeTxs_eq_self_iff (acc : Account) (txs : List Tx) :
    (chargeTxs acc txs).1 = acc ↔ ChargedNothing acc txs := by
  have effect := roundEffect_chargeTxs acc txs
  constructor
  · intro same
    rw [same] at effect
    constructor
    · have balance := effect.balance
      change acc.balance = acc.balance - ((chargedOf acc txs).map Tx.fee).sum at balance
      grind
    · intro tx txMem
      obtain ⟨above, below⟩ := effect.between tx txMem
      exact UInt64.le_antisymm below above
  · rintro ⟨free, numbers⟩
    have balance : (chargeTxs acc txs).1.balance = acc.balance := by
      have taken := effect.balance
      change _ = acc.balance - ((chargedOf acc txs).map Tx.fee).sum at taken
      grind
    have seqNum : (chargeTxs acc txs).1.seqNum = acc.seqNum := by
      rcases effect.reached with same | ⟨tx, txMem, same⟩
      · exact same
      · rw [same, numbers tx txMem]
    rw [effect.kept, balance, seqNum]

section FeePhase

variable {tm : TxManager} {state : LedgerState tm}

theorem SameAccounts.trans {first second third : Bucket} (early : SameAccounts first second)
    (late : SameAccounts second third) : SameAccounts first third :=
  fun accountID => (late accountID).trans (early accountID)

theorem SameAccounts.servedIDs {first second : Bucket} (same : SameAccounts first second)
    (accountIDs : List String) :
    Ultiledger.servedIDs second accountIDs = Ultiledger.servedIDs first accountIDs := by
  unfold Ultiledger.servedIDs
  simp only [same _]

theorem servedIDs_insert {bucket : Bucket} {acc : Account}
    (present : (getAccount bucket acc.accountID).isSome) (accountIDs : List String) :
    servedIDs (bucket.insert (.account acc)) accountIDs = servedIDs bucket accountIDs := by
  unfold servedIDs
  congr 1
  funext accountID
  rw [getAccount_insert_account]
  split_ifs with same
  · rw [same, present]
    rfl
  · rfl

theorem update_failed_ne (message : String) :
    Halt.returned ("update account failed: " ++ message) ≠ .returned "account not exist" := by
  intro same
  have texts := congrArg String.toList (Halt.returned.inj same)
  simp at texts

theorem chargeAccount_of_read (sorted : List Tx) {accountID : String} {acc : Account}
    (read : getAccount state.bucket accountID = some acc) :
    (chargeAccount tm sorted accountID).Holds state
      (fun _ final => final.bucket =
        state.bucket.insert (.account (chargeTxs acc (ownTxs sorted accountID)).1))
      (fun fault _ => fault ≠ .returned "account not exist") := by
  rw [chargeAccount, holds_bind, holds_get]
  split
  · rename_i missing
    simp [read] at missing
  · rename_i other otherRead
    cases otherRead.symm.trans read
    simp only [holds_bind]
    rw [holds_of_done (rejectTxs_eq tm _ state)]
    split
    · exact update_failed_ne _
    · simp
    · rename_i bucket saved
      exact eq_of_saveAccount saved

theorem chargeAccounts_spares {sorted : List Tx} {accountIDs : List String}
    (free : ∀ accountID ∈ servedIDs state.bucket accountIDs, ∀ acc,
      getAccount state.bucket accountID = some acc →
        acc.accountID = accountID ∧ ChargedNothing acc (ownTxs sorted accountID)) :
    (chargeAccounts tm sorted accountIDs).Holds state (fun _ _ => True)
      (fun fault final => fault = .returned "account not exist" →
        SameAccounts state.bucket final.bucket) := by
  induction accountIDs generalizing state with
  | nil => trivial
  | cons accountID rest ih =>
    cases read : getAccount state.bucket accountID with
    | none =>
      unfold Holds
      rw [chargeAccounts_of_missing read]
      exact fun _ _ => rfl
    | some acc =>
      have served : servedIDs state.bucket (accountID :: rest) =
          accountID :: servedIDs state.bucket rest := by
        simp [servedIDs, read]
      rw [served] at free
      obtain ⟨own, nothing⟩ := free accountID (.head _) acc read
      rw [chargeAccounts, holds_bind]
      refine (chargeAccount_of_read sorted read).mono ?_ ?_
      · intro charged middle saved
        rw [(chargeTxs_eq_self_iff acc _).mpr nothing] at saved
        have same : SameAccounts state.bucket middle.bucket := by
          intro other
          rw [saved, getAccount_insert_account, own]
          split_ifs with isOwn
          · rw [isOwn, read]
          · rfl
        rw [holds_bind]
        refine (ih ?_).mono (fun _ _ _ => trivial) ?_
        · rw [same.servedIDs]
          intro other otherMem otherAcc otherRead
          rw [same] at otherRead
          exact free other (.tail _ otherMem) otherAcc otherRead
        · exact fun fault final late failed => same.trans (late failed)
      · exact fun fault final other failed => absurd failed other

theorem chargeAccounts_charged (sorted : List Tx) {accountIDs : List String}
    (distinct : accountIDs.Nodup)
    (typed : ∀ accountID ∈ accountIDs, state.bucket.NoTrustAt (accountKey accountID)) :
    (chargeAccounts tm sorted accountIDs).Holds state (fun _ _ => True)
      (fun fault final => fault = .returned "account not exist" → ∀ accountID,
        getAccount final.bucket accountID =
          if accountID ∈ servedIDs state.bucket accountIDs then
            (getAccount state.bucket accountID).map fun acc =>
              (chargeTxs acc (ownTxs sorted accountID)).1
          else getAccount state.bucket accountID) := by
  induction accountIDs generalizing state with
  | nil => trivial
  | cons accountID rest ih =>
    obtain ⟨notLater, distinctRest⟩ := List.nodup_cons.mp distinct
    cases read : getAccount state.bucket accountID with
    | none =>
      unfold Holds
      rw [chargeAccounts_of_missing read]
      simp [servedIDs, read]
    | some acc =>
      have own := (get_of_getAccount (typed accountID (.head _)) read).2
      have savedID : (chargeTxs acc (ownTxs sorted accountID)).1.accountID = accountID :=
        (accountID_of_chargeTxs acc _).trans own
      have served : servedIDs state.bucket (accountID :: rest) =
          accountID :: servedIDs state.bucket rest := by
        simp [servedIDs, read]
      rw [served, chargeAccounts, holds_bind]
      refine (chargeAccount_of_read sorted read).mono ?_ ?_
      · intro charged middle saved
        have sameServed : servedIDs middle.bucket rest = servedIDs state.bucket rest := by
          rw [saved]
          exact servedIDs_insert (by rw [savedID, read]; rfl) rest
        have readMiddle : ∀ other, getAccount middle.bucket other =
            if other = accountID then some (chargeTxs acc (ownTxs sorted accountID)).1
            else getAccount state.bucket other := by
          intro other
          rw [saved, getAccount_insert_account, savedID]
        have laterTyped : ∀ other ∈ rest, middle.bucket.NoTrustAt (accountKey other) := by
          intro other otherMem
          rw [saved]
          exact noTrustAt_insert_account (typed other (.tail _ otherMem))
        rw [holds_bind]
        refine (ih distinctRest laterTyped).mono (fun _ _ _ => trivial) ?_
        intro fault final late failed other
        rw [late failed other, sameServed, readMiddle]
        by_cases isOwn : other = accountID
        · have notServed : accountID ∉ servedIDs state.bucket rest :=
            fun mem => notLater (List.takeWhile_subset _ mem)
          simp [isOwn, notServed, read]
        · simp [isOwn]
      · exact fun fault final other failed => absurd failed other

def OnlyPanics (fault : Halt) (_ : LedgerState tm) : Prop := ∃ what, fault = .panicked what

theorem executeOps_onlyPanics (tx : Tx) (ops : List Operation) :
    Program.Maintains (fun _ => True) OnlyPanics (executeOps tm tx ops) := by
  intro state _
  simp only [executeOps, holds_bind, holds_get, holds_modify]
  rcases (applyOps tm ops state.bucket).1 with (message | what) | bucket
  · trivial
  · exact ⟨what, rfl⟩
  · trivial

theorem executeTx_onlyPanics (ledgerSeqNum : UInt64) (tx : Tx) :
    Program.Maintains (fun _ => True) OnlyPanics (executeTx tm ledgerSeqNum tx) := by
  apply Program.Maintains.bind
  · exact Program.Maintains.modify fun _ _ => trivial
  intro _
  rcases getTxOpList tm tx.opList tx.accountID ledgerSeqNum with (message | what) | ops
  · apply Program.Maintains.bind
    · exact Program.Maintains.modify fun _ _ => trivial
    · exact fun _ => executeOps_onlyPanics tx []
  · exact fun _ _ => ⟨what, rfl⟩
  · exact executeOps_onlyPanics tx ops

theorem executeTxs_onlyPanics (ledgerSeqNum : UInt64) (txs : List Tx) :
    Program.Maintains (fun _ => True) OnlyPanics (executeTxs tm ledgerSeqNum txs) := by
  induction txs with
  | nil => exact Program.Maintains.pure ()
  | cons tx rest ih => exact (executeTx_onlyPanics ledgerSeqNum tx).bind fun _ => ih

theorem chargeAccounts_of_failed {schedule : Schedule} {txList : List Tx}
    {ledgerSeqNum : UInt64} {state final : LedgerState tm} {message : String}
    (failed : applyTxList tm schedule txList ledgerSeqNum state =
      .abort (.returned message) final) :
    chargeAccounts tm (schedule.sort txList) (accountOrder schedule txList) state =
      .abort (.returned message) final := by
  cases ended : chargeAccounts tm (schedule.sort txList) (accountOrder schedule txList) state with
  | abort fault last =>
    have aborts : applyTxList tm schedule txList ledgerSeqNum state = .abort fault last :=
      bind_of_abort ended
    rw [aborts, Outcome.abort.injEq] at failed
    rw [failed.1, failed.2]
  | done charged middle =>
    have executed : executeTxs tm ledgerSeqNum (schedule.sort charged) middle =
        .abort (.returned message) final := (bind_of_done ended).symm.trans failed
    have panics := executeTxs_onlyPanics ledgerSeqNum (schedule.sort charged) middle trivial
    unfold Holds at panics
    rw [executed] at panics
    obtain ⟨what, same⟩ := panics
    simp at same

section Stopped

variable {schedule : Schedule} {txList : List Tx} {state final : LedgerState tm}
  (stopped : chargeAccounts tm (schedule.sort txList) (accountOrder schedule txList) state =
    .abort (.returned "account not exist") final)

include stopped

theorem sameAccounts_of_chargedNothing
    (free : ∀ accountID ∈ servedIDs state.bucket (accountOrder schedule txList), ∀ acc,
      getAccount state.bucket accountID = some acc → acc.accountID = accountID ∧
        ChargedNothing acc (ownTxs (schedule.sort txList) accountID)) :
    SameAccounts state.bucket final.bucket := by
  have spared := chargeAccounts_spares free
  rw [Holds, stopped] at spared
  exact spared rfl

theorem sameAccounts_iff_chargedNothing
    (typed : ∀ accountID ∈ accountOrder schedule txList,
      state.bucket.NoTrustAt (accountKey accountID)) :
    SameAccounts state.bucket final.bucket ↔
      ∀ accountID ∈ servedIDs state.bucket (accountOrder schedule txList), ∀ acc,
        getAccount state.bucket accountID = some acc →
          ChargedNothing acc (ownTxs (schedule.sort txList) accountID) := by
  constructor
  · intro same accountID servedMem acc read
    have charged := chargeAccounts_charged (schedule.sort txList)
      (nodup_accountOrder schedule txList) typed
    rw [Holds, stopped] at charged
    have after := charged rfl accountID
    rw [if_pos servedMem, same accountID, read, Option.map_some, Option.some.injEq] at after
    exact (chargeTxs_eq_self_iff acc _).mp after.symm
  · intro free
    apply sameAccounts_of_chargedNothing stopped
    intro accountID servedMem acc read
    have listed := List.takeWhile_subset _ servedMem
    exact ⟨(get_of_getAccount (typed accountID listed) read).2, free accountID servedMem acc read⟩

end Stopped

end FeePhase

/-- A call that fails leaves all accounts as they were if those before the missing one are
charged nothing, and only then where every account is stored as an account or not at all.
-/
theorem applyTxList_no_trace_iff (tm : TxManager) (schedule : Schedule) (txList : List Tx)
    (ledgerSeqNum : UInt64) {state final : LedgerState tm}
    (failed : applyTxList tm schedule txList ledgerSeqNum state =
      .abort (.returned "account not exist") final) :
    ((∀ accountID ∈ servedIDs state.bucket (accountOrder schedule txList), ∀ acc,
        getAccount state.bucket accountID = some acc → acc.accountID = accountID ∧
          ChargedNothing acc (ownTxs (schedule.sort txList) accountID)) →
      SameAccounts state.bucket final.bucket) ∧
    ((∀ accountID ∈ accountOrder schedule txList,
        state.bucket.NoTrustAt (accountKey accountID)) →
      (SameAccounts state.bucket final.bucket ↔
        ∀ accountID ∈ servedIDs state.bucket (accountOrder schedule txList), ∀ acc,
          getAccount state.bucket accountID = some acc →
            ChargedNothing acc (ownTxs (schedule.sort txList) accountID))) := by
  have stopped := chargeAccounts_of_failed failed
  exact ⟨sameAccounts_of_chargedNothing stopped, sameAccounts_iff_chargedNothing stopped⟩

private def onlyAlice : Bucket :=
  Bucket.empty.insert (.account ⟨"alice", 1000, "alice", 5, 0, some ⟨0, 0⟩⟩)

private def costly (accountID : String) (seqNum : UInt64) : Tx :=
  ⟨accountID, 10, accountID, seqNum, []⟩

private def closeWith (seqNum : UInt64) :
    AbortingProgram.Outcome (LedgerState .plain) Halt Unit :=
  applyTxList .plain .insertion [costly "alice" seqNum, costly "bob" 7] 9
    ⟨onlyAlice, ∅, []⟩

private theorem closeWith_fails (seqNum : UInt64)
    (stopped : (closeWith seqNum).fault = some (.returned "account not exist")) :
    closeWith seqNum = .abort (.returned "account not exist") (closeWith seqNum).state :=
  Outcome.eq_abort stopped

/-- An old transaction of alice is not charged, so the missing bob does no harm. -/
theorem applyTxList_no_trace_of_old_number : SameAccounts onlyAlice (closeWith 4).state.bucket := by
  have failed := closeWith_fails 4 (by decide +kernel)
  apply (applyTxList_no_trace_iff .plain .insertion
    [costly "alice" 4, costly "bob" 7] 9 failed).1
  have served : servedIDs onlyAlice (accountOrder .insertion
      [costly "alice" 4, costly "bob" 7]) = ["alice"] := by
    decide +kernel
  have read : getAccount onlyAlice "alice" =
      some ⟨"alice", 1000, "alice", 5, 0, some ⟨0, 0⟩⟩ := by
    decide +kernel
  intro accountID servedMem acc found
  rw [served, List.mem_singleton] at servedMem
  subst servedMem
  cases read.symm.trans found
  exact ⟨rfl, by decide +kernel⟩

/-- A new transaction of alice is charged before bob turns out to be missing, and
charged again when the call is repeated. -/
theorem applyTxList_leaves_charge :
    balanceOf onlyAlice "alice" = 1000 ∧
      (∃ final, closeWith 6 = .abort (.returned "account not exist") final ∧
        balanceOf final.bucket "alice" = 990) ∧
      balanceOf (applyTxList .plain .insertion
        [costly "alice" 6, costly "bob" 7] 9 (closeWith 6).state).state.bucket "alice" = 980 := by
  refine ⟨by decide +kernel, ⟨_, closeWith_fails 6 (by decide +kernel), ?_⟩, ?_⟩
  · decide +kernel
  · decide +kernel

end Ultiledger
