import Ultiledger.CatchingUp
import Ultiledger.PanicFreedom

/-! # Downloaded ledgers

The checks that the goroutine makes of a downloaded ledger only write to the log.
-/

namespace Ultiledger

open AbortingProgram Program

section Accounts

variable {tm : TxManager}

/-- Under the name of each account there is that account or nothing. -/
def Bucket.Tidy (bucket : Bucket) (accountIDs : List String) : Prop :=
  ∀ accountID ∈ accountIDs,
    getAccount bucket accountID = none ∨ ∃ acc, bucket.Stores accountID acc

variable {bucket : Bucket} (ledgerSeqNum : UInt64) {accountIDs : List String}

theorem Bucket.Stores.read {accountID : String} {acc : Account}
    (stored : bucket.Stores accountID acc) : getAccount bucket accountID = some acc := by
  rw [getAccount, stored.found]
  rfl

theorem Bucket.Tidy.noTrustAt (tidy : bucket.Tidy accountIDs) :
    ∀ accountID ∈ accountIDs, bucket.NoTrustAt (accountKey accountID) := by
  intro accountID listed
  rcases tidy accountID listed with missing | ⟨acc, stored⟩
  · rw [getAccount, Option.map_eq_none_iff] at missing
    simp [Bucket.NoTrustAt, missing]
  · simp [Bucket.NoTrustAt, stored.found]

theorem chargeAccounts_of_tidy (sorted : List Tx) {state : LedgerState tm}
    (distinct : accountIDs.Nodup) (tidy : state.bucket.Tidy accountIDs) :
    (chargeAccounts tm sorted accountIDs).Holds state
      (fun _ _ => ∀ accountID ∈ accountIDs, (getAccount state.bucket accountID).isSome)
      (fun fault _ => fault = .returned "account not exist" ∧
        ¬∀ accountID ∈ accountIDs, (getAccount state.bucket accountID).isSome) := by
  induction accountIDs generalizing state with
  | nil => simp [chargeAccounts]
  | cons accountID rest ih =>
    obtain ⟨fresh, distinctRest⟩ := List.nodup_cons.mp distinct
    rcases tidy accountID (.head _) with missing | ⟨acc, stored⟩
    · unfold Holds
      rw [chargeAccounts_of_missing missing]
      simp [missing]
    · obtain ⟨events, charged⟩ := chargeAccount_of_stores sorted stored
      rw [chargeAccounts, holds_bind, holds_of_done charged, holds_bind]
      have others : ∀ other ∈ rest,
          getAccount (state.bucket.insert
            (.account (chargeTxs acc (ownTxs sorted accountID)).1)) other =
            getAccount state.bucket other := by
        intro other otherMem
        rw [getAccount_insert_account, accountID_of_chargeTxs, stored.own, if_neg]
        rintro rfl
        exact fresh otherMem
      have laterTidy : (state.bucket.insert
          (.account (chargeTxs acc (ownTxs sorted accountID)).1)).Tidy rest := by
        intro other otherMem
        rcases tidy other (.tail _ otherMem) with missing | ⟨otherAcc, otherStored⟩
        · exact .inl ((others other otherMem).trans missing)
        · refine .inr ⟨otherAcc, otherStored.insert ?_⟩
          rw [accountID_of_chargeTxs, stored.own]
          rintro rfl
          exact fresh otherMem
      refine (ih distinctRest laterTidy).mono ?_ ?_
      · intro _ _ present other otherMem
        rcases List.mem_cons.mp otherMem with rfl | later
        · rw [stored.read]
          rfl
        · rw [← others other later]
          exact present other later
      · rintro fault final ⟨message, missing⟩
        refine ⟨message, fun present => missing fun other otherMem => ?_⟩
        rw [others other otherMem]
        exact present other (.tail _ otherMem)

/-- Executing the transaction does not panic: no body is of another kind than its
type says, and the operations find the records that they read. -/
structure Tx.Harmless (tm : TxManager) (ledgerSeqNum : UInt64) (tx : Tx) (dt : Bucket) : Prop where
  readable : ∀ what,
    getTxOpList tm tx.opList tx.accountID ledgerSeqNum ≠ .error (.nilDereference what)
  grounded : ∀ ops, getTxOpList tm tx.opList tx.accountID ledgerSeqNum = .ok ops →
    GroundedOps tm ops dt

theorem executeOps_ends (tx : Tx) (ops : List Operation) (state : LedgerState tm) :
    (executeOps tm tx ops).Holds state (fun _ _ => GroundedOps tm ops state.bucket)
      (fun fault _ => (∃ what, fault = .panicked what) ∧ ¬ GroundedOps tm ops state.bucket) := by
  have panics : Panics (applyOps tm ops state.bucket).1 ↔ ¬ GroundedOps tm ops state.bucket :=
    applyOps_panics_iff ops state.bucket
  simp only [executeOps, holds_bind, holds_get, holds_modify]
  rcases result : (applyOps tm ops state.bucket).1 with (message | what) | bucket
  · rw [result] at panics
    have grounded : GroundedOps tm ops state.bucket := by simpa using panics
    exact grounded
  · rw [result] at panics
    exact ⟨⟨what, rfl⟩, panics.mp ⟨what, rfl⟩⟩
  · rw [result] at panics
    have grounded : GroundedOps tm ops state.bucket := by simpa using panics
    exact grounded

theorem executeTx_ends (tx : Tx) (state : LedgerState tm) :
    (executeTx tm ledgerSeqNum tx).Holds state
      (fun _ _ => tx.Harmless tm ledgerSeqNum state.bucket)
      (fun fault _ => (∃ what, fault = .panicked what) ∧
        ¬ tx.Harmless tm ledgerSeqNum state.bucket) := by
  rw [executeTx, holds_bind, holds_modify]
  cases built : getTxOpList tm tx.opList tx.accountID ledgerSeqNum with
  | ok ops =>
    have harmless_iff : tx.Harmless tm ledgerSeqNum state.bucket ↔
        GroundedOps tm ops state.bucket := by
      refine ⟨fun harmless => harmless.grounded ops built, fun grounded => ⟨?_, ?_⟩⟩
      · simp [built]
      · intro other otherBuilt
        cases built.symm.trans otherBuilt
        exact grounded
    rw [harmless_iff]
    exact executeOps_ends tx ops _
  | error error =>
    cases error with
    | failed message =>
      rw [holds_bind, updateTxStatus, holds_modify]
      refine (executeOps_ends tx [] _).mono ?_ ?_
      · exact fun _ _ _ => ⟨by simp [built], by simp [built]⟩
      · exact fun _ _ stopped => absurd trivial stopped.2
    | nilDereference what =>
      exact ⟨⟨what, rfl⟩, fun harmless => harmless.readable what built⟩

theorem executeTxs_ends (txs : List Tx) (state : LedgerState tm) :
    (executeTxs tm ledgerSeqNum txs).Holds state
      (fun _ _ => ∀ step ∈ executions tm ledgerSeqNum txs state,
        step.1.Harmless tm ledgerSeqNum step.2.bucket)
      (fun fault _ => (∃ what, fault = .panicked what) ∧
        ¬∀ step ∈ executions tm ledgerSeqNum txs state,
          step.1.Harmless tm ledgerSeqNum step.2.bucket) := by
  induction txs generalizing state with
  | nil => simp [executeTxs, executions]
  | cons tx rest ih =>
    have first := executeTx_ends ledgerSeqNum tx state
    rw [executeTxs, holds_bind, executions]
    cases ended : executeTx tm ledgerSeqNum tx state with
    | done value next =>
      rw [holds_of_done ended] at first ⊢
      refine (ih next).mono ?_ ?_
      · intro _ _ later
        exact List.forall_mem_cons.mpr ⟨first, later⟩
      · rintro fault final ⟨panicked, stopped⟩
        exact ⟨panicked, fun all => stopped (List.forall_mem_cons.mp all).2⟩
    | abort fault final =>
      rw [Holds, ended] at first ⊢
      exact ⟨first.1, fun all => first.2 (List.forall_mem_cons.mp all).1⟩

variable (tm)

def HarmlessList (schedule : Schedule) (txList : List Tx) (ledgerSeqNum : UInt64)
    (state : LedgerState tm) : Prop :=
  ∀ charged middle,
    chargeAccounts tm (schedule.sort txList) (accountOrder schedule txList) state =
      .done charged middle →
    ∀ step ∈ executions tm ledgerSeqNum (schedule.sort charged) middle,
      step.1.Harmless tm ledgerSeqNum step.2.bucket

def AllPresent (schedule : Schedule) (txList : List Tx) (bucket : Bucket) : Prop :=
  ∀ accountID ∈ accountOrder schedule txList, (getAccount bucket accountID).isSome

def ServedFree (schedule : Schedule) (txList : List Tx) (bucket : Bucket) : Prop :=
  ∀ accountID ∈ servedIDs bucket (accountOrder schedule txList), ∀ acc,
    getAccount bucket accountID = some acc →
      ChargedNothing acc (ownTxs (schedule.sort txList) accountID)

variable {tm}

theorem applyTxList_ends {schedule : Schedule} {txList : List Tx} {state : LedgerState tm}
    (tidy : state.bucket.Tidy (accountOrder schedule txList)) :
    (applyTxList tm schedule txList ledgerSeqNum).Holds state
      (fun _ _ => AllPresent schedule txList state.bucket ∧
        HarmlessList tm schedule txList ledgerSeqNum state)
      (fun fault final =>
        (∃ what, fault = .panicked what) ∧ AllPresent schedule txList state.bucket ∧
          ¬ HarmlessList tm schedule txList ledgerSeqNum state ∨
        fault = .returned "account not exist" ∧ ¬ AllPresent schedule txList state.bucket ∧
          (SameAccounts state.bucket final.bucket ↔
            ServedFree schedule txList state.bucket)) := by
  have feePhase := chargeAccounts_of_tidy (schedule.sort txList)
    (nodup_accountOrder schedule txList) tidy
  cases ended : chargeAccounts tm (schedule.sort txList) (accountOrder schedule txList) state with
  | abort fault final =>
    rw [Holds, ended] at feePhase
    obtain ⟨rfl, missing⟩ := feePhase
    have aborts : applyTxList tm schedule txList ledgerSeqNum state = _ := bind_of_abort ended
    rw [Holds, aborts]
    exact .inr ⟨rfl, missing, sameAccounts_iff_chargedNothing ended tidy.noTrustAt⟩
  | done charged middle =>
    rw [holds_of_done ended] at feePhase
    have executes : applyTxList tm schedule txList ledgerSeqNum state =
      executeTxs tm ledgerSeqNum (schedule.sort charged) middle := bind_of_done ended
    have harmless_iff : HarmlessList tm schedule txList ledgerSeqNum state ↔
        ∀ step ∈ executions tm ledgerSeqNum (schedule.sort charged) middle,
          step.1.Harmless tm ledgerSeqNum step.2.bucket := by
      refine ⟨fun harmless => harmless charged middle ended, fun each other last same => ?_⟩
      rw [ended] at same
      obtain ⟨rfl, rfl⟩ := same
      exact each
    rw [Holds, executes, harmless_iff]
    refine (executeTxs_ends ledgerSeqNum (schedule.sort charged) middle).mono ?_ ?_
    · exact fun _ _ each => ⟨feePhase, each⟩
    · exact fun _ _ stopped => .inl ⟨stopped.1, feePhase, stopped.2⟩

end Accounts

section Closing

variable {tm : TxManager} (ctx : LedgerContext) (moment : LedgerMoment)

def LedgerManager.Awaits (lm : LedgerManager tm) (info : CloseInfo) : Prop :=
  lm.nextLedgerHeaderSeq = info.index ∧ lm.currLedgerHeaderHash = info.txSet.prevLedgerHash

def LedgerManager.Due (lm : LedgerManager tm) (info : CloseInfo) : Prop :=
  lm.currLedgerHeader.isSome → lm.nextLedgerHeaderSeq = info.index

/-- The header and the checkpoint can be encoded, and the checkpoint is written. -/
def CanAdvance (core : LedgerCore) (header : LedgerHeader) : Prop :=
  (∃ bytes, ctx.marshalHeader header = .ok bytes ∧
    ∃ encoded, ctx.marshalCheckpoint
      (core.advance header (ctx.headerKey bytes) moment.now).checkpoint = .ok encoded) ∧
  moment.putCheckpoint = .ok ()

theorem checkpoint_advance_saveHeader (core : LedgerCore) (header : LedgerHeader) (h : String)
    (now : Nat) :
    ((core.saveHeader header).advance header h now).checkpoint =
      (core.advance header h now).checkpoint :=
  rfl

theorem saveCheckpoint_ok_iff (lm : LedgerManager tm) :
    (saveCheckpoint ctx moment).Holds lm
      (fun result _ => result = .ok () ↔
        (∃ encoded, ctx.marshalCheckpoint lm.checkpoint = .ok encoded) ∧
          moment.putCheckpoint = .ok ())
      (fun _ _ => False) := by
  rw [saveCheckpoint, holds_bind, holds_get]
  cases ctx.marshalCheckpoint lm.checkpoint with
  | error err => simp
  | ok encoded =>
    cases moment.putCheckpoint with
    | error err => simp
    | ok _ => simp [modifyCore]

theorem advanceLedger_ok_iff (seq : Nat) (prevHeaderHash txHash cv : String)
    (lm : LedgerManager tm) :
    (advanceLedger ctx moment seq prevHeaderHash txHash cv).Holds lm
      (fun result _ => result = .ok () ↔
        CanAdvance ctx moment lm.toLedgerCore (newHeader seq prevHeaderHash txHash cv))
      (fun _ _ => False) := by
  unfold advanceLedger CanAdvance
  dsimp only
  cases marshalled : ctx.marshalHeader (newHeader seq prevHeaderHash txHash cv) with
  | error err => simp
  | ok bytes =>
    have key : ctx.getLedgerHeaderKey (newHeader seq prevHeaderHash txHash cv) =
        .ok (ctx.headerKey bytes) := by
      rw [LedgerContext.getLedgerHeaderKey, marshalled]
      rfl
    rw [key]
    cases moment.putHeader with
    | error err =>
      simp only [modifyCore, holds_bind, holds_modify]
      refine (saveCheckpoint_ok_iff ctx moment _).imp ?_
      rintro (err | _) after saved
      · simpa using saved
      · simpa using saved
    | ok _ =>
      simp only [modifyCore, holds_bind, holds_modify]
      refine (saveCheckpoint_ok_iff ctx moment _).imp ?_
      rintro (err | _) after saved
      · simpa [checkpoint_advance_saveHeader] using saved
      · simpa [checkpoint_advance_saveHeader] using saved

/-- The info was closed as the next ledger, or headers, hashes and accounts are as they
were. -/
def Digested (info : CloseInfo) (lm after : LedgerManager tm) : Prop :=
  lm.Awaits info ∧ after.closed = lm.closed ++ [info] ∧
      after.nextLedgerHeaderSeq = info.index + 1 ∨
    after.toLedgerCore = lm.toLedgerCore ∧
      SameAccounts lm.accounts.bucket after.accounts.bucket

def Closable (info : CloseInfo) (txsetHash : String) (lm : LedgerManager tm) : Prop :=
  HarmlessList tm moment.schedule info.txSet.txList (UInt64.ofNat lm.nextLedgerHeaderSeq)
      lm.accounts ∧
    CanAdvance ctx moment lm.toLedgerCore
      (newHeader info.index info.txSet.prevLedgerHash txsetHash info.value)

structure HarmlessInfo (info : CloseInfo) (txsetHash : String) (lm : LedgerManager tm) : Prop where
  hashKnown : lm.currLedgerHeaderHash ≠ ""
  linked : lm.currLedgerHeader.isSome → lm.nextLedgerHeaderSeq = info.index →
    lm.currLedgerHeaderHash = info.txSet.prevLedgerHash
  closes : lm.Due info → AllPresent moment.schedule info.txSet.txList lm.accounts.bucket →
    lm.Awaits info ∧ Closable ctx moment info txsetHash lm
  spares : lm.Due info → ¬ AllPresent moment.schedule info.txSet.txList lm.accounts.bucket →
    ServedFree moment.schedule info.txSet.txList lm.accounts.bucket

def CloseVerdict (info : CloseInfo) (txsetHash : String) (lm : LedgerManager tm) :
    Except String Unit → LedgerManager tm → Prop
  | .ok _, _ => AllPresent moment.schedule info.txSet.txList lm.accounts.bucket ∧
      Closable ctx moment info txsetHash lm
  | .error _, after => ¬ AllPresent moment.schedule info.txSet.txList lm.accounts.bucket ∧
      after.toLedgerCore = lm.toLedgerCore ∧
      (SameAccounts lm.accounts.bucket after.accounts.bucket ↔
        ServedFree moment.schedule info.txSet.txList lm.accounts.bucket)

variable {moment}

variable {info : CloseInfo} (txsetHash : String)

theorem closeChecked_verdict {lm : LedgerManager tm}
    (tidy : lm.accounts.bucket.Tidy (accountOrder moment.schedule info.txSet.txList)) :
    (closeChecked ctx moment info txsetHash).Holds lm
      (CloseVerdict ctx moment info txsetHash lm)
      (fun _ _ => AllPresent moment.schedule info.txSet.txList lm.accounts.bucket ∧
        ¬ Closable ctx moment info txsetHash lm) := by
  have ends := applyTxList_ends (UInt64.ofNat lm.nextLedgerHeaderSeq) tidy
  rw [closeChecked, holds_bind, holds_get, holds_bind]
  cases applied : applyTxList tm moment.schedule info.txSet.txList
      (UInt64.ofNat lm.nextLedgerHeaderSeq) lm.accounts with
  | done _ accounts =>
    rw [holds_of_done applied] at ends
    obtain ⟨present, harmless⟩ := ends
    have listApplied : applyToAccounts moment info.txSet.txList lm.nextLedgerHeaderSeq lm =
        .done (.ok ()) { lm with accounts := accounts } := by
      rw [applyToAccounts, applied]
    rw [holds_of_done listApplied, holds_bind]
    refine (advanceLedger_ok_iff ctx moment _ _ _ _ _).mono ?_ (fun _ _ absurd => absurd.elim)
    rintro (err | _) after advanced
    · exact ⟨present, fun closable => by simpa using advanced.mpr closable.2⟩
    · exact ⟨present, harmless, advanced.mp rfl⟩
  | abort fault accounts =>
    rw [Holds, applied] at ends
    rcases ends with ⟨⟨what, rfl⟩, present, panics⟩ | ⟨rfl, missing, spared⟩
    · have listStopped : applyToAccounts moment info.txSet.txList lm.nextLedgerHeaderSeq lm =
          .abort (.nilDereference what) { lm with accounts := accounts } := by
        rw [applyToAccounts, applied]
      rw [Holds, listStopped]
      exact ⟨present, fun closable => panics closable.1⟩
    · have listRefused : applyToAccounts moment info.txSet.txList lm.nextLedgerHeaderSeq lm =
          .done (.error "account not exist") { lm with accounts := accounts } := by
        rw [applyToAccounts, applied]
      rw [holds_of_done listRefused]
      exact ⟨missing, rfl, spared⟩

theorem closeChecked_digests_iff {lm : LedgerManager tm}
    (tidy : lm.accounts.bucket.Tidy (accountOrder moment.schedule info.txSet.txList))
    (due : lm.Due info) :
    (closeChecked ctx moment info txsetHash).Holds lm (fun _ => Digested info lm)
      (fun _ _ => False) ↔
    (AllPresent moment.schedule info.txSet.txList lm.accounts.bucket →
      lm.Awaits info ∧ Closable ctx moment info txsetHash lm) ∧
    (¬ AllPresent moment.schedule info.txSet.txList lm.accounts.bucket →
      ServedFree moment.schedule info.txSet.txList lm.accounts.bucket) := by
  have verdict := closeChecked_verdict ctx txsetHash tidy
  have effect : (closeChecked ctx moment info txsetHash).Holds lm (CloseEffect info lm)
      (fun _ _ => True) := by
    refine (closeChecked_holds info (Eq.refl txsetHash) lm).imp ?_
    exact fun _ _ both => both.2.effect fun _ _ present => (due present).symm
  cases ended : closeChecked ctx moment info txsetHash lm with
  | abort fault after =>
    rw [Holds, ended] at verdict ⊢
    refine iff_of_false id fun condition => verdict.2 (condition.1 verdict.1).2
  | done result after =>
    rw [holds_of_done ended] at verdict effect ⊢
    cases result with
    | ok _ =>
      obtain ⟨-, closed, -, next⟩ := effect
      obtain ⟨present, closable⟩ := verdict
      constructor
      · rintro (⟨awaits, -⟩ | ⟨same, -⟩)
        · exact ⟨fun _ => ⟨awaits, closable⟩, fun missing => absurd present missing⟩
        · rw [same] at closed
          simp at closed
      · exact fun condition => .inl ⟨(condition.1 present).1, closed, next⟩
    | error err =>
      obtain ⟨missing, same, spared⟩ := verdict
      constructor
      · rintro (⟨-, closed, -⟩ | ⟨-, accounts⟩)
        · rw [same] at closed
          simp at closed
        · exact ⟨fun present => absurd present missing, fun _ => spared.mp accounts⟩
      · exact fun condition => .inr ⟨same, spared.mpr (condition.2 missing)⟩

end Closing

/-- A delivered info whose hashes agree is closed as the next ledger, or leaves
everything as it is, if and only if it is harmless. -/
theorem catchUp_digests_iff {tm : TxManager} (ctx : LedgerContext) (moment : LedgerMoment)
    (lm : LedgerManager tm) (info : CloseInfo) {txsetHash : String} {cv : ConsensusValue}
    (received : lm.catchUp = .received info) (hashed : ctx.getTxSetKey info.txSet = .ok txsetHash)
    (decoded : ctx.closeValue info.value = .ok cv) (agrees : cv.txSetHash = txsetHash)
    (tidy : lm.accounts.bucket.Tidy (accountOrder moment.schedule info.txSet.txList)) :
    (catchUpStep ctx moment).Holds lm (fun _ => Digested info lm) (fun _ _ => False) ↔
      HarmlessInfo ctx moment info txsetHash lm := by
  have steps : (catchUpStep ctx moment).Holds lm (fun _ => Digested info lm) (fun _ _ => False) ↔
      lm.currLedgerHeaderHash ≠ "" ∧
        (closeLedger ctx moment info).Holds lm (fun _ => Digested info lm) (fun _ _ => False) := by
    rw [catchUpStep, holds_bind, holds_get, received]
    rw [holds_bind, currHeaderHash, holds_bind, holds_get]
    split
    · rename_i empty
      simp [empty]
    · rename_i known
      rw [holds_pure, holds_bind]
      exact (and_iff_right known).symm
  rw [steps, closeLedger, holds_bind, holds_get, hashed, decoded]
  dsimp only
  rw [if_neg (not_not.mpr agrees)]
  have due_iff : lm.Due info ↔
      ¬(lm.currLedgerHeader.isSome ∧ lm.nextLedgerHeaderSeq ≠ info.index) := by
    simp [LedgerManager.Due]
  split
  · rename_i refused
    have early : ¬ lm.Due info := fun due => due_iff.mp due refused
    constructor
    · rintro ⟨known, -⟩
      exact ⟨known, fun _ next => absurd next refused.2, fun due => absurd due early,
        fun due => absurd due early⟩
    · exact fun harmless => ⟨harmless.hashKnown, .inr ⟨rfl, fun _ => rfl⟩⟩
  · rename_i passes
    have due := due_iff.mpr passes
    split
    · rename_i other
      refine iff_of_false (fun digests => digests.2) fun harmless => ?_
      exact other.2 (harmless.linked other.1 (due other.1))
    · rename_i same
      rw [closeChecked_digests_iff ctx txsetHash tidy due]
      constructor
      · rintro ⟨known, closes, spares⟩
        exact ⟨known, fun present _ => by_contra fun differs => same ⟨present, differs⟩,
          fun _ => closes, fun _ => spares⟩
      · exact fun harmless =>
          ⟨harmless.hashKnown, harmless.closes due, harmless.spares due⟩

def downloaded (info : CloseInfo) : LedgerManager TxManager.plain :=
  { oneLedger with
    catchUp := .received info
    accounts := ⟨Bucket.empty.insert (.account ⟨"alice", 1000, "alice", 5, 0, some ⟨0, 0⟩⟩), ∅, []⟩ }

def aliceCharged : CloseInfo :=
  { infoAt 2 with txSet := ⟨"header [1]", [⟨"alice", 10, "first", 6, []⟩]⟩ }

/-- A ledger with one transaction, for which alice is charged. -/
theorem catchUp_digests_second :
    ∃ after, catchUpStep numberedHeaders goodMoment (downloaded aliceCharged) = .done () after ∧
      Digested aliceCharged (downloaded aliceCharged) after ∧
      (getAccount after.accounts.bucket "alice").map (·.balance) = some 990 := by
  have order : accountOrder goodMoment.schedule aliceCharged.txSet.txList = ["alice"] := by
    decide +kernel
  have stored : (downloaded aliceCharged).accounts.bucket.Stores "alice"
      ⟨"alice", 1000, "alice", 5, 0, some ⟨0, 0⟩⟩ :=
    ⟨by decide +kernel, by decide +kernel, by decide +kernel⟩
  have harmless : HarmlessInfo numberedHeaders goodMoment aliceCharged "txs"
      (downloaded aliceCharged) := by
    refine ⟨by decide +kernel, fun _ _ => by decide +kernel, fun _ _ => ⟨?_, ?_, ?_⟩, ?_⟩
    · constructor <;> decide +kernel
    · intro charged middle ended
      rw [order] at ended
      have only : charged = aliceCharged.txSet.txList := (Outcome.done.inj ended).1.symm
      have alone : goodMoment.schedule.sort aliceCharged.txSet.txList =
          aliceCharged.txSet.txList := by decide +kernel
      rw [only, alone]
      intro step member
      rcases List.mem_cons.mp member with rfl | later
      · refine ⟨fun what built => ?_, fun ops built => ?_⟩
        · cases built
        · cases built
          trivial
      · split at later <;> simp [executions] at later
    · exact ⟨⟨_, rfl, _, rfl⟩, rfl⟩
    · intro _ missing
      refine absurd (fun accountID listed => ?_) missing
      rw [order] at listed
      obtain rfl := List.mem_singleton.mp listed
      rw [stored.read]
      rfl
  have tidy : (downloaded aliceCharged).accounts.bucket.Tidy
      (accountOrder goodMoment.schedule aliceCharged.txSet.txList) := by
    rw [order]
    intro accountID listed
    obtain rfl := List.mem_singleton.mp listed
    exact .inr ⟨_, stored⟩
  obtain ⟨_, after, ended, digested⟩ := ((catchUp_digests_iff numberedHeaders goodMoment
    (downloaded aliceCharged) aliceCharged rfl rfl rfl rfl tidy).mpr harmless).exists_done
  have charged : (getAccount (catchUpStep numberedHeaders goodMoment
      (downloaded aliceCharged)).state.accounts.bucket "alice").map (·.balance) = some 990 := by
    decide +kernel
  rw [ended] at charged
  exact ⟨after, ended, digested, charged⟩

def otherBranch : CloseInfo := { infoAt 2 with txSet := ⟨"header [7]", []⟩ }

def halfCharged : CloseInfo :=
  { infoAt 2 with
    txSet := ⟨"header [1]", [⟨"alice", 10, "first", 6, []⟩, ⟨"bob", 10, "second", 7, []⟩]⟩ }

/-- The first info ends the process; the second one is not closed, but charges alice.
The hashes of both agree. -/
theorem catchUp_undigested :
    (∀ info ∈ [otherBranch, halfCharged], numberedHeaders.getTxSetKey info.txSet = .ok "txs" ∧
        (numberedHeaders.closeValue info.value).map ConsensusValue.txSetHash = .ok "txs") ∧
      (catchUpStep numberedHeaders goodMoment (downloaded otherBranch)).fault =
        some (.fatal "ledger tx header hash mismatch") ∧
      (catchUpStep numberedHeaders goodMoment (downloaded halfCharged)).isDone = true ∧
      (catchUpStep numberedHeaders goodMoment (downloaded halfCharged)).state.closed = [] ∧
      balanceOf (downloaded halfCharged).accounts.bucket "alice" = 1000 ∧
      balanceOf (catchUpStep numberedHeaders goodMoment
        (downloaded halfCharged)).state.accounts.bucket "alice" = 990 := by
  refine ⟨?_, by decide +kernel⟩
  exact fun _ _ => ⟨rfl, rfl⟩

end Ultiledger
