import Ultiledger.DbTx
import Ultiledger.ReplicatedExecution

/-! # Atomic transactions -/

namespace Ultiledger

open AbortingProgram BufferedWrites

section Atomic

variable (tm : TxManager) (fillOrder : DbTx.FillOrder) (ledgerSeqNum : UInt64)

def applyAtomically (bucket : Bucket) (tx : Tx) : Bucket :=
  match getTxOpList tm tx.opList tx.accountID ledgerSeqNum with
  | .error _ => bucket
  | .ok ops =>
    match ops.foldlM (fun bucket operation => operation.apply tm.am tm.em bucket) bucket with
    | .ok after => after
    | .error _ => bucket

/-- The end of a round, once the operations have led to a bucket or an error. -/
def finishTx (tx : Tx) : Except OpError Bucket → LedgerProgram tm Unit
  | .ok bucket => do
    Program.modify fun state => { state with bucket := bucket }
    updateTxStatus tm tx ⟨.confirmed, ""⟩
  | .error (.failed message) => updateTxStatus tm tx ⟨.failed, message⟩
  | .error (.nilDereference what) => Program.abort (.panicked what)

variable {tx : Tx} (txs : List Tx) (state : LedgerState tm) {ops : List Operation}

theorem txOps_of_ok (built : getTxOpList tm tx.opList tx.accountID ledgerSeqNum = .ok ops) :
    DbTx.txOps tm ledgerSeqNum tx state = .done ops state := by
  rw [DbTx.txOps, built]
  rfl

theorem txOps_of_failed {message : String}
    (built : getTxOpList tm tx.opList tx.accountID ledgerSeqNum = .error (.failed message)) :
    DbTx.txOps tm ledgerSeqNum tx state = .done []
      { state with statuses := state.statuses.insert (tm.txKey tx) ⟨.failed, message⟩ } := by
  rw [DbTx.txOps, built]
  rfl

theorem txOps_of_panic {what : String}
    (built : getTxOpList tm tx.opList tx.accountID ledgerSeqNum = .error (.nilDereference what)) :
    DbTx.txOps tm ledgerSeqNum tx state = .abort (.panicked what) state := by
  rw [DbTx.txOps, built]
  rfl

theorem executeTx_eq_of_txOps {state known : LedgerState tm}
    (built : DbTx.txOps tm ledgerSeqNum tx state = .done ops known) :
    DbTx.executeTx tm fillOrder ledgerSeqNum tx state =
      finishTx tm tx
        (ops.foldlM (fun bucket operation => operation.apply tm.am tm.em bucket) known.bucket)
        known := by
  have performs := DbTx.performs_applyOps (Session.opened known.bucket) tm.am fillOrder tm.em ops
  rw [view_opened] at performs
  rw [DbTx.executeTx, Program.bind_of_done built,
    Program.bind_of_done (rfl : Program.get known = _)]
  cases result : ops.foldlM (fun bucket operation => operation.apply tm.am tm.em bucket)
      known.bucket with
  | ok after =>
    rw [result] at performs
    obtain ⟨dt, ended, rfl⟩ := performs.exists_done
    rw [ended]
    rfl
  | error error =>
    rw [result] at performs
    obtain ⟨dt, ended, kept⟩ := performs.exists_abort
    rw [ended]
    cases error with
    | failed message =>
      change Outcome.done () _ = _
      rw [kept]
      rfl
    | nilDereference what => rfl

/-- A round that ends normally has applied all operations or none, and one that
ends the process has changed nothing. -/
theorem executeTx_atomic (tx : Tx) (state : LedgerState tm) :
    (DbTx.executeTx tm fillOrder ledgerSeqNum tx).Holds state
      (fun _ final => final.bucket = applyAtomically tm ledgerSeqNum state.bucket tx)
      (fun _ final => final.bucket = state.bucket) := by
  unfold applyAtomically
  cases built : getTxOpList tm tx.opList tx.accountID ledgerSeqNum with
  | ok ops =>
    have known := txOps_of_ok tm ledgerSeqNum state built
    rw [Program.Holds, executeTx_eq_of_txOps tm fillOrder ledgerSeqNum known]
    dsimp only
    generalize ops.foldlM (fun bucket operation => operation.apply tm.am tm.em bucket)
      state.bucket = result
    rcases result with error | after
    · cases error <;> rfl
    · rfl
  | error error =>
    cases error with
    | failed message =>
      have known := txOps_of_failed tm ledgerSeqNum state built
      rw [Program.Holds, executeTx_eq_of_txOps tm fillOrder ledgerSeqNum known]
      rfl
    | nilDereference what =>
      have known := txOps_of_panic tm ledgerSeqNum state built
      rw [Program.Holds, DbTx.executeTx, Program.bind_of_abort known]

theorem executeTxs_atomic :
    (DbTx.executeTxs tm fillOrder ledgerSeqNum txs).Holds state
      (fun _ final => final.bucket = txs.foldl (applyAtomically tm ledgerSeqNum) state.bucket)
      (fun _ _ => True) := by
  induction txs generalizing state with
  | nil => exact rfl
  | cons tx rest ih =>
    rw [DbTx.executeTxs, Program.holds_bind]
    refine (executeTx_atomic tm fillOrder ledgerSeqNum tx state).mono ?_ (fun _ _ _ => trivial)
    intro _ middle applied
    rw [List.foldl_cons, ← applied]
    exact ih middle

theorem applyOps_result (ops : List Operation) (bucket : Bucket) :
    (applyOps tm ops bucket).1 =
      ops.foldlM (fun bucket operation => operation.apply tm.am tm.em bucket) bucket := by
  induction ops generalizing bucket with
  | nil => rfl
  | cons operation rest ih =>
    rw [List.foldlM_cons]
    unfold applyOps
    split
    · rename_i error failed
      rw [failed]
      rfl
    · rename_i next succeeded
      change (applyOps tm rest next).1 = _
      rw [succeeded]
      exact ih next

theorem finishTx_agree (tx : Tx) (result : Except OpError Bucket) :
    Program.Agree SameLedger Eq (finishTx tm tx result) (finishTx tm tx result) := by
  unfold finishTx
  split
  · refine Program.Agree.seq ?_ (updateTxStatus_agree tx _)
    exact Program.Agree.modify fun _ _ same => ⟨rfl, same.2⟩
  · exact updateTxStatus_agree tx _
  · exact Program.Agree.abort _ _

theorem executeOps_eq (tx : Tx) (ops : List Operation) (state : LedgerState tm) :
    ∃ logged : LedgerState tm, SameLedger state logged ∧
      executeOps tm tx ops state =
        finishTx tm tx
          (ops.foldlM (fun bucket operation => operation.apply tm.am tm.em bucket) state.bucket)
          logged := by
  refine ⟨{ state with events :=
    state.events ++ (applyOps tm ops state.bucket).2.map .applied }, ⟨rfl, rfl⟩, ?_⟩
  rw [← applyOps_result]
  rfl

theorem executeTx_refines (tx : Tx) :
    Program.Agree SameLedger Eq (DbTx.executeTx tm fillOrder ledgerSeqNum tx)
      (executeTx tm ledgerSeqNum tx) := by
  have ends : ∀ (ops : List Operation) (known state : LedgerState tm), SameLedger known state →
      (finishTx tm tx (ops.foldlM (fun bucket operation => operation.apply tm.am tm.em bucket)
        known.bucket) known).Agree SameLedger Eq (executeOps tm tx ops state) := by
    intro ops known state same
    obtain ⟨logged, sameLogged, ended⟩ := executeOps_eq tm tx ops state
    rw [ended, same.1]
    exact finishTx_agree tm tx _ known logged (SameLedger.trans _ _ _ same sameLogged)
  intro state state' same
  cases built : getTxOpList tm tx.opList tx.accountID ledgerSeqNum with
  | ok ops =>
    have known := txOps_of_ok tm ledgerSeqNum state built
    rw [executeTx_eq_of_txOps tm fillOrder ledgerSeqNum known]
    simp only [executeTx, built]
    exact ends ops state _ same
  | error error =>
    cases error with
    | failed message =>
      have known := txOps_of_failed tm ledgerSeqNum state built
      rw [executeTx_eq_of_txOps tm fillOrder ledgerSeqNum known]
      simp only [executeTx, built]
      have marked : SameLedger
          { state with
            statuses := state.statuses.insert (tm.txKey tx) ⟨.failed, message⟩ }
          { state' with
            statuses := state'.statuses.insert (tm.txKey tx) ⟨.failed, message⟩
            events := state'.events ++ [.executed tx] } :=
        ⟨same.1, by rw [same.2]⟩
      exact ends [] _ _ marked
    | nilDereference what =>
      have known := txOps_of_panic tm ledgerSeqNum state built
      rw [DbTx.executeTx, Program.bind_of_abort known]
      simp only [executeTx, built]
      exact same

theorem executeTxs_refines :
    Program.Agree SameLedger Eq (DbTx.executeTxs tm fillOrder ledgerSeqNum txs)
      (executeTxs tm ledgerSeqNum txs) := by
  induction txs with
  | nil => exact Program.Agree.pure rfl
  | cons tx rest ih =>
    exact Program.Agree.seq (executeTx_refines tm fillOrder ledgerSeqNum tx) ih

/-- With or without the database transactions made explicit, `ApplyTxList` ends
alike and leaves the same records and statuses. -/
theorem applyTxList_refines (schedule : Schedule) (txList : List Tx) (state : LedgerState tm) :
    ledgerView (DbTx.applyTxList tm fillOrder schedule txList ledgerSeqNum state) =
      ledgerView (applyTxList tm schedule txList ledgerSeqNum state) := by
  rw [ledgerView_eq_iff]
  unfold DbTx.applyTxList applyTxList
  cases feePhase : chargeAccounts tm (schedule.sort txList)
      (schedule.order ((schedule.sort txList).map Tx.accountID).dedup) state with
  | abort halt afterFees =>
    rw [Program.bind_of_abort feePhase, Program.bind_of_abort feePhase]
    exact ⟨rfl, rfl⟩
  | done charged afterFees =>
    rw [Program.bind_of_done feePhase, Program.bind_of_done feePhase]
    exact executeTxs_refines tm fillOrder ledgerSeqNum _ afterFees afterFees ⟨rfl, rfl⟩

/-- A call that returns nil leaves the bucket of the fee phase with the charged
transactions applied in the executed order, each whole or not at all. -/
theorem applyTxList_atomic (schedule : Schedule) (txList : List Tx) (state final : LedgerState tm)
    (returned : DbTx.applyTxList tm fillOrder schedule txList ledgerSeqNum state = .done () final) :
    ∃ charged afterFees,
      chargeAccounts tm (schedule.sort txList)
        (schedule.order ((schedule.sort txList).map Tx.accountID).dedup) state =
          .done charged afterFees ∧
      final.bucket =
        (schedule.sort charged).foldl (applyAtomically tm ledgerSeqNum) afterFees.bucket := by
  unfold DbTx.applyTxList at returned
  cases feePhase : chargeAccounts tm (schedule.sort txList)
      (schedule.order ((schedule.sort txList).map Tx.accountID).dedup) state with
  | abort halt afterFees =>
    rw [Program.bind_of_abort feePhase] at returned
    simp at returned
  | done charged afterFees =>
    rw [Program.bind_of_done feePhase] at returned
    have atomic := executeTxs_atomic tm fillOrder ledgerSeqNum (schedule.sort charged) afterFees
    rw [Program.holds_of_done returned] at atomic
    exact ⟨charged, afterFees, rfl, atomic⟩

end Atomic

private def payThenTrust : Tx :=
  ⟨"alice", 10, "", 2,
    [⟨.payment, some (.payment ⟨"bob", some ⟨.native, "", ""⟩, 5⟩)⟩,
      ⟨.trust, some (.trust ⟨some ⟨.custom, "USD", "carol"⟩, 100⟩)⟩]⟩

private def payThenTrustRun : Outcome (LedgerState TxManager.plain) Halt Unit :=
  DbTx.applyTxList .plain (fun _ => Program.abort (.failed "no offers"))
    .insertion [payThenTrust] 9 ⟨aliceAndBob, ∅, []⟩

/-- The failing second operation takes the payment with it; the fee stays
charged. -/
theorem applyTxList_atomic_payThenTrust :
    (payThenTrustRun.state.bucket.get (accountKey "alice") =
        some (.account ⟨"alice", 990, "alice", 2, 0, some ⟨0, 0⟩⟩) ∧
      payThenTrustRun.state.bucket.get (accountKey "bob") =
        some (.account ⟨"bob", 500, "bob", 1, 0, some ⟨0, 0⟩⟩)) ∧
    ∃ charged afterFees,
      chargeAccounts .plain [payThenTrust] ["alice"] ⟨aliceAndBob, ∅, []⟩ =
        .done charged afterFees ∧
      payThenTrustRun.state.bucket =
        (Schedule.insertion.sort charged).foldl (applyAtomically .plain 9)
          afterFees.bucket :=
  ⟨by decide +kernel,
    applyTxList_atomic .plain (fun _ => Program.abort (.failed "no offers")) 9
      .insertion [payThenTrust] ⟨aliceAndBob, ∅, []⟩ payThenTrustRun.state
      (Outcome.eq_done (by decide +kernel))⟩

end Ultiledger
