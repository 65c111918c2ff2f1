import Ultiledger.FailedCalls

/-! # When applying transactions does not panic -/

namespace Ultiledger

open AbortingProgram

variable {asset : Asset} {dt moved : Bucket} {accountID : String} {amount : Int64} {tx : Tx}

section Panics

variable {α β : Type}

def Panics (result : Except OpError α) : Prop := ∃ what, result = .error (.nilDereference what)

@[simp]
theorem not_panics_ok (value : α) : ¬ Panics (.ok value : Except OpError α) := by
  simp [Panics]

@[simp]
theorem not_panics_failed (message : String) :
    ¬ Panics (.error (.failed message) : Except OpError α) := by
  simp [Panics]

@[simp]
theorem panics_nilDereference (what : String) :
    Panics (.error (.nilDereference what) : Except OpError α) :=
  ⟨what, rfl⟩

@[simp]
theorem panics_wrapError (context : String) (result : Except OpError α) :
    Panics (wrapError context result) ↔ Panics result := by
  rcases result with (message | what) | value <;> simp [wrapError, OpError.wrap]

theorem panics_bind (first : Except OpError α) (next : α → Except OpError β) :
    Panics (first >>= next) ↔
      Panics first ∨ ∃ value, first = .ok value ∧ Panics (next value) := by
  rcases first with (message | what) | value <;> simp [bind, Except.bind]

end Panics

section Stores

variable (am : AccountManager) (bucket : Bucket) (line : Trust) (acc : Account)

@[simp]
theorem not_panics_put (record : Record) : ¬ Panics (bucket.put record) := by
  unfold Bucket.put
  split_ifs <;> simp

@[simp]
theorem not_panics_saveAccount : ¬ Panics (saveAccount bucket acc) := by
  simp [saveAccount]

@[simp]
theorem not_panics_saveTrust : ¬ Panics (saveTrust bucket line) := by
  unfold saveTrust
  split_ifs <;> simp

@[simp]
theorem not_panics_updateBalance (amount : Int64) : ¬ Panics (updateBalance acc amount) := by
  unfold updateBalance
  split_ifs <;> simp

@[simp]
theorem not_panics_updateTrustBalance (amount : Int64) :
    ¬ Panics (updateTrustBalance line amount) := by
  unfold updateTrustBalance
  split_ifs <;> simp

@[simp]
theorem not_panics_createTrust (accountID : String) (asset : Asset) (limit : Int64) :
    ¬ Panics (createTrust bucket accountID asset limit) := by
  unfold createTrust
  split_ifs <;> simp

@[simp]
theorem not_panics_createAccount (accountID : String) (balance : Int64) (signer : String)
    (seqNum : UInt64) : ¬ Panics (am.createAccount bucket accountID balance signer seqNum) := by
  unfold AccountManager.createAccount
  split_ifs <;> simp

@[simp]
theorem not_panics_validateAsset (asset : Option Asset) : ¬ Panics (validateAsset asset) := by
  cases asset with
  | none => simp [validateAsset]
  | some asset =>
    unfold validateAsset
    dsimp only
    split_ifs <;> simp

theorem panics_updateEntryCount {count : Int32} (counts : count ≠ 0) :
    Panics (am.updateEntryCount acc count) ↔ acc.liability = none := by
  unfold AccountManager.updateEntryCount
  rw [if_neg counts]
  cases acc.liability with
  | none => simp
  | some liability =>
    dsimp only
    split_ifs <;> simp

end Stores

section Operations

theorem not_panics_moveNative (onUpdate onSave : String) (dt : Bucket) (accountID : String)
    (amount : Int64) : ¬ Panics (moveNative onUpdate onSave dt accountID amount) := by
  unfold moveNative
  cases getAccount dt accountID with
  | none => simp [errAccountNotExist]
  | some acc => simp [panics_bind]

theorem panics_moveTrust (dt : Bucket) (accountID : String) (asset : Asset) (amount : Int64) :
    Panics (moveTrust dt accountID asset amount) ↔
      getAccount dt asset.issuer ≠ none ∧ getTrust dt accountID asset = none := by
  unfold moveTrust
  split_ifs with missing
  · simp [missing, errAccountNotExist]
  · cases getTrust dt accountID asset with
    | none => simp [missing]
    | some line =>
      dsimp only
      split_ifs
      · simp [errPaymentNotAuthorized]
      · simp [panics_bind]

/-- A payment reads the line of the destination once it has found both accounts, and the
line of the source once it has credited the destination. -/
def Op.Payment.Grounded (p : Op.Payment) (dt : Bucket) : Prop :=
  ∀ asset, validateAsset p.asset = .ok asset → asset.assetType ≠ .native → p.amount ≠ 0 →
    p.srcAccountID ≠ "" → p.dstAccountID ≠ "" → getAccount dt p.dstAccountID ≠ none →
    getAccount dt asset.issuer ≠ none →
      getTrust dt p.dstAccountID asset ≠ none ∧
        ((moveTrust dt p.dstAccountID asset p.amount).isOk → getTrust dt p.srcAccountID asset ≠ none)

/-- A trust operation needs the asset and the liability of the record that it changes. -/
def Op.Trust.Grounded (t : Op.Trust) (dt : Bucket) : Prop :=
  t.asset ≠ none ∧ ∀ asset ∈ t.asset, t.srcAccountID ≠ asset.issuer →
    ∀ srcAcc ∈ getAccount dt t.srcAccountID,
      (getTrust dt t.srcAccountID asset = none → t.limit ≠ 0 →
        getAccount dt asset.issuer ≠ none → srcAcc.liability ≠ none) ∧
      ∀ line ∈ getTrust dt t.srcAccountID asset,
        if t.limit = 0 then srcAcc.liability ≠ none else line.liability ≠ none

def Operation.Grounded (operation : Operation) (dt : Bucket) : Prop :=
  match operation with
  | .createAccount _ => True
  | .payment op => op.Grounded dt
  | .trust op => op.Grounded dt

variable (am : AccountManager) {credited : Bucket} (em : Exchange) {dstAccountID : String}

theorem not_panics_createAccount_apply (c : Op.CreateAccount) (dt : Bucket) :
    ¬ Panics (c.apply am dt) := by
  unfold Op.CreateAccount.apply
  cases getAccount dt c.srcAccountID with
  | none =>
    dsimp only
    split_ifs <;> simp [errAccountNotExist]
  | some srcAcc =>
    dsimp only
    split_ifs <;> simp [panics_bind]

theorem payment_apply_eq {p : Op.Payment} (dt : Bucket) (valid : validateAsset p.asset = .ok asset)
    (nonzero : p.amount ≠ 0) (named : ¬ (p.srcAccountID = "" ∨ p.dstAccountID = "")) :
    p.apply em dt = creditDst dt p.dstAccountID asset p.amount >>= fun credited =>
      debitSrc credited p.srcAccountID asset p.amount := by
  have stays : ∀ credited, exchangePath em [asset] (credited, asset, p.amount) =
      .ok (credited, asset, p.amount) := by
    simp [exchangePath]
  unfold Op.Payment.apply Op.PathPayment.apply
  rw [valid]
  simp only [wrapError, bind, Except.bind, nonzero, named, if_false, List.mapM_nil, pure,
    Except.pure, List.reverse_singleton, or_self]
  cases creditDst dt p.dstAccountID asset p.amount with
  | error error => rfl
  | ok credited =>
    dsimp only
    rw [stays]
    simp

theorem trustKey_ne {first second : String} (apart : first ≠ second) (asset : Asset) :
    trustKey first asset ≠ trustKey second asset :=
  fun same => apart (utf8_injective (List.append_cancel_right same))

section

variable (done : moveTrust dt accountID asset amount = .ok moved)

include done

theorem asset_of_moveTrust {line : Trust} (read : getTrust dt accountID asset = some line) :
    line.asset ≠ none := by
  unfold moveTrust at done
  simp only [read] at done
  split_ifs at done
  simp only [bind_eq_ok, wrapError_eq_ok] at done
  obtain ⟨updated, updates, saves⟩ := done
  intro blank
  have kept : updated.asset = none := by
    rw [eq_of_updateTrustBalance updates]
    exact blank
  simp [saveTrust, kept] at saves

theorem key_of_moveTrust {line : Trust} (read : getTrust dt accountID asset = some line) :
    (Record.trust line).key = trustKey accountID asset := by
  have present := asset_of_moveTrust done read
  unfold getTrust at read
  split_ifs at read
  · cases read
    rfl
  · obtain ⟨record, found, decoded⟩ := Option.map_eq_some_iff.mp read
    cases record with
    | account acc =>
      rw [← decoded] at present
      exact absurd rfl present
    | trust stored =>
      obtain rfl : stored = line := decoded
      exact dt.ownKey _ _ found

theorem getTrust_of_moveTrust (other : String) :
    getTrust moved other asset = none ↔ getTrust dt other asset = none := by
  obtain ⟨line, read, -, -, rfl⟩ := of_moveTrust done
  have readKey := key_of_moveTrust done read
  have key : (Record.trust { line with balance := line.balance + amount }).key =
      trustKey accountID asset := readKey
  by_cases same : other = accountID
  · subst same
    unfold getTrust at read ⊢
    split_ifs at read ⊢
    · simp
    · rw [Bucket.get_insert, if_pos key.symm]
      rw [read]
      simp
  · unfold getTrust
    split_ifs
    · rfl
    · rw [Bucket.get_insert, key, if_neg (trustKey_ne same asset)]

end

theorem getAccount_insert_ne_none (record : Record) (present : getAccount dt accountID ≠ none) :
    getAccount (dt.insert record) accountID ≠ none := by
  rw [ne_eq, getAccount_eq_none, Bucket.get_insert]
  split_ifs
  · simp
  · rwa [← getAccount_eq_none]

theorem panics_creditDst (dt : Bucket) (dstAccountID : String) (asset : Asset) (amount : Int64) :
    Panics (creditDst dt dstAccountID asset amount) ↔ asset.assetType ≠ .native ∧
      getAccount dt dstAccountID ≠ none ∧ getAccount dt asset.issuer ≠ none ∧
        getTrust dt dstAccountID asset = none := by
  unfold creditDst
  split_ifs with missing native
  · simp [missing, errAccountNotExist]
  · simp [native, not_panics_moveNative]
  · simp [missing, native, panics_moveTrust]

theorem panics_debitSrc (dt : Bucket) (srcAccountID : String) (asset : Asset) (amount : Int64) :
    Panics (debitSrc dt srcAccountID asset amount) ↔ asset.assetType ≠ .native ∧
      getAccount dt asset.issuer ≠ none ∧ getTrust dt srcAccountID asset = none := by
  unfold debitSrc
  split_ifs with native
  · simp [native, not_panics_moveNative]
  · simp [native, panics_moveTrust]

theorem creditDst_eq_ok (custom : asset.assetType ≠ .native) :
    creditDst dt dstAccountID asset amount = .ok credited ↔
      getAccount dt dstAccountID ≠ none ∧
        moveTrust dt dstAccountID asset amount = .ok credited := by
  unfold creditDst
  split_ifs with missing
  · simp [missing]
  · simp [missing]

theorem panics_debit_after_credit {srcAccountID : String} (custom : asset.assetType ≠ .native)
    (issued : getAccount dt asset.issuer ≠ none)
    (done : moveTrust dt dstAccountID asset amount = .ok credited) :
    Panics (debitSrc credited srcAccountID asset amount) ↔
      getTrust dt srcAccountID asset = none := by
  have stillIssued : getAccount credited asset.issuer ≠ none := by
    obtain ⟨line, -, -, -, rfl⟩ := of_moveTrust done
    exact getAccount_insert_ne_none _ issued
  rw [panics_debitSrc, getTrust_of_moveTrust done]
  simp [custom, stillIssued]

theorem issued_of_moveTrust (done : moveTrust dt accountID asset amount = .ok moved) :
    getAccount dt asset.issuer ≠ none := by
  intro missing
  simp [moveTrust, missing] at done

theorem payment_panics_iff (p : Op.Payment) (dt : Bucket) :
    Panics (p.apply em dt) ↔ ¬ p.Grounded dt := by
  cases valid : validateAsset p.asset with
  | error error =>
    have grounded : p.Grounded dt := fun asset other => by simp [valid] at other
    have calm : ¬ Panics (p.apply em dt) := by
      have source := not_panics_validateAsset p.asset
      rw [valid] at source
      unfold Op.Payment.apply
      rw [valid, panics_bind, panics_wrapError]
      simp [wrapError, source]
    simp [grounded, calm]
  | ok asset =>
    by_cases checked : p.amount ≠ 0 ∧ ¬ (p.srcAccountID = "" ∨ p.dstAccountID = "")
    · obtain ⟨nonzero, named⟩ := checked
      rw [payment_apply_eq em dt valid nonzero named, panics_bind, panics_creditDst]
      obtain ⟨srcNamed, dstNamed⟩ := not_or.mp named
      constructor
      · rintro (⟨custom, dstPresent, issued, noLine⟩ | ⟨credited, credit, debit⟩) grounded
        · exact (grounded asset valid custom nonzero srcNamed dstNamed dstPresent issued).1 noLine
        · have custom := ((panics_debitSrc _ _ _ _).mp debit).1
          obtain ⟨dstPresent, moved⟩ := (creditDst_eq_ok custom).mp credit
          have issued := issued_of_moveTrust moved
          refine (grounded asset valid custom nonzero srcNamed dstNamed dstPresent issued).2
            ?_ ((panics_debit_after_credit custom issued moved).mp debit)
          rw [moved]
          rfl
      · intro ungrounded
        simp only [Op.Payment.Grounded, not_forall, not_and_or, not_not] at ungrounded
        obtain ⟨other, otherValid, custom, -, -, -, dstPresent, issued, lacks⟩ := ungrounded
        cases valid.symm.trans otherValid
        rcases lacks with noLine | ⟨creditable, noLine⟩
        · exact .inl ⟨custom, dstPresent, issued, noLine⟩
        · cases moved : moveTrust dt p.dstAccountID asset p.amount with
          | error error => simp [moved, Except.isOk, Except.toBool] at creditable
          | ok credited =>
            exact .inr ⟨credited, (creditDst_eq_ok custom).mpr ⟨dstPresent, moved⟩,
              (panics_debit_after_credit custom issued moved).mpr noLine⟩
    · have grounded : p.Grounded dt := by
        intro other _ _ nonzero srcNamed dstNamed
        exact absurd ⟨nonzero, by simp [srcNamed, dstNamed]⟩ checked
      have calm : ¬ Panics (p.apply em dt) := by
        rw [not_and_or, not_not, not_not] at checked
        unfold Op.Payment.apply
        rw [valid, panics_bind]
        rcases checked with zero | unnamed
        · simp [wrapError, zero, errInvalidPaymentAmount]
        · by_cases zero : p.amount = 0
          · simp [wrapError, zero, errInvalidPaymentAmount]
          · simp [wrapError, zero, unnamed, errInvalidAccountID]
      simp [grounded, calm]

theorem trust_panics_iff (t : Op.Trust) (dt : Bucket) :
    Panics (t.apply am dt) ↔ ¬ t.Grounded dt := by
  unfold Op.Trust.apply Op.Trust.Grounded
  cases t.asset with
  | none => simp
  | some asset =>
    dsimp only
    by_cases self : t.srcAccountID = asset.issuer
    · simp [self]
    rw [if_neg self]
    cases read : getAccount dt t.srcAccountID with
    | none => simp [errAccountNotExist]
    | some srcAcc =>
      cases held : getTrust dt t.srcAccountID asset with
      | none =>
        unfold openTrust
        by_cases zero : t.limit = 0
        · simp [self, held, zero]
        · by_cases missing : getAccount dt asset.issuer = none
          · simp [self, held, zero, missing, errAccountNotExist]
          · simp [self, held, zero, missing, panics_bind, panics_updateEntryCount]
      | some line =>
        unfold modifyTrust
        by_cases zero : t.limit = 0
        · simp [self, held, zero, panics_bind, panics_updateEntryCount]
        · cases owed : line.liability with
          | none => simp [self, held, zero, owed]
          | some liability =>
            by_cases low : t.limit < line.balance + liability.buying
            · simp [self, held, zero, owed, low]
            · simp [self, held, zero, owed, low]

theorem Operation.panics_iff (operation : Operation) (dt : Bucket) :
    Panics (operation.apply am em dt) ↔ ¬ operation.Grounded dt := by
  cases operation with
  | createAccount op =>
    simp [Operation.apply, Operation.Grounded, not_panics_createAccount_apply]
  | payment op => exact payment_panics_iff em op dt
  | trust op => exact trust_panics_iff am op dt

end Operations

section Transactions

variable {tm : TxManager}

def GroundedOps (tm : TxManager) : List Operation → Bucket → Prop
  | [], _ => True
  | operation :: rest, dt => operation.Grounded dt ∧
      ∀ next, operation.apply tm.am tm.em dt = .ok next → GroundedOps tm rest next

variable {operation : Operation} {rest : List Operation}

theorem applyOps_cons_of_ok {next : Bucket} (applied : operation.apply tm.am tm.em dt = .ok next) :
    (applyOps tm (operation :: rest) dt).1 = (applyOps tm rest next).1 := by
  rw [applyOps]
  split
  · rename_i failed
    simp [applied] at failed
  · rename_i other succeeded
    cases applied.symm.trans succeeded
    rfl

theorem applyOps_cons_of_error {error : OpError}
    (applied : operation.apply tm.am tm.em dt = .error error) :
    (applyOps tm (operation :: rest) dt).1 = .error error := by
  rw [applyOps]
  split
  · rename_i other failed
    cases applied.symm.trans failed
    rfl
  · rename_i succeeded
    simp [applied] at succeeded

theorem applyOps_panics_iff (ops : List Operation) (dt : Bucket) :
    Panics (applyOps tm ops dt).1 ↔ ¬ GroundedOps tm ops dt := by
  induction ops generalizing dt with
  | nil => simp [applyOps, GroundedOps]
  | cons operation rest ih =>
    have first := operation.panics_iff tm.am tm.em dt
    cases applied : operation.apply tm.am tm.em dt with
    | error error =>
      rw [applyOps_cons_of_error applied]
      simpa [GroundedOps, applied] using first
    | ok next =>
      rw [applied] at first
      rw [applyOps_cons_of_ok applied, ih]
      have grounded : operation.Grounded dt := by simpa using first
      simp [GroundedOps, applied, grounded]

def TxOp.Fits (txOp : TxOp) : Prop :=
  match txOp.opType, txOp.op with
  | .createAccount, some (.createAccount _) => True
  | .payment, some (.payment _) => True
  | .trust, some (.trust _) => True
  | _, _ => False

theorem TxOp.fits_iff (tm : TxManager) (accountID : String) (ledgerSeqNum : UInt64) (txOp : TxOp) :
    txOp.Fits ↔ ∃ operation, getTxOp tm accountID ledgerSeqNum txOp = .ok operation := by
  obtain ⟨opType, body⟩ := txOp
  cases opType with
  | createAccount => rcases body with _ | ⟨⟨⟩⟩ <;> simp [TxOp.Fits, getTxOp]
  | payment => rcases body with _ | ⟨⟨⟩⟩ <;> simp [TxOp.Fits, getTxOp]
  | trust => rcases body with _ | ⟨⟨⟩⟩ <;> simp [TxOp.Fits, getTxOp]
  | pathPayment => simp [TxOp.Fits, getTxOp]
  | other number unknown => simp [TxOp.Fits, getTxOp]

theorem fits_iff_getTxOpList (tm : TxManager) (accountID : String) (ledgerSeqNum : UInt64)
    (opList : List TxOp) :
    (∀ txOp ∈ opList, txOp.Fits) ↔
      ∃ ops, getTxOpList tm opList accountID ledgerSeqNum = .ok ops := by
  unfold getTxOpList
  induction opList with
  | nil => simp [pure, Except.pure]
  | cons txOp rest ih =>
    rw [List.forall_mem_cons, ih, TxOp.fits_iff tm accountID ledgerSeqNum, List.mapM_cons]
    simp only [bind_eq_ok]
    constructor
    · rintro ⟨⟨operation, built⟩, others, builtOthers⟩
      exact ⟨operation :: others, operation, built, others, builtOthers, rfl⟩
    · rintro ⟨ops, operation, built, others, builtOthers, -⟩
      exact ⟨⟨operation, built⟩, others, builtOthers⟩

/-- Bodies that match their types, and the records that the operations read. -/
structure Tx.Sound (tm : TxManager) (ledgerSeqNum : UInt64) (tx : Tx) (dt : Bucket) : Prop where
  fits : ∀ txOp ∈ tx.opList, txOp.Fits
  grounded : ∀ ops, getTxOpList tm tx.opList tx.accountID ledgerSeqNum = .ok ops →
    GroundedOps tm ops dt

def Tx.Bad (tm : TxManager) (ledgerSeqNum : UInt64) (tx : Tx) (dt : Bucket) : Prop :=
  ∀ ops, getTxOpList tm tx.opList tx.accountID ledgerSeqNum = .ok ops →
    ∀ bucket, (applyOps tm ops dt).1 ≠ .ok bucket

def MarkedFailed (tm : TxManager) (statuses : Finmap fun _ : String => TxStatus) (tx : Tx) :
    Prop :=
  ∃ message, statuses.lookup (tm.txKey tx) = some ⟨.failed, message⟩

/-- Executing the transaction ends, and if the transaction is bad it is marked as
failed and leaves no trace in the accounts. -/
def Handled (tm : TxManager) (ledgerSeqNum : UInt64) (tx : Tx) (before : LedgerState tm) : Prop :=
  ∃ after, executeTx tm ledgerSeqNum tx before = .done () after ∧
    (tx.Bad tm ledgerSeqNum before.bucket →
      MarkedFailed tm after.statuses tx ∧ after.bucket = before.bucket)

theorem markedFailed_insert (statuses : Finmap fun _ : String => TxStatus) (tx : Tx)
    (message : String) : MarkedFailed tm (statuses.insert (tm.txKey tx) ⟨.failed, message⟩) tx :=
  ⟨message, Finmap.lookup_insert _⟩

theorem MarkedFailed.insert {statuses : Finmap fun _ : String => TxStatus}
    (marked : MarkedFailed tm statuses tx) (key message : String) :
    MarkedFailed tm (statuses.insert key ⟨.failed, message⟩) tx := by
  by_cases same : tm.txKey tx = key
  · subst same
    exact markedFailed_insert statuses tx message
  · obtain ⟨text, found⟩ := marked
    exact ⟨text, (Finmap.lookup_insert_of_ne _ same).trans found⟩

theorem handled_iff (ledgerSeqNum : UInt64) (tx : Tx) (before : LedgerState tm) :
    Handled tm ledgerSeqNum tx before ↔ tx.Sound tm ledgerSeqNum before.bucket := by
  cases built : getTxOpList tm tx.opList tx.accountID ledgerSeqNum with
  | error error =>
    have bad : tx.Bad tm ledgerSeqNum before.bucket := fun ops other => by simp [built] at other
    have unsound : ¬ tx.Sound tm ledgerSeqNum before.bucket := by
      intro sound
      obtain ⟨ops, other⟩ :=
        (fits_iff_getTxOpList tm tx.accountID ledgerSeqNum tx.opList).mp sound.fits
      simp [built] at other
    refine iff_of_false ?_ unsound
    rintro ⟨after, ended, handled⟩
    obtain ⟨⟨message, marked⟩, -⟩ := handled bad
    cases error with
    | failed text =>
      have confirmed : after.statuses.lookup (tm.txKey tx) = some ⟨.confirmed, ""⟩ := by
        have holds : (executeTx tm ledgerSeqNum tx).Holds before
            (fun _ final => final.statuses.lookup (tm.txKey tx) = some ⟨.confirmed, ""⟩)
            (fun _ _ => False) := by
          simp [executeTx, built, executeOps, applyOps, updateTxStatus]
        rwa [Program.holds_of_done ended] at holds
      simp [confirmed] at marked
    | nilDereference what =>
      have holds : (executeTx tm ledgerSeqNum tx).Holds before (fun _ _ => False)
          (fun _ _ => True) := by
        simp [executeTx, built]
      rwa [Program.holds_of_done ended] at holds
  | ok ops =>
    have fits := (fits_iff_getTxOpList tm tx.accountID ledgerSeqNum tx.opList).mpr ⟨ops, built⟩
    have sound_iff : tx.Sound tm ledgerSeqNum before.bucket ↔
        ¬ Panics (applyOps tm ops before.bucket).1 := by
      rw [applyOps_panics_iff, not_not]
      constructor
      · exact fun sound => sound.grounded ops built
      · intro grounded
        refine ⟨fits, fun other otherBuilt => ?_⟩
        cases built.symm.trans otherBuilt
        exact grounded
    rw [sound_iff]
    rcases result : (applyOps tm ops before.bucket).1 with (message | what) | bucket
    · refine iff_of_true ?_ (by simp)
      have holds : (executeTx tm ledgerSeqNum tx).Holds before
          (fun _ final => MarkedFailed tm final.statuses tx ∧ final.bucket = before.bucket)
          (fun _ _ => False) := by
        simp [executeTx, built, executeOps, result, updateTxStatus, markedFailed_insert]
      obtain ⟨_, after, ended, marked⟩ := holds.exists_done
      exact ⟨after, ended, fun _ => marked⟩
    · refine iff_of_false ?_ (by simp)
      rintro ⟨after, ended, -⟩
      have holds : (executeTx tm ledgerSeqNum tx).Holds before (fun _ _ => False)
          (fun _ _ => True) := by
        simp [executeTx, built, executeOps, result]
      rwa [Program.holds_of_done ended] at holds
    · refine iff_of_true ?_ (by simp)
      have good : ¬ tx.Bad tm ledgerSeqNum before.bucket :=
        fun bad => bad ops built bucket result
      have holds : (executeTx tm ledgerSeqNum tx).Holds before (fun _ _ => True)
          (fun _ _ => False) := by
        simp [executeTx, built, executeOps, result, updateTxStatus]
      obtain ⟨_, after, ended, -⟩ := holds.exists_done
      exact ⟨after, ended, fun bad => absurd bad good⟩

end Transactions

section FeePhaseMarks

variable {tm : TxManager}

theorem charged_or_rejected {txs : List Tx} (txMem : tx ∈ txs) (acc : Account) :
    (∃ charge, .inl charge ∈ (chargeTxs acc txs).2 ∧ charge.tx = tx) ∨
      ∃ message, .inr (tx, message) ∈ (chargeTxs acc txs).2 := by
  induction txs generalizing acc with
  | nil => simp at txMem
  | cons first rest ih =>
    rw [chargeTxs]
    rcases List.mem_cons.mp txMem with rfl | laterMem
    · split_ifs with old poor
      · exact .inr ⟨_, .head _⟩
      · exact .inr ⟨_, .head _⟩
      · exact .inl ⟨_, .head _, rfl⟩
    · have later : ∀ (left : Account) (head : Charge ⊕ Tx × String),
          (∃ charge, .inl charge ∈ head :: (chargeTxs left rest).2 ∧ charge.tx = tx) ∨
            ∃ message, .inr (tx, message) ∈ head :: (chargeTxs left rest).2 := by
        intro left head
        rcases ih laterMem left with ⟨charge, mem, same⟩ | ⟨message, mem⟩
        · exact .inl ⟨charge, .tail _ mem, same⟩
        · exact .inr ⟨message, .tail _ mem⟩
      split_ifs with old poor
      · exact later acc _
      · exact later acc _
      · exact later _ _

variable {results : List (Charge ⊕ Tx × String)} (sorted : List Tx)

theorem MarkedFailed.failedStatuses {statuses : Finmap fun _ : String => TxStatus}
    (marked : MarkedFailed tm statuses tx) :
    MarkedFailed tm (failedStatuses tm results statuses) tx := by
  induction results generalizing statuses with
  | nil => exact marked
  | cons result rest ih =>
    rcases result with charge | ⟨rejected, message⟩
    · exact ih marked
    · exact ih (marked.insert _ message)

theorem markedFailed_of_rejected {message : String} (rejected : .inr (tx, message) ∈ results)
    (statuses : Finmap fun _ : String => TxStatus) :
    MarkedFailed tm (failedStatuses tm results statuses) tx := by
  induction results generalizing statuses with
  | nil => simp at rejected
  | cons result rest ih =>
    rcases List.mem_cons.mp rejected with rfl | later
    · have marked : MarkedFailed tm (statuses.insert (tm.txKey tx) ⟨.failed, message⟩) tx :=
        markedFailed_insert statuses tx message
      exact marked.failedStatuses
    · rcases result with charge | ⟨other, text⟩
      · exact ih later statuses
      · exact ih later _

theorem chargeAccount_marks (accountID : String) (state : LedgerState tm) :
    (chargeAccount tm sorted accountID).Holds state
      (fun charged final =>
        (∀ tx, MarkedFailed tm state.statuses tx → MarkedFailed tm final.statuses tx) ∧
        ∀ tx ∈ ownTxs sorted accountID, tx ∈ charged ∨ MarkedFailed tm final.statuses tx)
      (fun fault _ => ∃ message, fault = .returned message) := by
  rw [chargeAccount, Program.holds_bind, Program.holds_get]
  split
  · exact ⟨_, rfl⟩
  · rename_i acc read
    simp only [Program.holds_bind]
    rw [Program.holds_of_done (rejectTxs_eq tm _ state)]
    split
    · exact ⟨_, rfl⟩
    · rename_i what failed
      exact absurd ⟨what, failed⟩ (not_panics_saveAccount _ _)
    · refine ⟨fun tx marked => marked.failedStatuses, fun tx txMem => ?_⟩
      rcases charged_or_rejected txMem acc with ⟨charge, mem, same⟩ | ⟨message, mem⟩
      · refine .inl (List.mem_map.mpr ⟨charge, ?_, same⟩)
        exact List.mem_filterMap.mpr ⟨.inl charge, mem, rfl⟩
      · exact .inr (markedFailed_of_rejected mem _)

theorem chargeAccounts_marks (accountIDs : List String) (state : LedgerState tm) :
    (chargeAccounts tm sorted accountIDs).Holds state
      (fun charged final =>
        (∀ tx, MarkedFailed tm state.statuses tx → MarkedFailed tm final.statuses tx) ∧
        ∀ tx ∈ sorted, tx.accountID ∈ accountIDs →
          tx ∈ charged ∨ MarkedFailed tm final.statuses tx)
      (fun fault _ => ∃ message, fault = .returned message) := by
  induction accountIDs generalizing state with
  | nil => exact ⟨fun _ marked => marked, fun _ _ none => by simp at none⟩
  | cons accountID rest ih =>
    rw [chargeAccounts, Program.holds_bind]
    refine (chargeAccount_marks sorted accountID state).imp ?_
    rintro charged middle ⟨keeps, marks⟩
    rw [Program.holds_bind]
    refine (ih middle).imp ?_
    rintro others final ⟨laterKeeps, laterMarks⟩
    refine ⟨fun tx marked => laterKeeps tx (keeps tx marked), fun tx txMem listed => ?_⟩
    rcases List.mem_cons.mp listed with own | later
    · have ownMem : tx ∈ ownTxs sorted accountID :=
        List.mem_filter.mpr ⟨txMem, by simpa using own⟩
      exact (marks tx ownMem).imp (List.mem_append_left _) (laterKeeps tx)
    · exact (laterMarks tx txMem later).imp_left (List.mem_append_right _)

end FeePhaseMarks

section Execution

variable {tm : TxManager}

def executions (tm : TxManager) (ledgerSeqNum : UInt64) :
    List Tx → LedgerState tm → List (Tx × LedgerState tm)
  | [], _ => []
  | tx :: rest, state => (tx, state) ::
      match executeTx tm ledgerSeqNum tx state with
      | .done _ next => executions tm ledgerSeqNum rest next
      | .abort _ _ => []

theorem executes_all {ledgerSeqNum : UInt64} {txs : List Tx} {state : LedgerState tm}
    (handled : ∀ step ∈ executions tm ledgerSeqNum txs state,
      Handled tm ledgerSeqNum step.1 step.2) :
    (executions tm ledgerSeqNum txs state).map Prod.fst = txs ∧
      ∃ final, executeTxs tm ledgerSeqNum txs state = .done () final := by
  induction txs generalizing state with
  | nil => exact ⟨rfl, state, rfl⟩
  | cons tx rest ih =>
    obtain ⟨next, ended, -⟩ := handled (tx, state) (.head _)
    have unfolded : executions tm ledgerSeqNum (tx :: rest) state =
        (tx, state) :: executions tm ledgerSeqNum rest next := by
      rw [executions, ended]
    rw [unfolded] at handled ⊢
    obtain ⟨whole, final, ends⟩ := ih fun step later =>
      handled step (.tail _ later)
    refine ⟨by rw [List.map_cons, whole], final, ?_⟩
    exact (Program.bind_of_done ended).trans ends

/-- The call returns.  Once the fees are charged, the transactions that were not charged
are marked as failed, and the others are executed, the bad ones marked as failed and
rolled back. -/
structure SurvivesBadTxs (tm : TxManager) (schedule : Schedule) (txList : List Tx)
    (ledgerSeqNum : UInt64) (state : LedgerState tm) : Prop where
  returns : ∀ what final,
    applyTxList tm schedule txList ledgerSeqNum state ≠ .abort (.panicked what) final
  rejects : ∀ charged middle,
    chargeAccounts tm (schedule.sort txList) (accountOrder schedule txList) state =
      .done charged middle →
    ∀ tx ∈ txList, tx ∉ charged → MarkedFailed tm middle.statuses tx
  executes : ∀ charged middle,
    chargeAccounts tm (schedule.sort txList) (accountOrder schedule txList) state =
      .done charged middle →
    (executions tm ledgerSeqNum (schedule.sort charged) middle).map Prod.fst =
      schedule.sort charged
  handles : ∀ charged middle,
    chargeAccounts tm (schedule.sort txList) (accountOrder schedule txList) state =
      .done charged middle →
    ∀ step ∈ executions tm ledgerSeqNum (schedule.sort charged) middle,
      Handled tm ledgerSeqNum step.1 step.2

end Execution

/-- Applying a list survives its bad transactions exactly if every executed transaction
has bodies that match their types and finds the records that it reads. -/
theorem applyTxList_survives_iff (tm : TxManager) (schedule : Schedule) (txList : List Tx)
    (ledgerSeqNum : UInt64) (state : LedgerState tm) :
    SurvivesBadTxs tm schedule txList ledgerSeqNum state ↔
      ∀ charged middle,
        chargeAccounts tm (schedule.sort txList) (accountOrder schedule txList) state =
          .done charged middle →
        ∀ step ∈ executions tm ledgerSeqNum (schedule.sort charged) middle,
          step.1.Sound tm ledgerSeqNum step.2.bucket := by
  constructor
  · intro survives charged middle ended step stepMem
    exact (handled_iff ledgerSeqNum step.1 step.2).mp
      (survives.handles charged middle ended step stepMem)
  intro sound
  have handled : ∀ charged middle,
      chargeAccounts tm (schedule.sort txList) (accountOrder schedule txList) state =
        .done charged middle →
      ∀ step ∈ executions tm ledgerSeqNum (schedule.sort charged) middle,
        Handled tm ledgerSeqNum step.1 step.2 := fun charged middle ended step stepMem =>
    (handled_iff ledgerSeqNum step.1 step.2).mpr (sound charged middle ended step stepMem)
  have promised := chargeAccounts_marks (schedule.sort txList) (accountOrder schedule txList) state
  unfold Program.Holds at promised
  refine ⟨?_, ?_, fun charged middle ended => (executes_all (handled charged middle ended)).1,
    handled⟩
  · intro what final panicked
    cases ended : chargeAccounts tm (schedule.sort txList) (accountOrder schedule txList) state with
    | abort fault last =>
      have aborts : applyTxList tm schedule txList ledgerSeqNum state = .abort fault last :=
        Program.bind_of_abort ended
      rw [ended] at promised
      obtain ⟨message, rfl⟩ := promised
      simp [aborts] at panicked
    | done charged middle =>
      obtain ⟨-, last, ends⟩ := executes_all (handled charged middle ended)
      have whole : applyTxList tm schedule txList ledgerSeqNum state = .done () last :=
        (Program.bind_of_done ended).trans ends
      simp [whole] at panicked
  · intro charged middle ended tx txMem uncharged
    rw [ended] at promised
    have listed : tx.accountID ∈ accountOrder schedule txList :=
      mem_accountOrder.mpr ⟨tx, txMem, rfl⟩
    exact (promised.2 tx ((schedule.sort_perm txList).mem_iff.mpr txMem) listed).resolve_left
      uncharged

private def gold : Asset := ⟨.custom, "GOLD", "bank"⟩

private def aliceAndBank : Bucket :=
  .ofRecords [.account ⟨"alice", 1000, "alice", 5, 0, some ⟨0, 0⟩⟩,
    .account ⟨"bank", 1000, "bank", 5, 0, some ⟨0, 0⟩⟩]

private def applyOne (txOp : TxOp) : Outcome (LedgerState TxManager.plain) Halt Unit :=
  applyTxList .plain .insertion [⟨"bank", 10, "bad", 6, [txOp]⟩] 9
    ⟨aliceAndBank, ∅, []⟩

/-- A payment without a trust line and a body of another kind than its type panic, while
an operation of an unknown type ends up confirmed. -/
theorem applyTxList_panics_on_bad_ops :
    (applyOne ⟨.payment, some (.payment ⟨"alice", some gold, 1⟩)⟩).fault =
        some (.panicked "trust") ∧
      (applyOne ⟨.payment, some (.trust ⟨some gold, 1⟩)⟩).fault = some (.panicked "payment") ∧
      (applyOne ⟨.other 9 (by decide), none⟩).state.statuses.lookup "bad" = some ⟨.confirmed, ""⟩ := by
  refine ⟨by decide +kernel, by decide +kernel⟩

end Ultiledger
