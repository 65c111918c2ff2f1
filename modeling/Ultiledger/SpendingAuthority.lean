import Ultiledger.TypedAccess

/-! # Spending authority -/

namespace Ultiledger

open MachineIntegers AbortingProgram

variable {asset : Asset} {before after : Bucket} {operation : Operation} {am : AccountManager}
  {em : Exchange} {ops : List Operation}

namespace Record

def owner : Record → String
  | .account acc => acc.accountID
  | .trust line => line.accountID

def NoMoreThan : Record → Record → Prop
  | .account acc, .account later =>
    acc.accountID = later.accountID ∧ acc.balance.toInt ≤ later.balance.toInt
  | .trust line, .trust later =>
    line.accountID = later.accountID ∧ line.asset = later.asset ∧
      line.balance.toInt ≤ later.balance.toInt
  | _, _ => False

def IsLineOf (accountID : String) (asset : Asset) : Record → Prop
  | .account _ => False
  | .trust line => line.accountID = accountID ∧ line.asset = some asset

instance (accountID : String) (asset : Asset) (record : Record) :
    Decidable (record.IsLineOf accountID asset) := by
  cases record <;> unfold IsLineOf <;> infer_instance

theorem NoMoreThan.refl (record : Record) : record.NoMoreThan record := by
  cases record <;> simp [NoMoreThan]

theorem NoMoreThan.trans {first second third : Record} (firstLess : first.NoMoreThan second)
    (secondLess : second.NoMoreThan third) : first.NoMoreThan third := by
  cases first <;> cases second <;> cases third <;> simp only [NoMoreThan] at *
  · exact ⟨firstLess.1.trans secondLess.1, le_trans firstLess.2 secondLess.2⟩
  · exact ⟨firstLess.1.trans secondLess.1, firstLess.2.1.trans secondLess.2.1,
      le_trans firstLess.2.2 secondLess.2.2⟩

theorem NoMoreThan.owner {first second : Record} (less : first.NoMoreThan second) :
    first.owner = second.owner := by
  cases first <;> cases second <;> simp_all [NoMoreThan, Record.owner]

end Record

/-- Nothing stored under the key of the trust line is anything else. -/
def Bucket.OnlyLineAt (bucket : Bucket) (accountID : String) (asset : Asset) : Prop :=
  ∀ record ∈ bucket.get (trustKey accountID asset), record.IsLineOf accountID asset

instance (bucket : Bucket) (accountID : String) (asset : Asset) :
    Decidable (bucket.OnlyLineAt accountID asset) := by
  unfold Bucket.OnlyLineAt
  infer_instance

variable {bucket : Bucket} {accountID : String}

theorem Bucket.OnlyLineAt.noAccountAt
    (only : bucket.OnlyLineAt accountID asset) : bucket.NoAccountAt (trustKey accountID asset) :=
  fun acc found => only (.account acc) found

/-- No record of another account is lost or has its balance lowered. -/
def SparesOthers (accountID : String) (before after : Bucket) : Prop :=
  ∀ key record, before.get key = some record → record.owner ≠ accountID →
    ∃ later, after.get key = some later ∧ record.NoMoreThan later

instance (record : Record) : DecidablePred record.NoMoreThan := fun later => by
  cases record <;> cases later <;> unfold Record.NoMoreThan <;> infer_instance

instance (accountID : String) (before after : Bucket) :
    Decidable (SparesOthers accountID before after) :=
  inferInstanceAs (Decidable (∀ key record, before.get key = some record →
    record.owner ≠ accountID → ∃ later ∈ after.get key, record.NoMoreThan later))

namespace SparesOthers

variable {accountID : String} {first bucket : Bucket} {written : Record}

theorem refl (accountID : String) (bucket : Bucket) : SparesOthers accountID bucket bucket :=
  fun _ record found _ => ⟨record, found, Record.NoMoreThan.refl record⟩

theorem trans {last : Bucket} (spares : SparesOthers accountID first bucket)
    (sparesLast : SparesOthers accountID bucket last) : SparesOthers accountID first last := by
  intro key record found apart
  obtain ⟨middle, middleFound, firstLess⟩ := spares key record found apart
  obtain ⟨later, laterFound, secondLess⟩ :=
    sparesLast key middle middleFound (firstLess.owner ▸ apart)
  exact ⟨later, laterFound, firstLess.trans secondLess⟩

theorem insert_iff :
    SparesOthers accountID bucket (bucket.insert written) ↔
      ∀ stored ∈ bucket.get written.key, stored.owner ≠ accountID →
        stored.NoMoreThan written := by
  constructor
  · intro spares stored found apart
    obtain ⟨later, laterFound, less⟩ := spares written.key stored found apart
    rw [Bucket.get_insert, if_pos rfl] at laterFound
    exact Option.some.inj laterFound ▸ less
  · intro notLowered key record found apart
    rw [Bucket.get_insert]
    split_ifs with here
    · exact ⟨written, rfl, notLowered record (here ▸ found) apart⟩
    · exact ⟨record, found, Record.NoMoreThan.refl record⟩

/-- Writing a record of the account over nothing or over another of its records
changes nothing for the others. -/
theorem insert_own_iff (own : written.owner = accountID)
    (overOwn : ∀ stored ∈ bucket.get written.key, stored.owner = accountID) :
    SparesOthers accountID first (bucket.insert written) ↔
      SparesOthers accountID first bucket := by
  constructor
  · intro spares key record found apart
    obtain ⟨later, laterFound, less⟩ := spares key record found apart
    rw [Bucket.get_insert] at laterFound
    split_ifs at laterFound
    · cases laterFound
      exact absurd (less.owner.trans own) apart
    · exact ⟨later, laterFound, less⟩
  · intro spares
    refine spares.trans (insert_iff.mpr ?_)
    intro stored found apart
    exact absurd (overOwn stored found) apart

theorem delete_own {key : List UInt8}
    (overOwn : ∀ stored ∈ bucket.get key, stored.owner = accountID) :
    SparesOthers accountID bucket (bucket.delete key) := by
  intro other record found apart
  rw [Bucket.get_delete]
  split_ifs with here
  · exact absurd (overOwn record (here ▸ found)) apart
  · exact ⟨record, found, Record.NoMoreThan.refl record⟩

end SparesOthers

/-- The records an operation finds are the ones it looks for: accounts and trust
lines share a bucket, and their keys may coincide. -/
def Operation.FindsOwn (before : Bucket) : Operation → Prop
  | .createAccount c => before.NoTrustAt (accountKey c.srcAccountID)
  | .payment p => ∀ asset ∈ p.asset,
      if asset.assetType = .native then
        before.NoTrustAt (accountKey p.dstAccountID) ∧
          before.NoTrustAt (accountKey p.srcAccountID)
      else
        before.OnlyLineAt p.dstAccountID asset ∧ before.OnlyLineAt p.srcAccountID asset
  | .trust t => ∀ asset ∈ t.asset,
      before.NoTrustAt (accountKey t.srcAccountID) ∧
        before.OnlyLineAt t.srcAccountID asset

instance (before : Bucket) : (operation : Operation) → Decidable (operation.FindsOwn before)
  | .createAccount _ | .payment _ | .trust _ => by unfold Operation.FindsOwn; infer_instance

theorem Operation.FindsOwn.typed (findsOwn : operation.FindsOwn before) :
    operation.Typed before := by
  cases operation with
  | createAccount c => exact findsOwn
  | payment p =>
    intro asset given
    have found := findsOwn asset given
    split_ifs at found ⊢
    · exact found
    · exact ⟨found.1.noAccountAt, found.2.noAccountAt⟩
  | trust t =>
    intro asset given
    have found := findsOwn asset given
    exact ⟨found.1, found.2.noAccountAt⟩

def RaisedBy (balance amount : Int64) : Prop :=
  (0 < amount.toInt ∧ balance.toInt + amount.toInt ≤ maxInt64) ∨
    (amount.toInt < 0 ∧ balance.toInt + amount.toInt < minInt64)

instance (balance amount : Int64) : Decidable (RaisedBy balance amount) := by
  unfold RaisedBy
  infer_instance

theorem le_add_iff_raisedBy {balance amount : Int64} (nonzero : amount.toInt ≠ 0) :
    balance.toInt ≤ (balance + amount).toInt ↔ RaisedBy balance amount := by
  have balanceAbove := minInt64_le balance
  have balanceBelow := le_maxInt64 balance
  have amountAbove := minInt64_le amount
  have amountBelow := le_maxInt64 amount
  unfold RaisedBy
  rcases lt_or_ge (balance.toInt + amount.toInt) minInt64 with under | notUnder
  · rw [toInt_add_of_below under]
    unfold minInt64 maxInt64 at *
    omega
  · rcases lt_or_ge maxInt64 (balance.toInt + amount.toInt) with above | fits
    · rw [toInt_add_of_above above]
      unfold minInt64 maxInt64 at *
      omega
    · rw [toInt_add_of_fits notUnder fits]
      omega

def storedLine (bucket : Bucket) (accountID : String) (asset : Asset) : Option Int64 :=
  match bucket.get (trustKey accountID asset) with
  | some (.trust line) => some line.balance
  | _ => none

def Operation.TakesFromSource (before : Bucket) : Operation → Prop
  | .createAccount _ => True
  | .payment p => p.srcAccountID = p.dstAccountID ∨ ∀ asset ∈ p.asset,
      if asset.assetType = .native then
        RaisedBy (balanceOf before p.dstAccountID) p.amount
      else if p.dstAccountID = asset.issuer then
        ∀ balance ∈ storedLine before p.dstAccountID asset,
          balance.toInt ≤ maxInt64 + p.amount.toInt - if 0 < p.amount.toInt then 2 ^ 64 else 0
      else
        ∀ balance ∈ storedLine before p.dstAccountID asset, RaisedBy balance p.amount
  | .trust _ => True

instance (before : Bucket) : (operation : Operation) → Decidable (operation.TakesFromSource before)
  | .createAccount _ | .payment _ | .trust _ => by
    letI stored (line : Option Int64) (holds : Int64 → Prop) [DecidablePred holds] :
        Decidable (∀ balance ∈ line, holds balance) :=
      Option.decidableForallMem line
    unfold Operation.TakesFromSource
    infer_instance

theorem trustKey_inj {first second : String} (same : trustKey first asset = trustKey second asset) :
    first = second :=
  utf8_injective (List.append_cancel_right same)

theorem createAccount_sparesOthers {c : Op.CreateAccount}
    (findsOwn : (Operation.createAccount c).FindsOwn before)
    (done : c.apply am before = .ok after) : SparesOthers c.srcAccountID before after := by
  obtain ⟨srcAcc, apart, fresh, read, _, rfl⟩ := of_createAccount done
  obtain ⟨found, own⟩ := get_of_getAccount findsOwn read
  have debited : SparesOthers c.srcAccountID before
      (before.insert (.account { srcAcc with balance := srcAcc.balance - c.balance })) := by
    refine (SparesOthers.insert_own_iff ?_ ?_).mpr (.refl _ _)
    · exact own
    · intro stored storedFound
      rw [Record.key_account, own, found] at storedFound
      exact Option.some.inj storedFound ▸ own
  refine debited.trans (SparesOthers.insert_iff.mpr ?_)
  intro stored storedFound
  rw [Bucket.get_insert, Record.key_account, Record.key_account,
    if_neg (accountKey_ne (own ▸ apart.symm)), getAccount_eq_none.mp fresh] at storedFound
  simp at storedFound

theorem trust_sparesOthers {t : Op.Trust} (findsOwn : (Operation.trust t).FindsOwn before)
    (done : t.apply am before = .ok after) : SparesOthers t.srcAccountID before after := by
  obtain ⟨asset, srcAcc, given, found, own, _, effect⟩ := of_typed_trust findsOwn.typed done
  have ownAccount : ∀ stored ∈ before.get (accountKey t.srcAccountID),
      stored.owner = t.srcAccountID := by
    intro stored storedFound
    rw [found] at storedFound
    exact Option.some.inj storedFound ▸ own
  have ownLine : ∀ stored ∈ before.get (trustKey t.srcAccountID asset),
      stored.owner = t.srcAccountID := by
    intro stored storedFound
    have isLine := (findsOwn asset given).2 stored storedFound
    cases stored with
    | account acc => exact isLine.elim
    | trust line => exact isLine.1
  rcases effect with ⟨entries, rfl⟩ | ⟨entries, rfl⟩ | ⟨line, lineKey, lineFound, rfl⟩
  · have counted : SparesOthers t.srcAccountID before
        (before.insert (.account { srcAcc with entryCount := entries })) := by
      refine (SparesOthers.insert_own_iff ?_ ?_).mpr (.refl _ _)
      · exact own
      · rw [own]
        exact ownAccount
    refine (SparesOthers.insert_own_iff ?_ ?_).mpr counted
    · rfl
    · intro stored storedFound
      rw [Bucket.get_insert] at storedFound
      split_ifs at storedFound
      · exact Option.some.inj storedFound ▸ own
      · exact ownLine stored storedFound
  · refine (SparesOthers.insert_own_iff ?_ ?_).mpr (SparesOthers.delete_own ownLine)
    · exact own
    · intro stored storedFound
      rw [Bucket.get_delete, own] at storedFound
      split_ifs at storedFound
      · simp at storedFound
      · exact ownAccount stored storedFound
  · refine (SparesOthers.insert_own_iff ?_ ?_).mpr (.refl _ _)
    · exact ownLine (.trust line) lineFound
    · change ∀ stored ∈ before.get (Record.trust line).key, _
      rw [lineKey]
      exact ownLine

theorem native_payment_sparesOthers_iff {p : Op.Payment} (given : p.asset = some asset)
    (native : asset.assetType = .native) (findsOwn : (Operation.payment p).FindsOwn before)
    (done : p.apply em before = .ok after) :
    SparesOthers p.srcAccountID before after ↔
      (Operation.payment p).TakesFromSource before := by
  obtain ⟨dstAcc, srcAcc, dstFound, dstOwn, srcFound, srcOwn, _, _, nonzero, rfl⟩ :=
    of_native_payment given native findsOwn.typed done
  have receiver : balanceOf before p.dstAccountID = dstAcc.balance := by
    simp [balanceOf, getAccount, dstFound, Record.decodeAccount]
  have nonzero' : p.amount.toInt ≠ 0 := fun zero => nonzero (Int64.toInt_inj.mp zero)
  have overOwn : ∀ stored ∈ (before.insert
      (.account { dstAcc with balance := dstAcc.balance + p.amount })).get
        (accountKey p.srcAccountID), stored.owner = p.srcAccountID := by
    intro stored storedFound
    rw [srcFound] at storedFound
    exact Option.some.inj storedFound ▸ srcOwn
  refine (SparesOthers.insert_own_iff ?_ ?_).trans ?_
  · exact srcOwn
  · rw [srcOwn]
    exact overOwn
  rw [SparesOthers.insert_iff]
  simp only [Operation.TakesFromSource, given, Option.mem_def, Option.some.injEq,
    forall_eq', native, if_true, receiver, ← le_add_iff_raisedBy nonzero', Record.key_account,
    dstOwn, dstFound, Record.owner, Record.NoMoreThan, true_and]
  rw [← or_iff_not_imp_left, eq_comm]

theorem line_of_getTrust {line : Trust} (only : bucket.OnlyLineAt accountID asset)
    (read : getTrust bucket accountID asset = some line) :
    line.accountID = accountID ∧ line.asset = some asset := by
  by_cases issued : accountID = asset.issuer
  · unfold getTrust at read
    rw [if_pos issued] at read
    cases read
    exact ⟨rfl, rfl⟩
  · exact only (.trust line) (get_of_getTrust only.noAccountAt issued read)

theorem onlyLineAt_insert {first second : String} {line : Trust}
    (only : bucket.OnlyLineAt first asset) (key : (Record.trust line).key = trustKey second asset)
    (own : line.accountID = second ∧ line.asset = some asset) :
    (bucket.insert (.trust line)).OnlyLineAt first asset := by
  intro record found
  rw [Bucket.get_insert, key] at found
  split_ifs at found with same
  · cases found
    rw [trustKey_inj same]
    exact own
  · exact only record found

theorem owner_of_onlyLineAt (only : bucket.OnlyLineAt accountID asset) :
    ∀ stored ∈ bucket.get (trustKey accountID asset), stored.owner = accountID := by
  intro stored found
  have isLine := only stored found
  cases stored with
  | account acc => exact isLine.elim
  | trust line => exact isLine.1

theorem toInt_max_add (amount : Int64) :
    (Int64.maxValue + amount).toInt =
      maxInt64 + amount.toInt - if 0 < amount.toInt then 2 ^ 64 else 0 := by
  have top : Int64.maxValue.toInt = maxInt64 := rfl
  have above := minInt64_le amount
  split_ifs with positive
  · rw [toInt_add_of_above (by omega), top]
  · rw [toInt_add_of_fits (by unfold maxInt64 at *; omega) (by omega)]
    omega

theorem custom_payment_sparesOthers_iff {p : Op.Payment} (given : p.asset = some asset)
    (custom : asset.assetType ≠ .native) (findsOwn : (Operation.payment p).FindsOwn before)
    (done : p.apply em before = .ok after) :
    SparesOthers p.srcAccountID before after ↔
      (Operation.payment p).TakesFromSource before := by
  obtain ⟨_, _, _, nonzero, _⟩ := of_payment done
  have nonzero' : p.amount.toInt ≠ 0 := fun zero => nonzero (Int64.toInt_inj.mp zero)
  obtain ⟨dstLine, srcLine, dstRead, dstKey, _, _, srcRead, srcKey, rfl⟩ :=
    of_custom_payment given custom findsOwn.typed done
  have only := findsOwn asset given
  rw [if_neg custom] at only
  have dstOwn := line_of_getTrust only.1 dstRead
  have srcOnly : (before.insert
      (.trust { dstLine with balance := dstLine.balance + p.amount })).OnlyLineAt
        p.srcAccountID asset := onlyLineAt_insert only.2 dstKey dstOwn
  have srcOwn := line_of_getTrust srcOnly srcRead
  refine (SparesOthers.insert_own_iff ?_ ?_).trans ?_
  · exact srcOwn.1
  · change ∀ stored ∈ Bucket.get _ (Record.trust srcLine).key, _
    rw [srcKey]
    exact owner_of_onlyLineAt srcOnly
  rw [SparesOthers.insert_iff]
  change (∀ stored ∈ before.get (Record.trust dstLine).key, _) ↔ _
  rw [dstKey]
  simp only [Operation.TakesFromSource, given, Option.mem_def, Option.some.injEq, forall_eq',
    custom, if_false, storedLine]
  rcases found : before.get (trustKey p.dstAccountID asset) with _ | stored
  · simp
  · have isLine := only.1 stored found
    cases stored with
    | account acc => exact isLine.elim
    | trust line =>
      obtain ⟨lineOwner, lineAsset⟩ := isLine
      by_cases issued : p.dstAccountID = asset.issuer
      · have unlimited : dstLine.balance = Int64.maxValue := by
          unfold getTrust at dstRead
          rw [if_pos issued] at dstRead
          rw [← Option.some.inj dstRead]
        simp only [Option.some.injEq, forall_eq', Record.owner, Record.NoMoreThan, lineOwner,
          lineAsset, dstOwn, true_and, if_pos issued, unlimited, toInt_max_add]
        rw [← or_iff_not_imp_left, eq_comm]
      · have sameLine : dstLine = line := by
          have held := get_of_getTrust only.1.noAccountAt issued dstRead
          rw [found] at held
          exact (Record.trust.inj (Option.some.inj held)).symm
        simp only [Option.some.injEq, forall_eq', Record.owner, Record.NoMoreThan, lineOwner,
          lineAsset, true_and, if_neg issued, sameLine, ← le_add_iff_raisedBy nonzero']
        rw [← or_iff_not_imp_left, eq_comm]

def Operation.srcAccountID : Operation → String
  | .createAccount c => c.srcAccountID
  | .payment p => p.srcAccountID
  | .trust t => t.srcAccountID

theorem Operation.sparesOthers_iff (findsOwn : operation.FindsOwn before)
    (done : operation.apply am em before = .ok after) :
    SparesOthers operation.srcAccountID before after ↔ operation.TakesFromSource before := by
  cases operation with
  | createAccount c => exact iff_of_true (createAccount_sparesOthers findsOwn done) trivial
  | payment p =>
    obtain ⟨asset, _, given, _⟩ := of_payment done
    by_cases native : asset.assetType = .native
    · exact native_payment_sparesOthers_iff given native findsOwn done
    · exact custom_payment_sparesOthers_iff given native findsOwn done
  | trust t => exact iff_of_true (trust_sparesOthers findsOwn done) trivial

section Transactions

variable {tm : TxManager}

theorem srcAccountID_of_getTxOp {accountID : String} {ledgerSeqNum : UInt64} {txOp : TxOp}
    (built : getTxOp tm accountID ledgerSeqNum txOp = .ok operation) :
    operation.srcAccountID = accountID := by
  unfold getTxOp at built
  split at built
  · split at built
    · exact Except.ok.inj built ▸ rfl
    · simp at built
  · split at built
    · exact Except.ok.inj built ▸ rfl
    · simp at built
  · split at built
    · exact Except.ok.inj built ▸ rfl
    · simp at built
  · simp at built

theorem srcAccountID_of_getTxOpList {accountID : String} {ledgerSeqNum : UInt64}
    {opList : List TxOp} (built : getTxOpList tm opList accountID ledgerSeqNum = .ok ops) :
    ∀ operation ∈ ops, operation.srcAccountID = accountID := by
  unfold getTxOpList at built
  induction opList generalizing ops with
  | nil =>
    cases built
    simp
  | cons txOp rest ih =>
    rw [List.mapM_cons, bind_eq_ok] at built
    obtain ⟨first, firstBuilt, built⟩ := built
    rw [bind_eq_ok] at built
    obtain ⟨others, othersBuilt, built⟩ := built
    cases built
    intro operation operationMem
    rcases List.mem_cons.mp operationMem with rfl | later
    · exact srcAccountID_of_getTxOp firstBuilt
    · exact ih othersBuilt operation later

theorem operation_mem_of_applyOps {dt : Bucket} {application : Application tm}
    (logged : application ∈ (applyOps tm ops dt).2) : application.operation ∈ ops := by
  induction ops generalizing dt with
  | nil => simp [applyOps] at logged
  | cons operation rest ih =>
    unfold applyOps at logged
    split at logged
    · simp at logged
    · rcases List.mem_cons.mp logged with rfl | later
      · exact .head _
      · exact .tail _ (ih later)

@[simp]
theorem applicationsIn_applied (events : List (Event tm)) (applications : List (Application tm)) :
    applicationsIn (events ++ applications.map .applied) =
      applicationsIn events ++ applications := by
  simp [applicationsIn, List.flatMap_map]

@[simp]
theorem applicationsIn_executed (events : List (Event tm)) (tx : Tx) :
    applicationsIn (events ++ [.executed tx]) = applicationsIn events := by
  simp [applicationsIn]

/-- What executing a transaction logs, and the two ways in which it can leave
the bucket. -/
def RunsOps (tx : Tx) (state final : LedgerState tm) : Prop :=
  ∃ ops : List Operation, (∀ operation ∈ ops, operation.srcAccountID = tx.accountID) ∧
    applicationsIn final.events =
      applicationsIn state.events ++ (applyOps tm ops state.bucket).2 ∧
    (final.bucket = state.bucket ∨ (applyOps tm ops state.bucket).1 = .ok final.bucket)

theorem executeOps_runsOps (tx : Tx)
    (own : ∀ operation ∈ ops, operation.srcAccountID = tx.accountID) (state : LedgerState tm) :
    (executeOps tm tx ops).Holds state (fun _ final => RunsOps tx state final)
      (fun _ final => RunsOps tx state final) := by
  simp only [executeOps, updateTxStatus, Program.holds_bind, Program.holds_get,
    Program.holds_modify]
  rcases result : (applyOps tm ops state.bucket).1 with error | bucket
  · cases error with
    | failed message => exact ⟨ops, own, by simp, .inl rfl⟩
    | nilDereference what => exact ⟨ops, own, by simp, .inl rfl⟩
  · exact ⟨ops, own, by simp, .inr result⟩

theorem executeTx_runsOps (ledgerSeqNum : UInt64) (tx : Tx) (state : LedgerState tm) :
    RunsOps tx state (executeTx tm ledgerSeqNum tx state).state := by
  apply @Program.Holds.atEnd _ _ _ state _ (RunsOps tx state)
  simp only [executeTx, Program.holds_bind, Program.holds_modify]
  have started : ∀ statuses final,
      RunsOps tx ⟨state.bucket, statuses, state.events ++ [.executed tx]⟩ final →
        RunsOps tx state final := by
    rintro statuses final ⟨ops, own, log, effect⟩
    exact ⟨ops, own, by simpa using log, effect⟩
  rcases built : getTxOpList tm tx.opList tx.accountID ledgerSeqNum with error | ops
  · cases error with
    | failed message =>
      simp only [updateTxStatus, Program.holds_bind, Program.holds_modify]
      refine (executeOps_runsOps tx (by simp) _).mono ?_ ?_
      · exact fun _ final runs => started _ final runs
      · exact fun _ final runs => started _ final runs
    | nilDereference what => exact ⟨[], by simp, by simp [applyOps], .inl rfl⟩
  · refine (executeOps_runsOps tx (srcAccountID_of_getTxOpList built) _).mono ?_ ?_
    · exact fun _ final runs => started _ final runs
    · exact fun _ final runs => started _ final runs

end Transactions

/-- A transaction lowers no balance of another account exactly when every payment raises
what it is paid into. -/
theorem executeTx_sparesOthers_iff (tm : TxManager) (ledgerSeqNum : UInt64) (tx : Tx)
    (bucket : Bucket) (statuses : Finmap fun _ : String => TxStatus)
    (findsOwn : ∀ application ∈ applicationsIn
        (executeTx tm ledgerSeqNum tx ⟨bucket, statuses, []⟩).state.events,
      application.operation.FindsOwn application.before) :
    (SparesOthers tx.accountID bucket
        (executeTx tm ledgerSeqNum tx ⟨bucket, statuses, []⟩).state.bucket ∧
      ∀ application ∈ applicationsIn
          (executeTx tm ledgerSeqNum tx ⟨bucket, statuses, []⟩).state.events,
        SparesOthers tx.accountID application.before application.after) ↔
    ∀ application ∈ applicationsIn
        (executeTx tm ledgerSeqNum tx ⟨bucket, statuses, []⟩).state.events,
      application.operation.TakesFromSource application.before := by
  obtain ⟨ops, own, log, effect⟩ := executeTx_runsOps ledgerSeqNum tx ⟨bucket, statuses, []⟩
  rw [log] at findsOwn ⊢
  simp only [applicationsIn, List.flatMap_nil, List.nil_append] at findsOwn ⊢
  have each : (∀ application ∈ (applyOps tm ops bucket).2,
        SparesOthers tx.accountID application.before application.after) ↔
      ∀ application ∈ (applyOps tm ops bucket).2,
        application.operation.TakesFromSource application.before := by
    refine forall₂_congr fun application logged => ?_
    rw [← own application.operation (operation_mem_of_applyOps logged)]
    exact Operation.sparesOthers_iff (findsOwn application logged) application.succeeded
  rw [← each]
  refine ⟨fun spares => spares.2, fun spares => ⟨?_, spares⟩⟩
  rcases effect with unchanged | committed
  · rw [unchanged]
    exact .refl _ _
  · have chain := @applyOps_induction tm (SparesOthers tx.accountID bucket)
    refine chain committed ?_ (.refl _ _)
    intro application logged sparesBefore
    exact sparesBefore.trans (spares application logged)

private def coin : Asset := ⟨.custom, "COIN", "mint"⟩

private def walletsAndLines : Bucket :=
  .ofRecords [.account ⟨"alice", 1000, "alice", 1, 0, some ⟨0, 0⟩⟩,
    .account ⟨"bob", 500, "bob", 1, 0, some ⟨0, 0⟩⟩,
    .account ⟨"mint", 900, "mint", 1, 0, some ⟨0, 0⟩⟩,
    .trust ⟨"alice", some coin, 50, 100, some ⟨0, 0⟩, 1⟩,
    .trust ⟨"bob", some coin, 50, 100, some ⟨0, 0⟩, 1⟩]

private def payBobIn (asset : Asset) (amount : Int64) : Tx :=
  ⟨"alice", 10, "", 2, [⟨.payment, some (.payment ⟨"bob", some asset, amount⟩)⟩]⟩

private def executed (tx : Tx) : LedgerState TxManager.plain :=
  (executeTx .plain 9 tx ⟨walletsAndLines, ∅, []⟩).state

theorem executeTx_sparesOthers_of_positive_payment :
    SparesOthers "alice" walletsAndLines (executed (payBobIn coin 30)).bucket ∧
      storedLine (executed (payBobIn coin 30)).bucket "bob" coin = some 80 :=
  ⟨((executeTx_sparesOthers_iff .plain 9 (payBobIn coin 30) walletsAndLines ∅
      (by decide +kernel)).mpr (by decide +kernel)).1, by decide +kernel⟩

/-- A payment of a negative amount takes from the account it is paid to. -/
theorem executeTx_takes_from_receiver :
    (balanceOf walletsAndLines "bob" = 500 ∧
      balanceOf (executed (payBobIn ⟨.native, "", ""⟩ (-100))).bucket "bob" = 400 ∧
      ¬ SparesOthers "alice" walletsAndLines
        (executed (payBobIn ⟨.native, "", ""⟩ (-100))).bucket) ∧
    (storedLine walletsAndLines "bob" coin = some 50 ∧
      storedLine (executed (payBobIn coin (-30))).bucket "bob" coin = some 20 ∧
      ¬ SparesOthers "alice" walletsAndLines (executed (payBobIn coin (-30))).bucket) := by
  decide +kernel

end Ultiledger
