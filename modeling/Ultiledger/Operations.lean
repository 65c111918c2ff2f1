import Ultiledger.AccountManager

/-!
# Transaction operations

`CreateAccount`, `Payment`, `PathPayment` and `Trust` of `tx/op`.  An operation maps
the bucket it starts from to the bucket it leaves, or fails and leaves nothing.  The
exchange that fills the orders of longer paths is a parameter.
-/

namespace Ultiledger

open MachineIntegers

def errAccountNotExist : OpError := .failed "account not exist"

def errInvalidPaymentAmount : OpError := .failed "invalid payment amount"

def errInvalidAccountID : OpError := .failed "invalid accountID"

def errPaymentNotAuthorized : OpError := .failed "payment is not authorized"

/-- `exchange.Order`, the fields a path payment sets. -/
structure Order where
  sellAsset : Asset
  maxSellAsset : Int64
  buyAsset : Asset
  maxBuyAsset : Int64

/-- `exchange.Manager.FillOrder`: the bucket afterwards and the amount sold. -/
abbrev Exchange := Bucket → Order → Except OpError (Bucket × Int64)

namespace Op

structure CreateAccount where
  srcAccountID : String
  dstAccountID : String
  balance : Int64
  baseReserve : Int64
  ledgerSeqNum : UInt64

structure Payment where
  srcAccountID : String
  dstAccountID : String
  asset : Option Asset
  amount : Int64

structure PathPayment where
  srcAccountID : String
  srcAsset : Option Asset
  srcAmount : Int64
  dstAccountID : String
  dstAsset : Option Asset
  dstAmount : Int64
  path : List (Option Asset)

structure Trust where
  srcAccountID : String
  asset : Option Asset
  limit : Int64

end Op

/-- An operation as `getTxOpList` builds it. -/
inductive Operation where
  | createAccount (op : Op.CreateAccount)
  | payment (op : Op.Payment)
  | trust (op : Op.Trust)

/-- `validateAsset`, returning the asset it has found to be present. -/
def validateAsset : Option Asset → Except OpError Asset
  | none => .error (.failed "asset is nil")
  | some asset =>
    if asset.assetType = .native then
      .ok asset
    else if asset.assetName.utf8ByteSize = 0 ∨ asset.assetName.utf8ByteSize > 4 then
      .error (.failed "invalid asset name")
    else
      .ok asset

def Op.CreateAccount.apply (am : AccountManager) (c : Op.CreateAccount) (dt : Bucket) :
    Except OpError Bucket :=
  if c.srcAccountID = c.dstAccountID then
    .error (.failed "src and dst account is the same")
  else if c.balance = 0 then
    .error (.failed "init balance for dst account is zero")
  else if getAccount dt c.dstAccountID ≠ none then
    .error (.failed "dst account already exists")
  else
    match getAccount dt c.srcAccountID with
    | none => .error errAccountNotExist
    | some srcAcc =>
      if srcAcc.balance < c.balance then
        .error (.failed "src account is underfund")
      else if c.balance < c.baseReserve then
        .error (.failed "init balance is smaller than base reserve")
      else do
        let dt ← wrapError ("update account " ++ c.srcAccountID ++ " failed: ")
          (saveAccount dt { srcAcc with balance := srcAcc.balance - c.balance })
        wrapError ("create account " ++ c.dstAccountID ++ " failed: ")
          (am.createAccount dt c.dstAccountID c.balance c.srcAccountID c.ledgerSeqNum)

/-- Add an amount to a native balance and save the account; the texts are those
of the two places that do so. -/
def moveNative (onUpdate onSave : String) (dt : Bucket) (accountID : String)
    (amount : Int64) : Except OpError Bucket :=
  match getAccount dt accountID with
  | none => .error errAccountNotExist
  | some acc => do
    let acc ← wrapError onUpdate (updateBalance acc amount)
    wrapError onSave (saveAccount dt acc)

def moveTrust (dt : Bucket) (accountID : String) (asset : Asset) (amount : Int64) :
    Except OpError Bucket :=
  if getAccount dt asset.issuer = none then
    .error errAccountNotExist
  else
    match getTrust dt accountID asset with
    | none => .error (.nilDereference "trust")
    | some line =>
      if line.authorized = 0 then
        .error errPaymentNotAuthorized
      else do
        let line ← wrapError "add trust balance failed: " (updateTrustBalance line amount)
        wrapError "save trust failed: " (saveTrust dt line)

/-- The credit of the destination account in `PathPayment.Apply`. -/
def creditDst (dt : Bucket) (dstAccountID : String) (asset : Asset) (amount : Int64) :
    Except OpError Bucket :=
  if getAccount dt dstAccountID = none then
    .error errAccountNotExist
  else if asset.assetType = .native then
    moveNative "add balance failed: " "save account failed: " dt dstAccountID amount
  else
    moveTrust dt dstAccountID asset amount

/-- The debit of the source account in `PathPayment.Apply`. -/
def debitSrc (dt : Bucket) (srcAccountID : String) (asset : Asset) (amount : Int64) :
    Except OpError Bucket :=
  if asset.assetType = .native then
    moveNative "" "" dt srcAccountID (-amount)
  else
    moveTrust dt srcAccountID asset (-amount)

/-- The exchange loop of `PathPayment.Apply`, over the path in backward order. -/
def exchangePath (em : Exchange) :
    List Asset → Bucket × Asset × Int64 → Except OpError (Bucket × Asset × Int64)
  | [], state => .ok state
  | hop :: rest, (dt, asset, amount) =>
    if hop = asset then
      exchangePath em rest (dt, asset, amount)
    else if hop.assetType ≠ .native ∧ getAccount dt hop.issuer = none then
      .error errAccountNotExist
    else do
      let (dt, sold) ← wrapError "exchange assets failed: "
        (em dt ⟨hop, Int64.maxValue, asset, amount⟩)
      exchangePath em rest (dt, hop, sold)

def Op.PathPayment.apply (em : Exchange) (pp : Op.PathPayment) (dt : Bucket) :
    Except OpError Bucket := do
  let srcAsset ← wrapError "validate src payment asset failed: " (validateAsset pp.srcAsset)
  let dstAsset ← wrapError "validate dst payment asset failed: " (validateAsset pp.dstAsset)
  let path ← pp.path.mapM fun asset =>
    wrapError "validate path payment asset failed: " (validateAsset asset)
  if pp.srcAccountID = "" ∨ pp.dstAccountID = "" then
    .error errInvalidAccountID
  else if pp.srcAmount = 0 ∨ pp.dstAmount = 0 then
    .error errInvalidPaymentAmount
  else do
    let dt ← creditDst dt pp.dstAccountID dstAsset pp.dstAmount
    let (dt, asset, amount) ←
      exchangePath em (srcAsset :: path).reverse (dt, dstAsset, pp.dstAmount)
    if amount > pp.srcAmount then
      .error (.failed "deduced src payment amount is over the limit")
    else
      debitSrc dt pp.srcAccountID asset amount

def Op.Payment.apply (em : Exchange) (p : Op.Payment) (dt : Bucket) :
    Except OpError Bucket := do
  let _ ← wrapError "validate payment asset failed: " (validateAsset p.asset)
  if p.amount = 0 then
    .error errInvalidPaymentAmount
  else if p.srcAccountID = "" ∨ p.dstAccountID = "" then
    .error errInvalidAccountID
  else
    Op.PathPayment.apply em
      ⟨p.srcAccountID, p.asset, p.amount, p.dstAccountID, p.asset, p.amount, []⟩ dt

/-- `Trust.Apply` where the account has no line to the asset yet. -/
def openTrust (am : AccountManager) (dt : Bucket) (srcAcc : Account) (srcAccountID : String)
    (asset : Asset) (limit : Int64) : Except OpError Bucket :=
  if limit = 0 then
    .error (.failed "trust limit cannot be zero")
  else if getAccount dt asset.issuer = none then
    .error errAccountNotExist
  else do
    let srcAcc ← wrapError ("add src account " ++ srcAccountID ++ " entry failed: ")
      (am.updateEntryCount srcAcc 1)
    let dt ← wrapError ("save src account " ++ srcAccountID ++ " failed: ")
      (saveAccount dt srcAcc)
    wrapError "create trust failed: " (createTrust dt srcAccountID asset limit)

/-- `Trust.Apply` where the account has a line to the asset: limit zero closes
it. -/
def modifyTrust (am : AccountManager) (dt : Bucket) (srcAcc : Account) (srcAccountID : String)
    (asset : Asset) (limit : Int64) (line : Trust) : Except OpError Bucket :=
  if limit = 0 then do
    let dt := deleteTrust dt srcAccountID asset
    let srcAcc ← wrapError ("subtract src account " ++ srcAccountID ++ " entry failed: ")
      (am.updateEntryCount srcAcc (-1))
    wrapError ("save src account " ++ srcAccountID ++ " failed: ") (saveAccount dt srcAcc)
  else
    match line.liability with
    | none => .error (.nilDereference "trust.Liability")
    | some liability =>
      if limit < line.balance + liability.buying then
        .error (.failed "cannot lower the trust limit below minimum list.")
      else
        wrapError "save trust failed: " (saveTrust dt { line with limit := limit })

def Op.Trust.apply (am : AccountManager) (t : Op.Trust) (dt : Bucket) :
    Except OpError Bucket :=
  match t.asset with
  | none => .error (.nilDereference "t.Asset")
  | some asset =>
    if t.srcAccountID = asset.issuer then
      .error (.failed "cannot change trustline of self")
    else
      match getAccount dt t.srcAccountID with
      | none => .error errAccountNotExist
      | some srcAcc =>
        match getTrust dt t.srcAccountID asset with
        | none => openTrust am dt srcAcc t.srcAccountID asset t.limit
        | some line => modifyTrust am dt srcAcc t.srcAccountID asset t.limit line

def Operation.apply (am : AccountManager) (em : Exchange) (operation : Operation)
    (dt : Bucket) : Except OpError Bucket :=
  match operation with
  | .createAccount op => op.apply am dt
  | .payment op => op.apply em dt
  | .trust op => op.apply am dt

variable {am : AccountManager} {dt moved : Bucket} {accountID : String} {srcAcc : Account}
  {amount : Int64} {srcAccountID : String} {asset : Asset} {limit : Int64}

theorem guards_of_updateBalance {acc updated : Account}
    (done : updateBalance acc amount = .ok updated) :
    (0 < amount.toInt → acc.balance.toInt + amount.toInt ≤ maxInt64) ∧
      (amount.toInt < 0 → amount.toInt ≤ acc.balance.toInt) := by
  unfold updateBalance at done
  split_ifs at done with overflow underflow
  rw [not_and, Int64.not_lt] at overflow underflow
  constructor
  · intro positive
    have room : (Int64.maxValue - amount).toInt = maxInt64 - amount.toInt := by
      have bound := le_maxInt64 amount
      rw [toInt_sub_of_fits] <;> rw [show Int64.maxValue.toInt = maxInt64 from rfl] <;>
        unfold minInt64 maxInt64 at * <;> omega
    have guard := overflow (Int64.lt_iff_toInt_lt.mpr (by simpa using positive))
    rw [Int64.le_iff_toInt_le] at guard
    omega
  · intro negative
    have guard := underflow (Int64.lt_iff_toInt_lt.mpr (by simpa using negative))
    exact Int64.le_iff_toInt_le.mp guard

theorem of_moveNative {onUpdate onSave : String}
    (done : moveNative onUpdate onSave dt accountID amount = .ok moved) :
    ∃ acc, getAccount dt accountID = some acc ∧
      (0 < amount.toInt → acc.balance.toInt + amount.toInt ≤ maxInt64) ∧
      (amount.toInt < 0 → amount.toInt ≤ acc.balance.toInt) ∧
      moved = dt.insert (.account { acc with balance := acc.balance + amount }) := by
  unfold moveNative at done
  rcases read : getAccount dt accountID with _ | acc
  · simp [read] at done
  · simp only [read, bind_eq_ok, wrapError_eq_ok] at done
    obtain ⟨updated, updates, saves⟩ := done
    obtain ⟨overflow, underflow⟩ := guards_of_updateBalance updates
    refine ⟨acc, rfl, overflow, underflow, ?_⟩
    rw [eq_of_saveAccount saves, eq_of_updateBalance updates]

theorem of_moveTrust (done : moveTrust dt accountID asset amount = .ok moved) :
    ∃ line, getTrust dt accountID asset = some line ∧
      (0 < amount → ¬ line.balance + amount > line.limit) ∧
      (amount < 0 → ¬ line.balance < amount) ∧
      moved = dt.insert (.trust { line with balance := line.balance + amount }) := by
  unfold moveTrust at done
  split_ifs at done
  rcases read : getTrust dt accountID asset with _ | line
  · simp [read] at done
  · simp only [read] at done
    split_ifs at done
    simp only [bind_eq_ok, wrapError_eq_ok] at done
    obtain ⟨updated, updates, saves⟩ := done
    refine ⟨line, rfl, ?_, ?_, ?_⟩
    · intro positive exceeds
      simp [updateTrustBalance, positive, exceeds] at updates
    · intro negative under
      have notPositive : ¬ (0 < amount ∧ line.balance + amount > line.limit) := by
        rintro ⟨positive, _⟩
        exact Int64.lt_irrefl (Int64.lt_trans positive negative)
      simp [updateTrustBalance, notPositive, negative, under] at updates
    · rw [eq_of_saveTrust saves, eq_of_updateTrustBalance updates]

/-- A successful payment is a credit followed by a debit of the same amount;
the exchange is not used. -/
theorem of_payment {em : Exchange} {p : Op.Payment} {paid : Bucket}
    (done : p.apply em dt = .ok paid) :
    ∃ asset middle, p.asset = some asset ∧ p.amount ≠ 0 ∧
      creditDst dt p.dstAccountID asset p.amount = .ok middle ∧
      debitSrc middle p.srcAccountID asset p.amount = .ok paid := by
  unfold Op.Payment.apply at done
  simp only [bind_eq_ok, wrapError_eq_ok] at done
  obtain ⟨asset, validated, done⟩ := done
  have present : p.asset = some asset := by
    rcases given : p.asset with _ | given'
    · simp [given, validateAsset] at validated
    · simp only [given, validateAsset] at validated
      split_ifs at validated <;> simpa using validated
  split_ifs at done with zero blank
  simp only [Op.PathPayment.apply, bind_eq_ok, wrapError_eq_ok, validated,
    Except.ok.injEq, exists_eq_left', List.mapM_nil, zero, blank, or_self, if_false] at done
  obtain ⟨path, noPath, middle, credited, exchanged, ends, debited⟩ := done
  cases noPath
  have stays : exchangePath em [asset] (middle, asset, p.amount) =
      .ok (middle, asset, p.amount) := by
    simp [exchangePath]
  rw [List.reverse_singleton, stays] at ends
  cases ends
  rw [if_neg (Int64.lt_irrefl)] at debited
  exact ⟨asset, middle, present, zero, credited, debited⟩

theorem of_createAccount {c : Op.CreateAccount} {created : Bucket}
    (done : c.apply am dt = .ok created) :
    ∃ srcAcc, c.srcAccountID ≠ c.dstAccountID ∧ getAccount dt c.dstAccountID = none ∧
      getAccount dt c.srcAccountID = some srcAcc ∧
      c.balance.toInt ≤ srcAcc.balance.toInt ∧
      created =
        (dt.insert (.account { srcAcc with balance := srcAcc.balance - c.balance })).insert
          (.account ⟨c.dstAccountID, c.balance, c.srcAccountID, c.ledgerSeqNum, 0,
            some ⟨0, 0⟩⟩) := by
  rcases read : getAccount dt c.srcAccountID with _ | srcAcc
  · simp only [Op.CreateAccount.apply, read] at done
    split_ifs at done
  · simp only [Op.CreateAccount.apply, read] at done
    split_ifs at done with same zero present underfund low
    simp only [bind_eq_ok, wrapError_eq_ok] at done
    obtain ⟨middle, saves, creates⟩ := done
    refine ⟨srcAcc, same, not_not.mp present, rfl, ?_, ?_⟩
    · exact Int64.le_iff_toInt_le.mp (Int64.not_lt.mp underfund)
    · rw [(eq_of_createAccount creates).2, eq_of_saveAccount saves]

theorem of_openTrust {opened : Bucket} (apart : srcAccountID ≠ asset.issuer)
    (done : openTrust am dt srcAcc srcAccountID asset limit = .ok opened) :
    limit ≠ 0 ∧ ∃ counted, am.updateEntryCount srcAcc 1 = .ok counted ∧
      opened = (dt.insert (.account counted)).insert
        (.trust ⟨srcAccountID, some asset, 0, limit, some ⟨0, 0⟩, 1⟩) := by
  unfold openTrust at done
  split_ifs at done with zero
  simp only [bind_eq_ok, wrapError_eq_ok] at done
  obtain ⟨counted, counts, middle, saves, creates⟩ := done
  refine ⟨zero, counted, counts, ?_⟩
  rw [eq_of_createTrust apart creates, eq_of_saveAccount saves]

theorem of_modifyTrust {modified : Bucket} {line : Trust}
    (done : modifyTrust am dt srcAcc srcAccountID asset limit line = .ok modified) :
    (limit = 0 ∧ ∃ counted, am.updateEntryCount srcAcc (-1) = .ok counted ∧
        modified = (dt.delete (trustKey srcAccountID asset)).insert (.account counted)) ∨
      (limit ≠ 0 ∧ (∃ liability, line.liability = some liability ∧
          line.balance + liability.buying ≤ limit) ∧
        modified = dt.insert (.trust { line with limit := limit })) := by
  unfold modifyTrust at done
  split_ifs at done with zero
  · simp only [bind_eq_ok, wrapError_eq_ok] at done
    obtain ⟨counted, counts, saves⟩ := done
    exact .inl ⟨zero, counted, counts, eq_of_saveAccount saves⟩
  · rcases owed : line.liability with _ | liability
    · simp [owed] at done
    · simp only [owed] at done
      split_ifs at done with low
      exact .inr ⟨zero, ⟨liability, rfl, Int64.not_lt.mp low⟩,
        eq_of_saveTrust (wrapError_eq_ok.mp done)⟩

/-- A successful trust operation opens, closes or re-limits one line of the
source account, which closing and opening count. -/
theorem trust_cases {t : Op.Trust} {managed : Bucket} (done : t.apply am dt = .ok managed) :
    ∃ asset srcAcc, t.asset = some asset ∧ t.srcAccountID ≠ asset.issuer ∧
      getAccount dt t.srcAccountID = some srcAcc ∧
      ((getTrust dt t.srcAccountID asset = none ∧ t.limit ≠ 0 ∧
          ∃ counted, am.updateEntryCount srcAcc 1 = .ok counted ∧
            managed = (dt.insert (.account counted)).insert
              (.trust ⟨t.srcAccountID, some asset, 0, t.limit, some ⟨0, 0⟩, 1⟩)) ∨
        ∃ line, getTrust dt t.srcAccountID asset = some line ∧
          ((t.limit = 0 ∧ ∃ counted, am.updateEntryCount srcAcc (-1) = .ok counted ∧
              managed = (dt.delete (trustKey t.srcAccountID asset)).insert
                (.account counted)) ∨
            (t.limit ≠ 0 ∧ (∃ liability, line.liability = some liability ∧
                line.balance + liability.buying ≤ t.limit) ∧
              managed = dt.insert (.trust { line with limit := t.limit })))) := by
  unfold Op.Trust.apply at done
  rcases given : t.asset with _ | asset
  · simp [given] at done
  · rcases read : getAccount dt t.srcAccountID with _ | srcAcc
    · simp only [given, read] at done
      split_ifs at done
    · rcases held : getTrust dt t.srcAccountID asset with _ | line
      · simp only [given, read, held] at done
        split_ifs at done with self
        exact ⟨asset, srcAcc, rfl, self, rfl, .inl ⟨held, of_openTrust self done⟩⟩
      · simp only [given, read, held] at done
        split_ifs at done with self
        exact ⟨asset, srcAcc, rfl, self, rfl, .inr ⟨line, held, of_modifyTrust done⟩⟩

end Ultiledger
