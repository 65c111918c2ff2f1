import Ultiledger.AccountStore
import Ultiledger.MachineIntegers

/-!
# The account manager

The operations of `account/manager.go` that transactions use.  Each reads or
writes one record of the bucket; balances are 64-bit and the additions wrap.
-/

namespace Ultiledger

open MachineIntegers

variable {putter saved getter : Bucket} {acc : Account} {accountID : String} {line : Trust}

structure AccountManager where
  baseReserve : Int64

/-- `GetAccount`; the record under the key may be of either kind. -/
def getAccount (getter : Bucket) (accountID : String) : Option Account :=
  (getter.get (accountKey accountID)).map Record.decodeAccount

def saveAccount (putter : Bucket) (acc : Account) : Except OpError Bucket :=
  wrapError "save account in db failed: " (putter.put (.account acc))

/-- `Manager.CreateAccount`; the caller has checked that the account is new. -/
def AccountManager.createAccount (am : AccountManager) (putter : Bucket)
    (accountID : String) (balance : Int64) (signer : String) (seqNum : UInt64) :
    Except OpError Bucket :=
  if balance < am.baseReserve then
    .error (.failed "init balance lower than base reserve")
  else
    wrapError "save account in db failed: "
      (putter.put (.account ⟨accountID, balance, signer, seqNum, 0, some ⟨0, 0⟩⟩))

/-- `UpdateBalance`.  The underflow guard compares with the amount and not with
its negation, as in the source. -/
def updateBalance (acc : Account) (balance : Int64) : Except OpError Account :=
  if balance > 0 ∧ acc.balance > Int64.maxValue - balance then
    .error (.failed "account balance overflow")
  else if balance < 0 ∧ acc.balance < balance then
    .error (.failed "account balance underflow")
  else
    .ok { acc with balance := acc.balance + balance }

def getRestLimit (acc : Account) : Except OpError Int64 :=
  match acc.liability with
  | none => .error (.nilDereference "acc.Liability")
  | some liability => .ok (Int64.maxValue - acc.balance - liability.buying)

/-- `GetBalance`: what is left above the reserve and the selling liability. -/
def AccountManager.getBalance (am : AccountManager) (acc : Account) : Except OpError Int64 :=
  match acc.liability with
  | none => .error (.nilDereference "acc.Liability")
  | some liability =>
    .ok (acc.balance - acc.entryCount.toInt64 * am.baseReserve - liability.selling)

/-- The guarded addition of `UpdateLiability` and `UpdateTrustLiability`. -/
def Liability.update (liability : Liability) (amount : Int64) (buy : Bool) :
    Except OpError Liability :=
  if buy then
    if amount > Int64.maxValue - liability.buying ∨ amount < -liability.buying then
      .error (.failed "account update invalid")
    else
      .ok { liability with buying := liability.buying + amount }
  else
    if amount > Int64.maxValue - liability.selling ∨ amount < -liability.selling then
      .error (.failed "account update invalid")
    else
      .ok { liability with selling := liability.selling + amount }

/-- `UpdateLiability`; nothing is dereferenced for the amount zero. -/
def updateLiability (acc : Option Account) (amount : Int64) (buy : Bool) :
    Except OpError (Option Account) :=
  if amount = 0 then
    .ok acc
  else
    match acc with
    | none => .error (.nilDereference "acc")
    | some acc =>
      match acc.liability with
      | none => .error (.nilDereference "acc.Liability")
      | some liability => do
        let liability ← liability.update amount buy
        pure (some { acc with liability := some liability })

def AccountManager.updateEntryCount (am : AccountManager) (acc : Account) (count : Int32) :
    Except OpError Account :=
  if count = 0 then
    .ok acc
  else
    let totalEntry := acc.entryCount + count
    match acc.liability with
    | none => .error (.nilDereference "acc.Liability")
    | some liability =>
      let balance := totalEntry.toInt64 * am.baseReserve + liability.selling
      if balance > acc.balance then
        .error (.failed "account balance underfund")
      else
        .ok { acc with entryCount := totalEntry }

/-- `CreateTrust`; a trust line to an asset of one's own is not stored. -/
def createTrust (putter : Bucket) (accountID : String) (asset : Asset) (limit : Int64) :
    Except OpError Bucket :=
  if accountID = asset.issuer then
    .ok putter
  else
    wrapError "save trust in db failed: "
      (putter.put (.trust ⟨accountID, some asset, 0, limit, some ⟨0, 0⟩, 1⟩))

/-- `GetTrust`; the issuer has an unstored line with an unlimited balance. -/
def getTrust (getter : Bucket) (accountID : String) (asset : Asset) : Option Trust :=
  if accountID = asset.issuer then
    some ⟨accountID, some asset, Int64.maxValue, Int64.maxValue, none, 1⟩
  else
    (getter.get (trustKey accountID asset)).map Record.decodeTrust

/-- `SaveTrust`; the encoder refuses a nil asset. -/
def saveTrust (putter : Bucket) (line : Trust) : Except OpError Bucket :=
  if line.asset = none then
    .error (.failed "encode asset failed: proto: Marshal called with nil")
  else
    wrapError "save account in db failed: " (putter.put (.trust line))

def deleteTrust (deleter : Bucket) (accountID : String) (asset : Asset) : Bucket :=
  deleter.delete (trustKey accountID asset)

/-- `UpdateTrustBalance`; the sum in the limit test wraps. -/
def updateTrustBalance (line : Trust) (balance : Int64) : Except OpError Trust :=
  if balance > 0 ∧ line.balance + balance > line.limit then
    .error (.failed "trust balance over limit")
  else if balance < 0 ∧ line.balance < balance then
    .error (.failed "trust balance underflow")
  else
    .ok { line with balance := line.balance + balance }

/-- `GetTrustRestLimit`; the limit of the line is not looked at. -/
def getTrustRestLimit (line : Trust) : Except OpError Int64 :=
  match line.liability with
  | none => .error (.nilDereference "trust.Liability")
  | some liability => .ok (Int64.maxValue - line.balance - liability.buying)

def getTrustBalance (line : Trust) : Except OpError Int64 :=
  match line.liability with
  | none => .error (.nilDereference "trust.Liability")
  | some liability => .ok (line.balance - liability.selling)

def updateTrustLiability (line : Option Trust) (amount : Int64) (buy : Bool) :
    Except OpError (Option Trust) :=
  if amount = 0 then
    .ok line
  else
    match line with
    | none => .error (.nilDereference "trust")
    | some line =>
      match line.liability with
      | none => .error (.nilDereference "trust.Liability")
      | some liability => do
        let liability ← liability.update amount buy
        pure (some { line with liability := some liability })

theorem eq_of_saveAccount (done : saveAccount putter acc = .ok saved) :
    saved = putter.insert (.account acc) :=
  Bucket.eq_insert_of_put (wrapError_eq_ok.mp done)

variable {am : AccountManager} {asset : Asset} {updated : Account} {amount : Int64} {count : Int32}

theorem eq_of_createAccount {signer : String} {balance : Int64} {seqNum : UInt64}
    (done : am.createAccount putter accountID balance signer seqNum = .ok saved) :
    am.baseReserve ≤ balance ∧
      saved = putter.insert
        (.account ⟨accountID, balance, signer, seqNum, 0, some ⟨0, 0⟩⟩) := by
  unfold AccountManager.createAccount at done
  split_ifs at done with low
  exact ⟨Int64.not_lt.mp low, Bucket.eq_insert_of_put (wrapError_eq_ok.mp done)⟩

theorem eq_of_saveTrust (done : saveTrust putter line = .ok saved) :
    saved = putter.insert (.trust line) := by
  unfold saveTrust at done
  split_ifs at done
  exact Bucket.eq_insert_of_put (wrapError_eq_ok.mp done)

theorem eq_of_createTrust {limit : Int64} (apart : accountID ≠ asset.issuer)
    (done : createTrust putter accountID asset limit = .ok saved) :
    saved = putter.insert
      (.trust ⟨accountID, some asset, 0, limit, some ⟨0, 0⟩, 1⟩) := by
  unfold createTrust at done
  rw [if_neg apart] at done
  exact Bucket.eq_insert_of_put (wrapError_eq_ok.mp done)

theorem eq_of_updateBalance (done : updateBalance acc amount = .ok updated) :
    updated = { acc with balance := acc.balance + amount } := by
  unfold updateBalance at done
  split_ifs at done
  exact (Except.ok.inj done).symm

theorem eq_add_of_updateEntryCount (done : am.updateEntryCount acc count = .ok updated) :
    updated = { acc with entryCount := acc.entryCount + count } := by
  unfold AccountManager.updateEntryCount at done
  split_ifs at done with nothing
  · rw [nothing, Int32.add_zero]
    exact (Except.ok.inj done).symm
  · rcases held : acc.liability with _ | liability
    · simp [held] at done
    · simp only [held] at done
      split_ifs at done
      exact (Except.ok.inj done).symm

theorem eq_of_updateEntryCount (done : am.updateEntryCount acc count = .ok updated) :
    ∃ entries, updated = { acc with entryCount := entries } :=
  ⟨_, eq_add_of_updateEntryCount done⟩

theorem eq_of_updateTrustBalance {updated : Trust}
    (done : updateTrustBalance line amount = .ok updated) :
    updated = { line with balance := line.balance + amount } := by
  unfold updateTrustBalance at done
  split_ifs at done
  exact (Except.ok.inj done).symm

theorem get_of_getAccount (typed : getter.NoTrustAt (accountKey accountID))
    (read : getAccount getter accountID = some acc) :
    getter.get (accountKey accountID) = some (.account acc) ∧
      acc.accountID = accountID := by
  unfold getAccount at read
  rcases held : getter.get (accountKey accountID) with _ | record
  · simp [held] at read
  · cases record with
    | account stored =>
      simp only [held, Option.map_some, Option.some.injEq, Record.decodeAccount] at read
      subst read
      exact ⟨rfl, utf8_injective (getter.ownKey _ _ held)⟩
    | trust line => exact absurd held (typed line)

theorem get_of_getTrust (typed : getter.NoAccountAt (trustKey accountID asset))
    (apart : accountID ≠ asset.issuer) (read : getTrust getter accountID asset = some line) :
    getter.get (trustKey accountID asset) = some (.trust line) := by
  unfold getTrust at read
  rw [if_neg apart] at read
  rcases held : getter.get (trustKey accountID asset) with _ | record
  · simp [held] at read
  · cases record with
    | account stored => exact absurd held (typed stored)
    | trust found =>
      simp only [held, Option.map_some, Option.some.injEq, Record.decodeTrust] at read
      rw [read]

theorem getAccount_eq_none :
    getAccount getter accountID = none ↔ getter.get (accountKey accountID) = none := by
  simp [getAccount]

end Ultiledger
