import Mathlib.Data.Finmap
import Mathlib.Data.String.Basic

/-!
# Accounts, trust lines and the bucket they share

Accounts are stored under their id and trust lines under the id of their owner
followed by the encoding of the asset, in one bucket.  Reading one kind of record as
the other does not fail: protobuf keeps the fields whose number and type agree.
-/

namespace Ultiledger

/-- How an operation fails: with an error, or by a nil dereference that ends
the process. -/
inductive OpError where
  | failed (message : String)
  | nilDereference (what : String)
  deriving DecidableEq, Repr

/-- `fmt.Errorf(context + "%v", err)`; a nil dereference is not caught. -/
def OpError.wrap (context : String) : OpError → OpError
  | .failed message => .failed (context ++ message)
  | .nilDereference what => .nilDereference what

def wrapError {α : Type} (context : String) : Except OpError α → Except OpError α
  | .ok value => .ok value
  | .error error => .error (error.wrap context)

@[simp]
theorem wrapError_eq_ok {α : Type} {context : String} {result : Except OpError α}
    {value : α} : wrapError context result = .ok value ↔ result = .ok value := by
  cases result <;> simp [wrapError]

theorem bind_eq_ok {ε α β : Type} {first : Except ε α} {next : α → Except ε β} {value : β} :
    (first >>= next) = .ok value ↔
      ∃ middle, first = .ok middle ∧ next middle = .ok value := by
  cases first <;> simp [bind, Except.bind]

structure Liability where
  buying : Int64
  selling : Int64
  deriving DecidableEq, Repr

/-- `ultpb.Account`, less the list of transaction keys, which nothing uses. -/
@[ext]
structure Account where
  accountID : String
  balance : Int64
  signer : String
  seqNum : UInt64
  entryCount : Int32
  liability : Option Liability
  deriving DecidableEq, Repr

inductive AssetType where
  | native
  | custom
  | other (number : Nat)
  deriving DecidableEq, Repr

structure Asset where
  assetType : AssetType
  assetName : String
  issuer : String
  deriving DecidableEq, Repr

/-- `ultpb.Trust`; the asset is nil only in a trust line decoded from an
account record. -/
structure Trust where
  accountID : String
  asset : Option Asset
  balance : Int64
  limit : Int64
  liability : Option Liability
  authorized : Int32
  deriving DecidableEq, Repr

def encodeVarint : Nat → Nat → List UInt8
  | 0, _ => []
  | bytes + 1, number =>
    if number < 128 then
      [UInt8.ofNat number]
    else
      UInt8.ofNat (number % 128 + 128) :: encodeVarint bytes (number / 128)

def utf8 (text : String) : List UInt8 := text.toUTF8.data.toList

def encodeString (tag : UInt8) (text : String) : List UInt8 :=
  if text = "" then []
  else tag :: encodeVarint 10 (utf8 text).length ++ utf8 text

def AssetType.number : AssetType → Nat
  | .native => 0
  | .custom => 1
  | .other number => number + 2

/-- `ultpb.Encode` of an asset; fields with their default value are left out. -/
def encodeAsset (asset : Asset) : List UInt8 :=
  (if asset.assetType.number = 0 then [] else 8 :: encodeVarint 10 asset.assetType.number) ++
    encodeString 18 asset.assetName ++ encodeString 26 asset.issuer

theorem utf8_injective : Function.Injective utf8 := by
  intro first second same
  have bytes : first.toUTF8 = second.toUTF8 := by
    apply ByteArray.ext
    exact Array.toList_inj.mp same
  exact String.toByteArray_inj.mp bytes

def accountKey (accountID : String) : List UInt8 := utf8 accountID

def trustKey (accountID : String) (asset : Asset) : List UInt8 :=
  utf8 accountID ++ encodeAsset asset

theorem accountKey_ne {first second : String} (apart : first ≠ second) :
    accountKey first ≠ accountKey second :=
  fun same => apart (utf8_injective same)

inductive Record where
  | account (account : Account)
  | trust (trust : Trust)
  deriving DecidableEq, Repr

namespace Record

def key : Record → List UInt8
  | .account acc => accountKey acc.accountID
  | .trust line =>
    match line.asset with
    | some asset => trustKey line.accountID asset
    | none => utf8 line.accountID

@[simp]
theorem key_account (acc : Account) : (Record.account acc).key = accountKey acc.accountID :=
  rfl

/-- `DecodeAccount`: of a trust line only the id and, as the sequence number,
the limit survive. -/
def decodeAccount : Record → Account
  | .account acc => acc
  | .trust line => ⟨line.accountID, 0, "", line.limit.toUInt64, 0, none⟩

/-- `DecodeTrust`: of an account only the id and, as the limit, the sequence
number survive. -/
def decodeTrust : Record → Trust
  | .account acc => ⟨acc.accountID, none, 0, acc.seqNum.toInt64, none, 0⟩
  | .trust line => line

end Record

/-- The `ACCOUNT` bucket: every record stands under its own key. -/
@[ext]
structure Bucket where
  records : Finmap (fun _ : List UInt8 => Record)
  ownKey : ∀ key record, records.lookup key = some record → record.key = key

namespace Bucket

def get (bucket : Bucket) (key : List UInt8) : Option Record :=
  bucket.records.lookup key

def empty : Bucket where
  records := ∅
  ownKey := by simp

def insert (bucket : Bucket) (record : Record) : Bucket where
  records := bucket.records.insert record.key record
  ownKey := by
    intro key found looked
    by_cases same : key = record.key
    · subst same
      rw [Finmap.lookup_insert] at looked
      rw [← Option.some.inj looked]
    · rw [Finmap.lookup_insert_of_ne _ same] at looked
      exact bucket.ownKey key found looked

def delete (bucket : Bucket) (key : List UInt8) : Bucket where
  records := bucket.records.erase key
  ownKey := by
    intro other found looked
    by_cases same : other = key
    · subst same
      rw [Finmap.lookup_erase] at looked
      simp at looked
    · rw [Finmap.lookup_erase_ne same] at looked
      exact bucket.ownKey other found looked

/-- `Put` of the store, which refuses empty and oversized keys. -/
def put (bucket : Bucket) (record : Record) : Except OpError Bucket :=
  if record.key = [] then
    .error (.failed "key required")
  else if record.key.length > 32768 then
    .error (.failed "key too large")
  else
    .ok (bucket.insert record)

variable (bucket : Bucket) {first second : Record}

theorem get_insert (record : Record) (key : List UInt8) :
    (bucket.insert record).get key =
      if key = record.key then some record else bucket.get key := by
  split_ifs with same
  · subst same
    exact Finmap.lookup_insert _
  · exact Finmap.lookup_insert_of_ne _ same

theorem get_delete (removed key : List UInt8) :
    (bucket.delete removed).get key =
      if key = removed then none else bucket.get key := by
  split_ifs with same
  · subst same
    exact Finmap.lookup_erase _ _
  · exact Finmap.lookup_erase_ne same

theorem eq_insert_of_put {bucket saved : Bucket} {record : Record}
    (done : bucket.put record = .ok saved) : saved = bucket.insert record := by
  unfold put at done
  split_ifs at done
  exact (Except.ok.inj done).symm

theorem ext_get {first second : Bucket} (same : ∀ key, first.get key = second.get key) :
    first = second :=
  Bucket.ext (Finmap.ext_lookup same)

theorem insert_insert (same : first.key = second.key) :
    (bucket.insert first).insert second = bucket.insert second := by
  apply ext_get
  intro key
  rw [get_insert, get_insert, get_insert, same]
  split_ifs <;> rfl

theorem insert_comm (apart : first.key ≠ second.key) :
    (bucket.insert first).insert second = (bucket.insert second).insert first := by
  apply ext_get
  intro key
  simp only [get_insert]
  split_ifs with atSecond atFirst
  · exact absurd (atFirst.symm.trans atSecond) apart
  · rfl
  · rfl
  · rfl

def NoTrustAt (bucket : Bucket) (key : List UInt8) : Prop :=
  ∀ line, bucket.get key ≠ some (.trust line)

def NoAccountAt (bucket : Bucket) (key : List UInt8) : Prop :=
  ∀ acc, bucket.get key ≠ some (.account acc)

instance (key : List UInt8) : Decidable (bucket.NoTrustAt key) :=
  decidable_of_iff ((bucket.get key).all (· matches .account _)) (by
    unfold NoTrustAt
    rcases bucket.get key with _ | _ | _ <;> simp)

instance (key : List UInt8) : Decidable (bucket.NoAccountAt key) :=
  decidable_of_iff ((bucket.get key).all (· matches .trust _)) (by
    unfold NoAccountAt
    rcases bucket.get key with _ | _ | _ <;> simp)

instance {holds : List UInt8 → Record → Prop} [∀ key, DecidablePred (holds key)] :
    Decidable (∀ key record, bucket.get key = some record → holds key record) :=
  decidable_of_iff (∀ key ∈ bucket.records.keys, ∀ record ∈ bucket.get key, holds key record)
    ⟨fun all key record found => all key (Finmap.mem_keys.mpr
      (Finmap.mem_of_lookup_eq_some found)) record found, fun all key _ => all key⟩

instance {holds : Account → Prop} [DecidablePred holds] :
    Decidable (∀ key acc, bucket.get key = some (.account acc) → holds acc) :=
  decidable_of_iff (∀ key record, bucket.get key = some record → true = match record with
    | .account acc => decide (holds acc)
    | .trust _ => true)
    ⟨fun all key acc found => of_decide_eq_true (all key _ found).symm,
      by rintro all key (_ | _) <;> grind⟩

instance {holds : Trust → Prop} [DecidablePred holds] :
    Decidable (∀ key line, bucket.get key = some (.trust line) → holds line) :=
  decidable_of_iff (∀ key record, bucket.get key = some record → true = match record with
    | .account _ => true
    | .trust line => decide (holds line))
    ⟨fun all key line found => of_decide_eq_true (all key _ found).symm,
      by rintro all key (_ | _) <;> grind⟩

end Bucket

def Bucket.ofRecords (records : List Record) : Bucket := records.foldl .insert .empty

/-- An account that owes nothing, and a line with room. -/
def Record.trader (accountID : String) (entryCount : Int32) : Record :=
  .account ⟨accountID, 1000000, "", 1, entryCount, some ⟨0, 0⟩⟩

def Record.holding (accountID : String) (asset : Asset) : Record :=
  .trust ⟨accountID, some asset, 1000, 10000, some ⟨0, 0⟩, 1⟩

/-- Two accounts to try the operations on. -/
def aliceAndBob : Bucket :=
  .ofRecords [.account ⟨"alice", 1000, "alice", 1, 0, some ⟨0, 0⟩⟩,
    .account ⟨"bob", 500, "bob", 1, 0, some ⟨0, 0⟩⟩]

end Ultiledger
