import Ultiledger.CryptoKeys
import Ultiledger.TxEncoding

/-! # The keys of the account bucket

Nothing separates the owner's id from the encoding of the asset in the key of a trust
line.
-/

namespace Ultiledger

open ProtobufWire

inductive StoreName where
  | account (accountID : String)
  | trust (owner : String) (asset : Asset)
  deriving DecidableEq, Repr

namespace StoreName

/-- The key that `account/manager.go` computes. -/
def key : StoreName → List UInt8
  | .account accountID => accountKey accountID
  | .trust owner asset => trustKey owner asset

def Within (ids : Set String) (assets : Set Asset) : StoreName → Prop
  | .account accountID => accountID ∈ ids
  | .trust owner asset => owner ∈ ids ∧ asset ∈ assets

end StoreName

section Encoding

theorem encodeVarint_eq_groups (bytes : Nat) {fuel number : Nat}
    (room : number < 128 ^ (bytes + 1)) (enough : number ≤ fuel) :
    encodeVarint (bytes + 1) number = groups fuel number := by
  induction bytes generalizing fuel number with
  | zero =>
    have small : number < 128 := by simpa using room
    cases fuel with
    | zero => simp [encodeVarint, groups, small]
    | succ fuel => simp [encodeVarint, groups, small]
  | succ bytes ih =>
    cases fuel with
    | zero =>
      obtain rfl : number = 0 := by omega
      rfl
    | succ fuel =>
      have later : encodeVarint (bytes + 1) (number / 128) = groups fuel (number / 128) :=
        ih (Nat.div_lt_of_lt_mul (by rwa [← Nat.pow_succ'])) (by omega)
      rw [encodeVarint, groups, later]

theorem encodeVarint_eq_varint {number : Nat} (word : number < 2 ^ 64) :
    encodeVarint 10 number = varint number :=
  encodeVarint_eq_groups 9 (Nat.lt_of_lt_of_le word (by decide)) (Nat.le_refl number)

theorem utf8_eq_nil_iff {text : String} : utf8 text = [] ↔ text = "" :=
  @utf8_inj text ""

theorem encodeString_eq (number : Nat) {tag : Nat} {text : String} (tagged : tag = number * 8 + 2)
    (small : tag < 128) (word : (utf8 text).length < 2 ^ 64) :
    encodeString (UInt8.ofNat tag) text =
      encodeFields (Slot.ofBytes number (utf8 text)).fields := by
  have marker : varint (number * 8 + 2) = [UInt8.ofNat tag] := by
    rw [← tagged, varint]
    cases tag <;> simp [groups, small]
  change _ = encodeFields (if utf8 text = [] then [] else [⟨number, .bytes (utf8 text)⟩])
  unfold encodeString
  by_cases blank : text = ""
  · rw [if_pos blank, if_pos (utf8_eq_nil_iff.mpr blank)]
    rfl
  · rw [if_neg blank, if_neg (mt utf8_eq_nil_iff.mp blank)]
    simp [encodeFields, Field.encode, Payload.encode, Payload.wireType, marker,
      encodeVarint_eq_varint word]

theorem encodeAsset_eq_fields {asset : Asset} (sized : asset.Sized) :
    encodeAsset asset = encodeFields asset.fields := by
  have typed : (if asset.assetType.number = 0 then []
      else 8 :: encodeVarint 10 asset.assetType.number) =
        encodeFields (Slot.ofNumber 1 asset.assetType.number).fields := by
    change _ = encodeFields (if asset.assetType.number = 0 then []
      else [⟨1, .varint asset.assetType.number⟩])
    split_ifs
    · rfl
    · simp [encodeFields, Field.encode, Payload.encode, Payload.wireType,
        encodeVarint_eq_varint sized.assetType, varint, groups]
  have assetName : encodeString 18 asset.assetName = _ :=
    encodeString_eq 2 rfl (by decide) sized.assetName
  have issuer : encodeString 26 asset.issuer = _ :=
    encodeString_eq 3 rfl (by decide) sized.issuer
  rw [encodeAsset, typed, assetName, issuer]
  simp [Asset.fields, Asset.slots, joinSlots, encodeFields]

theorem encodeAsset_inj {first second : Asset} (firstSized : first.Sized)
    (secondSized : second.Sized) (same : encodeAsset first = encodeAsset second) :
    first = second := by
  rw [encodeAsset_eq_fields firstSized, encodeAsset_eq_fields secondSized] at same
  exact Asset.fields_injective (encodeFields_injective same)

def Asset.blank : Asset := ⟨.native, "", ""⟩

theorem head_encodeAsset (asset : Asset) :
    ∀ byte ∈ (encodeAsset asset).head?, byte = 8 ∨ byte = 18 ∨ byte = 26 := by
  unfold encodeAsset encodeString
  split_ifs <;> simp

theorem encodeAsset_eq_nil {asset : Asset} (empty : encodeAsset asset = []) :
    asset = Asset.blank := by
  obtain ⟨assetType, assetName, issuer⟩ := asset
  unfold encodeAsset encodeString at empty
  split_ifs at empty with typed named issued
  · have native : assetType = .native := AssetType.number_injective typed
    simp only at named issued
    rw [native, named, issued, Asset.blank]
  all_goals simp at empty

end Encoding

section Distinct

variable (ids : Set String) (assets : Set Asset)

/-- No line is held in an asset without an encoding, and no id is another id with the
encoding of an asset, or the first part of one, behind it. -/
structure KeysApart : Prop where
  encoded : ∀ owner ∈ ids, ∀ asset ∈ assets, encodeAsset asset ≠ []
  unextended : ∀ owner ∈ ids, ∀ other ∈ ids, ∀ tail, tail ≠ [] → utf8 other = utf8 owner ++ tail →
    ∀ asset ∈ assets, encodeAsset asset ≠ tail ∧
      ∀ otherAsset ∈ assets, encodeAsset asset ≠ tail ++ encodeAsset otherAsset

variable {ids assets}

theorem keysApart_of_injOn (distinct : Set.InjOn StoreName.key {name | name.Within ids assets}) :
    KeysApart ids assets where
  encoded := by
    intro owner ownerMem asset assetMem empty
    have same : (StoreName.account owner).key = (StoreName.trust owner asset).key := by
      simp [StoreName.key, accountKey, trustKey, empty]
    have collide := distinct (show StoreName.Within ids assets (.account owner) from ownerMem)
      (show StoreName.Within ids assets (.trust owner asset) from ⟨ownerMem, assetMem⟩) same
    simp at collide
  unextended := by
    intro owner ownerMem other otherMem tail nonempty longer asset assetMem
    constructor
    · intro same
      have keys : (StoreName.account other).key = (StoreName.trust owner asset).key := by
        simp [StoreName.key, accountKey, trustKey, longer, same]
      have collide := distinct (show StoreName.Within ids assets (.account other) from otherMem)
        (show StoreName.Within ids assets (.trust owner asset) from ⟨ownerMem, assetMem⟩) keys
      simp at collide
    · intro otherAsset otherAssetMem same
      have keys : (StoreName.trust owner asset).key = (StoreName.trust other otherAsset).key := by
        simp [StoreName.key, trustKey, longer, same]
      have collide := distinct
        (show StoreName.Within ids assets (.trust owner asset) from ⟨ownerMem, assetMem⟩)
        (show StoreName.Within ids assets (.trust other otherAsset) from
          ⟨otherMem, otherAssetMem⟩) keys
      obtain ⟨rfl, -⟩ := StoreName.trust.inj collide
      exact nonempty (List.self_eq_append_right.mp longer)

theorem KeysApart.account_ne_trust (apart : KeysApart ids assets) {accountID owner : String}
    {asset : Asset} (idMem : accountID ∈ ids) (ownerMem : owner ∈ ids) (assetMem : asset ∈ assets) :
    (StoreName.account accountID).key ≠ (StoreName.trust owner asset).key := by
  intro same
  exact (apart.unextended owner ownerMem accountID idMem (encodeAsset asset)
    (apart.encoded owner ownerMem asset assetMem) same asset assetMem).1 rfl

theorem KeysApart.trust_inj (apart : KeysApart ids assets) (sized : ∀ asset ∈ assets, asset.Sized)
    {owner other : String} {asset otherAsset : Asset} (ownerMem : owner ∈ ids)
    (otherMem : other ∈ ids) (assetMem : asset ∈ assets) (otherAssetMem : otherAsset ∈ assets)
    {tail : List UInt8} (longer : utf8 other = utf8 owner ++ tail)
    (same : encodeAsset asset = tail ++ encodeAsset otherAsset) :
    owner = other ∧ asset = otherAsset := by
  by_cases empty : tail = []
  · rw [empty, List.append_nil] at longer
    rw [empty] at same
    exact ⟨utf8_injective longer.symm,
      encodeAsset_inj (sized asset assetMem) (sized otherAsset otherAssetMem) same⟩
  · exact absurd same ((apart.unextended owner ownerMem other otherMem tail empty longer asset
      assetMem).2 otherAsset otherAssetMem)

theorem KeysApart.injOn (apart : KeysApart ids assets) (sized : ∀ asset ∈ assets, asset.Sized) :
    Set.InjOn StoreName.key {name | name.Within ids assets} := by
  intro first firstIn second secondIn same
  cases first with
  | account accountID =>
    cases second with
    | account other => rw [utf8_injective same]
    | trust owner asset =>
      exact absurd same (apart.account_ne_trust firstIn secondIn.1 secondIn.2)
  | trust owner asset =>
    cases second with
    | account accountID =>
      exact absurd same.symm (apart.account_ne_trust secondIn firstIn.1 firstIn.2)
    | trust other otherAsset =>
      rcases List.append_eq_append_iff.mp same with ⟨tail, longer, rest⟩ | ⟨tail, longer, rest⟩
      · obtain ⟨rfl, rfl⟩ := apart.trust_inj sized firstIn.1 secondIn.1 firstIn.2 secondIn.2
          longer rest
        rfl
      · obtain ⟨rfl, rfl⟩ := apart.trust_inj sized secondIn.1 firstIn.1 secondIn.2 firstIn.2
          longer rest
        rfl

/-- The id has no byte that could be the tag of a field of an asset. -/
def Untagged (accountID : String) : Prop :=
  ∀ byte ∈ utf8 accountID, ¬ (byte = 8 ∨ byte = 18 ∨ byte = 26)

theorem keysApart_of_untagged (untagged : ∀ accountID ∈ ids, Untagged accountID)
    (inscribed : Asset.blank ∉ assets) : KeysApart ids assets where
  encoded := by
    intro owner _ asset assetMem empty
    rw [encodeAsset_eq_nil empty] at assetMem
    exact inscribed assetMem
  unextended := by
    intro owner _ other otherMem tail nonempty longer asset _
    have plain : ∀ byte ∈ tail, ¬ (byte = 8 ∨ byte = 18 ∨ byte = 26) := by
      intro byte byteMem
      apply untagged other otherMem byte
      rw [longer]
      exact List.mem_append_right _ byteMem
    obtain ⟨byte, rest, rfl⟩ := List.exists_cons_of_ne_nil nonempty
    have starts : ∀ later, encodeAsset asset ≠ byte :: later := by
      intro later same
      exact plain byte (.head _) (head_encodeAsset asset byte (by simp [same]))
    exact ⟨starts rest, fun otherAsset _ => starts _⟩

theorem utf8_eq_flatMap (text : String) : utf8 text = text.toList.flatMap String.utf8EncodeChar := by
  have bytes : text.toUTF8 = (text.toList.flatMap String.utf8EncodeChar).toByteArray := by
    conv_lhs => rw [← String.ofList_toList (s := text)]
    exact String.toByteArray_ofList
  rw [utf8, bytes]
  simp

theorem untagged_of_decodeKey {text : String} {ultKey : ULTKey}
    (decoded : decodeKey .base58 text = some ultKey) : Untagged text := by
  obtain ⟨-, -, rest, read⟩ := (decodeKey_eq_some_iff .base58).mp decoded
  have signs := Base58.mem_alphabet_of_decode read
  have plain : ∀ sign ∈ Base58.alphabet, ∀ byte ∈ String.utf8EncodeChar sign,
      ¬ (byte = 8 ∨ byte = 18 ∨ byte = 26) := by
    have checked : (Base58.alphabet.all fun sign => (String.utf8EncodeChar sign).all fun byte =>
        byte != 8 && byte != 18 && byte != 26) = true := by
      decide +kernel
    simpa [and_assoc] using checked
  intro byte byteMem
  rw [utf8_eq_flatMap] at byteMem
  obtain ⟨sign, signMem, byteIn⟩ := List.mem_flatMap.mp byteMem
  exact plain sign (signs sign signMem) byte byteIn

end Distinct

/-- Distinct records have distinct keys exactly if the keys are apart, as they are if the
ids are key strings and no line is held in the blank asset. -/
theorem storeKeys_distinct_iff (ids : Set String) (assets : Set Asset)
    (sized : ∀ asset ∈ assets, asset.Sized) :
    (Set.InjOn StoreName.key {name | name.Within ids assets} ↔ KeysApart ids assets) ∧
    ((∀ accountID ∈ ids, ∃ ultKey, decodeKey .base58 accountID = some ultKey) →
      Asset.blank ∉ assets → Set.InjOn StoreName.key {name | name.Within ids assets}) := by
  refine ⟨⟨keysApart_of_injOn, fun apart => apart.injOn sized⟩, ?_⟩
  intro texts inscribed
  refine (keysApart_of_untagged ?_ inscribed).injOn sized
  intro accountID idMem
  obtain ⟨ultKey, decoded⟩ := texts accountID idMem
  exact untagged_of_decodeKey decoded

private def usdOfBob : Asset := ⟨.custom, "USD", "bob"⟩

/-- Two account ids and an asset. -/
theorem storeKeys_distinct_alice :
    (StoreName.account "bob").key ≠ (StoreName.trust "alice" usdOfBob).key := by
  have sized : ∀ asset ∈ ({usdOfBob} : Set Asset), asset.Sized := by
    rintro asset rfl
    exact ⟨by decide +kernel, by decide +kernel, by decide +kernel⟩
  have apart : KeysApart {"alice", "bob"} {usdOfBob} := by
    refine keysApart_of_untagged ?_ (by simp [usdOfBob, Asset.blank])
    rintro accountID (rfl | rfl)
    · unfold Untagged
      decide +kernel
    · unfold Untagged
      decide +kernel
  intro same
  have collide := (storeKeys_distinct_iff _ _ sized).1.mpr apart
    (show StoreName.Within {"alice", "bob"} {usdOfBob} (.account "bob") from .inr rfl)
    (show StoreName.Within {"alice", "bob"} {usdOfBob} (.trust "alice" usdOfBob) from
      ⟨.inl rfl, rfl⟩) same
  simp at collide

/-- The id of a new account is the key of a line; an id with the type of an asset behind
it shares a key with the id alone; and the blank asset adds nothing to its owner's id. -/
theorem storeKeys_collide :
    ((StoreName.account "alice\x08\x01\x12\x03USD\x1a\x03bob").key =
        (StoreName.trust "alice" usdOfBob).key ∧
      (Op.CreateAccount.apply ⟨100⟩ ⟨"bob", "alice\x08\x01\x12\x03USD\x1a\x03bob", 200, 100, 9⟩
        aliceAndBob).isOk = true ∧
      (Op.Trust.apply ⟨100⟩ ⟨"alice", some usdOfBob, 10⟩ aliceAndBob).isOk = true) ∧
    (StoreName.trust "alice" usdOfBob).key =
      (StoreName.trust "alice\x08\x01" ⟨.native, "USD", "bob"⟩).key ∧
    (StoreName.trust "alice" Asset.blank).key = (StoreName.account "alice").key := by
  decide +kernel

end Ultiledger
