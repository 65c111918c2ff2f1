import Ultiledger.Base58

/-!
# Key strings

`EncodeKey` and `DecodeKey` of `crypto/key.go`.  The text of a key is the base 58
encoding of a type byte and 32 bytes of hash.  The decoder does not know the type of
offer ids, and reads the first 33 bytes of whatever the text stands for.
-/

namespace Ultiledger

inductive KeyType where
  | accountID
  | seed
  | tx
  | txSet
  | nodeID
  | ledgerHeader
  | offerID
  deriving DecidableEq, Repr

structure ULTKey where
  code : KeyType
  hash : List UInt8
  deriving DecidableEq, Repr

def KeyType.number : KeyType → UInt8
  | .accountID => 1
  | .seed => 2
  | .tx => 3
  | .txSet => 4
  | .nodeID => 5
  | .ledgerHeader => 6
  | .offerID => 7

/-- The switch at the end of `DecodeKey`. -/
def KeyType.accepted (number : UInt8) : Option KeyType :=
  match number with
  | 1 => some .accountID
  | 2 => some .seed
  | 3 => some .tx
  | 4 => some .txSet
  | 6 => some .ledgerHeader
  | 5 => some .nodeID
  | _ => none

/-- What is assumed of the two functions of the base 58 package. -/
structure TextCodec where
  encode : List UInt8 → String
  decode : String → Option (List UInt8)
  decode_empty : decode "" = none
  decode_encode : ∀ bytes, bytes ≠ [] → decode (encode bytes) = some bytes
  encode_decode : ∀ text bytes, decode text = some bytes → encode bytes = text

def TextCodec.base58 : TextCodec where
  encode := Base58.encode
  decode := Base58.decode
  decode_empty := rfl
  decode_encode _ := Base58.decode_encode
  encode_decode _ _ := Base58.encode_decode

/-- `binary.Read` of a key, which leaves what follows the key unread. -/
def readKey : List UInt8 → Option (UInt8 × List UInt8)
  | [] => none
  | code :: rest => if 32 ≤ rest.length then some (code, rest.take 32) else none

section Keys

variable (b58 : TextCodec)

def encodeKey (ultKey : ULTKey) : String := b58.encode (ultKey.code.number :: ultKey.hash)

def decodeKey (key : String) : Option ULTKey :=
  if key = "" then none
  else
    match b58.decode key with
    | none => none
    | some b =>
      match readKey b with
      | none => none
      | some (code, hash) => (KeyType.accepted code).map fun keyType => ⟨keyType, hash⟩

theorem KeyType.accepted_eq_some_iff {number : UInt8} {keyType : KeyType} :
    KeyType.accepted number = some keyType ↔
      number = keyType.number ∧ keyType ≠ .offerID := by
  constructor
  · intro known
    unfold KeyType.accepted at known
    split at known
    all_goals first
      | (obtain rfl := Option.some.inj known; exact ⟨rfl, by decide⟩)
      | simp at known
  · rintro ⟨rfl, apart⟩
    cases keyType with
    | offerID => exact absurd rfl apart
    | _ => rfl

theorem readKey_eq_some_iff {bytes hash : List UInt8} {code : UInt8} :
    readKey bytes = some (code, hash) ↔
      hash.length = 32 ∧ ∃ rest, bytes = code :: (hash ++ rest) := by
  cases bytes with
  | nil => simp [readKey]
  | cons first rest =>
    constructor
    · intro read
      rw [readKey] at read
      split_ifs at read with enough
      cases read
      exact ⟨by rw [List.length_take]; omega, rest.drop 32, by rw [List.take_append_drop]⟩
    · rintro ⟨length, later, same⟩
      cases same
      have enough : 32 ≤ (hash ++ later).length := by
        rw [List.length_append]
        omega
      rw [readKey, if_pos enough, ← length, List.take_left]

/-- All that a decoded text can be: the bytes of a key of a known type, and any bytes
after them. -/
theorem decodeKey_eq_some_iff {text : String} {ultKey : ULTKey} :
    decodeKey b58 text = some ultKey ↔
      ultKey.hash.length = 32 ∧ ultKey.code ≠ .offerID ∧
        ∃ rest, b58.decode text = some (ultKey.code.number :: (ultKey.hash ++ rest)) := by
  unfold decodeKey
  by_cases blank : text = ""
  · simp [blank, b58.decode_empty]
  · rw [if_neg blank]
    cases decoded : b58.decode text with
    | none => simp
    | some bytes =>
      dsimp only
      constructor
      · intro read
        cases found : readKey bytes with
        | none => simp [found] at read
        | some found' =>
          obtain ⟨code, hash⟩ := found'
          simp only [found] at read
          obtain ⟨keyType, known, rfl⟩ := Option.map_eq_some_iff.mp read
          obtain ⟨rfl, apart⟩ := KeyType.accepted_eq_some_iff.mp known
          obtain ⟨length, rest, rfl⟩ := readKey_eq_some_iff.mp found
          exact ⟨length, apart, rest, rfl⟩
      · rintro ⟨length, apart, rest, same⟩
        cases same
        rw [readKey_eq_some_iff.mpr ⟨length, rest, rfl⟩]
        simp only [KeyType.accepted_eq_some_iff.mpr ⟨rfl, apart⟩, Option.map_some]

theorem decode_encodeKey (ultKey : ULTKey) :
    b58.decode (encodeKey b58 ultKey) = some (ultKey.code.number :: ultKey.hash) :=
  b58.decode_encode _ (by simp)

theorem encodeKey_eq_iff {text : String} {ultKey : ULTKey}
    (read : decodeKey b58 text = some ultKey) :
    encodeKey b58 ultKey = text ↔ (b58.decode text).map List.length = some 33 := by
  obtain ⟨length, -, rest, decoded⟩ := (decodeKey_eq_some_iff b58).mp read
  constructor
  · rintro rfl
    rw [decode_encodeKey, Option.map_some, List.length_cons, length]
  · intro exact33
    rw [decoded, Option.map_some, List.length_cons, List.length_append, Option.some.injEq] at exact33
    obtain rfl : rest = [] := List.length_eq_zero_iff.mp (by omega)
    rw [List.append_nil] at decoded
    exact b58.encode_decode _ _ decoded

/-- The text of a key is decoded to the key, unless it is an offer id; a decoded text is
the text of its key exactly if it stands for 33 bytes. -/
theorem keyStrings_bijective_iff :
    (∀ ultKey : ULTKey, ultKey.hash.length = 32 →
      (decodeKey b58 (encodeKey b58 ultKey) = some ultKey ↔ ultKey.code ≠ .offerID)) ∧
    (∀ text ultKey, decodeKey b58 text = some ultKey →
      (encodeKey b58 ultKey = text ↔ (b58.decode text).map List.length = some 33)) := by
  refine ⟨?_, fun text ultKey read => encodeKey_eq_iff b58 read⟩
  intro ultKey length
  rw [decodeKey_eq_some_iff, decode_encodeKey]
  constructor
  · rintro ⟨-, apart, -⟩
    exact apart
  · intro apart
    exact ⟨length, apart, [], by rw [List.append_nil]⟩

end Keys

private def zeroHash : List UInt8 := List.replicate 32 0

/-- The text of an account id is decoded to its key, and no other text of 33 bytes is. -/
theorem keyStrings_bijective_account :
    decodeKey .base58 "JEKNVnkbo3jma5nREBBJCDoXFVeKkD56V3xKrvRmWxFH" =
        some ⟨.accountID, zeroHash⟩ ∧
      decodeKey .base58 (encodeKey .base58 ⟨.accountID, zeroHash⟩) =
        some ⟨.accountID, zeroHash⟩ ∧
      encodeKey .base58 ⟨.accountID, zeroHash⟩ =
        "JEKNVnkbo3jma5nREBBJCDoXFVeKkD56V3xKrvRmWxFH" :=
  ⟨by decide +kernel,
    ((keyStrings_bijective_iff .base58).1 ⟨.accountID, zeroHash⟩ (by decide)).mpr (by decide),
    ((keyStrings_bijective_iff .base58).2 _ _ (by decide +kernel)).mpr (by decide +kernel)⟩

/-- The text of an offer id is refused; and the bytes of an account id with one more byte
are a second text for the account. -/
theorem keyStrings_not_bijective :
    decodeKey .base58 (encodeKey .base58 ⟨.offerID, zeroHash⟩) = none ∧
      decodeKey .base58 "2K3n5t4wSaF5mj27Tw9vStXWLWyRjjiH5Cp3CFLpKVCr1d" =
        some ⟨.accountID, zeroHash⟩ ∧
      encodeKey .base58 ⟨.accountID, zeroHash⟩ ≠
        "2K3n5t4wSaF5mj27Tw9vStXWLWyRjjiH5Cp3CFLpKVCr1d" := by
  decide +kernel

end Ultiledger
