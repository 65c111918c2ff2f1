import Mathlib.Data.List.Basic
import Mathlib.Data.List.Flatten

/-!
# The wire format of protocol buffers

A message is the sequence of its fields, each with its number, wire type and content.
The fields can be told apart without knowing where the message ends (`PrefixCode`), but
messages in a row only if a field marks where each one starts (`flatten_injective`).
-/

namespace ProtobufWire

section Codes

variable {α β : Type} {marks : α → Prop}

/-- An encoding that a reader can cut off from whatever follows it. -/
structure PrefixCode (encode : α → List β) : Prop where
  nonempty : ∀ value, encode value ≠ []
  cancel : ∀ first second firstRest secondRest,
    encode first ++ firstRest = encode second ++ secondRest →
      first = second ∧ firstRest = secondRest

theorem PrefixCode.flatMap_injective {encode : α → List β} (code : PrefixCode encode) :
    Function.Injective fun values : List α => values.flatMap encode := by
  intro first second same
  induction first generalizing second with
  | nil =>
    cases second with
    | nil => rfl
    | cons value rest =>
      exact absurd (List.append_eq_nil_iff.mp same.symm).1 (code.nonempty value)
  | cons value rest ih =>
    cases second with
    | nil =>
      exact absurd (List.append_eq_nil_iff.mp same).1 (code.nonempty value)
    | cons other others =>
      obtain ⟨sameValue, sameRest⟩ := code.cancel value other _ _ same
      rw [sameValue, ih sameRest]

/-- A block that its first element marks, and no later one. -/
structure Marked (marks : α → Prop) (block : List α) : Prop where
  first : ∃ head tail, block = head :: tail ∧ marks head
  later : ∀ element ∈ block.tail, ¬ marks element

theorem append_inj_of_unmarked {first second firstRest secondRest : List α}
    (firstPlain : ∀ element ∈ first, ¬ marks element)
    (secondPlain : ∀ element ∈ second, ¬ marks element)
    (firstStarts : ∀ element ∈ firstRest.head?, marks element)
    (secondStarts : ∀ element ∈ secondRest.head?, marks element)
    (same : first ++ firstRest = second ++ secondRest) :
    first = second ∧ firstRest = secondRest := by
  induction first generalizing second with
  | nil =>
    cases second with
    | nil => exact ⟨rfl, same⟩
    | cons element rest =>
      rw [List.nil_append] at same
      exact absurd (firstStarts element (by simp [same]))
        (secondPlain element (.head _))
  | cons element rest ih =>
    cases second with
    | nil =>
      rw [List.nil_append] at same
      exact absurd (secondStarts element (by simp [← same]))
        (firstPlain element (.head _))
    | cons other others =>
      obtain ⟨rfl, sameRest⟩ := List.cons.inj same
      obtain ⟨rfl, rest⟩ := ih
        (List.forall_mem_cons.mp firstPlain).2
        (List.forall_mem_cons.mp secondPlain).2 sameRest
      exact ⟨rfl, rest⟩

theorem head_flatten_marked {blocks : List (List α)}
    (marked : ∀ block ∈ blocks, Marked marks block) :
    ∀ element ∈ blocks.flatten.head?, marks element := by
  cases blocks with
  | nil => simp
  | cons block rest =>
    obtain ⟨head, tail, rfl, mark⟩ := (marked _ (.head _)).first
    simpa using mark

theorem flatten_injective {first second : List (List α)}
    (firstMarked : ∀ block ∈ first, Marked marks block)
    (secondMarked : ∀ block ∈ second, Marked marks block)
    (same : first.flatten = second.flatten) : first = second := by
  induction first generalizing second with
  | nil =>
    cases second with
    | nil => rfl
    | cons block rest =>
      obtain ⟨head, tail, rfl, -⟩ := (secondMarked _ (.head _)).first
      simp at same
  | cons block rest ih =>
    obtain ⟨head, tail, rfl, mark⟩ := (firstMarked _ (.head _)).first
    have plain : ∀ element ∈ tail, ¬ marks element := (firstMarked _ (.head _)).later
    cases second with
    | nil => simp at same
    | cons other others =>
      obtain ⟨otherHead, otherTail, rfl, -⟩ := (secondMarked _ (.head _)).first
      have otherPlain : ∀ element ∈ otherTail, ¬ marks element :=
        (secondMarked _ (.head _)).later
      have restMarked : ∀ later ∈ rest, Marked marks later :=
        (List.forall_mem_cons.mp firstMarked).2
      have othersMarked : ∀ later ∈ others, Marked marks later :=
        (List.forall_mem_cons.mp secondMarked).2
      simp only [List.flatten_cons, List.cons_append, List.cons.injEq] at same
      obtain ⟨rfl, sameRest⟩ := same
      obtain ⟨rfl, sameBlocks⟩ := append_inj_of_unmarked plain otherPlain
        (head_flatten_marked restMarked) (head_flatten_marked othersMarked) sameRest
      rw [ih restMarked othersMarked sameBlocks]

end Codes

section Varints

def groups : Nat → Nat → List UInt8
  | 0, number => [UInt8.ofNat number]
  | fuel + 1, number =>
    if number < 128 then [UInt8.ofNat number]
    else UInt8.ofNat (number % 128 + 128) :: groups fuel (number / 128)

def varint (number : Nat) : List UInt8 := groups number number

/-- The varint at the start of the bytes, and what follows it. -/
def readVarint : List UInt8 → Option (Nat × List UInt8)
  | [] => none
  | byte :: rest =>
    if byte.toNat < 128 then some (byte.toNat, rest)
    else (readVarint rest).map fun (number, later) =>
      (byte.toNat - 128 + 128 * number, later)

theorem readVarint_groups (rest : List UInt8) {fuel number : Nat} (enough : number ≤ fuel) :
    readVarint (groups fuel number ++ rest) = some (number, rest) := by
  induction fuel generalizing number with
  | zero =>
    obtain rfl : number = 0 := by omega
    rfl
  | succ fuel ih =>
    rw [groups]
    split_ifs with small
    · have byte : (UInt8.ofNat number).toNat = number := by
        rw [UInt8.toNat_ofNat']
        omega
      simp [readVarint, byte, small]
    · have byte : (UInt8.ofNat (number % 128 + 128)).toNat = number % 128 + 128 := by
        rw [UInt8.toNat_ofNat']
        omega
      have later : readVarint (groups fuel (number / 128) ++ rest) =
          some (number / 128, rest) := ih (by omega)
      simp only [List.cons_append, readVarint, byte, later, Option.map_some]
      rw [if_neg (by omega)]
      congr 2
      omega

theorem readVarint_varint (number : Nat) (rest : List UInt8) :
    readVarint (varint number ++ rest) = some (number, rest) :=
  readVarint_groups rest (Nat.le_refl number)

theorem varint_cancel {first second : Nat} {firstRest secondRest : List UInt8}
    (same : varint first ++ firstRest = varint second ++ secondRest) :
    first = second ∧ firstRest = secondRest := by
  have read := congrArg readVarint same
  rw [readVarint_varint, readVarint_varint] at read
  simpa using read

theorem varint_ne_nil (number : Nat) : varint number ≠ [] := by
  intro blank
  have read := readVarint_varint number []
  simp [blank, readVarint] at read

end Varints

section Fields

/-- The content of a field, by its wire type. -/
inductive Payload where
  | varint (number : Nat)
  | bytes (content : List UInt8)
  deriving DecidableEq, Repr

structure Field where
  number : Nat
  payload : Payload
  deriving DecidableEq, Repr

def Payload.wireType : Payload → Nat
  | .varint _ => 0
  | .bytes _ => 2

def Payload.encode : Payload → List UInt8
  | .varint number => ProtobufWire.varint number
  | .bytes content => ProtobufWire.varint content.length ++ content

def Field.encode (field : Field) : List UInt8 :=
  varint (field.number * 8 + field.payload.wireType) ++ field.payload.encode

def encodeFields (fields : List Field) : List UInt8 := fields.flatMap Field.encode

theorem Payload.cancel {first second : Payload} {firstRest secondRest : List UInt8}
    (sameType : first.wireType = second.wireType)
    (same : first.encode ++ firstRest = second.encode ++ secondRest) :
    first = second ∧ firstRest = secondRest := by
  cases first with
  | varint number =>
    cases second with
    | varint other =>
      obtain ⟨rfl, rest⟩ := varint_cancel same
      exact ⟨rfl, rest⟩
    | bytes content => simp [wireType] at sameType
  | bytes content =>
    cases second with
    | varint other => simp [wireType] at sameType
    | bytes other =>
      simp only [encode, List.append_assoc] at same
      obtain ⟨sameLength, sameRest⟩ := varint_cancel same
      obtain ⟨rfl, rest⟩ := List.append_inj sameRest sameLength
      exact ⟨rfl, rest⟩

theorem wireType_lt (payload : Payload) : payload.wireType < 8 := by
  cases payload <;> simp [Payload.wireType]

theorem prefixCode_field : PrefixCode Field.encode where
  nonempty field blank := varint_ne_nil _ (List.append_eq_nil_iff.mp blank).1
  cancel first second firstRest secondRest same := by
    simp only [Field.encode, List.append_assoc] at same
    obtain ⟨sameKey, samePayload⟩ := varint_cancel same
    have firstType := wireType_lt first.payload
    have secondType := wireType_lt second.payload
    have sameNumber : first.number = second.number := by omega
    have sameType : first.payload.wireType = second.payload.wireType := by omega
    obtain ⟨payload, rest⟩ := Payload.cancel sameType samePayload
    exact ⟨by cases first; cases second; simp_all, rest⟩

theorem encodeFields_injective : Function.Injective encodeFields :=
  prefixCode_field.flatMap_injective

end Fields

section Messages

@[ext]
structure Slot where
  number : Nat
  fields : List Field
  numbered : ∀ field ∈ fields, field.number = number

namespace Slot

def ofNumber (number value : Nat) : Slot where
  number := number
  fields := if value = 0 then [] else [⟨number, .varint value⟩]
  numbered := by
    split_ifs <;> simp

def ofBytes (number : Nat) (content : List UInt8) : Slot where
  number := number
  fields := if content = [] then [] else [⟨number, .bytes content⟩]
  numbered := by
    split_ifs <;> simp

def ofMessages (number : Nat) (messages : List (List Field)) : Slot where
  number := number
  fields := messages.map fun fields => ⟨number, .bytes (encodeFields fields)⟩
  numbered := by simp

@[simp]
theorem ofNumber_inj {number first second : Nat} :
    ofNumber number first = ofNumber number second ↔ first = second := by
  constructor
  · intro same
    have fields := congrArg Slot.fields same
    simp only [ofNumber] at fields
    split_ifs at fields with firstZero secondZero secondZero
    · rw [firstZero, secondZero]
    · simpa using fields
  · exact fun same => by rw [same]

@[simp]
theorem ofBytes_inj {number : Nat} {first second : List UInt8} :
    ofBytes number first = ofBytes number second ↔ first = second := by
  constructor
  · intro same
    have fields := congrArg Slot.fields same
    simp only [ofBytes] at fields
    split_ifs at fields with firstBlank secondBlank secondBlank
    · rw [firstBlank, secondBlank]
    · simpa using fields
  · exact fun same => by rw [same]

@[simp]
theorem ofMessages_inj {number : Nat} {first second : List (List Field)} :
    ofMessages number first = ofMessages number second ↔ first = second := by
  constructor
  · intro same
    have written : Function.Injective fun fields =>
        (⟨number, .bytes (encodeFields fields)⟩ : Field) := by
      intro left right sameField
      simp only [Field.mk.injEq, Payload.bytes.injEq, true_and] at sameField
      exact encodeFields_injective sameField
    exact List.map_injective_iff.mpr written (congrArg Slot.fields same)
  · exact fun same => by rw [same]

end Slot

def joinSlots (slots : List Slot) : List Field := slots.flatMap Slot.fields

theorem number_of_mem_joinSlots {slots : List Slot} {field : Field}
    (fieldMem : field ∈ joinSlots slots) : field.number ∈ slots.map Slot.number := by
  obtain ⟨slot, slotMem, inSlot⟩ := List.mem_flatMap.mp fieldMem
  exact List.mem_map.mpr ⟨slot, slotMem, (slot.numbered field inSlot).symm⟩

/-- The fields of one number come apart from fields of other numbers. -/
theorem append_inj_of_numbered {number : Nat} {first second firstRest secondRest : List Field}
    (firstAll : ∀ field ∈ first, field.number = number)
    (secondAll : ∀ field ∈ second, field.number = number)
    (firstNone : ∀ field ∈ firstRest, field.number ≠ number)
    (secondNone : ∀ field ∈ secondRest, field.number ≠ number)
    (same : first ++ firstRest = second ++ secondRest) :
    first = second ∧ firstRest = secondRest := by
  have kept := congrArg (List.filter fun field => field.number = number) same
  have keepsAll : ∀ {fields : List Field}, (∀ field ∈ fields, field.number = number) →
      fields.filter (fun field => field.number = number) = fields := fun all =>
    List.filter_eq_self.mpr fun field fieldMem => by simpa using all field fieldMem
  have dropsAll : ∀ {fields : List Field}, (∀ field ∈ fields, field.number ≠ number) →
      fields.filter (fun field => field.number = number) = [] := fun none =>
    List.filter_eq_nil_iff.mpr fun field fieldMem => by simpa using none field fieldMem
  rw [List.filter_append, List.filter_append, keepsAll firstAll, keepsAll secondAll,
    dropsAll firstNone, dropsAll secondNone, List.append_nil, List.append_nil] at kept
  obtain rfl := kept
  exact ⟨rfl, List.append_cancel_left same⟩

theorem joinSlots_inj {first second : List Slot}
    (sameNumbers : first.map Slot.number = second.map Slot.number)
    (distinct : (first.map Slot.number).Nodup) (same : joinSlots first = joinSlots second) :
    first = second := by
  induction first generalizing second with
  | nil =>
    cases second with
    | nil => rfl
    | cons slot rest => simp at sameNumbers
  | cons slot rest ih =>
    cases second with
    | nil => simp at sameNumbers
    | cons other others =>
      obtain ⟨sameNumber, sameRest⟩ := List.cons.inj sameNumbers
      obtain ⟨fresh, distinctRest⟩ := List.nodup_cons.mp distinct
      have apart := append_inj_of_numbered slot.numbered
        (fun field fieldMem => (other.numbered field fieldMem).trans sameNumber.symm)
        (fun field fieldMem clash => fresh (clash ▸ number_of_mem_joinSlots fieldMem))
        (fun field fieldMem clash =>
          fresh (sameRest ▸ clash ▸ number_of_mem_joinSlots fieldMem)) same
      rw [ih sameRest distinctRest apart.2, Slot.ext sameNumber apart.1]

/-- Messages of one shape are determined by their fields if their slots determine
them. -/
theorem joinSlots_injective {Message : Type} {slots : Message → List Slot} (numbers : List Nat)
    (shape : ∀ message, (slots message).map Slot.number = numbers) (distinct : numbers.Nodup)
    (determined : Function.Injective slots) :
    Function.Injective fun message => joinSlots (slots message) := by
  intro first second same
  apply determined
  apply joinSlots_inj ((shape first).trans (shape second).symm) _ same
  rw [shape]
  exact distinct

/-- A message whose first slot holds one field starts with it, and has no other
field of that number. -/
theorem marked_joinSlots {slot : Slot} {rest : List Slot} {field : Field}
    (single : slot.fields = [field]) (fresh : slot.number ∉ rest.map Slot.number) :
    Marked (fun field => field.number = slot.number) (joinSlots (slot :: rest)) := by
  have start : joinSlots (slot :: rest) = field :: joinSlots rest := by
    simp [joinSlots, single]
  rw [start]
  refine ⟨⟨field, joinSlots rest, rfl, slot.numbered field (by simp [single])⟩, ?_⟩
  intro later laterMem same
  exact fresh (same ▸ number_of_mem_joinSlots laterMem)

end Messages

end ProtobufWire
