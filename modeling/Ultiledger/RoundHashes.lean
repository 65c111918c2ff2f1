import Ultiledger.RoundLeaders
import Ultiledger.StoreKeys

/-! # What the hashes of a nomination round are computed from

`getNodeHash` and `getConsensusValueHash` write the index, the purpose and the round into
one buffer, and each `PutUvarint` starts again at its first byte.
-/

namespace Ultiledger

open ProtobufWire

/-- What a hash is for; the numbers `hashN`, `hashP` and `hashK` of the source. -/
inductive HashPurpose where
  | neighbour
  | priority
  | value
  deriving DecidableEq, Repr

def HashPurpose.number : HashPurpose → Nat
  | .neighbour => 1
  | .priority => 2
  | .value => 3

section PaddedVarints

def padded : Nat → Nat → List UInt8
  | 0, _ => []
  | bytes + 1, number =>
    UInt8.ofNat (if number < 128 then number else number % 128 + 128) ::
      padded bytes (number / 128)

@[simp]
theorem length_padded (bytes number : Nat) : (padded bytes number).length = bytes := by
  induction bytes generalizing number with
  | zero => rfl
  | succ bytes ih => simp [padded, ih]

theorem padded_zero (bytes : Nat) : padded bytes 0 = List.replicate bytes 0 := by
  induction bytes with
  | zero => rfl
  | succ bytes ih => simp [padded, ih, List.replicate_succ]

theorem encodeVarint_append_zeros (bytes number : Nat) :
    encodeVarint bytes number ++
      (List.replicate bytes 0).drop (encodeVarint bytes number).length =
        padded bytes number := by
  induction bytes generalizing number with
  | zero => rfl
  | succ bytes ih =>
    rw [encodeVarint, padded]
    by_cases small : number < 128
    · simp [small, Nat.div_eq_of_lt small, padded_zero, List.replicate_succ]
    · simpa [small, List.replicate_succ] using ih (number / 128)

theorem drop_padded (count bytes number : Nat) :
    (padded bytes number).drop count = padded (bytes - count) (number / 128 ^ count) := by
  induction count generalizing bytes number with
  | zero => simp
  | succ count ih =>
    cases bytes with
    | zero => simp [padded]
    | succ bytes =>
      rw [padded, List.drop_succ_cons, ih, Nat.add_sub_add_right, Nat.div_div_eq_div_mul,
        ← Nat.pow_succ']

theorem padded_inj {bytes first second : Nat} (room : first < 128 ^ bytes)
    (otherRoom : second < 128 ^ bytes) :
    padded bytes first = padded bytes second ↔ first = second := by
  refine ⟨fun same => ?_, congrArg _⟩
  induction bytes generalizing first second with
  | zero => omega
  | succ bytes ih =>
    rw [Nat.pow_succ'] at room otherRoom
    rw [padded, padded, List.cons.injEq] at same
    have high : first / 128 = second / 128 :=
      ih (Nat.div_lt_of_lt_mul room) (Nat.div_lt_of_lt_mul otherRoom) same.2
    have low := congrArg UInt8.toNat same.1
    rw [UInt8.toNat_ofNat', UInt8.toNat_ofNat'] at low
    split_ifs at low <;> omega

end PaddedVarints

/-- The bytes of the buffer that is hashed. -/
def RoundSeed.hashedBytes (seed : RoundSeed) (purpose : HashPurpose) (text : String) :
    List UInt8 :=
  let buf := putUvarint (List.replicate 10 0) seed.index
  let buf := buf ++ utf8 seed.prevConsensusValue
  let buf := putUvarint buf purpose.number
  let buf := putUvarint buf seed.nominationRound
  buf ++ utf8 text

theorem getNodeHash_eq (seed : RoundSeed) (nodeID : String) (isPriority : Bool) :
    getNodeHash seed nodeID isPriority =
      seed.sha256HashUint64
        (seed.hashedBytes (if isPriority then .priority else .neighbour) nodeID) := by
  cases isPriority <;> rfl

theorem getConsensusValueHash_eq (seed : RoundSeed) (vote : String) :
    getConsensusValueHash seed vote =
      seed.sha256HashUint64 (seed.hashedBytes .value vote) := rfl

/-- The number of bytes that the round takes at the start of the buffer. -/
def RoundSeed.covered (seed : RoundSeed) : Nat := (encodeVarint 10 seed.nominationRound).length

section Buffer

variable (seed : RoundSeed)

theorem RoundSeed.covered_pos : 0 < seed.covered := by
  rw [covered, encodeVarint]
  split_ifs <;> simp

theorem RoundSeed.covered_le : seed.covered ≤ 10 := by
  have within : ∀ bytes number, (encodeVarint bytes number).length ≤ bytes := by
    intro bytes number
    have total := congrArg List.length (encodeVarint_append_zeros bytes number)
    simp only [List.length_append, length_padded] at total
    omega
  exact within 10 seed.nominationRound

theorem RoundSeed.hashedBytes_eq (purpose : HashPurpose) (text : String) :
    seed.hashedBytes purpose text =
      encodeVarint 10 seed.nominationRound ++
        (padded (10 - seed.covered) (seed.index / 128 ^ seed.covered) ++
          (utf8 seed.prevConsensusValue ++ utf8 text)) := by
  have purposeByte : encodeVarint 10 purpose.number = [UInt8.ofNat purpose.number] := by
    cases purpose <;> rfl
  have overwritten : ∀ buf : List UInt8,
      putUvarint (putUvarint buf purpose.number) seed.nominationRound =
        encodeVarint 10 seed.nominationRound ++ buf.drop seed.covered := by
    intro buf
    obtain ⟨more, count⟩ := Nat.exists_eq_succ_of_ne_zero seed.covered_pos.ne'
    rw [putUvarint, putUvarint, purposeByte, ← covered, count]
    simp
  have indexBytes : putUvarint (List.replicate 10 0) seed.index = padded 10 seed.index :=
    encodeVarint_append_zeros 10 seed.index
  simp only [hashedBytes, overwritten, indexBytes]
  rw [List.drop_append_of_le_length (by simpa using seed.covered_le), drop_padded]
  simp only [List.append_assoc]

end Buffer

def roundSeed (prevConsensusValue : String) (sha256HashUint64 : List UInt8 → Nat)
    (index nominationRound : UInt64) : RoundSeed :=
  ⟨index.toNat, prevConsensusValue, nominationRound.toNat, sha256HashUint64⟩

/-- The hashed bytes do not tell the purposes apart.  They tell the rounds apart, and the
indices above the groups of seven bits that the round covers. -/
theorem hashedBytes_eq_iff (prevConsensusValue text : String)
    (sha256HashUint64 : List UInt8 → Nat) (index otherIndex round otherRound : UInt64)
    (purpose otherPurpose : HashPurpose) :
    let seed := roundSeed prevConsensusValue sha256HashUint64
    (seed index round).hashedBytes purpose text =
        (seed otherIndex otherRound).hashedBytes otherPurpose text ↔
      round = otherRound ∧
        index.toNat / 128 ^ (seed index round).covered =
          otherIndex.toNat / 128 ^ (seed index round).covered := by
  intro seed
  have word (number : UInt64) : number.toNat < 2 ^ 64 := number.toNat_lt
  rw [RoundSeed.hashedBytes_eq, RoundSeed.hashedBytes_eq]
  constructor
  · intro same
    change encodeVarint 10 round.toNat ++ _ = encodeVarint 10 otherRound.toNat ++ _ at same
    rw [encodeVarint_eq_varint (word round), encodeVarint_eq_varint (word otherRound)] at same
    obtain ⟨sameRound, rest⟩ := varint_cancel same
    obtain rfl := UInt64.toNat_inj.mp sameRound
    have within : (seed index round).covered ≤ 10 := (seed index round).covered_le
    have room (number : UInt64) : number.toNat / 128 ^ (seed index round).covered <
        128 ^ (10 - (seed index round).covered) := by
      apply Nat.div_lt_of_lt_mul
      rw [← Nat.pow_add, Nat.add_sub_cancel' within]
      exact (word number).trans (by decide)
    exact ⟨rfl, (padded_inj (room index) (room otherIndex)).mp
      (List.append_cancel_right rest)⟩
  · rintro ⟨rfl, sameIndex⟩
    exact congrArg (fun high => encodeVarint 10 round.toNat ++
      (padded (10 - (seed index round).covered) high ++
        (utf8 prevConsensusValue ++ utf8 text))) sameIndex

/-- In the first round the decrees 1 and 2 hash the same bytes, for each of the purposes. -/
theorem hashedBytes_collide :
    let bytes := fun (index : UInt64) purpose =>
      (roundSeed "genesis" (fun _ => 0) index 1).hashedBytes purpose "alice"
    bytes 1 .neighbour = bytes 1 .priority ∧ bytes 1 .priority = bytes 1 .value ∧
      bytes 1 .priority = bytes 2 .priority :=
  ⟨rfl, rfl, rfl⟩

end Ultiledger
