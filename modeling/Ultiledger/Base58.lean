import Mathlib.Data.List.GetD
import Mathlib.Data.List.TakeWhile
import Mathlib.Data.Nat.Digits.Lemmas

/-! # Base 58

Leading zeros do not count in a number and are carried over, which makes the change of
the base invertible.
-/

namespace Base58

section Rebase

def value (base : Nat) (digits : List Nat) : Nat := Nat.ofDigits base digits.reverse

def digitsOf (base number : Nat) : List Nat := (Nat.digits base number).reverse

def leadingZeros (digits : List Nat) : Nat := (digits.takeWhile (· == 0)).length

/-- The digits in another base, with the same leading zeros. -/
def rebase (base other : Nat) (digits : List Nat) : List Nat :=
  List.replicate (leadingZeros digits) 0 ++ digitsOf other (value base digits)

theorem exists_leading (digits : List Nat) :
    ∃ zeros significant, digits = List.replicate zeros 0 ++ significant ∧
      significant.head? ≠ some 0 := by
  induction digits with
  | nil => exact ⟨0, [], rfl, by simp⟩
  | cons digit rest ih =>
    by_cases zero : digit = 0
    · obtain ⟨zeros, significant, rfl, starts⟩ := ih
      exact ⟨zeros + 1, significant, by rw [zero, List.replicate_succ, List.cons_append], starts⟩
    · exact ⟨0, digit :: rest, rfl, by simpa using zero⟩

variable (base zeros number : Nat) {significant digits : List Nat}

theorem leadingZeros_replicate_append (starts : significant.head? ≠ some 0) :
    leadingZeros (List.replicate zeros 0 ++ significant) = zeros := by
  induction zeros with
  | zero =>
    cases significant with
    | nil => rfl
    | cons digit rest => simpa [leadingZeros] using starts
  | succ zeros ih =>
    unfold leadingZeros at ih ⊢
    rw [List.replicate_succ, List.cons_append, List.takeWhile_cons_of_pos (by rfl),
      List.length_cons, ih]

theorem value_replicate_append (significant : List Nat) :
    value base (List.replicate zeros 0 ++ significant) = value base significant := by
  rw [value, List.reverse_append, List.reverse_replicate, Nat.ofDigits_append_replicate_zero, value]

theorem value_digitsOf : value base (digitsOf base number) = number := by
  rw [value, digitsOf, List.reverse_reverse, Nat.ofDigits_digits]

theorem head_digitsOf : (digitsOf base number).head? ≠ some 0 := by
  rw [digitsOf, List.head?_reverse]
  by_cases zero : number = 0
  · simp [zero]
  · rw [List.getLast?_eq_some_getLast (Nat.digits_ne_nil_iff_ne_zero.mpr zero)]
    simpa using Nat.getLast_digit_ne_zero base zero

theorem digitsOf_value {base : Nat} (large : 1 < base) (small : ∀ digit ∈ significant, digit < base)
    (starts : significant.head? ≠ some 0) :
    digitsOf base (value base significant) = significant := by
  rw [digitsOf, value, Nat.digits_ofDigits base large, List.reverse_reverse]
  · simpa using small
  · intro nonempty zero
    rw [List.getLast_reverse] at zero
    apply starts
    rw [List.head?_eq_some_head (List.reverse_ne_nil_iff.mp nonempty), zero]

theorem rebase_rebase {base : Nat} (other : Nat) (large : 1 < base)
    (small : ∀ digit ∈ digits, digit < base) :
    rebase other base (rebase base other digits) = digits := by
  obtain ⟨zeros, significant, rfl, starts⟩ := exists_leading digits
  have significantSmall : ∀ digit ∈ significant, digit < base :=
    fun digit digitMem => small digit (List.mem_append_right _ digitMem)
  rw [rebase, rebase, leadingZeros_replicate_append zeros starts, value_replicate_append,
    leadingZeros_replicate_append zeros (head_digitsOf _ _), value_replicate_append,
    value_digitsOf, digitsOf_value large significantSmall starts]

theorem lt_of_mem_rebase {base other digit : Nat} (large : 1 < other)
    (digitMem : digit ∈ rebase base other digits) : digit < other := by
  rcases List.mem_append.mp digitMem with zero | significant
  · rw [List.eq_of_mem_replicate zero]
    omega
  · exact Nat.digits_lt_base large (List.mem_reverse.mp significant)

end Rebase

section Alphabet

def alphabet : List Char := "123456789ABCDEFGHJKLMNPQRSTUVWXYZabcdefghijkmnopqrstuvwxyz".toList

theorem length_alphabet : alphabet.length = 58 := by decide +kernel

theorem nodup_alphabet : alphabet.Nodup := by decide +kernel

def sign (digit : Nat) : Char := alphabet.getD digit '1'

def digit (sign : Char) : Option Nat :=
  if alphabet.idxOf sign < 58 then some (alphabet.idxOf sign) else none

theorem digit_sign {number : Nat} (small : number < 58) : digit (sign number) = some number := by
  have within : number < alphabet.length := by rwa [length_alphabet]
  have position : alphabet.idxOf (sign number) = number := by
    rw [sign, List.getD_eq_getElem _ _ within]
    exact nodup_alphabet.idxOf_getElem number within
  rw [digit, position, if_pos small]

theorem sign_of_digit {sign' : Char} {number : Nat} (stands : digit sign' = some number) :
    number < 58 ∧ sign number = sign' := by
  unfold digit at stands
  split_ifs at stands with small
  cases stands
  have within : alphabet.idxOf sign' < alphabet.length := by rwa [length_alphabet]
  refine ⟨small, ?_⟩
  rw [sign, List.getD_eq_getElem _ _ within]
  exact List.getElem_idxOf within

theorem mapM_digit_sign {digits : List Nat} (small : ∀ number ∈ digits, number < 58) :
    (digits.map sign).mapM digit = some digits := by
  induction digits with
  | nil => rfl
  | cons number rest ih =>
    simp only [List.map_cons, List.mapM_cons, digit_sign (small number (.head _)),
      ih (List.forall_mem_cons.mp small).2]
    rfl

theorem map_sign_of_mapM {signs : List Char} {digits : List Nat}
    (read : signs.mapM digit = some digits) :
    (∀ number ∈ digits, number < 58) ∧ digits.map sign = signs := by
  induction signs generalizing digits with
  | nil =>
    cases read
    exact ⟨by simp, rfl⟩
  | cons first rest ih =>
    rw [List.mapM_cons] at read
    obtain ⟨number, stands, later⟩ := Option.bind_eq_some_iff.mp read
    obtain ⟨numbers, readRest, joined⟩ := Option.bind_eq_some_iff.mp later
    cases joined
    obtain ⟨small, same⟩ := ih readRest
    obtain ⟨numberSmall, sameSign⟩ := sign_of_digit stands
    exact ⟨List.forall_mem_cons.mpr ⟨numberSmall, small⟩, by rw [List.map_cons, sameSign, same]⟩

end Alphabet

def encode (bytes : List UInt8) : String :=
  String.ofList ((rebase 256 58 (bytes.map UInt8.toNat)).map sign)

def decode (text : String) : Option (List UInt8) :=
  if text = "" then none
  else (text.toList.mapM digit).map fun digits => (rebase 58 256 digits).map UInt8.ofNat

variable {text : String} {bytes : List UInt8}

theorem lt_of_mem_toNat : ∀ number ∈ bytes.map UInt8.toNat, number < 256 := by
  intro number numberMem
  obtain ⟨byte, -, rfl⟩ := List.mem_map.mp numberMem
  exact byte.toNat_lt

theorem map_toNat_ofNat {digits : List Nat} (small : ∀ number ∈ digits, number < 256) :
    (digits.map UInt8.ofNat).map UInt8.toNat = digits := by
  rw [List.map_map]
  refine (List.map_congr_left fun number numberMem => ?_).trans (List.map_id digits)
  have below := small number numberMem
  rw [Function.comp_apply, UInt8.toNat_ofNat', Nat.mod_eq_of_lt below, id]

theorem decode_encode (nonempty : bytes ≠ []) : decode (encode bytes) = some bytes := by
  have small : ∀ number ∈ rebase 256 58 (bytes.map UInt8.toNat), number < 58 :=
    fun number => lt_of_mem_rebase (by decide)
  have back : rebase 58 256 (rebase 256 58 (bytes.map UInt8.toNat)) = bytes.map UInt8.toNat :=
    rebase_rebase 58 (by decide) lt_of_mem_toNat
  have text : encode bytes ≠ "" := by
    intro blank
    have signs := congrArg String.toList blank
    rw [encode, String.toList_ofList] at signs
    rw [List.map_eq_nil_iff.mp signs] at back
    exact nonempty (List.map_eq_nil_iff.mp back.symm)
  rw [decode, if_neg text, encode, String.toList_ofList, mapM_digit_sign small, Option.map_some,
    back]
  simp [Function.comp_def]

theorem encode_decode (decoded : decode text = some bytes) : encode bytes = text := by
  unfold decode at decoded
  split_ifs at decoded
  obtain ⟨digits, read, rfl⟩ := Option.map_eq_some_iff.mp decoded
  obtain ⟨small, same⟩ := map_sign_of_mapM read
  rw [encode, map_toNat_ofNat fun number => lt_of_mem_rebase (by decide),
    rebase_rebase 256 (by decide) small, same, String.ofList_toList]

theorem mem_alphabet_of_decode (decoded : decode text = some bytes) :
    ∀ sign' ∈ text.toList, sign' ∈ alphabet := by
  unfold decode at decoded
  split_ifs at decoded
  obtain ⟨digits, read, -⟩ := Option.map_eq_some_iff.mp decoded
  obtain ⟨small, same⟩ := map_sign_of_mapM read
  intro sign' signMem
  rw [← same] at signMem
  obtain ⟨number, numberMem, rfl⟩ := List.mem_map.mp signMem
  have within : number < alphabet.length := by
    rw [length_alphabet]
    exact small number numberMem
  rw [sign, List.getD_eq_getElem _ _ within]
  exact List.getElem_mem within

end Base58
