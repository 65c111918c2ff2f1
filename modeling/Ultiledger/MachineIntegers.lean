import Mathlib.Algebra.Group.Int.Defs
import Mathlib.Data.Int.Basic
import Mathlib.Tactic.Common

/-! # Signed machine arithmetic as integers -/

namespace MachineIntegers

def maxInt64 : Int := 2 ^ 63 - 1

def minInt64 : Int := -2 ^ 63

variable {first : Int64} (number : Int64) {second : Int64}

theorem minInt64_le : minInt64 ≤ number.toInt :=
  number.le_toInt

theorem le_maxInt64 : number.toInt ≤ maxInt64 := by
  have below := number.toInt_lt
  unfold maxInt64
  omega

theorem toInt_add_of_fits (above : minInt64 ≤ first.toInt + second.toInt)
    (below : first.toInt + second.toInt ≤ maxInt64) :
    (first + second).toInt = first.toInt + second.toInt := by
  rw [Int64.toInt_add]
  unfold minInt64 at above
  unfold maxInt64 at below
  exact Int.bmod_eq_of_le (by omega) (by omega)

theorem toInt_add_of_below (below : first.toInt + second.toInt < minInt64) :
    (first + second).toInt = first.toInt + second.toInt + 2 ^ 64 := by
  have firstAbove := minInt64_le first
  have secondAbove := minInt64_le second
  unfold minInt64 at *
  rw [Int64.toInt_add, ← Int.add_bmod_right]
  exact Int.bmod_eq_of_le (by omega) (by omega)

theorem toInt_add_of_above (above : maxInt64 < first.toInt + second.toInt) :
    (first + second).toInt = first.toInt + second.toInt - 2 ^ 64 := by
  have firstBelow := le_maxInt64 first
  have secondBelow := le_maxInt64 second
  unfold maxInt64 at *
  rw [Int64.toInt_add, ← Int.sub_bmod_right]
  exact Int.bmod_eq_of_le (by omega) (by omega)

/-- Negation is exact except at the smallest integer, which it returns. -/
theorem toInt_neg_of_ne {number : Int64} (apart : number.toInt ≠ minInt64) :
    (-number).toInt = -number.toInt := by
  have above := minInt64_le number
  have below := le_maxInt64 number
  unfold minInt64 maxInt64 at *
  rw [Int64.toInt_neg]
  exact Int.bmod_eq_of_le (by omega) (by omega)

theorem toInt_neg_of_eq {number : Int64} (smallest : number.toInt = minInt64) :
    (-number).toInt = minInt64 := by
  rw [Int64.toInt_neg, smallest]
  decide

theorem toInt_sub_of_fits (above : minInt64 ≤ first.toInt - second.toInt)
    (below : first.toInt - second.toInt ≤ maxInt64) :
    (first - second).toInt = first.toInt - second.toInt := by
  rw [Int64.toInt_sub]
  unfold minInt64 at above
  unfold maxInt64 at below
  exact Int.bmod_eq_of_le (by omega) (by omega)

theorem toInt_sub_of_above (above : maxInt64 < first.toInt - second.toInt) :
    (first - second).toInt = first.toInt - second.toInt - 2 ^ 64 := by
  have firstBelow := le_maxInt64 first
  have secondAbove := minInt64_le second
  unfold maxInt64 minInt64 at *
  rw [Int64.toInt_sub, ← Int.sub_bmod_right]
  exact Int.bmod_eq_of_le (by omega) (by omega)

theorem toInt32_add_of_fits {first second : Int32} (above : -2 ^ 31 ≤ first.toInt + second.toInt)
    (below : first.toInt + second.toInt < 2 ^ 31) :
    (first + second).toInt = first.toInt + second.toInt := by
  rw [Int32.toInt_add]
  exact Int.bmod_eq_of_le (by omega) (by omega)

end MachineIntegers
