import Mathlib.Data.Rat.Floor
import Mathlib.Data.Finset.Basic

/-!
# Quorums and the two node-set tests

A quorum lists validators and nested quorums with a threshold, a double in the source
and the exact rational it stands for here.  Both node-set tests of `consensus/util.go`
count down over the members; the exit test of the shared loop is a parameter.
-/

namespace Ultiledger

inductive Quorum where
  | mk (threshold : ℚ) (validators : List String) (nestQuorums : List Quorum)

namespace Quorum

def threshold : Quorum → ℚ
  | .mk threshold _ _ => threshold

def validators : Quorum → List String
  | .mk _ validators _ => validators

def nestQuorums : Quorum → List Quorum
  | .mk _ _ nestQuorums => nestQuorums

def size (quorum : Quorum) : Nat :=
  quorum.validators.length + quorum.nestQuorums.length

end Quorum

mutual

def validateQuorum : Quorum → Nat → Bool → Except String Unit
  | .mk threshold validators nestQuorums, depth, extraChecks =>
    if depth > 2 then
      .error "invalid quorum depth"
    else if threshold ≤ 0 ∨ threshold > 1 then
      .error ("invalid quorum threshold: " ++ toString threshold)
    else if extraChecks = true ∧ threshold < 1 - threshold then
      .error ("bad quorum threshold range: " ++ toString threshold)
    else if ¬ validators.Nodup then
      .error "duplicated quorum nodes"
    else
      validateQuorums nestQuorums (depth + 1) extraChecks

def validateQuorums : List Quorum → Nat → Bool → Except String Unit
  | [], _, _ => .ok ()
  | quorum :: rest, depth, extraChecks =>
    match validateQuorum quorum depth extraChecks with
    | .error message => .error message
    | .ok () => validateQuorums rest depth extraChecks

end

/-- The counting loop of `isVblocking` and `isQuorumSlice`: every satisfied member lowers
the threshold, and the loop returns true as soon as `stop` holds of what is left. -/
def countdown (stop : Int → Bool) : Int → List Bool → Bool
  | _, [] => false
  | threshold, satisfied :: rest =>
    let left := if satisfied then threshold - 1 else threshold
    if stop left then true else countdown stop left rest

mutual

/-- `isVblocking`: the loop leaves when the threshold is exactly zero. -/
def isVblocking : Quorum → Finset String → Bool
  | .mk threshold validators nestQuorums, nodeSet =>
    let qsize : ℚ := ((validators.length + nestQuorums.length : Nat) : ℚ)
    countdown (· == 0) ⌈qsize * (1 - threshold)⌉
      (validators.map (fun vid => decide (vid ∈ nodeSet)) ++
        vblockingFlags nestQuorums nodeSet)

def vblockingFlags : List Quorum → Finset String → List Bool
  | [], _ => []
  | quorum :: rest, nodeSet =>
    isVblocking quorum nodeSet :: vblockingFlags rest nodeSet

end

/-- `isQuorumSlice`: the loop leaves when the threshold is zero or below.
Nested quorums are tested with `isVblocking`, as in the source. -/
def isQuorumSlice : Quorum → Finset String → Bool
  | .mk threshold validators nestQuorums, nodeSet =>
    let qsize : ℚ := ((validators.length + nestQuorums.length : Nat) : ℚ)
    countdown (fun left => decide (left ≤ 0)) ⌈qsize * threshold⌉
      (validators.map (fun vid => decide (vid ∈ nodeSet)) ++
        vblockingFlags nestQuorums nodeSet)

def getSingletonQuorum (nodeID : String) : Quorum :=
  .mk 1 [nodeID] []

theorem vblockingFlags_eq_map (quorums : List Quorum) (nodeSet : Finset String) :
    vblockingFlags quorums nodeSet =
      quorums.map (fun quorum => isVblocking quorum nodeSet) := by
  induction quorums with
  | nil => rfl
  | cons quorum rest ih => simp only [vblockingFlags, ih, List.map_cons]

theorem countdown_nonpos_iff (threshold : Int) (flags : List Bool) :
    countdown (fun left => decide (left ≤ 0)) threshold flags = true ↔
      flags ≠ [] ∧ threshold ≤ flags.count true := by
  induction flags generalizing threshold with
  | nil => simp [countdown]
  | cons flag rest ih =>
    cases flag with
    | false =>
      by_cases stopped : threshold ≤ 0
      · simp [countdown, stopped]
        omega
      · cases rest with
        | nil => simp [countdown]
        | cons next rest =>
          have tail := ih threshold
          simp only [ne_eq, reduceCtorEq, not_false_eq_true, true_and] at tail
          simp [countdown.eq_2, stopped, ← tail]
    | true =>
      by_cases stopped : threshold - 1 ≤ 0
      · simp [countdown, stopped]
        omega
      · cases rest with
        | nil => simp [countdown]
        | cons next rest =>
          have tail := ih (threshold - 1)
          rw [List.count_cons_self (l := next :: rest), countdown.eq_2]
          simp only [if_true, stopped, decide_false, Bool.false_eq_true, if_false,
            tail, ne_eq, reduceCtorEq, not_false_eq_true, true_and]
          omega

/-- From a positive threshold the exact-zero exit is an ordinary threshold
test, because the count only moves by one. -/
theorem countdown_zero_iff_of_pos {threshold : Int} (positive : 0 < threshold) (flags : List Bool) :
    countdown (· == 0) threshold flags = true ↔
      threshold ≤ flags.count true := by
  induction flags generalizing threshold with
  | nil => simp [countdown]; omega
  | cons flag rest ih =>
    cases flag with
    | false =>
      have running : (threshold == 0) = false := by simp; omega
      simp [countdown, running, ih positive]
    | true =>
      by_cases last : threshold = 1
      · subst last
        simp [countdown]
      · have running : (threshold - 1 == 0) = false := by simp; omega
        have tail := @ih (threshold - 1) (by omega)
        simp only [countdown, if_true, running, Bool.false_eq_true, if_false, tail,
          List.count_cons_self]
        omega

theorem countdown_zero_of_neg {threshold : Int} (negative : threshold < 0)
    (flags : List Bool) : countdown (· == 0) threshold flags = false := by
  induction flags generalizing threshold with
  | nil => rfl
  | cons flag rest ih =>
    cases flag with
    | false =>
      have running : (threshold == 0) = false := by simp; omega
      simp [countdown, running, ih negative]
    | true =>
      have running : (threshold - 1 == 0) = false := by simp; omega
      simp [countdown, running, @ih (threshold - 1) (by omega)]

/-- Started at zero, the exact-zero exit is decided by the first member alone:
an unsatisfied one leaves the threshold at zero, a satisfied one carries it
below zero for good. -/
theorem countdown_zero_at_zero (flag : Bool) (rest : List Bool) :
    countdown (· == 0) 0 (flag :: rest) = !flag := by
  cases flag with
  | false => simp [countdown]
  | true =>
    simp only [countdown, if_true]
    rw [countdown_zero_of_neg (by decide)]
    rfl

end Ultiledger
