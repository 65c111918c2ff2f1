import Mathlib.Data.Finset.Card

/-! # Pruning a finite set -/

namespace PruningClosure

variable {α : Type*}

/-- No point of the set is dropped by a pass. -/
def Closed (keep : Finset α → α → Bool) (points : Finset α) : Prop :=
  ∀ point ∈ points, keep points point = true

instance (keep : Finset α → α → Bool) (points : Finset α) :
    Decidable (Closed keep points) :=
  inferInstanceAs (Decidable (∀ point ∈ points, _))

/-- A point kept by a set is kept by every larger set. -/
def MonotoneOn (keep : Finset α → α → Bool) (points : Finset α) : Prop :=
  ∀ ⦃smaller larger : Finset α⦄, smaller ⊆ larger → larger ⊆ points →
    ∀ point ∈ smaller, keep smaller point = true → keep larger point = true

def pass (keep : Finset α → α → Bool) (points : Finset α) : Finset α :=
  points.filter fun point => keep points point = true

variable (keep : Finset α → α → Bool) {closed : Finset α} (points : Finset α)

theorem pass_subset : pass keep points ⊆ points :=
  Finset.filter_subset _ _

variable {keep : Finset α → α → Bool} {points : Finset α}

theorem mem_pass {point : α} :
    point ∈ pass keep points ↔ point ∈ points ∧ keep points point = true :=
  Finset.mem_filter

theorem subset_pass_of_closed
    (monotone : MonotoneOn keep points) (subset : closed ⊆ points) (isClosed : Closed keep closed) :
    closed ⊆ pass keep points := by
  intro point pointMem
  exact mem_pass.mpr ⟨subset pointMem,
    monotone subset (Finset.Subset.refl points) point pointMem (isClosed point pointMem)⟩

theorem closed_of_pass_eq (same : pass keep points = points) : Closed keep points := by
  intro point pointMem
  rw [← same] at pointMem
  exact (mem_pass.mp pointMem).2

variable [DecidableEq α]

/-- The loop: `kept` starts empty, is refilled by each pass, and the set is
intersected with it; the loop ends when both agree. -/
def loop (keep : Finset α → α → Bool) : Nat → Finset α → Finset α → Option (Finset α)
  | 0, _, _ => none
  | fuel + 1, points, kept =>
    if points = kept then
      some points
    else
      let kept := pass keep points
      loop keep fuel (points ∩ kept) kept

theorem loop_eq_pass (fuel : Nat) (points : Finset α) :
    loop keep (fuel + 2) points ∅ = some (pass keep points) := by
  by_cases empty : points = ∅
  · subst empty
    simp [loop, pass]
  · have inter : points ∩ pass keep points = pass keep points :=
      Finset.inter_eq_right.mpr (pass_subset keep points)
    simp [loop, empty, inter]

end PruningClosure
