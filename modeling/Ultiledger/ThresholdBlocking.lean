import Mathlib.Data.Finset.Union

/-!
# Blocking sets of threshold families

A threshold family asks that at least `need` of finitely many member families accept a
set.  A set meets every member of it exactly when it blocks so many of the member
families that fewer than `need` are left.
-/

namespace ThresholdBlocking

variable {α : Type*} {ι : Type*}

def Blocks (family : Finset α → Prop) (blocker : Finset α) : Prop :=
  ∀ accepted, family accepted → ∃ point ∈ blocker, point ∈ accepted

def UpClosed (family : Finset α → Prop) : Prop :=
  ∀ ⦃smaller larger : Finset α⦄, smaller ⊆ larger →
    family smaller → family larger

theorem Blocks.mono {family : Finset α → Prop} {smaller larger : Finset α}
    (subset : smaller ⊆ larger) (blocks : Blocks family smaller) : Blocks family larger := by
  intro accepted holds
  obtain ⟨point, pointMem, pointAccepted⟩ := blocks accepted holds
  exact ⟨point, subset pointMem, pointAccepted⟩

theorem exists_avoiding_of_not_blocks {family : Finset α → Prop}
    {blocker : Finset α} (notBlocked : ¬ Blocks family blocker) :
    ∃ accepted, family accepted ∧ ∀ point ∈ accepted, point ∉ blocker := by
  unfold Blocks at notBlocked
  push Not at notBlocked
  obtain ⟨accepted, holds, avoids⟩ := notBlocked
  exact ⟨accepted, holds, fun point pointAccepted pointMem =>
    avoids point pointMem pointAccepted⟩

/-- Two tests that together hold more often than there are entries hold
together at some entry. -/
theorem exists_both_of_length_lt (members : List ι) (first second : ι → Bool)
    (crowded : members.length < members.countP first + members.countP second) :
    ∃ member ∈ members, first member = true ∧ second member = true := by
  induction members with
  | nil => simp at crowded
  | cons head tail ih =>
    by_cases both : first head = true ∧ second head = true
    · exact ⟨head, .head _, both⟩
    · have tailCrowded :
          tail.length < tail.countP first + tail.countP second := by
        rw [not_and_or] at both
        simp only [List.length_cons, List.countP_cons] at crowded
        rcases both with missing | missing
        · rw [if_neg missing] at crowded
          split at crowded <;> omega
        · split at crowded <;> omega
      obtain ⟨member, memberMem, holds⟩ := ih tailCrowded
      exact ⟨member, .tail head memberMem, holds⟩

section Threshold

variable (members : List ι) (accepts : ι → Finset α → Bool)

def AtLeast (need : Int) (candidate : Finset α) : Prop :=
  need ≤ members.countP (accepts · candidate)

theorem atLeast_upClosed
    (monotone : ∀ member ∈ members, UpClosed (fun set => accepts member set = true))
    (need : Int) : UpClosed (AtLeast members accepts need) := by
  intro smaller larger subset enough
  refine le_trans enough ?_
  have countMono : members.countP (accepts · smaller) ≤
      members.countP (accepts · larger) :=
    List.countP_mono_left fun member memberMem holds =>
      monotone member memberMem subset holds
  exact_mod_cast countMono

variable [DecidableEq α] (blocked : ι → Bool) (blocker : Finset α)

variable (monotone : ∀ member ∈ members, UpClosed (fun set => accepts member set = true))
  (exact : ∀ member ∈ members, blocked member = true ↔ Blocks (fun set => accepts member set = true) blocker)

include monotone exact

/-- The members that are not blocked accept one common set that avoids the
blocker: the union of a set chosen for each of them. -/
theorem exists_common_avoiding : ∃ common : Finset α, (∀ point ∈ common, point ∉ blocker) ∧
      ∀ member ∈ members, blocked member = false → accepts member common = true := by
  induction members with
  | nil => exact ⟨∅, by simp, by simp⟩
  | cons head tail ih =>
    obtain ⟨common, avoids, covers⟩ := ih
      (fun member memberMem => monotone member (.tail head memberMem))
      (fun member memberMem => exact member (.tail head memberMem))
    have headExact := exact head (.head _)
    cases headBlocked : blocked head with
    | true =>
      refine ⟨common, avoids, ?_⟩
      intro member memberMem free
      rcases List.mem_cons.mp memberMem with rfl | tailMem
      · simp [headBlocked] at free
      · exact covers member tailMem free
    | false =>
      have notBlocked :
          ¬ Blocks (fun set => accepts head set = true) blocker := by
        intro blocks
        simp [headExact.mpr blocks] at headBlocked
      obtain ⟨chosen, holds, chosenAvoids⟩ :=
        exists_avoiding_of_not_blocks notBlocked
      refine ⟨chosen ∪ common, ?_, ?_⟩
      · intro point pointMem
        rcases Finset.mem_union.mp pointMem with inChosen | inCommon
        · exact chosenAvoids point inChosen
        · exact avoids point inCommon
      · intro member memberMem free
        rcases List.mem_cons.mp memberMem with rfl | tailMem
        · exact monotone member (.head _)
            Finset.subset_union_left holds
        · exact monotone member (.tail head tailMem)
            Finset.subset_union_right (covers member tailMem free)

/-- Threshold duality: blocking the threshold family means leaving fewer than
`need` members unblocked. -/
theorem blocks_atLeast_iff (need : Int) : Blocks (AtLeast members accepts need) blocker ↔
      (members.length : Int) - need < members.countP blocked := by
  constructor
  · intro blocks
    by_contra few
    obtain ⟨common, avoids, covers⟩ :=
      exists_common_avoiding members accepts blocked blocker monotone exact
    have unblocked : members.countP (fun member => !blocked member) ≤
        members.countP (accepts · common) :=
      List.countP_mono_left fun member memberMem free =>
        covers member memberMem (by simpa using free)
    have split := List.length_eq_countP_add_countP blocked (l := members)
    have unblockedCount : members.countP (fun member => !blocked member) =
        members.countP (fun member => decide (¬ blocked member = true)) := by
      congr 1
      funext member
      cases blocked member <;> rfl
    have reached : AtLeast members accepts need common := by
      unfold AtLeast
      omega
    obtain ⟨point, pointMem, pointCommon⟩ := blocks common reached
    exact avoids point pointCommon pointMem
  · intro many accepted enough
    unfold AtLeast at enough
    have crowded : members.length <
        members.countP blocked + members.countP (accepts · accepted) := by
      omega
    obtain ⟨member, memberMem, memberBlocked, memberAccepts⟩ :=
      exists_both_of_length_lt members blocked (accepts · accepted) crowded
    exact (exact member memberMem).mp memberBlocked accepted memberAccepts

end Threshold

end ThresholdBlocking
