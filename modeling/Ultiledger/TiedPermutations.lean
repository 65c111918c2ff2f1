import Mathlib.Data.List.Induction
import Mathlib.Data.List.Sort

/-! # Permutations that are sorted alike

Two sorted arrangements of the same elements are turned into each other by exchanging
neighbours with equal keys.
-/

namespace TiedPermutations

variable {α β κ : Type} [LinearOrder κ] (key : α → κ)

def Sorted (list : List α) : Prop := list.Pairwise fun first second => key first ≤ key second

/-- The function does not see exchanges of neighbours with equal keys in a
sorted arrangement of the elements. -/
def IgnoresTies (arranged : List α) (f : List α → β) : Prop :=
  ∀ pre first second post, (pre ++ first :: second :: post).Perm arranged →
    Sorted key (pre ++ first :: second :: post) → key first = key second →
    f (pre ++ first :: second :: post) = f (pre ++ second :: first :: post)

variable {key} {f : List α → β}

theorem sorted_swap {pre post : List α} {first second : α}
    (sorted : Sorted key (pre ++ first :: second :: post)) (tie : key first = key second) :
    Sorted key (pre ++ second :: first :: post) := by
  unfold Sorted at *
  simp only [List.pairwise_append, List.pairwise_cons, List.mem_cons] at *
  grind

theorem eq_of_move_forward {arranged : List α}
    (ignores : IgnoresTies key arranged f) (pre : List α) (element : α) (post : List α) :
    ∀ stretch : List α, (∀ other ∈ stretch, key other = key element) →
      (pre ++ stretch ++ element :: post).Perm arranged →
      Sorted key (pre ++ stretch ++ element :: post) →
      f (pre ++ stretch ++ element :: post) = f (pre ++ element :: stretch ++ post) ∧
        Sorted key (pre ++ element :: stretch ++ post) := by
  intro stretch
  induction stretch using List.reverseRecOn generalizing post with
  | nil => simp
  | append_singleton stretch last ih =>
    intro ties perm sorted
    have tie : key last = key element := ties last (by simp)
    have regroup : pre ++ (stretch ++ [last]) ++ element :: post =
        (pre ++ stretch) ++ last :: element :: post := by simp
    rw [regroup] at perm sorted ⊢
    have swapped := ignores (pre ++ stretch) last element post perm sorted tie
    have swappedSorted := sorted_swap sorted tie
    have swappedPerm : (pre ++ stretch ++ element :: last :: post).Perm arranged :=
      .trans (List.Perm.append_left _ (.swap last element post)) perm
    obtain ⟨moved, movedSorted⟩ := ih (last :: post)
      (fun other otherMem => ties other (by simp [otherMem])) swappedPerm swappedSorted
    have regroup' : pre ++ element :: (stretch ++ [last]) ++ post =
        pre ++ element :: stretch ++ last :: post := by simp
    rw [regroup']
    exact ⟨swapped.trans moved, movedSorted⟩

theorem eq_of_sorted_append {arranged : List α}
    (ignores : IgnoresTies key arranged f) (first : List α) :
    ∀ pre second : List α, first.Perm second → (pre ++ first).Perm arranged →
      Sorted key (pre ++ first) → Sorted key (pre ++ second) →
      f (pre ++ first) = f (pre ++ second) := by
  induction first with
  | nil =>
    intro pre second perm _ _ _
    rw [List.nil_perm.mp perm]
  | cons element rest ih =>
    intro pre second perm arranges firstSorted secondSorted
    obtain ⟨stretch, post, rfl⟩ := List.append_of_mem (perm.mem_iff.mp (.head _))
    have ties : ∀ other ∈ stretch, key other = key element := by
      intro other otherMem
      apply le_antisymm
      · have tail := (List.pairwise_append.mp secondSorted).2.1
        exact (List.pairwise_append.mp tail).2.2 other otherMem element (.head _)
      · have otherRest : other ∈ element :: rest := perm.mem_iff.mpr (by simp [otherMem])
        rcases List.mem_cons.mp otherRest with rfl | later
        · exact le_refl _
        · have head := List.pairwise_cons.mp (List.pairwise_append.mp firstSorted).2.1
          exact head.1 other later
    have secondArranges : (pre ++ stretch ++ element :: post).Perm arranged := by
      rw [List.append_assoc]
      exact (List.Perm.append_left pre perm.symm).trans arranges
    have secondSorted' : Sorted key (pre ++ stretch ++ element :: post) := by
      rw [List.append_assoc]
      exact secondSorted
    obtain ⟨moved, movedSorted⟩ :=
      eq_of_move_forward ignores pre element post stretch ties secondArranges secondSorted'
    have restPerm : rest.Perm (stretch ++ post) :=
      List.Perm.cons_inv (perm.trans List.perm_middle)
    have step := ih (pre ++ [element]) (stretch ++ post) restPerm
    simp only [List.append_assoc, List.cons_append, List.nil_append] at step moved movedSorted
    rw [step arranges firstSorted movedSorted, moved]

theorem eq_of_sorted {first second : List α} (ignores : IgnoresTies key first f)
    (perm : first.Perm second) (firstSorted : Sorted key first) (secondSorted : Sorted key second) :
    f first = f second :=
  eq_of_sorted_append ignores first [] second perm (.refl _) firstSorted secondSorted

end TiedPermutations
