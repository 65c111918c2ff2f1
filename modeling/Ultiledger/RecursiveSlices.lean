import Ultiledger.QuorumSlices

/-! # The slice test, level by level -/

namespace Ultiledger

variable {quorum : Quorum} {nodeSet : Finset String}

/-- The members that the validators in the node set leave open. -/
def Quorum.missing (quorum : Quorum) (nodeSet : Finset String) : Int :=
  quorum.need - quorum.validators.countP (fun vid => decide (vid ∈ nodeSet))

/-- The members that are left open are on one side of the number of v-blocked nested
quorums and of the number of those that pass the test. -/
def NestedAgree (nested : Quorum → Finset String → Bool) (quorum : Quorum)
    (nodeSet : Finset String) : Prop :=
  let blocking : Int := quorum.nestQuorums.countP (isVblocking · nodeSet)
  let passing : Int := quorum.nestQuorums.countP (nested · nodeSet)
  ¬ (min blocking passing < quorum.missing nodeSet ∧
    quorum.missing nodeSet ≤ max blocking passing)

instance (nested : Quorum → Finset String → Bool) (quorum : Quorum)
    (nodeSet : Finset String) : Decidable (NestedAgree nested quorum nodeSet) :=
  inferInstanceAs (Decidable (¬ _))

/-- The level is a recursive threshold: enough members are satisfied, a nested
quorum being satisfied when the slice test holds of it. -/
def RecursiveAt (nodeSet : Finset String) (quorum : Quorum) : Prop :=
  isQuorumSlice quorum nodeSet = true ↔
    quorum.need ≤ (memberFlags isQuorumSlice quorum nodeSet).count true

instance (nodeSet : Finset String) (quorum : Quorum) :
    Decidable (RecursiveAt nodeSet quorum) :=
  inferInstanceAs (Decidable (_ ↔ _))

theorem need_le_count_iff (nested : Quorum → Finset String → Bool) (quorum : Quorum)
    (nodeSet : Finset String) :
    quorum.need ≤ (memberFlags nested quorum nodeSet).count true ↔
      quorum.missing nodeSet ≤ quorum.nestQuorums.countP (nested · nodeSet) := by
  have split : (memberFlags nested quorum nodeSet).count true =
      quorum.validators.countP (fun vid => decide (vid ∈ nodeSet)) +
        quorum.nestQuorums.countP (nested · nodeSet) := by
    simp [count_memberFlags, Quorum.members, List.countP_map, Function.comp_def]
  rw [Quorum.missing]
  omega

theorem isQuorumSlice_iff_missing (inhabited : 0 < quorum.size) (nodeSet : Finset String) :
    isQuorumSlice quorum nodeSet = true ↔
      quorum.missing nodeSet ≤ quorum.nestQuorums.countP (isVblocking · nodeSet) := by
  have members : memberFlags isVblocking quorum nodeSet ≠ [] := by
    rw [← List.length_pos_iff, memberFlags, List.length_map, Quorum.length_members]
    exact inhabited
  rw [isQuorumSlice_eq, countdown_nonpos_iff, need_le_count_iff]
  exact and_iff_right members

theorem reached_together_iff (number first second : Int) :
    (number ≤ first ↔ number ≤ second) ↔
      ¬ (min first second < number ∧ number ≤ max first second) := by
  omega

theorem recursiveAt_iff (inhabited : 0 < quorum.size) (nodeSet : Finset String) :
    RecursiveAt nodeSet quorum ↔ NestedAgree isQuorumSlice quorum nodeSet := by
  rw [RecursiveAt, isQuorumSlice_iff_missing inhabited, need_le_count_iff]
  exact reached_together_iff _ _ _

theorem countP_nested_congr {first second : Quorum → Finset String → Bool}
    (same : ∀ nested ∈ quorum.nestQuorums, first nested nodeSet = second nested nodeSet) :
    quorum.nestQuorums.countP (first · nodeSet) =
      quorum.nestQuorums.countP (second · nodeSet) :=
  List.countP_congr fun nested nestedMem => by rw [same nested nestedMem]

theorem isQuorumSlice_eq_satisfied (nestedExact : ∀ nested ∈ quorum.nestQuorums,
      isQuorumSlice nested nodeSet = satisfied nested nodeSet)
    (recursive : RecursiveAt nodeSet quorum) :
    isQuorumSlice quorum nodeSet = satisfied quorum nodeSet := by
  unfold RecursiveAt at recursive
  rw [Bool.eq_iff_iff, recursive, satisfied_eq, decide_eq_true_iff, need_le_count_iff,
    need_le_count_iff, countP_nested_congr nestedExact]

theorem isQuorumSlice_eq_satisfied_of_levels
    (recursive : ∀ level ∈ quorum.levels, RecursiveAt nodeSet level) :
    isQuorumSlice quorum nodeSet = satisfied quorum nodeSet := by
  induction quorum with
  | step threshold validators nestQuorums ih =>
    obtain ⟨top, below⟩ := (Quorum.forall_levels _ _).mp recursive
    exact isQuorumSlice_eq_satisfied (fun nested nestedMem => ih nested nestedMem
      (below nested nestedMem)) top

theorem nestedAgree_congr {first second : Quorum → Finset String → Bool}
    (same : ∀ nested ∈ quorum.nestQuorums, first nested nodeSet = second nested nodeSet) :
    NestedAgree first quorum nodeSet ↔ NestedAgree second quorum nodeSet := by
  unfold NestedAgree
  rw [countP_nested_congr same]

/-- All levels are recursive exactly where counting v-blocked nested quorums instead
of satisfied ones makes no difference at any level. -/
theorem recursiveAt_levels_iff (inhabited : ∀ level ∈ quorum.levels, 0 < level.size) :
    (∀ level ∈ quorum.levels, RecursiveAt nodeSet level) ↔
      ∀ level ∈ quorum.levels, NestedAgree satisfied level nodeSet := by
  induction quorum with
  | step threshold validators nestQuorums ih =>
    obtain ⟨nonempty, nestedInhabited⟩ := (Quorum.forall_levels _ _).mp inhabited
    have nestedIff := fun nested nestedMem =>
      ih nested nestedMem (nestedInhabited nested nestedMem)
    rw [Quorum.forall_levels, Quorum.forall_levels]
    constructor
    · rintro ⟨top, below⟩
      have agree := (recursiveAt_iff nonempty nodeSet).mp top
      refine ⟨(nestedAgree_congr ?_).mp agree, fun nested nestedMem =>
        (nestedIff nested nestedMem).mp (below nested nestedMem)⟩
      intro nested nestedMem
      exact isQuorumSlice_eq_satisfied_of_levels (below nested nestedMem)
    · rintro ⟨top, below⟩
      have recursive := fun nested nestedMem =>
        (nestedIff nested nestedMem).mpr (below nested nestedMem)
      refine ⟨(recursiveAt_iff nonempty nodeSet).mpr ((nestedAgree_congr ?_).mpr top), recursive⟩
      intro nested nestedMem
      exact isQuorumSlice_eq_satisfied_of_levels (recursive nested nestedMem)

/-- All levels of a quorum are recursive thresholds exactly where, at every level, what
the validators leave open does not fall between the v-blocked nested quorums and the
satisfied ones. -/
theorem isQuorumSlice_recursive_iff {quorum : Quorum}
    (inhabited : ∀ level ∈ quorum.levels, 0 < level.size) (nodeSet : Finset String) :
    ((isQuorumSlice quorum nodeSet = true ↔
        quorum.need ≤ (memberFlags isQuorumSlice quorum nodeSet).count true) ↔
      NestedAgree isQuorumSlice quorum nodeSet) ∧
    ((∀ level ∈ quorum.levels, (isQuorumSlice level nodeSet = true ↔
        level.need ≤ (memberFlags isQuorumSlice level nodeSet).count true)) ↔
      ∀ level ∈ quorum.levels, NestedAgree satisfied level nodeSet) ∧
    ((∀ level ∈ quorum.levels, NestedAgree satisfied level nodeSet) →
      isQuorumSlice quorum nodeSet = satisfied quorum nodeSet) := by
  have top := inhabited quorum quorum.self_mem_levels
  refine ⟨recursiveAt_iff top nodeSet, recursiveAt_levels_iff inhabited, ?_⟩
  intro agree
  exact isQuorumSlice_eq_satisfied_of_levels ((recursiveAt_levels_iff inhabited).mpr agree)

private def twoGroups : Quorum :=
  .mk (3/5) ["v"] [.mk (3/5) ["a", "b", "c"] [], .mk (3/5) ["d", "e", "f"] []]

/-- The test sees a slice in the validator with two of a group. -/
theorem isQuorumSlice_recursive_twoGroups :
    isQuorumSlice twoGroups {"v", "a", "b"} = true ∧
      isQuorumSlice twoGroups {"v", "a", "b"} = satisfied twoGroups {"v", "a", "b"} :=
  ⟨by decide +kernel,
    (isQuorumSlice_recursive_iff (by decide +kernel) {"v", "a", "b"}).2.2 (by decide +kernel)⟩

/-- Two of three is content with one blocking node, and a nested quorum of all its nodes
is not counted when all of them are there. -/
theorem isQuorumSlice_not_recursive :
    (validateQuorum (.mk 1 [] [.mk (2/3) ["a", "b", "c"] []]) 0 true = .ok () ∧
      isQuorumSlice (.mk 1 [] [.mk (2/3) ["a", "b", "c"] []]) {"a"} = true ∧
      isQuorumSlice (.mk (2/3) ["a", "b", "c"] []) {"a"} = false ∧
      ¬ RecursiveAt {"a"} (.mk 1 [] [.mk (2/3) ["a", "b", "c"] []])) ∧
    (validateQuorum (.mk 1 ["v"] [.mk 1 ["a", "b"] []]) 0 true = .ok () ∧
      isQuorumSlice (.mk 1 ["v"] [.mk 1 ["a", "b"] []]) {"v", "a", "b"} = false ∧
      isQuorumSlice (.mk 1 ["a", "b"] []) {"v", "a", "b"} = true ∧
      ¬ RecursiveAt {"v", "a", "b"} (.mk 1 ["v"] [.mk 1 ["a", "b"] []])) := by
  decide +kernel

end Ultiledger
