import Ultiledger.ThresholdBlocking

/-!
# Quorum systems with slices of each node's own

Every node says which sets of nodes are slices for it.  A quorum is a non-empty set in
which every member has a slice.  Where any two quorums meet, nodes that are backed by two
properties have a node with both.
-/

namespace QuorumSystems

open ThresholdBlocking

variable {α : Type*} (slices : α → Finset α → Prop)

structure IsQuorum (members : Finset α) : Prop where
  nonempty : members.Nonempty
  served : ∀ node ∈ members, slices node members

def Backed (property : α → Prop) (node : α) : Prop :=
  ∃ members, IsQuorum slices members ∧ (∀ member ∈ members, property member) ∧
    slices node members

def Intersecting [DecidableEq α] (nodes : Finset α) : Prop :=
  ∀ first second, first ⊆ nodes → second ⊆ nodes → IsQuorum slices first →
    IsQuorum slices second → (first ∩ second).Nonempty

variable {slices}

theorem Backed.mono {property weaker : α → Prop} {node : α} (backed : Backed slices property node)
    (weakens : ∀ member, property member → weaker member) : Backed slices weaker node := by
  obtain ⟨members, quorum, holds, slice⟩ := backed
  exact ⟨members, quorum, fun member memberMem => weakens member (holds member memberMem), slice⟩

/-- A set of nodes that are served inside it, or backed from elsewhere, backs a node
that has a slice in it. -/
theorem Backed.of_support [DecidableEq α] (upClosed : ∀ node, UpClosed (slices node)) {property : α → Prop}
    {support : Finset α} {node : α} (nonempty : support.Nonempty)
    (holds : ∀ member ∈ support, property member) (slice : slices node support)
    (served : ∀ member ∈ support, slices member support ∨ Backed slices property member) :
    Backed slices property node := by
  have cover : ∀ member, ∃ extra : Finset α, (∀ other ∈ extra, property other ∧
      slices other extra) ∧ (member ∈ support → slices member support ∨ slices member extra) := by
    intro member
    by_cases memberMem : member ∈ support
    · rcases served member memberMem with inside | ⟨members, quorum, shared, outside⟩
      · exact ⟨∅, by simp, fun _ => .inl inside⟩
      · exact ⟨members, fun other otherMem => ⟨shared other otherMem, quorum.served other otherMem⟩,
          fun _ => .inr outside⟩
    · exact ⟨∅, by simp, fun inside => absurd inside memberMem⟩
  choose extra extraHolds extraServes using cover
  have inWhole : ∀ member ∈ support, extra member ⊆ support ∪ support.biUnion extra :=
    fun member memberMem =>
      (Finset.subset_biUnion_of_mem extra memberMem).trans Finset.subset_union_right
  refine ⟨support ∪ support.biUnion extra, ⟨?_, ?_⟩, ?_, ?_⟩
  · exact nonempty.mono Finset.subset_union_left
  · intro other otherMem
    rcases Finset.mem_union.mp otherMem with inside | added
    · rcases extraServes other inside with here | there
      · exact upClosed other Finset.subset_union_left here
      · exact upClosed other (inWhole other inside) there
    · obtain ⟨member, memberMem, otherIn⟩ := Finset.mem_biUnion.mp added
      exact upClosed other (inWhole member memberMem) (extraHolds member other otherIn).2
  · intro other otherMem
    rcases Finset.mem_union.mp otherMem with inside | added
    · exact holds other inside
    · obtain ⟨member, memberMem, otherIn⟩ := Finset.mem_biUnion.mp added
      exact (extraHolds member other otherIn).1
  · exact upClosed node Finset.subset_union_left slice

theorem Intersecting.exists_common [DecidableEq α] {nodes : Finset α} (intersecting : Intersecting slices nodes)
    {first second : α → Prop} {node other : α}
    (firstWithin : ∀ member, first member → member ∈ nodes)
    (secondWithin : ∀ member, second member → member ∈ nodes)
    (firstBacked : Backed slices first node) (secondBacked : Backed slices second other) :
    ∃ member, first member ∧ second member := by
  obtain ⟨members, quorum, holds, -⟩ := firstBacked
  obtain ⟨others, otherQuorum, otherHolds, -⟩ := secondBacked
  obtain ⟨member, both⟩ := intersecting members others
    (fun member memberMem => firstWithin member (holds member memberMem))
    (fun member memberMem => secondWithin member (otherHolds member memberMem)) quorum otherQuorum
  obtain ⟨inFirst, inSecond⟩ := Finset.mem_inter.mp both
  exact ⟨member, holds member inFirst, otherHolds member inSecond⟩

end QuorumSystems
