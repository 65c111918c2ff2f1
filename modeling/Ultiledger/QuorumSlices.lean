import Ultiledger.ThresholdBlocking
import Ultiledger.Quorum

/-! # Quorum slices and the v-blocking test -/

namespace Ultiledger

open ThresholdBlocking

variable {quorum : Quorum} {smaller larger nodeSet : Finset String}

namespace Quorum

@[induction_eliminator]
theorem nestedInduction {motive : Quorum → Prop}
    (step : ∀ threshold validators nestQuorums,
      (∀ nested ∈ nestQuorums, motive nested) →
        motive (.mk threshold validators nestQuorums)) :
    ∀ quorum, motive quorum
  | .mk threshold validators nestQuorums =>
    step threshold validators nestQuorums
      fun nested _ => nestedInduction step nested

def members (quorum : Quorum) : List (String ⊕ Quorum) :=
  quorum.validators.map .inl ++ quorum.nestQuorums.map .inr

theorem length_members (quorum : Quorum) : quorum.members.length = quorum.size := by
  simp [members, size]

def need (quorum : Quorum) : Int :=
  ⌈(quorum.size : ℚ) * quorum.threshold⌉

mutual

def levels : Quorum → List Quorum
  | .mk threshold validators nestQuorums =>
    .mk threshold validators nestQuorums :: levelsOf nestQuorums

def levelsOf : List Quorum → List Quorum
  | [] => []
  | quorum :: rest => levels quorum ++ levelsOf rest

end

theorem levelsOf_eq_flatMap (quorums : List Quorum) :
    levelsOf quorums = quorums.flatMap levels := by
  induction quorums with
  | nil => rfl
  | cons quorum rest ih => simp [levelsOf, ih]

/-- A statement about all levels is one about the top and about all levels of
each nested quorum. -/
theorem forall_levels (property : Quorum → Prop) (quorum : Quorum) :
    (∀ level ∈ quorum.levels, property level) ↔
      property quorum ∧
        ∀ nested ∈ quorum.nestQuorums, ∀ level ∈ nested.levels, property level := by
  cases quorum with
  | mk threshold validators nestQuorums =>
    simp only [levels, levelsOf_eq_flatMap, List.forall_mem_cons, List.mem_flatMap,
      forall_exists_index, and_imp, Quorum.nestQuorums]
    constructor
    · rintro ⟨top, below⟩
      exact ⟨top, fun nested nestedMem level levelMem =>
        below level nested nestedMem levelMem⟩
    · rintro ⟨top, below⟩
      exact ⟨top, fun level nested nestedMem levelMem =>
        below nested nestedMem level levelMem⟩

theorem self_mem_levels (quorum : Quorum) : quorum ∈ quorum.levels := by
  cases quorum with
  | mk threshold validators nestQuorums => simp [levels]

end Quorum

theorem validateQuorums_iff (extraChecks : Bool) (quorums : List Quorum) (depth : Nat) :
    validateQuorums quorums depth extraChecks = .ok () ↔
      ∀ quorum ∈ quorums, validateQuorum quorum depth extraChecks = .ok () := by
  induction quorums with
  | nil => simp [validateQuorums]
  | cons quorum rest ih =>
    rw [validateQuorums, List.forall_mem_cons, ← ih]
    cases validateQuorum quorum depth extraChecks <;> simp

theorem threshold_of_validateQuorum {depth : Nat} {extraChecks : Bool}
    (valid : validateQuorum quorum depth extraChecks = .ok ()) :
    ∀ level ∈ quorum.levels, 0 < level.threshold ∧ level.threshold ≤ 1 := by
  induction quorum generalizing depth with
  | step threshold validators nestQuorums ih =>
    rw [Quorum.forall_levels]
    simp only [validateQuorum] at valid
    split_ifs at valid with deep range extra distinct
    push Not at range
    refine ⟨range, ?_⟩
    intro nested nestedMem
    exact ih nested nestedMem ((validateQuorums_iff _ _ _).mp valid nested nestedMem)

mutual

/-- The node set contains a slice of the quorum: it satisfies at least
`⌈size * threshold⌉` members, nested quorums recursively. -/
def satisfied : Quorum → Finset String → Bool
  | .mk threshold validators nestQuorums, nodeSet =>
    decide ((Quorum.mk threshold validators nestQuorums).need ≤
      (validators.map (fun vid => decide (vid ∈ nodeSet)) ++
        satisfiedFlags nestQuorums nodeSet).count true)

def satisfiedFlags : List Quorum → Finset String → List Bool
  | [], _ => []
  | quorum :: rest, nodeSet => satisfied quorum nodeSet :: satisfiedFlags rest nodeSet

end

mutual

/-- The counting test that does decide whether a node set meets every slice:
fewer than `need` members are left unblocked. -/
def blocked : Quorum → Finset String → Bool
  | .mk threshold validators nestQuorums, nodeSet =>
    let quorum := Quorum.mk threshold validators nestQuorums
    decide ((quorum.size : Int) - quorum.need <
      (validators.map (fun vid => decide (vid ∈ nodeSet)) ++
        blockedFlags nestQuorums nodeSet).count true)

def blockedFlags : List Quorum → Finset String → List Bool
  | [], _ => []
  | quorum :: rest, nodeSet => blocked quorum nodeSet :: blockedFlags rest nodeSet

end

variable (nested : Quorum → Finset String → Bool) (quorums : List Quorum)

theorem satisfiedFlags_eq_map (nodeSet : Finset String) :
    satisfiedFlags quorums nodeSet = quorums.map (satisfied · nodeSet) := by
  induction quorums with
  | nil => rfl
  | cons quorum rest ih => simp only [satisfiedFlags, ih, List.map_cons]

theorem blockedFlags_eq_map (nodeSet : Finset String) :
    blockedFlags quorums nodeSet = quorums.map (blocked · nodeSet) := by
  induction quorums with
  | nil => rfl
  | cons quorum rest ih => simp only [blockedFlags, ih, List.map_cons]

/-- One flag for each member: a validator is tested for membership, a nested
quorum by `nested`. -/
def memberFlags (nested : Quorum → Finset String → Bool) (quorum : Quorum)
    (nodeSet : Finset String) : List Bool :=
  quorum.members.map (Sum.elim (fun vid => decide (vid ∈ nodeSet)) (nested · nodeSet))

theorem memberFlags_eq_append (quorum : Quorum) (nodeSet : Finset String) :
    memberFlags nested quorum nodeSet =
      quorum.validators.map (fun vid => decide (vid ∈ nodeSet)) ++
        quorum.nestQuorums.map (nested · nodeSet) := by
  simp [memberFlags, Quorum.members]

theorem count_memberFlags (quorum : Quorum) (nodeSet : Finset String) :
    (memberFlags nested quorum nodeSet).count true =
      quorum.members.countP
        (Sum.elim (fun vid => decide (vid ∈ nodeSet)) (nested · nodeSet)) := by
  simp only [memberFlags, List.count, List.countP_map]
  congr 1
  funext member
  simp

theorem satisfied_eq (quorum : Quorum) (nodeSet : Finset String) :
    satisfied quorum nodeSet =
      decide (quorum.need ≤ (memberFlags satisfied quorum nodeSet).count true) := by
  cases quorum with
  | mk threshold validators nestQuorums =>
    rw [satisfied, satisfiedFlags_eq_map, memberFlags_eq_append]
    rfl

theorem blocked_eq (quorum : Quorum) (nodeSet : Finset String) :
    blocked quorum nodeSet =
      decide ((quorum.size : Int) - quorum.need <
        (memberFlags blocked quorum nodeSet).count true) := by
  cases quorum with
  | mk threshold validators nestQuorums =>
    rw [blocked, blockedFlags_eq_map, memberFlags_eq_append]
    rfl

theorem isVblocking_eq (quorum : Quorum) (nodeSet : Finset String) :
    isVblocking quorum nodeSet =
      countdown (· == 0) ⌈(quorum.size : ℚ) * (1 - quorum.threshold)⌉
        (memberFlags isVblocking quorum nodeSet) := by
  cases quorum with
  | mk threshold validators nestQuorums =>
    rw [isVblocking, vblockingFlags_eq_map, memberFlags_eq_append]
    rfl

theorem isQuorumSlice_eq (quorum : Quorum) (nodeSet : Finset String) :
    isQuorumSlice quorum nodeSet =
      countdown (fun left => decide (left ≤ 0)) quorum.need
        (memberFlags isVblocking quorum nodeSet) := by
  cases quorum with
  | mk threshold validators nestQuorums =>
    rw [isQuorumSlice, vblockingFlags_eq_map, memberFlags_eq_append]
    rfl

theorem memberFlags_count_mono {nested : Quorum → Finset String → Bool}
    (subset : smaller ⊆ larger) (nestedMono : ∀ inner ∈ quorum.nestQuorums,
      nested inner smaller = true → nested inner larger = true) :
    (memberFlags nested quorum smaller).count true ≤
      (memberFlags nested quorum larger).count true := by
  rw [count_memberFlags, count_memberFlags]
  apply List.countP_mono_left
  intro member memberMem holds
  cases member with
  | inl vid =>
    simp only [Sum.elim_inl, decide_eq_true_iff] at holds ⊢
    exact subset holds
  | inr inner =>
    have innerMem : inner ∈ quorum.nestQuorums := by
      simpa [Quorum.members] using memberMem
    exact nestedMono inner innerMem holds

/-- No inhabited level starts the count of `isVblocking` at zero; for thresholds
up to one this says that none of them is one. -/
def Quorum.StartsOffZero (quorum : Quorum) : Prop :=
  ∀ level ∈ quorum.levels, level.size = 0 ∨
    ⌈(level.size : ℚ) * (1 - level.threshold)⌉ ≠ 0

instance (quorum : Quorum) : Decidable quorum.StartsOffZero :=
  inferInstanceAs (Decidable (∀ level ∈ quorum.levels, _))

theorem isVblocking_mono (offZero : quorum.StartsOffZero) (subset : smaller ⊆ larger)
    (holds : isVblocking quorum smaller = true) : isVblocking quorum larger = true := by
  induction quorum with
  | step threshold validators nestQuorums ih =>
    obtain ⟨topOffZero, nestedOffZero⟩ := (Quorum.forall_levels _ _).mp offZero
    rw [isVblocking_eq] at holds ⊢
    rcases lt_trichotomy 0 ⌈((Quorum.mk threshold validators nestQuorums).size : ℚ) *
        (1 - (Quorum.mk threshold validators nestQuorums).threshold)⌉ with
      positive | zero | negative
    · rw [countdown_zero_iff_of_pos positive] at holds ⊢
      have counts := @memberFlags_count_mono (.mk threshold validators nestQuorums) _ _ _
        subset fun inner innerMem => ih inner innerMem (nestedOffZero inner innerMem)
      omega
    · have noMember : memberFlags isVblocking (.mk threshold validators nestQuorums)
          smaller = [] := by
        apply List.eq_nil_of_length_eq_zero
        rw [memberFlags, List.length_map, Quorum.length_members]
        exact topOffZero.resolve_right fun apart => apart zero.symm
      rw [noMember] at holds
      simp [countdown] at holds
    · rw [countdown_zero_of_neg negative] at holds
      simp at holds

theorem isQuorumSlice_mono (offZero : ∀ nested ∈ quorum.nestQuorums, nested.StartsOffZero)
    (subset : smaller ⊆ larger) (holds : isQuorumSlice quorum smaller = true) :
    isQuorumSlice quorum larger = true := by
  rw [isQuorumSlice_eq, countdown_nonpos_iff] at holds ⊢
  obtain ⟨nonempty, enough⟩ := holds
  have counts := @memberFlags_count_mono quorum _ _ isVblocking subset fun inner innerMem =>
    isVblocking_mono (offZero inner innerMem) subset
  refine ⟨?_, by omega⟩
  rw [← List.length_pos_iff] at nonempty ⊢
  rwa [memberFlags, List.length_map] at nonempty ⊢

theorem satisfied_of_isQuorumSlice (flat : quorum.nestQuorums = [])
    (slice : isQuorumSlice quorum nodeSet = true) : satisfied quorum nodeSet = true := by
  rw [isQuorumSlice_eq, countdown_nonpos_iff, memberFlags_eq_append, flat] at slice
  rw [satisfied_eq, memberFlags_eq_append, flat, decide_eq_true_iff]
  exact slice.2

theorem nonempty_of_isQuorumSlice (flat : quorum.nestQuorums = [])
    (positive : 0 < quorum.threshold) (slice : isQuorumSlice quorum nodeSet = true) :
    nodeSet.Nonempty := by
  rw [isQuorumSlice_eq, countdown_nonpos_iff, memberFlags_eq_append, flat, List.map_nil,
    List.append_nil] at slice
  obtain ⟨members, enough⟩ := slice
  have sized : 0 < quorum.size := by
    rw [Quorum.size, flat]
    simpa [List.length_pos_iff] using members
  have needed : 0 < quorum.need := by
    rw [Quorum.need, Int.ceil_pos]
    exact mul_pos (by exact_mod_cast sized) positive
  by_contra empty
  rw [Finset.not_nonempty_iff_eq_empty] at empty
  subst empty
  have none : (quorum.validators.map fun vid => decide (vid ∈ (∅ : Finset String))).count true =
      0 := by
    simp [List.count_eq_zero]
  omega

theorem satisfied_iff_atLeast (quorum : Quorum) (nodeSet : Finset String) :
    satisfied quorum nodeSet = true ↔
      AtLeast quorum.members
        (fun member set => Sum.elim (fun vid => decide (vid ∈ set)) (satisfied · set) member)
        quorum.need nodeSet := by
  rw [satisfied_eq, decide_eq_true_iff, count_memberFlags]
  rfl

theorem satisfied_upClosed (quorum : Quorum) :
    UpClosed (fun set => satisfied quorum set = true) := by
  induction quorum with
  | step threshold validators nestQuorums ih =>
    intro smaller larger subset holds
    rw [satisfied_iff_atLeast] at holds ⊢
    refine atLeast_upClosed _ _ ?_ _ subset holds
    intro member memberMem
    cases member with
    | inl vid =>
      intro smaller larger subset memSmaller
      simp only [Sum.elim_inl, decide_eq_true_iff] at memSmaller ⊢
      exact subset memSmaller
    | inr nested =>
      have nestedMem : nested ∈ nestQuorums := by
        simpa [Quorum.members, Quorum.validators, Quorum.nestQuorums] using memberMem
      exact ih nested nestedMem

theorem blocked_iff_blocks (quorum : Quorum) (nodeSet : Finset String) :
    blocked quorum nodeSet = true ↔
      Blocks (fun set => satisfied quorum set = true) nodeSet := by
  induction quorum with
  | step threshold validators nestQuorums ih =>
    have family : (fun set => satisfied (.mk threshold validators nestQuorums) set = true) =
        AtLeast (Quorum.mk threshold validators nestQuorums).members
          (fun member set =>
            Sum.elim (fun vid => decide (vid ∈ set)) (satisfied · set) member)
          (Quorum.mk threshold validators nestQuorums).need := by
      funext set
      exact propext (satisfied_iff_atLeast _ set)
    rw [family, blocked_eq, decide_eq_true_iff, count_memberFlags,
      ← Quorum.length_members]
    refine (blocks_atLeast_iff _ _ _ nodeSet ?_ ?_ _).symm
    · intro member memberMem
      cases member with
      | inl vid =>
        intro smaller larger subset memSmaller
        simp only [Sum.elim_inl, decide_eq_true_iff] at memSmaller ⊢
        exact subset memSmaller
      | inr nested => exact satisfied_upClosed nested
    · intro member memberMem
      cases member with
      | inl vid =>
        simp only [Sum.elim_inl, decide_eq_true_iff]
        constructor
        · intro vidMem accepted vidAccepted
          exact ⟨vid, vidMem, vidAccepted⟩
        · intro blocks
          obtain ⟨point, pointMem, pointAccepted⟩ :=
            blocks {vid} (Finset.mem_singleton_self vid)
          rwa [Finset.mem_singleton.mp pointAccepted] at pointMem
      | inr nested =>
        have nestedMem : nested ∈ nestQuorums := by
          simpa [Quorum.members, Quorum.validators, Quorum.nestQuorums] using memberMem
        exact ih nested nestedMem

/-- A threshold below one is not met exactly, and under threshold one the first member,
which alone decides the loop, is unblocked while another one is. -/
def OffBoundary (quorum : Quorum) (nodeSet : Finset String) : Prop :=
  if quorum.threshold = 1 then
    (memberFlags blocked quorum nodeSet).head? = some false ∧
      true ∈ memberFlags blocked quorum nodeSet
  else
    ((memberFlags blocked quorum nodeSet).count true : ℚ) ≠
      quorum.size * (1 - quorum.threshold)

instance (quorum : Quorum) (nodeSet : Finset String) :
    Decidable (OffBoundary quorum nodeSet) := by
  unfold OffBoundary
  infer_instance

theorem size_sub_need (quorum : Quorum) :
    (quorum.size : Int) - quorum.need =
      ⌊(quorum.size : ℚ) * (1 - quorum.threshold)⌋ := by
  have complement : (quorum.size : ℚ) * (1 - quorum.threshold) =
      ((quorum.size : Int) : ℚ) - quorum.size * quorum.threshold := by
    push_cast
    ring
  rw [complement, sub_eq_add_neg ((quorum.size : Int) : ℚ), Int.floor_intCast_add,
    Int.floor_neg, Quorum.need]
  ring

theorem need_le_size (within : quorum.threshold ≤ 1) : quorum.need ≤ quorum.size := by
  refine Int.ceil_le.mpr ?_
  push_cast
  nlinarith

theorem blocked_empty (quorum : Quorum) (within : ∀ level ∈ quorum.levels, level.threshold ≤ 1) :
    blocked quorum ∅ = false := by
  induction quorum with
  | step threshold validators nestQuorums ih =>
    obtain ⟨topWithin, nestedWithin⟩ := (Quorum.forall_levels _ _).mp within
    have noFlag : (memberFlags blocked (.mk threshold validators nestQuorums) ∅).count
        true = 0 := by
      rw [List.count_eq_zero, memberFlags_eq_append]
      simp only [Quorum.validators, Quorum.nestQuorums, List.mem_append, List.mem_map,
        not_or, not_exists, not_and]
      refine ⟨fun vid _ => by simp, ?_⟩
      intro nested nestedMem
      simp [ih nested nestedMem (nestedWithin nested nestedMem)]
    rw [blocked_eq, decide_eq_false_iff_not]
    have bound := need_le_size topWithin
    omega

theorem isVblocking_eq_blocked_iff (within : quorum.threshold ≤ 1) (nonempty : 0 < quorum.size)
    (nestedExact : ∀ nested ∈ quorum.nestQuorums,
      isVblocking nested nodeSet = blocked nested nodeSet) :
    isVblocking quorum nodeSet = blocked quorum nodeSet ↔
      OffBoundary quorum nodeSet := by
  have sameFlags :
      memberFlags isVblocking quorum nodeSet = memberFlags blocked quorum nodeSet := by
    rw [memberFlags_eq_append, memberFlags_eq_append]
    exact congrArg _ (List.map_congr_left nestedExact)
  have sizeFlags : (memberFlags blocked quorum nodeSet).length = quorum.size := by
    rw [memberFlags, List.length_map, Quorum.length_members]
  rw [isVblocking_eq, blocked_eq, sameFlags, size_sub_need, OffBoundary]
  generalize memberFlags blocked quorum nodeSet = flags at sizeFlags
  split_ifs with full
  · have none : (quorum.size : ℚ) * (1 - quorum.threshold) = 0 := by
      rw [full]
      ring
    rw [none, Int.ceil_zero]
    cases flags with
    | nil => simp at sizeFlags; omega
    | cons first rest =>
      rw [countdown_zero_at_zero]
      cases first with
      | false =>
        simp [List.count_pos_iff]
      | true => simp
  · have gapPositive : (0 : ℚ) < quorum.size * (1 - quorum.threshold) := by
      positivity
    rw [Bool.eq_iff_iff, countdown_zero_iff_of_pos (Int.ceil_pos.mpr gapPositive),
      decide_eq_true_iff, Int.ceil_le, Int.floor_lt]
    push_cast
    constructor
    · intro agree reached
      exact absurd (agree.mp reached.symm.le) (by rw [reached]; exact lt_irrefl _)
    · intro apart
      exact ⟨fun reached => lt_of_le_of_ne reached apart.symm, le_of_lt⟩

/-- The v-blocking test agrees with its meaning at every level of a quorum
exactly when the node set is off the boundary at every level. -/
theorem isVblocking_levels_iff (within : ∀ level ∈ quorum.levels, level.threshold ≤ 1)
    (inhabited : ∀ level ∈ quorum.levels, 0 < level.size) :
    (∀ level ∈ quorum.levels, isVblocking level nodeSet = blocked level nodeSet) ↔
      ∀ level ∈ quorum.levels, OffBoundary level nodeSet := by
  induction quorum with
  | step threshold validators nestQuorums ih =>
    obtain ⟨topWithin, nestedWithin⟩ := (Quorum.forall_levels _ _).mp within
    obtain ⟨nonempty, nestedInhabited⟩ := (Quorum.forall_levels _ _).mp inhabited
    have nestedIff := fun nested nestedMem =>
      ih nested nestedMem (nestedWithin nested nestedMem) (nestedInhabited nested nestedMem)
    rw [Quorum.forall_levels, Quorum.forall_levels]
    constructor
    · rintro ⟨topExact, nestedExact⟩
      have exactNested : ∀ nested ∈ nestQuorums,
          isVblocking nested nodeSet = blocked nested nodeSet :=
        fun nested nestedMem => nestedExact nested nestedMem nested nested.self_mem_levels
      exact ⟨(isVblocking_eq_blocked_iff topWithin nonempty exactNested).mp topExact,
        fun nested nestedMem =>
          (nestedIff nested nestedMem).mp (nestedExact nested nestedMem)⟩
    · rintro ⟨topOff, nestedOff⟩
      have nestedExact := fun nested nestedMem =>
        (nestedIff nested nestedMem).mpr (nestedOff nested nestedMem)
      have exactNested : ∀ nested ∈ nestQuorums,
          isVblocking nested nodeSet = blocked nested nodeSet :=
        fun nested nestedMem => nestedExact nested nestedMem nested nested.self_mem_levels
      exact ⟨(isVblocking_eq_blocked_iff topWithin nonempty exactNested).mpr topOff,
        nestedExact⟩

/-- V-blocking duality: at every level the test agrees with meeting every slice exactly
off the boundary, where it is monotone and false on the empty set. -/
theorem isVblocking_dual_iff_offBoundary {quorum : Quorum} {depth : Nat}
    {extraChecks : Bool} (valid : validateQuorum quorum depth extraChecks = .ok ())
    (inhabited : ∀ level ∈ quorum.levels, 0 < level.size) :
    (∀ nodeSet,
      (∀ level ∈ quorum.levels, (isVblocking level nodeSet = true ↔
        Blocks (fun slice => satisfied level slice = true) nodeSet)) ↔
      ∀ level ∈ quorum.levels, OffBoundary level nodeSet) ∧
    (∀ smaller larger, smaller ⊆ larger →
      (∀ level ∈ quorum.levels, OffBoundary level smaller ∧ OffBoundary level larger) →
      isVblocking quorum smaller = true → isVblocking quorum larger = true) ∧
    ((∀ level ∈ quorum.levels, OffBoundary level ∅) → isVblocking quorum ∅ = false) := by
  have within := fun level mem => (threshold_of_validateQuorum valid level mem).2
  have levelsIff := fun nodeSet =>
    @isVblocking_levels_iff quorum nodeSet within inhabited
  refine ⟨?_, ?_, ?_⟩
  · intro nodeSet
    rw [← levelsIff]
    refine forall₂_congr fun level _ => ?_
    rw [← blocked_iff_blocks, ← Bool.eq_iff_iff]
  · intro smaller larger subset off blocking
    have smallerExact :=
      (levelsIff smaller).mpr (fun level mem => (off level mem).1) _ quorum.self_mem_levels
    have largerExact :=
      (levelsIff larger).mpr (fun level mem => (off level mem).2) _ quorum.self_mem_levels
    rw [smallerExact, blocked_iff_blocks] at blocking
    rw [largerExact, blocked_iff_blocks]
    exact blocking.mono subset
  · intro off
    rw [(levelsIff ∅).mpr off _ quorum.self_mem_levels]
    exact blocked_empty quorum within

private def nestedFractional : Quorum :=
  .mk (3/5) ["a", "b"] [.mk (3/5) ["c", "d", "e", "f"] []]

theorem isVblocking_dual_nested :
    (isVblocking nestedFractional {"a", "c", "d"} = true ↔
      Blocks (fun slice => satisfied nestedFractional slice = true) {"a", "c", "d"}) ∧
    isVblocking nestedFractional ∅ = false := by
  have valid : validateQuorum nestedFractional 0 true = .ok () := by decide +kernel
  have inhabited : ∀ level ∈ nestedFractional.levels, 0 < level.size := by
    decide +kernel
  have dual := isVblocking_dual_iff_offBoundary valid inhabited
  exact ⟨(dual.1 {"a", "c", "d"}).mpr (by decide +kernel) _ (Quorum.self_mem_levels _),
    dual.2.2 (by decide +kernel)⟩

/-- With two members and threshold one half the loop is content with one of
them, although the other one is a slice; with threshold one it accepts the empty
set and rejects a larger one. -/
theorem isVblocking_not_dual :
    (validateQuorum (.mk (1/2) ["a", "b"] []) 0 true = .ok () ∧
      isVblocking (.mk (1/2) ["a", "b"] []) {"a"} = true ∧
      satisfied (.mk (1/2) ["a", "b"] []) {"b"} = true ∧
      ¬ Blocks (fun slice => satisfied (.mk (1/2) ["a", "b"] []) slice = true) {"a"}) ∧
    (validateQuorum (.mk 1 ["a", "b"] []) 0 true = .ok () ∧
      isVblocking (.mk 1 ["a", "b"] []) ∅ = true ∧
      isVblocking (.mk 1 ["a", "b"] []) {"a"} = false) := by
  rw [← blocked_iff_blocks]
  decide +kernel

end Ultiledger
