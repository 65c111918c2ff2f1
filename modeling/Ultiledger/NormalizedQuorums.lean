import Ultiledger.QuorumSlices
import Ultiledger.RoundLeaders

/-! # Simplified and sorted quorums

`compareQuorum` compares the validators of the first quorum with themselves, so
`sortQuorum` goes by the thresholds and the nesting only.
-/

namespace Ultiledger

section Simplified

variable (nodeID : String)

mutual

/-- The nodes inside an unnecessary nesting. -/
def wrappedNodes : Quorum → List String
  | .mk threshold validators nestQuorums =>
    let wrapped := wrappedNodesOf nestQuorums
    match isWrapper threshold validators nestQuorums, nestQuorums with
    | true, nested :: _ => getQuorumNodes nested
    | _, _ => wrapped

def wrappedNodesOf : List Quorum → List String
  | [] => []
  | quorum :: rest => wrappedNodes quorum ++ wrappedNodesOf rest

end

theorem simplifyQuorums_eq_map (quorums : List Quorum) :
    simplifyQuorums nodeID quorums = quorums.map (simplifyQuorum nodeID) := by
  induction quorums with
  | nil => rfl
  | cons quorum rest ih => simp [simplifyQuorums, ih]

theorem getQuorumsNodes_eq_flatMap (quorums : List Quorum) :
    getQuorumsNodes quorums = quorums.flatMap getQuorumNodes := by
  induction quorums with
  | nil => rfl
  | cons quorum rest ih => simp [getQuorumsNodes, ih]

theorem wrappedNodesOf_eq_flatMap (quorums : List Quorum) :
    wrappedNodesOf quorums = quorums.flatMap wrappedNodes := by
  induction quorums with
  | nil => rfl
  | cons quorum rest ih => simp [wrappedNodesOf, ih]

theorem isWrapper_iff {threshold : ℚ} {validators : List String} {nestQuorums : List Quorum} :
    isWrapper threshold validators nestQuorums = true ↔
      threshold = 1 ∧ validators = [] ∧ ∃ nested, nestQuorums = [nested] := by
  simp [isWrapper, List.length_eq_one_iff, and_assoc]

/-- Outside unnecessary nestings exactly the node is taken out, and inside nothing is. -/
theorem simplifyQuorum_counts (quorum : Quorum) :
    (getQuorumNodes (simplifyQuorum nodeID quorum)).filter (· ≠ nodeID) =
        (getQuorumNodes quorum).filter (· ≠ nodeID) ∧
      (getQuorumNodes (simplifyQuorum nodeID quorum)).count nodeID =
        (wrappedNodes quorum).count nodeID := by
  induction quorum with
  | step threshold validators nestQuorums ih =>
    by_cases wrapper : isWrapper threshold validators nestQuorums = true
    · obtain ⟨rfl, rfl, nested, rfl⟩ := isWrapper_iff.mp wrapper
      simp [simplifyQuorum, wrappedNodes, getQuorumNodes, getQuorumsNodes, isWrapper]
    · simp only [simplifyQuorum, wrappedNodes, wrapper, getQuorumNodes,
        getQuorumsNodes_eq_flatMap, simplifyQuorums_eq_map, wrappedNodesOf_eq_flatMap]
      constructor
      · rw [List.filter_append, List.filter_append, List.filter_filter, List.flatMap_map,
          List.filter_flatMap, List.filter_flatMap]
        simp only [Bool.and_self]
        rw [List.flatMap_congr fun nested nestedMem => (ih nested nestedMem).1]
      · have outside : (validators.filter (· ≠ nodeID)).count nodeID = 0 := by
          simp [List.count_eq_zero]
        rw [List.count_append, outside, Nat.zero_add, List.flatMap_map, List.count_flatMap,
          List.count_flatMap]
        exact congrArg List.sum
          (List.map_congr_left fun nested nestedMem => (ih nested nestedMem).2)

/-- The other nodes are listed as before, the node itself as often as it stands inside an
unnecessary nesting. -/
theorem simplifyQuorum_nodes (quorum : Quorum) :
    (getQuorumNodes (simplifyQuorum nodeID quorum)).filter (· ≠ nodeID) =
        (getQuorumNodes quorum).filter (· ≠ nodeID) ∧
      (getQuorumNodes (simplifyQuorum nodeID quorum)).count nodeID =
        (wrappedNodes quorum).count nodeID ∧
      ((getQuorumNodes (simplifyQuorum nodeID quorum)).Perm
          ((getQuorumNodes quorum).filter (· ≠ nodeID)) ↔
        nodeID ∉ wrappedNodes quorum) := by
  obtain ⟨others, count⟩ := simplifyQuorum_counts nodeID quorum
  refine ⟨others, count, ?_⟩
  rw [← List.count_eq_zero, ← count, ← others, List.count_eq_zero]
  constructor
  · intro same nodeMem
    simpa using same.mem_iff.mp nodeMem
  · intro absent
    rw [List.filter_eq_self.mpr]
    intro node nodeMem
    simpa using ne_of_mem_of_not_mem nodeMem absent

/-- The nested quorum of a wrapper keeps the node that is to be taken out. -/
theorem simplifyQuorum_keeps_node :
    getQuorumNodes (simplifyQuorum "B" (.mk 1 [] [.mk (1 / 2) ["A", "B"] []])) = ["A", "B"] := by
  simp [simplifyQuorum, isWrapper, getQuorumNodes, getQuorumsNodes]

end Simplified

section Compared

def compareStrings : List String → List String → Ordering
  | [], [] => .eq
  | [], _ :: _ => .lt
  | _ :: _, [] => .gt
  | a :: as, b :: bs => (compare a b).then (compareStrings as bs)

/-- The last comparison of `compareQuorum`. -/
def compareThresholds (first second : ℚ) : Ordering :=
  if first < second then .lt else if first > second then .gt else .eq

mutual

/-- `compareQuorum`.  The validators of the second quorum are not looked at. -/
def compareQuorum : Quorum → Quorum → Ordering
  | .mk threshold validators nestQuorums, .mk otherThreshold _ otherQuorums =>
    (compareStrings validators validators).then
      ((compareQuorums nestQuorums otherQuorums).then
        (compareThresholds threshold otherThreshold))

def compareQuorums : List Quorum → List Quorum → Ordering
  | [], [] => .eq
  | [], _ :: _ => .lt
  | _ :: _, [] => .gt
  | quorum :: rest, other :: others =>
    (compareQuorum quorum other).then (compareQuorums rest others)

end

def quorumLess (first second : Quorum) : Bool := (compareQuorum first second).isLE

/-- The quorums have the same thresholds and the same nesting. -/
inductive SameOutline : Quorum → Quorum → Prop
  | mk {threshold : ℚ} {validators otherValidators : List String}
      {nestQuorums otherQuorums : List Quorum}
      (nested : List.Forall₂ SameOutline nestQuorums otherQuorums) :
      SameOutline (.mk threshold validators nestQuorums) (.mk threshold otherValidators otherQuorums)

theorem compareStrings_self (texts : List String) : compareStrings texts texts = .eq := by
  induction texts with
  | nil => rfl
  | cons text rest ih => simp [compareStrings, ih]

theorem compareThresholds_eq_compare : compareThresholds = compare := by
  funext first second
  rw [compareThresholds]
  split_ifs with less greater
  · exact (compare_lt_iff_lt.mpr less).symm
  · exact (compare_gt_iff_gt.mpr greater).symm
  · exact (compare_eq_iff_eq.mpr (le_antisymm (not_lt.mp greater) (not_lt.mp less))).symm

theorem compareQuorums_eq_iff (quorums others : List Quorum) :
    compareQuorums quorums others = .eq ↔
      List.Forall₂ (fun quorum other => compareQuorum quorum other = .eq) quorums others := by
  induction quorums generalizing others with
  | nil => cases others <;> simp [compareQuorums]
  | cons quorum rest ih =>
    cases others with
    | nil => simp [compareQuorums]
    | cons other others => simp [compareQuorums, Ordering.then_eq_eq, ih]

theorem compareQuorum_eq_iff (first second : Quorum) :
    compareQuorum first second = .eq ↔ SameOutline first second := by
  induction first generalizing second with
  | step threshold validators nestQuorums ih =>
    cases second with
    | mk otherThreshold otherValidators otherQuorums =>
      simp only [compareQuorum, compareStrings_self, Ordering.eq_then, Ordering.then_eq_eq,
        compareQuorums_eq_iff, compareThresholds_eq_compare, compare_eq_iff_eq]
      constructor
      · rintro ⟨same, rfl⟩
        refine .mk (((List.forall₂_and_left _ _).mpr ⟨ih, same⟩).imp ?_)
        exact fun quorum other ⟨exact, equal⟩ => (exact other).mp equal
      · rintro ⟨same⟩
        refine ⟨((List.forall₂_and_left _ _).mpr ⟨ih, same⟩).imp ?_, rfl⟩
        exact fun quorum other ⟨exact, equal⟩ => (exact other).mpr equal

mutual

/-- The thresholds of a quorum, each nested quorum behind a one and a zero behind the
last of them. -/
def profile : Quorum → List ℚ
  | .mk threshold _ nestQuorums => profiles nestQuorums ++ [threshold]

def profiles : List Quorum → List ℚ
  | [] => [0]
  | quorum :: rest => 1 :: (profile quorum ++ profiles rest)

end

/-- The profile decides a comparison of quorums, whatever is behind it. -/
def Profiled (first : Quorum) : Prop :=
  ∀ (second : Quorum) (rest otherRest : List ℚ),
    List.compareLex compareThresholds (profile first ++ rest) (profile second ++ otherRest) =
      (compareQuorum first second).then (List.compareLex compareThresholds rest otherRest)

theorem compareLex_profiles {quorums : List Quorum} (profiled : ∀ quorum ∈ quorums, Profiled quorum)
    (others : List Quorum) (rest otherRest : List ℚ) :
    List.compareLex compareThresholds (profiles quorums ++ rest) (profiles others ++ otherRest) =
      (compareQuorums quorums others).then
        (List.compareLex compareThresholds rest otherRest) := by
  have zeroOne : compareThresholds 0 1 = .lt := by simp [compareThresholds]
  have oneZero : compareThresholds 1 0 = .gt := by
    rw [compareThresholds, if_neg (by norm_num), if_pos (by norm_num)]
  have same (mark : ℚ) : compareThresholds mark mark = .eq := by simp [compareThresholds]
  induction quorums generalizing others with
  | nil =>
    cases others with
    | nil => simp [profiles, compareQuorums, List.compareLex_cons_cons, same]
    | cons other others => simp [profiles, compareQuorums, List.compareLex_cons_cons, zeroOne]
  | cons quorum quorums ih =>
    cases others with
    | nil => simp [profiles, compareQuorums, List.compareLex_cons_cons, oneZero]
    | cons other others =>
      obtain ⟨head, tail⟩ := List.forall_mem_cons.mp profiled
      simp only [profiles, compareQuorums, List.cons_append, List.append_assoc,
        List.compareLex_cons_cons, same, Ordering.eq_then]
      rw [head, ih tail, Ordering.then_assoc]

theorem profiled (quorum : Quorum) : Profiled quorum := by
  induction quorum with
  | step threshold validators nestQuorums ih =>
    rintro ⟨otherThreshold, otherValidators, otherQuorums⟩ rest otherRest
    simp only [profile, List.append_assoc, List.singleton_append, compareQuorum,
      compareStrings_self, Ordering.eq_then]
    rw [compareLex_profiles ih, List.compareLex_cons_cons, Ordering.then_assoc]

theorem compareQuorum_eq_compareLex (first second : Quorum) :
    compareQuorum first second =
      List.compareLex compareThresholds (profile first) (profile second) := by
  have decides := profiled first second [] []
  simpa [List.compareLex_nil_nil] using decides.symm

instance : Std.TransCmp compareQuorum where
  eq_swap {first second} := by
    rw [compareQuorum_eq_compareLex, compareQuorum_eq_compareLex, compareThresholds_eq_compare]
    exact Std.OrientedCmp.eq_swap
  isLE_trans {first second third} := by
    rw [compareQuorum_eq_compareLex, compareQuorum_eq_compareLex, compareQuorum_eq_compareLex,
      compareThresholds_eq_compare]
    exact Std.TransCmp.isLE_trans

end Compared

section Sorted

/-- What `sort.Sort` does with a list of quorums. -/
structure QuorumSorter where
  arrange : List Quorum → List Quorum
  perm : ∀ quorums, (arrange quorums).Perm quorums
  sorted : ∀ quorums, (arrange quorums).Pairwise fun first second => quorumLess first second

/-- The quorums differ in the order of validators and nested quorums, at any level. -/
inductive Reordered : Quorum → Quorum → Prop
  | mk {threshold : ℚ} {validators otherValidators : List String}
      {nestQuorums middle otherQuorums : List Quorum}
      (shuffled : validators.Perm otherValidators)
      (nested : List.Forall₂ Reordered nestQuorums middle) (order : middle.Perm otherQuorums) :
      Reordered (.mk threshold validators nestQuorums) (.mk threshold otherValidators otherQuorums)

/-- The quorums have the same outline, up to the order of nested quorums. -/
inductive SameShape : Quorum → Quorum → Prop
  | mk {threshold : ℚ} {validators otherValidators : List String}
      {nestQuorums middle otherQuorums : List Quorum}
      (nested : List.Forall₂ SameShape nestQuorums middle) (order : middle.Perm otherQuorums) :
      SameShape (.mk threshold validators nestQuorums) (.mk threshold otherValidators otherQuorums)

/-- Nested quorums of one level and one shape differ in their order only. -/
def Distinguished (quorum : Quorum) : Prop :=
  ∀ level ∈ quorum.levels, ∀ first ∈ level.nestQuorums, ∀ second ∈ level.nestQuorums,
    SameShape first second → Reordered first second

variable (sorter : QuorumSorter) {first second : Quorum}

theorem sortQuorums_eq_map (arrange : List Quorum → List Quorum) (quorums : List Quorum) :
    sortQuorums arrange quorums = quorums.map (sortQuorum arrange) := by
  induction quorums with
  | nil => rfl
  | cons quorum rest ih => simp [sortQuorums, ih]

theorem insertionSort_eq_of_perm {first second : List String} (order : first.Perm second) :
    first.insertionSort (· ≤ ·) = second.insertionSort (· ≤ ·) := by
  apply List.Perm.eq_of_pairwise (fun _ _ _ _ => le_antisymm)
    (List.pairwise_insertionSort _ first) (List.pairwise_insertionSort _ second)
  exact (List.perm_insertionSort _ first).trans
    (order.trans (List.perm_insertionSort _ second).symm)

theorem sameOutline_iff (first second : Quorum) :
    SameOutline first second ↔ profile first = profile second := by
  rw [← compareQuorum_eq_iff, compareQuorum_eq_compareLex, compareThresholds_eq_compare]
  exact Std.LawfulEqCmp.compare_eq_iff_eq

theorem exists_perm_of_map {Key : Type} {key : Quorum → Key} {quorums others : List Quorum}
    (perm : (quorums.map key).Perm (others.map key)) :
    ∃ middle : List Quorum, middle.Perm others ∧
      List.Forall₂ (fun quorum other => key quorum = key other) quorums middle := by
  have keys : List.Forall₂ (fun value other => value = key other) (others.map key) others := by
    rw [List.forall₂_map_left_iff, List.forall₂_same]
    exact fun _ _ => rfl
  obtain ⟨middle, same, order⟩ := List.perm_comp_forall₂ perm keys
  exact ⟨middle, order, List.forall₂_map_left_iff.mp same⟩

theorem sameShape_of_sorted
    (alike : SameOutline (sortQuorum sorter.arrange first) (sortQuorum sorter.arrange second)) :
    SameShape first second := by
  induction first generalizing second with
  | step threshold validators nestQuorums ih =>
    obtain ⟨otherThreshold, otherValidators, otherQuorums⟩ := second
    simp only [sortQuorum, sortQuorums_eq_map] at alike
    rcases alike with ⟨nested⟩
    have keys : (sorter.arrange (nestQuorums.map (sortQuorum sorter.arrange))).map profile =
        (sorter.arrange (otherQuorums.map (sortQuorum sorter.arrange))).map profile := by
      rw [← List.forall₂_eq_eq_eq, List.forall₂_map_left_iff, List.forall₂_map_right_iff]
      exact nested.imp fun quorum other => (sameOutline_iff quorum other).mp
    have perm := ((sorter.perm _).map profile).symm.trans
      ((List.Perm.of_eq keys).trans ((sorter.perm _).map profile))
    rw [List.map_map, List.map_map] at perm
    obtain ⟨middle, order, same⟩ := exists_perm_of_map perm
    refine .mk (((List.forall₂_and_left _ _).mpr ⟨ih, same⟩).imp ?_) order
    exact fun quorum other ⟨shaped, equal⟩ => shaped ((sameOutline_iff _ _).mpr equal)

theorem sameOutline_of_sameShape (shape : SameShape first second) :
    SameOutline (sortQuorum sorter.arrange first) (sortQuorum sorter.arrange second) := by
  induction first generalizing second with
  | step threshold validators nestQuorums ih =>
    rcases shape with ⟨nested, order⟩
    rename_i otherValidators middle otherQuorums
    simp only [sortQuorum, sortQuorums_eq_map]
    have same : (nestQuorums.map (sortQuorum sorter.arrange)).map profile =
        (middle.map (sortQuorum sorter.arrange)).map profile := by
      rw [List.map_map, List.map_map, ← List.forall₂_eq_eq_eq, List.forall₂_map_left_iff,
        List.forall₂_map_right_iff]
      refine ((List.forall₂_and_left _ _).mpr ⟨ih, nested⟩).imp ?_
      exact fun quorum other ⟨alike, shape⟩ => (sameOutline_iff _ _).mp (alike shape)
    have perm := ((sorter.perm (nestQuorums.map (sortQuorum sorter.arrange))).map profile).trans
      ((List.Perm.of_eq same).trans
        (((order.map (sortQuorum sorter.arrange)).trans (sorter.perm _).symm).map profile))
    have sorted (quorums : List Quorum) : ((sorter.arrange quorums).map profile).Pairwise
        fun key other => (List.compareLex compareThresholds key other).isLE = true := by
      rw [List.pairwise_map]
      refine (sorter.sorted quorums).imp fun {quorum other} less => ?_
      rwa [quorumLess, compareQuorum_eq_compareLex] at less
    have keys := List.Perm.eq_of_pairwise (fun key other _ _ less greater => ?_)
      (sorted _) (sorted _) perm
    · rw [← List.forall₂_eq_eq_eq, List.forall₂_map_left_iff, List.forall₂_map_right_iff] at keys
      exact .mk (keys.imp fun quorum other => (sameOutline_iff quorum other).mpr)
    · rw [compareThresholds_eq_compare] at less greater
      exact Std.LawfulEqCmp.compare_eq_iff_eq.mp (Std.OrientedCmp.isLE_antisymm less greater)

theorem Reordered.refl (quorum : Quorum) : Reordered quorum quorum := by
  induction quorum with
  | step threshold validators nestQuorums ih =>
    exact .mk (.refl _) (List.forall₂_same.mpr ih) (.refl _)

theorem reordered_of_sorted
    (same : sortQuorum sorter.arrange first = sortQuorum sorter.arrange second) :
    Reordered first second := by
  induction first generalizing second with
  | step threshold validators nestQuorums ih =>
    obtain ⟨otherThreshold, otherValidators, otherQuorums⟩ := second
    simp only [sortQuorum, sortQuorums_eq_map, Quorum.mk.injEq] at same
    obtain ⟨rfl, texts, forms⟩ := same
    have shuffled : validators.Perm otherValidators :=
      (List.perm_insertionSort _ validators).symm.trans
        ((List.Perm.of_eq texts).trans (List.perm_insertionSort _ otherValidators))
    obtain ⟨middle, order, sorts⟩ := exists_perm_of_map
      ((sorter.perm _).symm.trans ((List.Perm.of_eq forms).trans (sorter.perm _)))
    refine .mk shuffled (((List.forall₂_and_left _ _).mpr ⟨ih, sorts⟩).imp ?_) order
    exact fun quorum other ⟨reordered, equal⟩ => reordered equal

/-- A reordering of a quorum whose nested quorums are distinguished is sorted alike. -/
theorem sortQuorum_eq_of_reordered (reordered : Reordered first second)
    (distinguished : Distinguished first) :
    sortQuorum sorter.arrange first = sortQuorum sorter.arrange second := by
  induction first generalizing second with
  | step threshold validators nestQuorums ih =>
    rcases reordered with ⟨shuffled, nested, order⟩
    rename_i otherValidators middle otherQuorums
    obtain ⟨top, below⟩ := (Quorum.forall_levels _ _).mp distinguished
    have same : nestQuorums.map (sortQuorum sorter.arrange) =
        middle.map (sortQuorum sorter.arrange) := by
      rw [← List.forall₂_eq_eq_eq, List.forall₂_map_left_iff, List.forall₂_map_right_iff]
      refine ((List.forall₂_and_left _ _).mpr ⟨below, (List.forall₂_and_left _ _).mpr
        ⟨ih, nested⟩⟩).imp ?_
      exact fun quorum other ⟨apart, sorts, alike⟩ => sorts alike apart
    have perm : (sorter.arrange (nestQuorums.map (sortQuorum sorter.arrange))).Perm
        (sorter.arrange (otherQuorums.map (sortQuorum sorter.arrange))) := by
      refine (sorter.perm _).trans (.trans ?_ (sorter.perm _).symm)
      rw [same]
      exact order.map _
    rw [sortQuorum, sortQuorum, sortQuorums_eq_map, sortQuorums_eq_map,
      insertionSort_eq_of_perm shuffled]
    congr 1
    apply List.Perm.eq_of_pairwise ?_ (sorter.sorted _) (sorter.sorted _) perm
    intro quorum other quorumMem otherMem less greater
    have tied : compareQuorum quorum other = .eq := Std.OrientedCmp.isLE_antisymm less greater
    obtain ⟨left, leftMem, rfl⟩ := List.mem_map.mp ((sorter.perm _).mem_iff.mp quorumMem)
    obtain ⟨right, rightMem, rfl⟩ := List.mem_map.mp
      ((sorter.perm _).mem_iff.mp (perm.mem_iff.mpr otherMem))
    have shape := sameShape_of_sorted sorter ((compareQuorum_eq_iff _ _).mp tied)
    exact ih left leftMem (top left leftMem right rightMem shape) (below left leftMem)

theorem quorumLess_total (first second : Quorum) :
    quorumLess first second ∨ quorumLess second first := by
  have swap : compareQuorum second first = (compareQuorum first second).swap :=
    Std.OrientedCmp.eq_swap
  rw [quorumLess, quorumLess, swap]
  cases compareQuorum first second <;> simp

/-- What `sort.Sort` does with up to twelve quorums: one after the other is moved to the
front as far as it is not behind the quorum before it. -/
def insertionSorter : QuorumSorter where
  arrange quorums := quorums.reverse.insertionSort fun first second => quorumLess first second
  perm quorums := (List.perm_insertionSort _ quorums.reverse).trans quorums.reverse_perm
  sorted quorums :=
    have : Std.Total fun first second => quorumLess first second = true := ⟨quorumLess_total⟩
    have : IsTrans Quorum fun first second => quorumLess first second = true :=
      ⟨fun _ _ _ => Std.TransCmp.isLE_trans⟩
    List.pairwise_insertionSort _ quorums.reverse

theorem filter_insertionSorter (form : Quorum) (quorums : List Quorum) :
    (insertionSorter.arrange quorums).filter (fun other => compareQuorum form other = .eq) =
      (quorums.filter fun other => compareQuorum form other = .eq).reverse := by
  set tied : Quorum → Bool := fun other => compareQuorum form other = .eq
  rw [← List.filter_reverse]
  symm
  have ties : (quorums.reverse.filter tied).Pairwise
      fun first second => quorumLess first second = true := by
    refine List.pairwise_of_forall_mem_list fun first firstMem second secondMem => ?_
    have firstTied := of_decide_eq_true (List.mem_filter.mp firstMem).2
    have secondTied := of_decide_eq_true (List.mem_filter.mp secondMem).2
    rw [quorumLess, ← Std.TransCmp.congr_left firstTied, secondTied]
    rfl
  have within := (List.sublist_insertionSort ties List.filter_sublist).filter tied
  rw [List.filter_filter] at within
  simp only [Bool.and_self] at within
  apply within.eq_of_length
  exact ((List.perm_insertionSort _ quorums.reverse).filter tied).length_eq.symm

theorem insertionSorter_exchange {before between after : List Quorum}
    (tied : compareQuorum first second = .eq)
    (same : insertionSorter.arrange (before ++ first :: (between ++ second :: after)) =
      insertionSorter.arrange (before ++ second :: (between ++ first :: after))) :
    first = second := by
  have itself : compareQuorum first first = .eq := Std.ReflCmp.compare_self
  have listed := congrArg (List.filter fun other => compareQuorum first other = .eq) same
  rw [filter_insertionSorter, filter_insertionSorter, List.reverse_inj] at listed
  simp only [List.filter_append, List.filter_cons, tied, itself, decide_true, if_true] at listed
  exact (List.cons.inj (List.append_cancel_left listed)).1

theorem distinguished_of_canonical {first : Quorum}
    (canonical : ∀ second, Reordered first second →
      sortQuorum insertionSorter.arrange first = sortQuorum insertionSorter.arrange second) :
    Distinguished first := by
  induction first with
  | step threshold validators nestQuorums ih =>
    have arranged : ∀ middle otherQuorums : List Quorum,
        List.Forall₂ Reordered nestQuorums middle → middle.Perm otherQuorums →
          insertionSorter.arrange (nestQuorums.map (sortQuorum insertionSorter.arrange)) =
            insertionSorter.arrange (otherQuorums.map (sortQuorum insertionSorter.arrange)) := by
      intro middle otherQuorums nested order
      have same := canonical _ (.mk (.refl validators) nested order)
      simp only [sortQuorum, sortQuorums_eq_map, Quorum.mk.injEq, true_and] at same
      exact same
    refine (Quorum.forall_levels _ _).mpr ⟨?_, ?_⟩
    · have exchange : ∀ before one between other after,
          nestQuorums = before ++ one :: (between ++ other :: after) →
            SameOutline (sortQuorum insertionSorter.arrange one)
              (sortQuorum insertionSorter.arrange other) →
            sortQuorum insertionSorter.arrange one = sortQuorum insertionSorter.arrange other := by
        rintro before one between other after rfl alike
        have swapped : (before ++ one :: (between ++ other :: after)).Perm
            (before ++ other :: (between ++ one :: after)) :=
          ((List.perm_middle.cons one).trans ((List.Perm.swap other one _).trans
            (List.perm_middle.symm.cons other))).append_left before
        have same := arranged _ _ (List.forall₂_same.mpr fun quorum _ => .refl quorum) swapped
        simp only [List.map_append, List.map_cons] at same
        exact insertionSorter_exchange ((compareQuorum_eq_iff _ _).mpr alike) same
      intro one oneMem other otherMem shape
      have alike := sameOutline_of_sameShape insertionSorter shape
      apply reordered_of_sorted insertionSorter
      obtain ⟨before, rest, listed⟩ := List.append_of_mem oneMem
      rw [listed, List.mem_append, List.mem_cons] at otherMem
      rcases otherMem with early | rfl | late
      · obtain ⟨start, between, rfl⟩ := List.append_of_mem early
        rw [List.append_assoc] at listed
        exact (exchange start other between one rest listed ((sameOutline_iff _ _).mpr
          ((sameOutline_iff _ _).mp alike).symm)).symm
      · rfl
      · obtain ⟨between, after, rfl⟩ := List.append_of_mem late
        exact exchange before one between other after listed alike
    · intro nested nestedMem
      obtain ⟨before, after, rfl⟩ := List.append_of_mem nestedMem
      refine ih nested nestedMem fun second reordered => ?_
      have itself : ∀ quorums : List Quorum, List.Forall₂ Reordered quorums quorums :=
        fun quorums => List.forall₂_same.mpr fun quorum _ => .refl quorum
      have same := arranged _ _ (List.rel_append (itself before) (.cons reordered (itself after)))
        (.refl _)
      have perm := (insertionSorter.perm _).symm.trans
        ((List.Perm.of_eq same).trans (insertionSorter.perm _))
      simp only [List.map_append, List.map_cons] at perm
      have moved := (List.perm_middle.symm.trans perm).trans List.perm_middle
      exact List.singleton_perm_singleton.mp ((List.perm_append_right_iff _).mp moved)

/-- `compareQuorum` is a total preorder that tells quorums apart by their outlines.
Reordered quorums are always sorted to one exactly if sorting never has to go by the
validators. -/
theorem sortQuorum_canonical (first : Quorum) :
    (∀ second, compareQuorum first second = (compareQuorum second first).swap) ∧
      (∀ second third, quorumLess first second → quorumLess second third →
        quorumLess first third) ∧
      (∀ second, compareQuorum first second = .eq ↔ SameOutline first second) ∧
      ((∀ (sorter : QuorumSorter) (second : Quorum), Reordered first second →
        sortQuorum sorter.arrange first = sortQuorum sorter.arrange second) ↔
          Distinguished first) := by
  refine ⟨fun _ => Std.OrientedCmp.eq_swap, fun _ _ => Std.TransCmp.isLE_trans,
    compareQuorum_eq_iff first, ?_, ?_⟩
  · exact fun canonical => distinguished_of_canonical (canonical insertionSorter)
  · exact fun distinguished sorter second reordered =>
      sortQuorum_eq_of_reordered sorter reordered distinguished

/-- Nested quorums of different thresholds are brought into one order by every sorter. -/
theorem sortQuorum_canonical_thresholds :
    let quorum : Quorum := .mk 1 [] [.mk 1 ["alice"] [], .mk (1 / 2) ["bob"] []]
    Distinguished quorum ∧ ∀ (sorter : QuorumSorter) (second : Quorum), Reordered quorum second →
      sortQuorum sorter.arrange quorum = sortQuorum sorter.arrange second := by
  intro quorum
  have distinguished : Distinguished quorum := by
    have thresholds : ∀ first second, SameShape first second →
        first.threshold = second.threshold := by
      rintro _ _ ⟨nested, order⟩
      rfl
    have halves : ¬ SameShape (.mk 1 ["alice"] []) (.mk (1 / 2) ["bob"] []) := by
      intro shape
      simpa [Quorum.threshold] using thresholds _ _ shape
    have wholes : ¬ SameShape (.mk (1 / 2) ["bob"] []) (.mk 1 ["alice"] []) := by
      intro shape
      simpa [Quorum.threshold] using thresholds _ _ shape
    simp [Distinguished, quorum, Quorum.levels, Quorum.levelsOf, Quorum.nestQuorums,
      Reordered.refl, -one_div, halves, wholes]
  exact ⟨distinguished, (sortQuorum_canonical quorum).2.2.2.mpr distinguished⟩

/-- Two nested quorums that differ in their validators compare as equal, and keep the
order in which they are listed. -/
theorem sortQuorum_keeps_order :
    let alice : Quorum := .mk 1 ["alice"] []
    let bob : Quorum := .mk 1 ["bob"] []
    compareQuorum alice bob = .eq ∧ alice ≠ bob ∧
      Reordered (.mk 1 [] [alice, bob]) (.mk 1 [] [bob, alice]) ∧
      sortQuorum insertionSorter.arrange (.mk 1 [] [alice, bob]) = .mk 1 [] [bob, alice] ∧
      sortQuorum insertionSorter.arrange (.mk 1 [] [bob, alice]) = .mk 1 [] [alice, bob] := by
  have itself (name : String) : Reordered (.mk 1 [name] []) (.mk 1 [name] []) :=
    .mk (.refl _) .nil (.refl _)
  have tied (name other : String) :
      compareQuorum (.mk 1 [name] []) (.mk 1 [other] []) = .eq := by
    simp [compareQuorum, compareStrings, compareQuorums, compareThresholds]
  have less (name other : String) :
      quorumLess (.mk 1 [name] []) (.mk 1 [other] []) = true := by
    rw [quorumLess, tied]
    rfl
  have exchanged (name other : String) :
      sortQuorum insertionSorter.arrange (.mk 1 [] [.mk 1 [name] [], .mk 1 [other] []]) =
        .mk 1 [] [.mk 1 [other] [], .mk 1 [name] []] :=
    congrArg (Quorum.mk 1 []) (if_pos (less other name))
  exact ⟨tied _ _, by simp, .mk (.refl _) (.cons (itself _) (.cons (itself _) .nil))
    (.swap _ _ _), exchanged _ _, exchanged _ _⟩

end Sorted

section Settled

variable {arrange : List Quorum → List Quorum} (perm : ∀ quorums, (arrange quorums).Perm quorums)
  (extraChecks : Bool)

theorem validateQuorum_congr {threshold : ℚ} {validators otherValidators : List String}
    {nestQuorums otherQuorums : List Quorum} (shuffled : validators.Perm otherValidators)
    {depth : Nat}
    (nested : (∀ quorum ∈ nestQuorums, validateQuorum quorum (depth + 1) extraChecks = .ok ()) ↔
      ∀ quorum ∈ otherQuorums, validateQuorum quorum (depth + 1) extraChecks = .ok ()) :
    validateQuorum (.mk threshold validators nestQuorums) depth extraChecks = .ok () ↔
      validateQuorum (.mk threshold otherValidators otherQuorums) depth extraChecks = .ok () := by
  rw [← validateQuorums_iff, ← validateQuorums_iff] at nested
  simp only [validateQuorum, shuffled.nodup_iff]
  split_ifs <;> simp [nested]

include perm

theorem validateQuorum_sortQuorum (quorum : Quorum) (depth : Nat) :
    validateQuorum (sortQuorum arrange quorum) depth extraChecks = .ok () ↔
      validateQuorum quorum depth extraChecks = .ok () := by
  induction quorum generalizing depth with
  | step threshold validators nestQuorums ih =>
    rw [sortQuorum, sortQuorums_eq_map]
    refine validateQuorum_congr extraChecks (List.perm_insertionSort _ _) ?_
    simp only [(perm _).mem_iff, List.forall_mem_map]
    exact forall₂_congr fun quorum quorumMem => ih quorum quorumMem (depth + 1)

theorem validateQuorum_settleQuorum (quorum : Quorum) (depth : Nat) :
    validateQuorum (settleQuorum arrange quorum) depth extraChecks = .ok () ↔
      validateQuorum quorum depth extraChecks = .ok () := by
  induction quorum generalizing depth with
  | step threshold validators nestQuorums ih =>
    by_cases wrapper : isWrapper threshold validators nestQuorums = true
    · obtain ⟨rfl, rfl, nested, rfl⟩ := isWrapper_iff.mp wrapper
      refine validateQuorum_congr extraChecks (.refl _) ?_
      simp [validateQuorum_sortQuorum perm]
    · have settles : ∀ quorums, settleQuorums arrange quorums = quorums.map (settleQuorum arrange) := by
        intro quorums
        induction quorums with
        | nil => rfl
        | cons quorum rest tail => simp [settleQuorums, tail]
      simp only [settleQuorum, wrapper, settles]
      refine validateQuorum_congr extraChecks (.refl _) ?_
      simp only [List.forall_mem_map]
      exact forall₂_congr fun quorum quorumMem => ih quorum quorumMem (depth + 1)

end Settled

end Ultiledger
