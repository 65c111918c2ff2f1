import Ultiledger.BallotDecisions
import Mathlib.Data.Finset.Max

/-! # The search for a commit interval -/

namespace Ultiledger

section Search

variable {passes : Nat → Nat → Bool} {counters : List Nat}

/-- The upper end is the largest counter that passes on its own, the lower end the
smallest one that passes with it. -/
structure BestInterval (passes : Nat → Nat → Bool) (counters : List Nat) (lb rb : Nat) :
    Prop where
  upper : IsGreatest {c | c ∈ counters ∧ passes c c = true} rb
  lower : IsLeast {c | c ∈ counters ∧ passes c rb = true} lb

theorem BestInterval.le {lb rb : Nat} (best : BestInterval passes counters lb rb) : lb ≤ rb :=
  best.lower.2 best.upper.1

variable (raise : ∀ l l' r, l ≤ l' → passes l r = true → passes l' r = true)
include raise

/-- With an interval in hand the search moves its lower end down, and nothing below the
first counter that fails would pass. -/
theorem findCommitInterval_extend {lb rb : Nat} (positive : ∀ c ∈ lb :: counters, 0 < c)
    (descending : (lb :: counters).Pairwise (· ≥ ·)) (ordered : lb ≤ rb)
    (start : passes lb rb = true) :
    ∃ lb', findCommitInterval (fun l r => .ok (passes l r)) counters lb rb = .ok (lb', rb) ∧
      IsLeast {c | c ∈ lb :: counters ∧ passes c rb = true} lb' := by
  induction counters generalizing lb with
  | nil =>
    refine ⟨lb, rfl, ⟨by simp, start⟩, ?_⟩
    rintro x ⟨xMem, -⟩
    exact (List.mem_singleton.mp xMem).ge
  | cons c rest ih =>
    obtain ⟨below, tail⟩ := List.pairwise_cons.mp descending
    have started : lb ≠ 0 := (positive lb (by simp)).ne'
    have inside : ¬ (lb ≠ 0 ∧ c > rb) := fun beyond =>
      absurd beyond.2 (not_lt.mpr ((below c (by simp)).trans ordered))
    rw [findCommitInterval, if_neg inside]
    simp only [started, if_false]
    cases step : passes c rb with
    | true =>
      obtain ⟨lb', found, ⟨listed, passed⟩, least⟩ := ih
        (fun x xMem => positive x (.tail lb xMem)) tail
        ((below c (by simp)).trans ordered) step
      refine ⟨lb', found, ⟨.tail lb listed, passed⟩, ?_⟩
      rintro x ⟨xMem, xPasses⟩
      rcases List.mem_cons.mp xMem with rfl | later
      · exact (least ⟨.head _, step⟩).trans (below c (by simp))
      · exact least ⟨later, xPasses⟩
    | false =>
      refine ⟨lb, by simp [started], ⟨by simp, start⟩, ?_⟩
      rintro x ⟨xMem, xPasses⟩
      rcases List.mem_cons.mp xMem with rfl | later
      · exact le_rfl
      · have under : x ≤ c := by
          rcases List.mem_cons.mp later with rfl | deeper
          · exact le_rfl
          · exact (List.pairwise_cons.mp tail).1 x deeper
        simp [raise x c rb under xPasses] at step

theorem findCommitInterval_best (positive : ∀ c ∈ counters, 0 < c)
    (descending : counters.Pairwise (· ≥ ·)) :
    (findCommitInterval (fun l r => .ok (passes l r)) counters 0 0 = .ok (0, 0) ∧
        ∀ c ∈ counters, passes c c = false) ∨
      ∃ lb rb, findCommitInterval (fun l r => .ok (passes l r)) counters 0 0 = .ok (lb, rb) ∧
        BestInterval passes counters lb rb := by
  induction counters with
  | nil => exact .inl ⟨rfl, by simp⟩
  | cons c rest ih =>
    obtain ⟨below, tail⟩ := List.pairwise_cons.mp descending
    rw [findCommitInterval]
    cases step : passes c c with
    | true =>
      obtain ⟨lb, found, least⟩ :=
        findCommitInterval_extend raise positive descending le_rfl step
      refine .inr ⟨lb, c, by simpa [step] using found, ⟨⟨by simp, step⟩, ?_⟩, least⟩
      rintro x ⟨xMem, -⟩
      rcases List.mem_cons.mp xMem with rfl | later
      · exact le_rfl
      · exact below x later
    | false =>
      simp only [step, if_true, ne_eq, not_true_eq_false, if_false]
      rcases ih (fun x xMem => positive x (.tail c xMem)) tail with
        ⟨nothing, fails⟩ | ⟨lb, rb, found, best⟩
      · exact .inl ⟨nothing, List.forall_mem_cons.mpr ⟨step, fails⟩⟩
      · refine .inr ⟨lb, rb, found, ⟨⟨.tail c best.upper.1.1,
          best.upper.1.2⟩, ?_⟩, ⟨.tail c best.lower.1.1, best.lower.1.2⟩, ?_⟩
        · rintro x ⟨xMem, xPasses⟩
          rcases List.mem_cons.mp xMem with rfl | later
          · simp [step] at xPasses
          · exact best.upper.2 ⟨later, xPasses⟩
        · rintro x ⟨xMem, xPasses⟩
          rcases List.mem_cons.mp xMem with rfl | later
          · exact below lb best.lower.1.1
          · exact best.lower.2 ⟨later, xPasses⟩

end Search

section Statements

/-- The counters of a ballot statement are as honest nodes send them. -/
def Pledge.HonestCounters : Pledge → Prop
  | .prepare message => message.LC = 0 ∨ 0 < message.LC ∧ message.LC ≤ message.HC
  | .confirm _ _ LC HC _ => 0 < LC ∧ LC ≤ HC
  | .externalize B HC _ => 0 < B.counter ∧ B.counter ≤ HC

/-- A statement that passes for an interval passes from a counter that it offers on, up to
the end of the interval. -/
def Sampled (b : Ballot) (filter : Nat → Nat → Pledge → Bool) : Prop :=
  ∀ pledge l r, filter l r pledge = true →
    ∃ low ∈ offeredCounters b pledge, low ≤ l ∧
      ∀ l' r', low ≤ l' → r' ≤ r → filter l' r' pledge = true

theorem sampled_commitVoteFilter (b : Ballot) : Sampled b (commitVoteFilter b) := by
  intro pledge l r
  cases pledge with
  | prepare prepare =>
    simp only [commitVoteFilter, offeredCounters, Bool.and_eq_true, decide_eq_true_eq]
    rintro ⟨⟨⟨compatible, set⟩, lower⟩, upper⟩
    refine ⟨prepare.LC, ?_, lower, fun l' r' above under =>
      ⟨⟨⟨compatible, set⟩, above⟩, under.trans upper⟩⟩
    simp [compatible, Nat.pos_of_ne_zero set]
  | confirm B PC LC HC quorumHash =>
    simp only [commitVoteFilter, offeredCounters, Bool.and_eq_true, decide_eq_true_eq]
    rintro ⟨compatible, lower⟩
    exact ⟨LC, by simp [compatible], lower, fun l' r' above _ => ⟨compatible, above⟩⟩
  | externalize B HC quorumHash =>
    simp only [commitVoteFilter, offeredCounters, Bool.and_eq_true, decide_eq_true_eq]
    rintro ⟨compatible, lower⟩
    exact ⟨B.counter, by simp [compatible], lower, fun l' r' above _ => ⟨compatible, above⟩⟩

theorem sampled_commitAcceptFilter (b : Ballot) : Sampled b (commitAcceptFilter b) := by
  intro pledge l r
  cases pledge with
  | prepare prepare => simp [commitAcceptFilter]
  | confirm B PC LC HC quorumHash =>
    simp only [commitAcceptFilter, offeredCounters, Bool.and_eq_true, decide_eq_true_eq]
    rintro ⟨⟨compatible, lower⟩, upper⟩
    exact ⟨LC, by simp [compatible], lower, fun l' r' above under =>
      ⟨⟨compatible, above⟩, under.trans upper⟩⟩
  | externalize B HC quorumHash =>
    simp only [commitAcceptFilter, offeredCounters, Bool.and_eq_true, decide_eq_true_eq]
    rintro ⟨compatible, lower⟩
    exact ⟨B.counter, by simp [compatible], lower, fun l' r' above _ => ⟨compatible, above⟩⟩

variable {b : Ballot} {ballots : StatementMap Pledge} {filter : Nat → Nat → Pledge → Bool}

theorem mem_getCommitCounters {c : Nat} :
    c ∈ getCommitCounters b ballots ↔
      ∃ nodeID pledge, ballots.lookup nodeID = some pledge ∧ c ∈ offeredCounters b pledge := by
  simp only [getCommitCounters, List.mem_insertionSort, List.mem_dedup, List.mem_flatMap]
  constructor
  · rintro ⟨⟨nodeID, pledge⟩, entryMem, offered⟩
    exact ⟨nodeID, pledge, AList.mem_lookup_iff.mpr entryMem, offered⟩
  · rintro ⟨nodeID, pledge, found, offered⟩
    exact ⟨⟨nodeID, pledge⟩, AList.mem_lookup_iff.mp found, offered⟩

theorem pos_of_offered {pledge : Pledge} (honest : pledge.HonestCounters) {c : Nat}
    (offered : c ∈ offeredCounters b pledge) : 0 < c := by
  cases pledge <;>
    simp only [offeredCounters, Pledge.HonestCounters, List.mem_ite_nil_right, List.mem_cons,
      List.not_mem_nil, or_false, Bool.and_eq_true, decide_eq_true_eq, maxUint32]
      at honest offered <;>
    omega

theorem Sampled.senders_subset (sampled : Sampled b filter) {l l' r : Nat} (above : l ≤ l') :
    senders (filter l r) ballots ⊆ senders (filter l' r) ballots := by
  intro nodeID nodeMem
  obtain ⟨pledge, found, passed⟩ := mem_senders.mp nodeMem
  obtain ⟨low, -, lower, spans⟩ := sampled pledge l r passed
  exact mem_senders.mpr ⟨pledge, found, spans l' r (lower.trans above) le_rfl⟩

theorem Sampled.exists_counter (sampled : Sampled b filter) {l r : Nat} (ordered : l ≤ r)
    (someone : (senders (filter l r) ballots).Nonempty) :
    ∃ c ∈ getCommitCounters b ballots,
      senders (filter l r) ballots ⊆ senders (filter c c) ballots := by
  have starts : ∀ nodeID ∈ senders (filter l r) ballots, ∃ low ∈ getCommitCounters b ballots,
      low ≤ l ∧ ∀ c, low ≤ c → c ≤ r → nodeID ∈ senders (filter c c) ballots := by
    intro nodeID nodeMem
    obtain ⟨pledge, found, passed⟩ := mem_senders.mp nodeMem
    obtain ⟨low, offered, lower, spans⟩ := sampled pledge l r passed
    exact ⟨low, mem_getCommitCounters.mpr ⟨nodeID, pledge, found, offered⟩, lower,
      fun c above under => mem_senders.mpr ⟨pledge, found, spans c c above under⟩⟩
  choose! low listed lower spans using starts
  obtain ⟨highest, highestMem, most⟩ := Finset.exists_max_image _ low someone
  refine ⟨low highest, listed highest highestMem, fun nodeID nodeMem => ?_⟩
  exact spans nodeID nodeMem _ (most nodeID nodeMem) ((lower highest highestMem).trans ordered)

/-- The search misses no interval, and the one it returns has the largest upper end and
reaches down as far as any listed counter allows. -/
theorem findCommitInterval_complete
    (honest : ∀ nodeID pledge, ballots.lookup nodeID = some pledge → pledge.HonestCounters)
    {enough : Finset String → Bool}
    (monotone : ∀ nodes more, nodes ⊆ more → enough nodes = true → enough more = true)
    (nobody : enough ∅ = false)
    (either : filter = commitVoteFilter b ∨ filter = commitAcceptFilter b) :
    let passes := fun l r => enough (senders (filter l r) ballots)
    let counters := getCommitCounters b ballots
    ∃ lb rb, findCommitInterval (fun l r => .ok (passes l r)) counters 0 0 = .ok (lb, rb) ∧
      ((lb, rb) = (0, 0) ↔ ∀ l r, 1 ≤ l → l ≤ r → passes l r = false) ∧
      ((lb, rb) ≠ (0, 0) → 1 ≤ lb ∧ lb ≤ rb ∧ passes lb rb = true ∧
        IsGreatest {c | c ∈ counters ∧ passes c c = true} rb ∧
        IsLeast {c | c ∈ counters ∧ passes c rb = true} lb) := by
  intro passes counters
  have sampled : Sampled b filter := by
    rcases either with rfl | rfl
    · exact sampled_commitVoteFilter b
    · exact sampled_commitAcceptFilter b
  have raise : ∀ l l' r, l ≤ l' → passes l r = true → passes l' r = true :=
    fun l l' r above => monotone _ _ (sampled.senders_subset above)
  have positive : ∀ c ∈ counters, 0 < c := by
    intro c listed
    obtain ⟨nodeID, pledge, found, offered⟩ := mem_getCommitCounters.mp listed
    exact pos_of_offered (honest nodeID pledge found) offered
  have descending : counters.Pairwise (· ≥ ·) := List.pairwise_insertionSort _ _
  rcases findCommitInterval_best raise positive descending with
    ⟨nothing, fails⟩ | ⟨lb, rb, found, best⟩
  · refine ⟨0, 0, nothing, iff_of_true rfl fun l r _ ordered => ?_, fun some => absurd rfl some⟩
    by_contra passed
    rw [Bool.not_eq_false] at passed
    have someone : (senders (filter l r) ballots).Nonempty := by
      rw [Finset.nonempty_iff_ne_empty]
      intro empty
      simp [passes, empty, nobody] at passed
    obtain ⟨c, listed, speaks⟩ := sampled.exists_counter ordered someone
    exact absurd (monotone _ _ speaks passed) (by simpa [passes] using fails c listed)
  · have lbPos : 0 < lb := positive lb best.lower.1.1
    refine ⟨lb, rb, found, iff_of_false ?_ ?_, fun _ =>
      ⟨lbPos, best.le, best.lower.1.2, best.upper, best.lower⟩⟩
    · simp only [Prod.mk.injEq]
      omega
    · intro fails
      exact absurd best.lower.1.2 (by simp [fails lb rb lbPos best.le])

/-- A node that has accepted the commits from 2 to 3 is found with both ends. -/
theorem findCommitInterval_complete_confirmed :
    let ballots : StatementMap Pledge :=
      AList.insert "alice" (.confirm ⟨5, "value"⟩ 4 2 3 "hash") ∅
    let passes := fun l r =>
      decide ("alice" ∈ senders (commitAcceptFilter ⟨1, "value"⟩ l r) ballots)
    let counters := getCommitCounters ⟨1, "value"⟩ ballots
    findCommitInterval (fun l r => .ok (passes l r)) counters 0 0 = .ok (2, 3) ∧
      IsGreatest {c | c ∈ counters ∧ passes c c = true} 3 ∧
      IsLeast {c | c ∈ counters ∧ passes c 3 = true} 2 := by
  intro ballots passes counters
  have honest : ∀ nodeID pledge, ballots.lookup nodeID = some pledge →
      pledge.HonestCounters := by
    intro nodeID pledge found
    have entry : (⟨nodeID, pledge⟩ : Sigma fun _ : String => Pledge) ∈
        [⟨"alice", .confirm ⟨5, "value"⟩ 4 2 3 "hash"⟩] := AList.mem_lookup_iff.mp found
    obtain ⟨rfl, rfl⟩ := by simpa using entry
    simp [Pledge.HonestCounters]
  have evaluated : findCommitInterval (fun l r => .ok (passes l r)) counters 0 0 =
      .ok (2, 3) := rfl
  obtain ⟨lb, rb, found, -, interval⟩ := @findCommitInterval_complete ⟨1, "value"⟩ ballots
    (commitAcceptFilter ⟨1, "value"⟩) honest (fun nodes => decide ("alice" ∈ nodes))
    (fun nodes more within => by simpa using @within "alice") (by decide) (.inr rfl)
  obtain ⟨rfl, rfl⟩ := by simpa using evaluated.symm.trans found
  exact ⟨evaluated, (interval (by simp)).2.2.2⟩

end Statements

end Ultiledger
