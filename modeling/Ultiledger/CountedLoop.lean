import Mathlib.Data.List.Nodup

/-! # Loops that count up to an inclusive bound

`for i := first; i <= bound; i++ { ... }` with a counter of 64 bits.  If the bound is
the largest number the counter wraps around and the loop does not end.
-/

namespace CountedLoop

def last : UInt64 := 18446744073709551615

variable {State : Type*}

/-- The loop, for at most as many tests of its condition as there is fuel. -/
def run (bound : UInt64) (body : UInt64 → State → State) : Nat → UInt64 → State → Option State
  | 0, _, _ => none
  | fuel + 1, counter, state =>
    if counter ≤ bound then run bound body fuel (counter + 1) (body counter state)
    else some state

/-- The counters from the first to the bound, in ascending order. -/
def span (first bound : UInt64) : List UInt64 :=
  (List.range' first.toNat (bound.toNat + 1 - first.toNat)).map UInt64.ofNat

theorem le_last (counter : UInt64) : counter ≤ last := by
  have below := counter.toNat_lt
  change counter.toNat ≤ 18446744073709551615
  omega

variable {counter bound first : UInt64}

theorem toNat_lt_of_ne_last (below : counter ≠ last) : counter.toNat < 18446744073709551615 := by
  have le := UInt64.le_iff_toNat_le.mp (le_last counter)
  have ne : counter.toNat ≠ 18446744073709551615 := fun same => below (UInt64.toNat_inj.mp same)
  change counter.toNat ≤ 18446744073709551615 at le
  omega

theorem ne_last_of_le (within : counter ≤ bound) (below : bound ≠ last) : counter ≠ last := by
  have lt := toNat_lt_of_ne_last below
  rintro rfl
  change 18446744073709551615 ≤ bound.toNat at within
  omega

theorem toNat_add_one (below : counter ≠ last) : (counter + 1).toNat = counter.toNat + 1 := by
  have lt := toNat_lt_of_ne_last below
  change (counter.toNat + 1) % 2 ^ 64 = counter.toNat + 1
  omega

theorem mem_span : counter ∈ span first bound ↔ first ≤ counter ∧ counter ≤ bound := by
  have fits : bound.toNat < UInt64.size := bound.toNat_lt
  simp only [span, List.mem_map, List.mem_range'_1, UInt64.le_iff_toNat_le]
  constructor
  · rintro ⟨number, ⟨above, below⟩, rfl⟩
    rw [UInt64.toNat_ofNat_of_lt' (by omega)]
    omega
  · rintro ⟨above, below⟩
    exact ⟨counter.toNat, ⟨above, by omega⟩, UInt64.ofNat_toNat⟩

theorem nodup_span (first bound : UInt64) : (span first bound).Nodup := by
  have fits : bound.toNat < UInt64.size := bound.toNat_lt
  refine List.Nodup.map_on ?_ List.nodup_range'
  intro number numberMem other otherMem same
  rw [List.mem_range'_1] at numberMem otherMem
  have numbers := congrArg UInt64.toNat same
  rwa [UInt64.toNat_ofNat_of_lt' (by omega), UInt64.toNat_ofNat_of_lt' (by omega)] at numbers

theorem span_of_lt (past : bound < first) : span first bound = [] := by
  rw [UInt64.lt_iff_toNat_lt] at past
  rw [span, show bound.toNat + 1 - first.toNat = 0 by omega]
  rfl

theorem span_of_le (within : first ≤ bound) (below : bound ≠ last) :
    span first bound = first :: span (first + 1) bound := by
  have grown := toNat_add_one (ne_last_of_le within below)
  rw [UInt64.le_iff_toNat_le] at within
  rw [span, span, grown,
    show bound.toNat + 1 - first.toNat = (bound.toNat + 1 - (first.toNat + 1)) + 1 by omega,
    List.range'_succ, List.map_cons, UInt64.ofNat_toNat]

theorem run_eq_span (below : bound ≠ last) (body : UInt64 → State → State) {fuel : Nat}
    (enough : (span first bound).length < fuel) (state : State) :
    run bound body fuel first state =
      some ((span first bound).foldl (fun current counter => body counter current) state) := by
  induction fuel generalizing first state with
  | zero => omega
  | succ fuel ih =>
    rw [run]
    by_cases within : first ≤ bound
    · rw [span_of_le within below, List.length_cons] at enough
      rw [if_pos within, ih (by omega), span_of_le within below, List.foldl_cons]
    · rw [if_neg within, span_of_lt (UInt64.not_le.mp within), List.foldl_nil]

theorem run_last (body : UInt64 → State → State) (fuel : Nat) (first : UInt64) (state : State) :
    run last body fuel first state = none := by
  induction fuel generalizing first state with
  | zero => rfl
  | succ fuel ih => rw [run, if_pos (le_last first), ih]

theorem eq_of_run {body : UInt64 → State → State} {fuel : Nat} {state final : State}
    (ended : run bound body fuel first state = some final) :
    bound ≠ last ∧
      final = (span first bound).foldl (fun current counter => body counter current) state := by
  have below : bound ≠ last := by
    rintro rfl
    rw [run_last] at ended
    cases ended
  refine ⟨below, ?_⟩
  induction fuel generalizing first state with
  | zero => cases ended
  | succ fuel ih =>
    rw [run] at ended
    by_cases within : first ≤ bound
    · rw [if_pos within] at ended
      rw [span_of_le within below]
      exact ih ended
    · rw [if_neg within] at ended
      rw [span_of_lt (UInt64.not_le.mp within)]
      exact (Option.some.inj ended).symm

end CountedLoop
