import Mathlib.Algebra.Order.BigOperators.Group.Finset
import Mathlib.Data.Finmap

/-! # Totals over finite maps -/

namespace FinmapTotals

variable {Key Value Weight : Type*} [DecidableEq Key] [AddCommMonoid Weight]

def total (weight : Value → Weight) (map : Finmap fun _ : Key => Value) : Weight :=
  (map.entries.map fun entry => weight entry.2).sum

def held (weight : Value → Weight) (map : Finmap fun _ : Key => Value) (key : Key) :
    Weight :=
  (map.lookup key).elim 0 weight

variable (weight : Value → Weight) (map : Finmap fun _ : Key => Value) (key : Key)

private theorem sum_kerase (entries : List (Sigma fun _ : Key => Value)) :
    ((entries.kerase key).map fun entry => weight entry.2).sum +
        (entries.dlookup key).elim 0 weight =
      (entries.map fun entry => weight entry.2).sum := by
  induction entries with
  | nil => simp
  | cons entry rest ih =>
    obtain ⟨entryKey, value⟩ := entry
    by_cases same : key = entryKey
    · subst same
      simp [add_comm]
    · have looked : List.dlookup key (⟨entryKey, value⟩ :: rest) =
          List.dlookup key rest := List.dlookup_cons_ne _ _ same
      rw [List.kerase_cons_ne same, looked]
      simp only [List.map_cons, List.sum_cons, add_assoc, ih]

theorem total_erase : total weight (map.erase key) + held weight map key = total weight map := by
  induction map using Finmap.induction_on with
  | H entries => exact sum_kerase weight key entries.entries

theorem total_insert (value : Value) :
    total weight (map.insert key value) + held weight map key =
      total weight map + weight value := by
  have inserted : total weight (map.insert key value) =
      weight value + total weight (map.erase key) := by
    induction map using Finmap.induction_on with
    | H entries => exact List.sum_cons
  rw [inserted, add_assoc, total_erase, add_comm]

theorem total_eq_sum : total weight map = ∑ key ∈ map.keys, held weight map key := by
  induction map using Finmap.induction_on with
  | H entries =>
    change (entries.entries.map fun entry => weight entry.2).sum =
      ∑ key ∈ Finmap.keys entries.toFinmap, (entries.lookup key).elim 0 weight
    have keys : Finmap.keys entries.toFinmap = entries.keys.toFinset :=
      Finset.ext fun key => by simp [Finmap.mem_keys, AList.mem_keys]
    rw [keys, List.sum_toFinset _ entries.keys_nodup, AList.keys, List.keys, List.map_map]
    congr 1
    refine List.map_congr_left fun entry entryMem => ?_
    have found : entries.lookup entry.1 = some entry.2 :=
      List.mem_dlookup entries.nodupKeys entryMem
    simp [found]

theorem total_congr {weight : Value → Weight} {first second : Finmap fun _ : Key => Value}
    (same : ∀ key, (first.lookup key).map weight = (second.lookup key).map weight) :
    total weight first = total weight second := by
  have keys : first.keys = second.keys := by
    ext key
    rw [Finmap.mem_keys, Finmap.mem_keys, ← Finmap.lookup_isSome, ← Finmap.lookup_isSome,
      ← Option.isSome_map, same key, Option.isSome_map]
  rw [total_eq_sum, total_eq_sum, keys]
  refine Finset.sum_congr rfl fun key _ => ?_
  have held_eq : ∀ map : Finmap fun _ : Key => Value,
      held weight map key = ((map.lookup key).map weight).getD 0 := by
    intro map
    unfold held
    cases map.lookup key <;> rfl
  rw [held_eq, held_eq, same key]

section Removal

def eraseAll (keys : List Key) (map : Finmap fun _ : Key => Value) : Finmap fun _ : Key => Value :=
  keys.foldl (fun rest key => rest.erase key) map

variable {weight : Value → Weight} (keys : List Key) (map : Finmap fun _ : Key => Value)

omit [AddCommMonoid Weight] in
theorem lookup_eraseAll (key : Key) :
    (eraseAll keys map).lookup key = if key ∈ keys then none else map.lookup key := by
  induction keys generalizing map with
  | nil => rfl
  | cons first rest ih =>
    change (eraseAll rest (map.erase first)).lookup key = _
    rw [ih]
    by_cases later : key ∈ rest
    · rw [if_pos later, if_pos (.tail first later)]
    · rw [if_neg later]
      by_cases same : key = first
      · subst same
        rw [if_pos (.head _), Finmap.lookup_erase]
      · rw [if_neg (by simp [same, later]), Finmap.lookup_erase_ne same]

variable [PartialOrder Weight] [IsOrderedAddMonoid Weight]

omit [IsOrderedAddMonoid Weight] in
theorem held_nonneg {map : Finmap fun _ : Key => Value}
    (nonneg : ∀ key value, map.lookup key = some value → 0 ≤ weight value) (key : Key) :
    0 ≤ held weight map key := by
  unfold held
  cases found : map.lookup key with
  | none => exact le_refl _
  | some value => exact nonneg key value found

theorem total_eraseAll_le (nonneg : ∀ key value, map.lookup key = some value → 0 ≤ weight value) :
    total weight (eraseAll keys map) ≤ total weight map := by
  induction keys generalizing map with
  | nil => exact le_refl _
  | cons first rest ih =>
    have shrunk : total weight (map.erase first) ≤ total weight map := by
      rw [← total_erase weight map first]
      exact le_add_of_nonneg_right (held_nonneg nonneg first)
    refine (ih (map.erase first) ?_).trans shrunk
    intro key value found
    by_cases same : key = first
    · rw [same] at found
      simp at found
    · rw [Finmap.lookup_erase_ne same] at found
      exact nonneg key value found

theorem total_nonneg {map : Finmap fun _ : Key => Value}
    (nonneg : ∀ key value, map.lookup key = some value → 0 ≤ weight value) :
    0 ≤ total weight map := by
  rw [total_eq_sum]
  exact Finset.sum_nonneg fun key _ => held_nonneg nonneg key

end Removal

end FinmapTotals
