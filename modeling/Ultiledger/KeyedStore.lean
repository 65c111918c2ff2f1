import Mathlib.Algebra.BigOperators.Group.List.Basic
import Mathlib.Data.List.Nodup

/-!
# Stores of values under keys of their own

A value determines its key, and the store is the list of its values, which have
different keys.  Two stores under keys of two kinds keep holding the same values as
long as the two keys of a value that is stored or deleted find the same value in them.
-/

namespace KeyedStore

variable {Value Key Weight : Type*}

structure Store (keyOf : Value → Key) where
  values : List Value
  distinct : (values.map keyOf).Nodup

namespace Store

variable {keyOf : Value → Key} {store : Store keyOf}

def empty (keyOf : Value → Key) : Store keyOf := ⟨[], by simp⟩

def total [AddCommMonoid Weight] (store : Store keyOf) (weight : Value → Weight) : Weight :=
  (store.values.map weight).sum

theorem eq_of_mem {first second : Value} (firstMem : first ∈ store.values)
    (secondMem : second ∈ store.values) (same : keyOf first = keyOf second) : first = second :=
  List.inj_on_of_nodup_map store.distinct firstMem secondMem same

variable [DecidableEq Key] {value : Value}

def get (store : Store keyOf) (key : Key) : Option Value :=
  store.values.find? fun value => keyOf value = key

def delete (store : Store keyOf) (key : Key) : Store keyOf where
  values := store.values.filter fun value => keyOf value ≠ key
  distinct := store.distinct.sublist (List.filter_sublist.map keyOf)

def put (store : Store keyOf) (value : Value) : Store keyOf where
  values := value :: (store.delete (keyOf value)).values
  distinct := by
    rw [List.map_cons, List.nodup_cons]
    refine ⟨?_, (store.delete (keyOf value)).distinct⟩
    simp [delete]

theorem mem_delete {key : Key} :
    value ∈ (store.delete key).values ↔ value ∈ store.values ∧ keyOf value ≠ key := by
  simp [delete]

theorem mem_put {stored value : Value} :
    value ∈ (store.put stored).values ↔
      value = stored ∨ value ∈ store.values ∧ keyOf value ≠ keyOf stored := by
  simp [put, delete]

theorem get_eq_some_iff {key : Key} :
    store.get key = some value ↔ value ∈ store.values ∧ keyOf value = key := by
  constructor
  · intro found
    exact ⟨List.mem_of_find?_eq_some found, by simpa using List.find?_some found⟩
  · rintro ⟨member, rfl⟩
    cases found : store.get (keyOf value) with
    | none =>
      have missing := List.find?_eq_none.mp found value member
      simp at missing
    | some other =>
      have otherMem := List.mem_of_find?_eq_some found
      have otherKey : keyOf other = keyOf value := by simpa using List.find?_some found
      rw [eq_of_mem otherMem member otherKey]

theorem mem_delete_iff {key : Key} :
    value ∈ (store.delete key).values ↔ value ∈ store.values ∧ store.get key ≠ some value := by
  rw [mem_delete]
  refine and_congr_right fun member => ?_
  rw [Ne, Ne, get_eq_some_iff, not_and]
  exact ⟨fun apart _ => apart, fun apart => apart member⟩

theorem mem_put_iff {stored value : Value} :
    value ∈ (store.put stored).values ↔
      value = stored ∨ value ∈ store.values ∧ store.get (keyOf stored) ≠ some value := by
  rw [mem_put]
  refine or_congr_right (and_congr_right fun member => ?_)
  rw [Ne, Ne, get_eq_some_iff, not_and]
  exact ⟨fun apart _ => apart, fun apart => apart member⟩

section Twins

variable {Other : Type*} [DecidableEq Other] {otherKey : Value → Other} {first : Store keyOf}
  {second : Store otherKey} {value : Value}

/-- Two stores hold the same values, each under keys of its own. -/
def Agree (first : Store keyOf) (second : Store otherKey) : Prop :=
  ∀ value, value ∈ first.values ↔ value ∈ second.values

/-- Both keys of a value find the same value among those stored. -/
def Aligned (store : Store keyOf) (otherKey : Value → Other) (value : Value) : Prop :=
  ∀ stored ∈ store.values, keyOf stored = keyOf value ↔ otherKey stored = otherKey value

omit [DecidableEq Key] [DecidableEq Other] in
theorem Agree.aligned (agree : first.Agree second) {stored : Value} (member : stored ∈ first.values)
    (same : keyOf value = keyOf stored) (sameOther : otherKey value = otherKey stored) :
    first.Aligned otherKey value := by
  intro other otherMem
  rw [same, sameOther]
  constructor
  · intro equal
    rw [eq_of_mem otherMem member equal]
  · intro equal
    rw [eq_of_mem ((agree other).mp otherMem) ((agree stored).mp member) equal]

theorem Agree.delete (agree : first.Agree second) (aligned : first.Aligned otherKey value) :
    (first.delete (keyOf value)).Agree (second.delete (otherKey value)) := by
  intro other
  rw [mem_delete, mem_delete, ← agree other]
  refine and_congr_right fun member => ?_
  rw [Ne, aligned other member]

theorem Agree.put (agree : first.Agree second) (aligned : first.Aligned otherKey value) :
    (first.put value).Agree (second.put value) := by
  intro other
  rw [mem_put, mem_put, ← agree other]
  refine or_congr_right (and_congr_right fun member => ?_)
  rw [Ne, aligned other member]

end Twins

section Totals

variable [AddCommMonoid Weight] (store : Store keyOf) (weight : Value → Weight)

theorem total_delete (key : Key) :
    (store.delete key).total weight + (store.get key).elim 0 weight = store.total weight := by
  obtain ⟨values, distinct⟩ := store
  unfold total get delete
  dsimp only
  induction values with
  | nil => simp
  | cons value rest ih =>
    rw [List.map_cons, List.nodup_cons] at distinct
    by_cases same : keyOf value = key
    · subst same
      have apart : rest.filter (fun other => keyOf other ≠ keyOf value) = rest := by
        refine List.filter_eq_self.mpr fun other otherMem => ?_
        have differs : keyOf other ≠ keyOf value := fun equal =>
          distinct.1 (equal ▸ List.mem_map_of_mem otherMem)
        simpa using differs
      rw [List.filter_cons_of_neg (by simp), apart, List.find?_cons_of_pos (by simp)]
      exact add_comm _ _
    · rw [List.filter_cons_of_pos (by simpa using same), List.find?_cons_of_neg (by simpa using same),
        List.map_cons, List.sum_cons, List.map_cons, List.sum_cons, add_assoc, ih distinct.2]

theorem total_put (value : Value) :
    (store.put value).total weight + (store.get (keyOf value)).elim 0 weight =
      store.total weight + weight value := by
  have stored : (store.put value).total weight =
      weight value + (store.delete (keyOf value)).total weight := List.sum_cons
  rw [stored, add_assoc, total_delete, add_comm]

end Totals

end Store

end KeyedStore
