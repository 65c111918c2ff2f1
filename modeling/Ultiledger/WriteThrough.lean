import Mathlib.Logic.Function.Basic

/-!
# Maps behind a cache

A map that is kept in a store and, in part, in a cache.  A write goes to both, and an
entry of the cache may disappear at any time.  The cache is coherent as long as no write
reaches the cache alone.
-/

namespace WriteThrough

variable {Key Value : Type}

structure CachedMap (Key Value : Type) where
  stored : Key → Option Value
  cached : Key → Option Value

namespace CachedMap

def empty : CachedMap Key Value := ⟨fun _ => none, fun _ => none⟩

/-- Several writes to the cache and the store. -/
def putAll (map : CachedMap Key Value) (written : Key → Option Value) : CachedMap Key Value where
  stored key := (written key).or (map.stored key)
  cached key := (written key).or (map.cached key)

/-- The map with nothing in the cache. -/
def cold (map : CachedMap Key Value) : CachedMap Key Value :=
  { map with cached := fun _ => none }

/-- What is cached is what is stored. -/
def Coherent (map : CachedMap Key Value) : Prop :=
  ∀ key value, map.cached key = some value → map.stored key = some value

variable {map : CachedMap Key Value}

theorem coherent_empty : (empty : CachedMap Key Value).Coherent := by
  intro key value found
  simp [empty] at found

theorem Coherent.putAll (coherent : map.Coherent) (written : Key → Option Value) :
    (map.putAll written).Coherent := by
  intro key value found
  simp only [CachedMap.putAll, Option.or_eq_some_iff] at found ⊢
  exact found.imp_right fun unwritten => unwritten.imp_right (coherent key value)

variable [DecidableEq Key]

/-- A write to the cache only. -/
def fill (map : CachedMap Key Value) (key : Key) (value : Value) : CachedMap Key Value :=
  { map with cached := Function.update map.cached key (some value) }

/-- A write to the cache and the store. -/
def put (map : CachedMap Key Value) (key : Key) (value : Value) : CachedMap Key Value where
  stored := Function.update map.stored key (some value)
  cached := Function.update map.cached key (some value)

def evict (map : CachedMap Key Value) (key : Key) : CachedMap Key Value :=
  { map with cached := Function.update map.cached key none }

theorem Coherent.put (coherent : map.Coherent) (key : Key) (value : Value) :
    (map.put key value).Coherent := by
  intro other found cachedOther
  by_cases same : other = key
  · subst same
    simpa [CachedMap.put] using cachedOther
  · simp only [CachedMap.put, Function.update_of_ne same] at cachedOther ⊢
    exact coherent other found cachedOther

theorem Coherent.evict (coherent : map.Coherent) (key : Key) : (map.evict key).Coherent := by
  intro other value found
  by_cases same : other = key
  · subst same
    simp [CachedMap.evict] at found
  · simp only [CachedMap.evict, Function.update_of_ne same] at found
    exact coherent other value found

end CachedMap

end WriteThrough
