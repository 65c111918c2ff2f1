import Mathlib.Logic.Function.Basic
import Mathlib.Logic.Relation
import Mathlib.Tactic.ByContra

/-! # Partial maps whose values are rewritten -/

namespace RewrittenMaps

variable {Key Value : Type*}

structure Rewritten (change : Value → Value → Prop) (before after : Key → Option Value) :
    Prop where
  new_of_old : ∀ {key old}, before key = some old → ∃ new, after key = some new ∧ change old new
  old_of_new : ∀ {key new}, after key = some new → ∃ old, before key = some old ∧ change old new

namespace Rewritten

variable {change first second : Value → Value → Prop} {before middle after : Key → Option Value}

theorem refl (reflexive : ∀ value, change value value) (map : Key → Option Value) :
    Rewritten change map map :=
  ⟨fun found => ⟨_, found, reflexive _⟩, fun found => ⟨_, found, reflexive _⟩⟩

theorem mono (rewritten : Rewritten first before after)
    (weaker : ∀ old new, first old new → second old new) : Rewritten second before after := by
  constructor
  · intro key old found
    obtain ⟨new, stands, changed⟩ := rewritten.new_of_old found
    exact ⟨new, stands, weaker old new changed⟩
  · intro key new found
    obtain ⟨old, stood, changed⟩ := rewritten.old_of_new found
    exact ⟨old, stood, weaker old new changed⟩

theorem comp (early : Rewritten first before middle) (late : Rewritten second middle after) :
    Rewritten (Relation.Comp first second) before after := by
  constructor
  · intro key old found
    obtain ⟨between, standsBetween, firstChange⟩ := early.new_of_old found
    obtain ⟨new, stands, secondChange⟩ := late.new_of_old standsBetween
    exact ⟨new, stands, between, firstChange, secondChange⟩
  · intro key new found
    obtain ⟨between, stoodBetween, secondChange⟩ := late.old_of_new found
    obtain ⟨old, stood, firstChange⟩ := early.old_of_new stoodBetween
    exact ⟨old, stood, between, firstChange, secondChange⟩

theorem trans (transitive : ∀ old between new, change old between → change between new →
      change old new)
    (early : Rewritten change before middle) (late : Rewritten change middle after) :
    Rewritten change before after :=
  (early.comp late).mono fun old new ⟨between, firstChange, secondChange⟩ =>
    transitive old between new firstChange secondChange

/-- A value is put where one stands that may be changed into it; the others may stay
as they are. -/
theorem update [DecidableEq Key] {map : Key → Option Value} {key : Key} {old new : Value}
    (stood : map key = some old) (changed : change old new)
    (others : ∀ other value, other ≠ key → map other = some value → change value value) :
    Rewritten change map (Function.update map key (some new)) := by
  constructor
  · intro other value found
    by_cases same : other = key
    · subst same
      cases stood.symm.trans found
      exact ⟨new, Function.update_self _ _ _, changed⟩
    · exact ⟨value, (Function.update_of_ne same _ _).trans found, others other value same found⟩
  · intro other value found
    by_cases same : other = key
    · subst same
      rw [Function.update_self] at found
      cases found
      exact ⟨old, stood, changed⟩
    · have kept := (Function.update_of_ne same _ _).symm.trans found
      exact ⟨value, kept, others other value same kept⟩

theorem eq_none_iff (rewritten : Rewritten change before after) (key : Key) :
    after key = none ↔ before key = none := by
  constructor
  · intro absent
    by_contra present
    obtain ⟨old, found⟩ := Option.ne_none_iff_exists'.mp present
    obtain ⟨new, stands, -⟩ := rewritten.new_of_old found
    simp [absent] at stands
  · intro absent
    by_contra present
    obtain ⟨new, found⟩ := Option.ne_none_iff_exists'.mp present
    obtain ⟨old, stood, -⟩ := rewritten.old_of_new found
    simp [absent] at stood

end Rewritten

end RewrittenMaps
