import Mathlib.Data.List.Basic

/-!
# Histories of events that record what they find

An event knows the state that it finds.  `Along` relates every event to the state after
it, and `Throughout` speaks about every point with the events before it.
-/

namespace EventHistory

variable {Event State : Type*} (before : Event → State)

/-- The state in which a history begins: the one its first event finds. -/
def next (final : State) : List Event → State
  | [] => final
  | event :: _ => before event

def Along (related : Event → State → Prop) (final : State) : List Event → Prop
  | [] => True
  | event :: rest => related event (next before final rest) ∧ Along related final rest

def Throughout (holds : List Event → State → Prop) (final : State) (history : List Event) :
    Prop :=
  ∀ early late, history = early ++ late → holds early (next before final late)

instance decidableAlong (related : Event → State → Prop)
    [∀ event state, Decidable (related event state)] (final : State) :
    ∀ history, Decidable (Along before related final history)
  | [] => isTrue trivial
  | _ :: rest =>
    have : Decidable (Along before related final rest) := decidableAlong related final rest
    inferInstanceAs (Decidable (_ ∧ _))

variable {before} {final : State}

variable {holds : List Event → State → Prop} {related : Event → State → Prop} (early : List Event)
  {other : State} (late : List Event) {history : List Event}

theorem next_append :
    next before final (early ++ late) = next before (next before final late) early := by
  cases early <;> rfl

theorem along_append :
    Along before related final (early ++ late) ↔
      Along before related (next before final late) early ∧ Along before related final late := by
  induction early with
  | nil => simp [Along]
  | cons event rest ih => simp only [List.cons_append, Along, next_append, ih, and_assoc]

theorem along_congr (history : List Event)
    (same : ∀ event, related event final ↔ related event other) :
    Along before related final history ↔ Along before related other history := by
  induction history with
  | nil => rfl
  | cons event rest ih =>
    rw [Along, Along, ih]
    cases rest with
    | nil => simp only [next, same]
    | cons later rest => rfl

theorem throughout_nil : Throughout before holds final [] ↔ holds [] final := by
  constructor
  · exact fun throughout => throughout [] [] rfl
  · intro start early late split
    obtain ⟨rfl, rfl⟩ := List.append_eq_nil_iff.mp split.symm
    exact start

theorem throughout_cons {event : Event} {rest : List Event} :
    Throughout before holds final (event :: rest) ↔ holds [] (before event) ∧
      Throughout before (fun events => holds (event :: events)) final rest := by
  constructor
  · intro throughout
    refine ⟨throughout [] (event :: rest) rfl, ?_⟩
    rintro early late rfl
    exact throughout (event :: early) late rfl
  · rintro ⟨start, later⟩ early late split
    cases early with
    | nil =>
      obtain rfl : late = event :: rest := split.symm
      exact start
    | cons first early =>
      obtain ⟨rfl, rest⟩ := List.cons.inj split
      exact later early late rest

/-- The points of a history are its end and those at which an event finds its state. -/
theorem next_mem (property : State → Prop) (last : property final)
    (points : ∀ event ∈ history, property (before event)) :
    property (next before final history) := by
  cases history with
  | nil => exact last
  | cons event rest => exact points event (.head _)

theorem Throughout.atEnd {holds : List Event → State → Prop} {history : List Event}
    (throughout : Throughout before holds final history) : holds history final :=
  throughout history [] (List.append_nil history).symm

theorem Throughout.append {early late : List Event}
    (first : Throughout before holds (next before final late) early)
    (second : Throughout before (fun events => holds (early ++ events)) final late) :
    Throughout before holds final (early ++ late) := by
  intro start rest split
  rcases List.append_eq_append_iff.mp split with ⟨middle, rfl, rfl⟩ | ⟨middle, rfl, rfl⟩
  · exact second middle rest rfl
  · rw [next_append]
    exact first start middle rfl

theorem Throughout.congr (throughout : Throughout before holds final history)
    (last : holds history other) : Throughout before holds other history := by
  intro early late split
  cases late with
  | nil =>
    rw [List.append_nil] at split
    exact split ▸ last
  | cons event rest => exact throughout early (event :: rest) split

end EventHistory
