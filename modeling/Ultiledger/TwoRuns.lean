import Ultiledger.AbortingProgram

/-!
# Two runs of aborting programs

A relation between states and a relation between values are carried along two
runs: started in related states, the programs both end normally with related
values or both abort, and end in related states.
-/

namespace AbortingProgram

variable {State Fault Value Result : Type}

/-- Both runs end alike, in related states; which fault aborted them is left
open. -/
def Outcome.Agree (relation : State → State → Prop) (values : Value → Value → Prop) :
    Outcome State Fault Value → Outcome State Fault Value → Prop
  | .done value state, .done value' state' => values value value' ∧ relation state state'
  | .abort _ state, .abort _ state' => relation state state'
  | _, _ => False

theorem Outcome.Agree.trans {relation : State → State → Prop}
    {values : Value → Value → Prop}
    (transitive : ∀ first second third,
      relation first second → relation second third → relation first third)
    (valuesTransitive : ∀ first second third,
      values first second → values second third → values first third)
    {first second third : Outcome State Fault Value}
    (firstAgree : first.Agree relation values second)
    (secondAgree : second.Agree relation values third) :
    first.Agree relation values third := by
  cases first <;> cases second <;> cases third <;> simp only [Outcome.Agree] at *
  · exact ⟨valuesTransitive _ _ _ firstAgree.1 secondAgree.1,
      transitive _ _ _ firstAgree.2 secondAgree.2⟩
  · exact transitive _ _ _ firstAgree secondAgree

namespace Program

/-- From related states the programs end alike. -/
def Agree (relation : State → State → Prop) (values : Value → Value → Prop)
    (first second : Program State Fault Value) : Prop :=
  ∀ state state', relation state state' →
    (first state).Agree relation values (second state')

section Rules

variable {relation : State → State → Prop} {values : Value → Value → Prop}
  {results : Result → Result → Prop}

theorem Agree.pure {value value' : Value} (related : values value value') :
    Agree relation values (Pure.pure value : Program State Fault Value) (Pure.pure value') :=
  fun _ _ same => ⟨related, same⟩

theorem Agree.abort (fault fault' : Fault) :
    Agree relation values (Program.abort fault : Program State Fault Value)
      (Program.abort fault') :=
  fun _ _ same => same

theorem Agree.modify {change change' : State → State}
    (related : ∀ state state', relation state state' → relation (change state) (change' state')) :
    Agree relation Eq (Program.modify change : Program State Fault Unit)
      (Program.modify change') :=
  fun state state' same => ⟨rfl, related state state' same⟩

theorem Agree.get_bind {next next' : State → Program State Fault Value}
    (agree : ∀ state state', relation state state' →
      (next state state).Agree relation values (next' state' state')) :
    Agree relation values (Program.get >>= next) (Program.get >>= next') :=
  agree

variable {first second : Program State Fault Value}
  {next next' : Value → Program State Fault Result}

theorem agree_bind_outcome {state state' : State}
    (agree : (first state).Agree relation values (second state'))
    (nextAgree : ∀ value value', values value value' →
      Agree relation results (next value) (next' value')) :
    ((first >>= next) state).Agree relation results ((second >>= next') state') := by
  change (bind first next state).Agree relation results (bind second next' state')
  unfold bind
  cases firstEnd : first state with
  | done value middle =>
    cases secondEnd : second state' with
    | done value' middle' =>
      rw [firstEnd, secondEnd] at agree
      exact nextAgree value value' agree.1 middle middle' agree.2
    | abort fault middle' =>
      rw [firstEnd, secondEnd] at agree
      exact agree.elim
  | abort fault middle =>
    cases secondEnd : second state' with
    | done value' middle' =>
      rw [firstEnd, secondEnd] at agree
      exact agree.elim
    | abort fault' middle' =>
      rw [firstEnd, secondEnd] at agree
      exact agree

theorem Agree.bind (agree : Agree relation values first second)
    (nextAgree : ∀ value value', values value value' →
      Agree relation results (next value) (next' value')) :
    Agree relation results (first >>= next) (second >>= next') :=
  fun state state' same => agree_bind_outcome (agree state state' same) nextAgree

theorem Agree.seq {first second : Program State Fault Unit}
    {next next' : Unit → Program State Fault Result} (agree : Agree relation Eq first second)
    (nextAgree : Agree relation results (next ()) (next' ())) :
    Agree relation results (first >>= next) (second >>= next') :=
  agree.bind fun _ _ _ => nextAgree

end Rules

end Program

end AbortingProgram
