import Mathlib.Logic.Basic
import Mathlib.Order.Defs.Unbundled

/-!
# Programs that may abort and keep their state

A program maps a state to a value and a state, or to a fault with the state at which
it struck; nothing is rolled back.  `Holds` is the weakest precondition of a pair of
postconditions, and `Steps` relates the states before and after, however it ends.
-/

namespace AbortingProgram

inductive Outcome (State Fault Value : Type) where
  | done (value : Value) (state : State)
  | abort (fault : Fault) (state : State)

def Outcome.state {State Fault Value : Type} : Outcome State Fault Value → State
  | .done _ state => state
  | .abort _ state => state

def Outcome.isDone {State Fault Value : Type} : Outcome State Fault Value → Bool
  | .done _ _ => true
  | .abort _ _ => false

theorem Outcome.exists_eq_done {State Fault Value : Type} {outcome : Outcome State Fault Value}
    (ended : outcome.isDone = true) : ∃ value, outcome = .done value outcome.state := by
  cases outcome with
  | done value state => exact ⟨value, rfl⟩
  | abort fault state => simp [isDone] at ended

theorem Outcome.eq_done {State Fault : Type} {outcome : Outcome State Fault Unit}
    (ended : outcome.isDone = true) : outcome = .done () outcome.state := by
  obtain ⟨_, same⟩ := Outcome.exists_eq_done ended
  exact same

def Outcome.fault {State Fault Value : Type} : Outcome State Fault Value → Option Fault
  | .done _ _ => none
  | .abort fault _ => some fault

theorem Outcome.eq_abort {State Fault Value : Type} {outcome : Outcome State Fault Value}
    {fault : Fault} (struck : outcome.fault = some fault) :
    outcome = .abort fault outcome.state := by
  cases outcome with
  | done value state => simp [Outcome.fault] at struck
  | abort other state =>
    cases struck
    rfl

def Program (State Fault Value : Type) := State → Outcome State Fault Value

variable {State Fault Value Result : Type}

namespace Program

def bind (first : Program State Fault Value) (next : Value → Program State Fault Result) :
    Program State Fault Result := fun state =>
  match first state with
  | .done value state => next value state
  | .abort fault state => .abort fault state

instance : Monad (Program State Fault) where
  pure value := fun state => .done value state
  bind := bind

def get : Program State Fault State := fun state => .done state state

def modify (change : State → State) : Program State Fault Unit :=
  fun state => .done () (change state)

def abort (fault : Fault) : Program State Fault Value := fun state => .abort fault state

/-- Continue with the value of a fallible computation, or stop with its fault. -/
def lift : Except Fault Value → Program State Fault Value
  | .ok value => Pure.pure value
  | .error fault => abort fault

def mapFault {Report : Type} (report : Fault → Report) (program : Program State Fault Value) :
    Program State Report Value := fun state =>
  match program state with
  | .done value state => .done value state
  | .abort fault state => .abort (report fault) state

/-- Run a program on a part of the state. -/
def zoom {Part : Type} (part : State → Part) (replace : State → Part → State)
    (program : Program Part Fault Value) : Program State Fault Value := fun state =>
  match program (part state) with
  | .done value final => .done value (replace state final)
  | .abort fault final => .abort fault (replace state final)

variable {first : Program State Fault Value} {next : Value → Program State Fault Result}
  {middle : State}

theorem bind_of_done {state : State} {value : Value} (ended : first state = .done value middle) :
    (first >>= next) state = next value middle := by
  change bind first next state = _
  rw [bind, ended]

theorem bind_of_abort {state : State} {fault : Fault} (ended : first state = .abort fault middle) :
    (first >>= next) state = .abort fault middle := by
  change bind first next state = _
  rw [bind, ended]

/-! What a program that has ended normally has gone through. -/

section Done

variable {state final : State} {value : Value}

theorem bind_eq_done {first : Program State Fault Result}
    {next : Result → Program State Fault Value} :
    (first >>= next) state = .done value final ↔
      ∃ result middle, first state = .done result middle ∧
        next result middle = .done value final := by
  cases ended : first state with
  | done result middle =>
    rw [bind_of_done ended]
    constructor
    · exact fun later => ⟨result, middle, rfl, later⟩
    · rintro ⟨_, _, ⟨⟩, later⟩
      exact later
  | abort fault middle => simp [bind_of_abort ended]

theorem pure_eq_done {result : Value} :
    (pure result : Program State Fault Value) state = .done value final ↔
      result = value ∧ state = final := by
  change Outcome.done result state = _ ↔ _
  simp

theorem lift_eq_done {result : Except Fault Value} :
    (lift result : Program State Fault Value) state = .done value final ↔
      result = .ok value ∧ state = final := by
  cases result with
  | ok found =>
    rw [Except.ok.injEq]
    exact pure_eq_done
  | error fault => simp [lift, abort]

theorem abort_eq_done {fault : Fault} :
    (abort fault : Program State Fault Value) state = .done value final ↔ False := by
  simp [abort]

theorem get_eq_done {found : State} :
    (get : Program State Fault State) state = .done found final ↔
      state = found ∧ state = final := by
  simp [get]

theorem mapFault_eq_done {Report : Type} {report : Fault → Report}
    {program : Program State Fault Value} :
    (program.mapFault report) state = .done value final ↔ program state = .done value final := by
  unfold mapFault
  cases program state <;> simp

end Done

theorem bind_assoc {Final : Type} (first : Program State Fault Value)
    (second : Value → Program State Fault Result) (third : Result → Program State Fault Final) :
    (first >>= second) >>= third = first >>= fun value => second value >>= third := by
  funext state
  cases ended : first state with
  | done value middle =>
    rw [bind_of_done ended]
    change bind (bind first second) third state = bind (second value) third middle
    simp only [bind, ended]
  | abort fault middle =>
    rw [bind_of_abort ended]
    exact bind_of_abort (bind_of_abort ended)

/-- Started in `state`, the program ends normally in `post` or aborts in
`onAbort`. -/
def Holds (program : Program State Fault Value) (state : State)
    (post : Value → State → Prop) (onAbort : Fault → State → Prop) : Prop :=
  match program state with
  | .done value final => post value final
  | .abort fault final => onAbort fault final

instance decidableHolds (program : Program State Fault Value) (state : State)
    (post : Value → State → Prop) (onAbort : Fault → State → Prop)
    [∀ value final, Decidable (post value final)] [∀ fault final, Decidable (onAbort fault final)] :
    Decidable (program.Holds state post onAbort) :=
  match ended : program state with
  | .done value final =>
    decidable_of_iff (post value final) (by rw [Holds, ended])
  | .abort fault final =>
    decidable_of_iff (onAbort fault final) (by rw [Holds, ended])

section Rules

variable {state : State} {post : Value → State → Prop} {onAbort : Fault → State → Prop}

@[simp]
theorem holds_pure (value : Value) :
    (pure value : Program State Fault Value).Holds state post onAbort ↔ post value state :=
  Iff.rfl

@[simp]
theorem holds_bind (first : Program State Fault Result)
    (next : Result → Program State Fault Value) :
    (first >>= next).Holds state post onAbort ↔
      first.Holds state (fun value middle => (next value).Holds middle post onAbort)
        onAbort := by
  change (bind first next).Holds state post onAbort ↔ _
  unfold Holds bind
  cases first state <;> rfl

@[simp]
theorem holds_get {post : State → State → Prop} :
    (get : Program State Fault State).Holds state post onAbort ↔ post state state :=
  Iff.rfl

@[simp]
theorem holds_modify {post : Unit → State → Prop} (change : State → State) :
    (modify change : Program State Fault Unit).Holds state post onAbort ↔
      post () (change state) :=
  Iff.rfl

variable (fault : Fault) {first program : Program State Fault Value}

@[simp]
theorem holds_abort :
    (abort fault : Program State Fault Value).Holds state post onAbort ↔
      onAbort fault state :=
  Iff.rfl

@[simp]
theorem holds_lift_ok (value : Value) :
    (lift (.ok value) : Program State Fault Value).Holds state post onAbort ↔
      post value state :=
  Iff.rfl

theorem holds_lift {result : Except Fault Value}
    (normal : ∀ value, result = .ok value → post value state)
    (abnormal : ∀ fault, result = .error fault → onAbort fault state) :
    (lift result : Program State Fault Value).Holds state post onAbort := by
  cases result with
  | ok value => exact normal value rfl
  | error fault => exact abnormal fault rfl

@[simp]
theorem holds_mapFault {Report : Type} {onAbort : Report → State → Prop}
    (report : Fault → Report) (program : Program State Fault Value) :
    (program.mapFault report).Holds state post onAbort ↔
      program.Holds state post (fun fault => onAbort (report fault)) := by
  unfold Holds mapFault
  cases program state <;> rfl

@[simp]
theorem holds_zoom {Part : Type} (part : State → Part) (replace : State → Part → State)
    (program : Program Part Fault Value) :
    (program.zoom part replace).Holds state post onAbort ↔
      program.Holds (part state) (fun value final => post value (replace state final))
        (fun fault final => onAbort fault (replace state final)) := by
  unfold Holds zoom
  cases program (part state) <;> rfl

theorem Holds.mono {weaker : Value → State → Prop} {weakerAbort : Fault → State → Prop}
    (holds : program.Holds state post onAbort)
    (normal : ∀ value final, post value final → weaker value final)
    (abnormal : ∀ fault final, onAbort fault final → weakerAbort fault final) :
    program.Holds state weaker weakerAbort := by
  unfold Holds at holds ⊢
  cases ended : program state with
  | done value final =>
    rw [ended] at holds
    exact normal value final holds
  | abort fault final =>
    rw [ended] at holds
    exact abnormal fault final holds

theorem Holds.imp {weaker : Value → State → Prop} (holds : program.Holds state post onAbort)
    (normal : ∀ value final, post value final → weaker value final) :
    program.Holds state weaker onAbort :=
  holds.mono normal fun _ _ aborted => aborted

/-- Continuations that agree where a program ends may replace each other. -/
theorem Holds.bind_congr {next other : Value → Program State Fault Result}
    (agree : first.Holds state (fun value middle => next value middle = other value middle)
      (fun _ _ => True)) : (first >>= next) state = (first >>= other) state := by
  unfold Holds at agree
  cases ended : first state with
  | done value middle =>
    rw [ended] at agree
    rw [bind_of_done ended, bind_of_done ended, agree]
  | abort fault middle => rw [bind_of_abort ended, bind_of_abort ended]

/-- What holds however a program ends holds of the state it ends in. -/
theorem Holds.atEnd {program : Program State Fault Value} {property : State → Prop}
    (holds : program.Holds state (fun _ => property) (fun _ => property)) :
    property (program state).state := by
  unfold Holds at holds
  cases ended : program state with
  | done value final =>
    rw [ended] at holds
    exact holds
  | abort fault final =>
    rw [ended] at holds
    exact holds

theorem Holds.exists_done (holds : program.Holds state post (fun _ _ => False)) :
    ∃ value final, program state = .done value final ∧ post value final := by
  unfold Holds at holds
  cases ended : program state with
  | done value final =>
    rw [ended] at holds
    exact ⟨value, final, rfl, holds⟩
  | abort fault final =>
    rw [ended] at holds
    exact holds.elim

theorem Holds.and {alsoPost : Value → State → Prop} {alsoAbort : Fault → State → Prop}
    (holds : program.Holds state post onAbort) (alsoHolds : program.Holds state alsoPost alsoAbort)
    :
    program.Holds state (fun value final => post value final ∧ alsoPost value final)
      (fun fault final => onAbort fault final ∧ alsoAbort fault final) := by
  unfold Holds at holds alsoHolds ⊢
  cases ended : program state with
  | done value final =>
    rw [ended] at holds alsoHolds
    exact ⟨holds, alsoHolds⟩
  | abort fault final =>
    rw [ended] at holds alsoHolds
    exact ⟨holds, alsoHolds⟩

theorem holds_of_done {value : Value} {final : State} (ended : program state = .done value final) :
    program.Holds state post onAbort ↔ post value final := by
  unfold Holds
  rw [ended]

theorem holds_congr {second : Program State Fault Value} {other : State}
    (same : first state = second other) :
    first.Holds state post onAbort ↔ second.Holds other post onAbort := by
  unfold Holds
  rw [same]

end Rules

/-- However the program ends, the relation leads from the state before to the
state after. -/
def Steps (relation : State → State → Prop) (program : Program State Fault Value) : Prop :=
  ∀ state, program.Holds state (fun _ final => relation state final)
    (fun _ final => relation state final)

section Relations

variable {relation : State → State → Prop}

theorem Steps.pure (reflexive : ∀ state, relation state state) (value : Value) :
    Steps relation (Pure.pure value : Program State Fault Value) :=
  fun state => reflexive state

theorem Steps.abort (reflexive : ∀ state, relation state state) (fault : Fault) :
    Steps relation (Program.abort fault : Program State Fault Value) :=
  fun state => reflexive state

theorem Steps.bind (transitive : ∀ first second third,
      relation first second → relation second third → relation first third)
    {first : Program State Fault Value} {next : Value → Program State Fault Result}
    (firstSteps : Steps relation first) (nextSteps : ∀ value, Steps relation (next value)) :
    Steps relation (first >>= next) := by
  intro state
  rw [holds_bind]
  refine (firstSteps state).imp ?_
  intro value middle related
  refine (nextSteps value middle).mono ?_ ?_
  · intro result final relatedNext
    exact transitive state middle final related relatedNext
  · intro fault final relatedNext
    exact transitive state middle final related relatedNext

theorem Steps.lift (reflexive : ∀ state, relation state state) (result : Except Fault Value) :
    Steps relation (Program.lift result : Program State Fault Value) := by
  cases result with
  | ok value => exact .pure reflexive value
  | error fault => exact .abort reflexive fault

theorem Steps.mapFault {Report : Type} (report : Fault → Report)
    {program : Program State Fault Value} (steps : Steps relation program) :
    Steps relation (program.mapFault report) := by
  intro state
  rw [holds_mapFault]
  exact steps state

end Relations

/-- A relation between the states before and after a program that ends normally,
one for a program that aborts, and a property that the first one keeps. -/
structure Journey (sound : State → Prop) (normal abnormal : State → State → Prop) : Prop where
  refl : ∀ state, normal state state
  trans : ∀ first second third,
    normal first second → normal second third → normal first third
  keeps : ∀ first second, sound first → normal first second → sound second
  halt : ∀ state, abnormal state state
  resume : ∀ first second third,
    normal first second → abnormal second third → abnormal first third

/-- From a sound state the program moves along the journey, however it ends. -/
def Leads (sound : State → Prop) (normal abnormal : State → State → Prop)
    (program : Program State Fault Value) : Prop :=
  ∀ state, sound state →
    program.Holds state (fun _ => normal state) (fun _ => abnormal state)

section Journeys

variable {sound : State → Prop} {normal abnormal : State → State → Prop}

variable (journey : Journey sound normal abnormal)

include journey

theorem Journey.pure (value : Value) :
    Leads sound normal abnormal (Pure.pure value : Program State Fault Value) :=
  fun state _ => journey.refl state

theorem Journey.abort (fault : Fault) :
    Leads sound normal abnormal (Program.abort fault : Program State Fault Value) :=
  fun state _ => journey.halt state

theorem Journey.extend {program : Program State Fault Value} {start state : State}
    (come : normal start state)
    (holds : program.Holds state (fun _ => normal state) (fun _ => abnormal state)) :
    program.Holds state (fun _ => normal start) (fun _ => abnormal start) :=
  holds.mono (fun _ final further => journey.trans start state final come further)
    (fun _ final further => journey.resume start state final come further)

theorem Journey.bind {first : Program State Fault Value}
    {next : Value → Program State Fault Result} (firstLeads : Leads sound normal abnormal first)
    (nextLeads : ∀ value, Leads sound normal abnormal (next value)) :
    Leads sound normal abnormal (first >>= next) := by
  intro state soundState
  rw [holds_bind]
  refine (firstLeads state soundState).imp ?_
  intro value middle come
  exact journey.extend come (nextLeads value middle (journey.keeps state middle soundState come))

theorem Journey.lift (result : Except Fault Value) :
    Leads sound normal abnormal (Program.lift result : Program State Fault Value) := by
  cases result with
  | ok value => exact journey.pure value
  | error fault => exact journey.abort fault

/-- Reading the state first, when what follows does not mind what has been read. -/
theorem Journey.get {next : State → Program State Fault Value}
    (nextLeads : ∀ state, Leads sound normal abnormal (next state)) :
    Leads sound normal abnormal (Program.get >>= next) :=
  journey.bind (fun state _ => journey.refl state) nextLeads

theorem Journey.andReturn {program : Program State Fault Value}
    (leads : Leads sound normal abnormal program) (result : Result) :
    Leads sound normal abnormal (program >>= fun _ => Pure.pure result) :=
  journey.bind leads fun _ => journey.pure result

end Journeys

/-- The program keeps an invariant, and aborts only with an excuse. -/
def Maintains (invariant : State → Prop) (excuse : Fault → State → Prop)
    (program : Program State Fault Value) : Prop :=
  ∀ state, invariant state → program.Holds state (fun _ => invariant) excuse

section Invariants

variable {invariant : State → Prop} {excuse : Fault → State → Prop}

theorem Maintains.pure (value : Value) :
    Maintains invariant excuse (Pure.pure value : Program State Fault Value) :=
  fun _ holds => holds

theorem Maintains.modify {change : State → State}
    (keeps : ∀ state, invariant state → invariant (change state)) :
    Maintains invariant excuse (Program.modify change : Program State Fault Unit) :=
  keeps

variable {first : Program State Fault Value} {next : Value → Program State Fault Result}

/-- Once the invariant holds, programs that keep it may follow. -/
theorem Holds.andThen {state : State} (holds : first.Holds state (fun _ => invariant) excuse)
    (rest : ∀ value, Maintains invariant excuse (next value)) :
    (first >>= next).Holds state (fun _ => invariant) excuse := by
  rw [holds_bind]
  exact holds.mono (fun value middle kept => rest value middle kept) (fun _ _ excused => excused)

theorem Maintains.bind (firstKeeps : Maintains invariant excuse first)
    (nextKeeps : ∀ value, Maintains invariant excuse (next value)) :
    Maintains invariant excuse (first >>= next) :=
  fun state holds => (firstKeeps state holds).andThen nextKeeps

end Invariants

end Program

end AbortingProgram
