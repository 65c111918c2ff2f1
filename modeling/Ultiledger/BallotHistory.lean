import Ultiledger.DecreeRuns
import Ultiledger.EventHistory

/-! # The history of the ballots

A transition is reduced to what it adds to the trace and the ballots it leaves.
-/

namespace Ultiledger

open AbortingProgram Program Relation EventHistory

variable {events : List BallotEvent} {after : BallotState} {made : Turn → Prop}
  {turns : List Turn}

def BallotEvent.before : BallotEvent → BallotState
  | .setAcceptPrepared before _ => before
  | .setConfirmPrepared before _ _ => before
  | .setAcceptCommit before _ _ => before
  | .updateBallot before _ => before
  | .sendBallot before _ => before
  | .stepLimit before => before

inductive BallotChange (ctx : DecreeContext) (d : DecreeState) :
    List BallotEvent → BallotState → Prop
  | still : BallotChange ctx d [] d.ballot
  | limit : BallotChange ctx d [.stepLimit d.ballot] d.ballot
  | idle {events : List BallotEvent} (move : BallotMove ctx d events d.ballot) :
      BallotChange ctx d events d.ballot
  | move {events : List BallotEvent} {after : BallotState} (move : BallotMove ctx d events after)
      (inOrder : after.InOrder) : BallotChange ctx d (events ++ sentEvents ctx after) after
  | enter {stmt : Pledge} {cb hb : Ballot} (waiting : d.ballot.currentPhase = .prepare)
      (found : findAcceptCommit ctx d stmt = .ok (some (cb, hb)))
      (inOrder : (d.ballot.entry cb hb).InOrder) :
      BallotChange ctx d (d.ballot.entryEvents cb hb ++ sentEvents ctx (d.ballot.entry cb hb))
        (d.ballot.entry cb hb)

def Changes (ctx : DecreeContext) (d d' : DecreeState) : Prop :=
  ∃ events, d'.trace = d.trace ++ events ∧ BallotChange ctx d events d'.ballot

section Changes

variable {ctx : DecreeContext} {world : World} {heard : String → Pledge → Prop}
  {proposed : String → Prop} {d d' : DecreeState}

theorem Changes.of_same (trace : d'.trace = d.trace) (ballot : d'.ballot = d.ballot) :
    Changes ctx d d' := by
  refine ⟨[], by rw [trace, List.append_nil], ?_⟩
  rw [ballot]
  exact .still

theorem BallotTransition.changes (transition : BallotTransition ctx world heard d d') :
    Changes ctx d d' := by
  cases transition with
  | count ballotMsgCount => exact .of_same rfl rfl
  | limit => exact ⟨_, rfl, .limit⟩
  | idle move nextValue => exact ⟨_, rfl, .idle move⟩
  | move move inOrder nextValue => exact ⟨_, rfl, .move move inOrder⟩
  | @enter _ stmt pledge cb hb waiting found valid inOrder built delivered =>
    have trace : (entered ctx d cb hb).trace =
        d.trace ++ (d.ballot.entryEvents cb hb ++ sentEvents ctx (d.ballot.entry cb hb)) := by
      rw [entered, DecreeState.moved, trace_resetQ]
    have change : BallotChange ctx d _ (entered ctx d cb hb).ballot := .enter waiting found inOrder
    rcases delivered with ⟨-, rfl⟩ | delivered
    · exact ⟨_, trace, change⟩
    · cases delivered <;> exact ⟨_, trace, change⟩
  | store admitted origin => exact .of_same rfl rfl
  | announce pledge vouched => exact .of_same rfl rfl
  | resend => exact .of_same rfl rfl
  | stopNomination => exact .of_same rfl rfl
  | externalize c phase commit first => exact .of_same rfl rfl

theorem DecreeTransition.changes (transition : DecreeTransition ctx world heard proposed d d') :
    Changes ctx d d' := by
  rcases transition.ballot_or_same with transition | ⟨trace, ballot, -, -⟩
  · exact transition.changes
  · exact .of_same trace ballot

theorem next_sentEvents (after : BallotState) :
    next BallotEvent.before after (sentEvents ctx after) = after := by
  unfold sentEvents
  split <;> rfl

/-- Before a change the ballots are where the last one has left them.  Only the move to
the externalize phase is recorded later. -/
theorem BallotMove.begins (move : BallotMove ctx d events after) :
    next BallotEvent.before after events = d.ballot ∨
      d.ballot.currentPhase ≠ .prepare ∧
        (next BallotEvent.before after events).currentPhase ≠ .prepare := by
  cases move with
  | accept running found => exact .inl rfl
  | confirm found => exact .inl rfl
  | recommit phase found => exact .inl rfl
  | @externalize stmt cb hb found =>
    have phase := (findConfirmCommit_spec found).1
    refine .inr ⟨by simp [phase], ?_⟩
    unfold BallotState.catchUpEvents
    split_ifs
    · simp [next, BallotEvent.before, BallotState.holdCommit, phase]
    · simp [next]
  | bump running fits forward => exact .inl rfl

theorem BallotChange.begins (change : BallotChange ctx d events after) :
    next BallotEvent.before after events = d.ballot ∨
      d.ballot.currentPhase ≠ .prepare ∧
        (next BallotEvent.before after events).currentPhase ≠ .prepare := by
  cases change with
  | still => exact .inl rfl
  | limit => exact .inl rfl
  | idle move => exact move.begins
  | move move inOrder =>
    rw [next_append, next_sentEvents]
    exact move.begins
  | enter waiting found inOrder => exact .inl rfl

theorem confirmPrepared_of_fits {stmt : Pledge} {cb : Option Ballot} {hb : Ballot}
    (found : findConfirmPrepared ctx d stmt = .ok (some (cb, hb)))
    (fits : ∀ b, d.ballot.currentBallot = some b → b.value = hb.value) :
    ∃ shared b, (d.ballot.confirmPrepared cb hb).1 =
        { d.ballot with hBallot := some hb, cBallot := cb, hIsC := shared } ∧
      (d.ballot.confirmPrepared cb hb).1.catchUp hb =
        { d.ballot with
          currentBallot := some b, hBallot := some hb, cBallot := cb, hIsC := shared } := by
  obtain ⟨-, above, commit⟩ := findConfirmPrepared_spec found
  obtain ⟨shared, confirmed⟩ :=
    BallotState.confirmPrepared_eq fits above fun c same => (commit c same).1
  have high : (d.ballot.confirmPrepared cb hb).1.hBallot = some hb := by rw [confirmed]
  obtain ⟨b, caughtUp, -⟩ := BallotState.catchUp_high high
  refine ⟨shared, b, by rw [confirmed], ?_⟩
  rw [caughtUp, confirmed]

theorem entry_events (b : BallotState) (cb hb : Ballot) :
    ∃ later, b.entryEvents cb hb ++ sentEvents ctx (b.entry cb hb) =
        .setAcceptCommit b cb hb :: later ∧
      ∀ event ∈ later, event.before.currentPhase = .confirm ∧
        ((∃ next, event = .updateBallot event.before next) ∨
          ∃ stmt, event = .sendBallot event.before stmt) := by
  refine ⟨_, rfl, ?_⟩
  intro event mem
  rw [List.append_eq, List.mem_append, List.mem_append] at mem
  rcases mem with (entering | caughtUp) | sent
  · unfold BallotState.enterEvents at entering
    dsimp only at entering
    split_ifs at entering
    · rw [List.mem_singleton.mp entering]
      exact ⟨rfl, .inl ⟨hb, rfl⟩⟩
    · simp at entering
  · obtain ⟨current, shape, -⟩ := BallotState.enterConfirm_high (b.hBallot_acceptCommit cb hb)
    rw [BallotState.eq_of_mem_catchUpEvents caughtUp]
    exact ⟨by simp [BallotEvent.before, shape], .inl ⟨hb, rfl⟩⟩
  · obtain ⟨stmt, -, rfl⟩ := mem_sentEvents.mp sent
    exact ⟨phase_entry b cb hb, .inr ⟨_, rfl⟩⟩

theorem BallotChange.inOrder (change : BallotChange ctx d events after)
    (inOrder : d.ballot.InOrder) : after.InOrder := by
  cases change with
  | still => exact inOrder
  | limit => exact inOrder
  | idle move => exact inOrder
  | move move inOrder => exact inOrder
  | enter waiting found inOrder => exact inOrder

end Changes

theorem inOrder_newDecree (ctx : DecreeContext) : (newDecree ctx).ballot.InOrder := by
  constructor <;> simp [newDecree]

section Runs

variable {ctx : DecreeContext} {d d' : DecreeState}

def TurnsRun (ctx : DecreeContext) (made : Turn → Prop) : DecreeState → DecreeState → Prop :=
  ReflTransGen fun d d' => ∃ turn, made turn ∧
    DecreeTransition ctx turn.world (fun _ _ => True) turn.proposes d d'

def TurnsHalted (ctx : DecreeContext) (made : Turn → Prop) (d d' : DecreeState) : Prop :=
  ∃ last, TurnsRun ctx made d last ∧ ∃ rest, d'.trace = last.trace ++ rest ∧ Confirming ctx rest

def DecreeRun (ctx : DecreeContext) : DecreeState → DecreeState → Prop :=
  ReflTransGen fun d d' => ∃ world proposed, DecreeTransition ctx world (fun _ _ => True) proposed d d'

theorem TurnsRun.decreeRun (run : TurnsRun ctx made d d') : DecreeRun ctx d d' :=
  ReflTransGen.mono (fun _ _ ⟨_, _, transition⟩ => ⟨_, _, transition⟩) _ _ run

theorem DecreeRun.sound (run : DecreeRun ctx d d')
    (sound : SoundDecree ctx d) : SoundDecree ctx d' := by
  induction run with
  | refl => exact sound
  | tail _ transition ih =>
    obtain ⟨world, proposed, transition⟩ := transition
    exact ih.progress (transition.progress ih)

theorem turnsJourney (ctx : DecreeContext) (made : Turn → Prop) :
    Journey (SoundDecree ctx) (TurnsRun ctx made) (TurnsHalted ctx made) where
  refl _ := .refl
  trans _ _ _ early late := early.trans late
  keeps _ _ sound run := run.decreeRun.sound sound
  halt d := ⟨d, .refl, [], by simp, by simp [Confirming]⟩
  resume _ _ _ run halted := by
    obtain ⟨last, further, rest⟩ := halted
    exact ⟨last, run.trans further, rest⟩

theorem runTurn_run {turn : Turn} (isMade : made turn) :
    Leads (SoundDecree ctx) (TurnsRun ctx made) (TurnsHalted ctx made) (runTurn ctx turn) := by
  have hears : turn.Hears fun _ _ => True := fun _ _ _ _ => trivial
  intro d sound
  refine (runTurn_calls hears d sound).mono ?_ ?_
  · exact fun _ _ run => ReflTransGen.mono (fun _ _ transition => ⟨turn, isMade, transition⟩) _ _
      run.transitions
  · rintro _ final ⟨last, path, -, rest⟩
    exact ⟨last, ReflTransGen.mono (fun _ _ transition => ⟨turn, isMade, transition⟩) _ _ path, rest⟩

theorem runTurns_run (areMade : ∀ turn ∈ turns, made turn) :
    Leads (SoundDecree ctx) (TurnsRun ctx made) (TurnsHalted ctx made) (runTurns ctx turns) := by
  have journey := turnsJourney ctx made
  induction turns with
  | nil => exact journey.pure ()
  | cons turn rest ih =>
    rw [List.forall_mem_cons] at areMade
    exact journey.bind (runTurn_run areMade.1) fun _ => ih areMade.2

theorem turnsRun_of_ended (sound : SoundDecree ctx d)
    (ended : runTurns ctx turns d = .done () d') : TurnsRun ctx (· ∈ turns) d d' :=
  (holds_of_done ended).mp (runTurns_run (fun _ mem => mem) d sound)

theorem decreeRun_of_reached
    (reached : runTurns ctx turns (newDecree ctx) = .done () d) : DecreeRun ctx (newDecree ctx) d :=
  (turnsRun_of_ended (soundDecree_newDecree ctx) reached).decreeRun

structure HistoryInvariant (ctx : DecreeContext) (inv : List BallotEvent → BallotState → Prop) :
    Prop where
  start : inv [] (newDecree ctx).ballot
  change : ∀ d events after, BallotChange ctx d events after → inv d.trace d.ballot →
    inv (d.trace ++ events) after

theorem HistoryInvariant.of_run {inv : List BallotEvent → BallotState → Prop}
    (invariant : HistoryInvariant ctx inv)
    (run : DecreeRun ctx (newDecree ctx) d) : inv d.trace d.ballot := by
  induction run with
  | refl => exact invariant.start
  | tail _ transition ih =>
    obtain ⟨world, proposed, transition⟩ := transition
    obtain ⟨events, trace, change⟩ := transition.changes
    rw [trace]
    exact invariant.change _ _ _ change ih

theorem HistoryInvariant.holds {inv : List BallotEvent → BallotState → Prop}
    (invariant : HistoryInvariant ctx inv)
    (ended : runTurns ctx turns (newDecree ctx) = .done () d) : inv d.trace d.ballot :=
  invariant.of_run (decreeRun_of_reached ended)

end Runs

end Ultiledger
