import Ultiledger.BallotTransitions

/-! # The ballot protocol makes transitions -/

namespace Ultiledger

open AbortingProgram Program Relation

section Runs

variable (ctx : DecreeContext) (world : World) (heard : String → Pledge → Prop)

abbrev BallotRun : DecreeState → DecreeState → Prop :=
  ReflTransGen (BallotTransition ctx world heard)

/-- A statement in a trace is one of the confirm phase, built from ballots in order. -/
def Confirming (trace : List BallotEvent) : Prop :=
  ∀ before stmt, .sendBallot before stmt ∈ trace → before.InOrder ∧
    before.currentPhase = .confirm ∧ assembleBallot ctx before = .ok (some stmt)

def Halted (d d' : DecreeState) : Prop :=
  ∃ last, BallotRun ctx world heard d last ∧ SameOutputs last d' ∧
    ∃ rest, d'.trace = last.trace ++ rest ∧ Confirming ctx rest

end Runs

section Transitions

variable {ctx : DecreeContext} {world : World} {heard : String → Pledge → Prop}
  {d d' : DecreeState}

theorem progress_of_run (sound : SoundDecree ctx d) (run : BallotRun ctx world heard d d') :
    Progress ctx heard d d' := by
  induction run with
  | refl => exact .refl
  | tail _ transition ih => exact ih.trans (transition.progress (sound.progress ih))

abbrev BallotLeads (ctx : DecreeContext) (world : World) (heard : String → Pledge → Prop)
    {Value : Type} (program : DecreeM Value) : Prop :=
  Leads (SoundDecree ctx) (BallotRun ctx world heard) (Halted ctx world heard) program

theorem ballotJourney (ctx : DecreeContext) (world : World) (heard : String → Pledge → Prop) :
    Journey (SoundDecree ctx) (BallotRun ctx world heard) (Halted ctx world heard) where
  refl d := .refl
  trans _ _ _ early late := early.trans late
  keeps _ _ sound run := sound.progress (progress_of_run sound run)
  halt d := ⟨d, .refl, ⟨rfl, rfl⟩, [], by simp, by simp [Confirming]⟩
  resume _ _ _ run halted := by
    obtain ⟨last, further, rest⟩ := halted
    exact ⟨last, run.trans further, rest⟩

end Transitions

section Validity

variable {ctx : DecreeContext} {world : World} {heard : String → Pledge → Prop}
  {d d' : DecreeState}

theorem txSets_resetQ (nodeID : String) : (d.resetQ nodeID).txSets = d.txSets := by
  obtain ⟨clearedQ, ballots, latestBallot, shape⟩ := d.resetQ_eq nodeID
  rw [shape]

theorem BallotTransition.txSets (transition : BallotTransition ctx world heard d d') :
    d'.txSets = d.txSets := by
  cases transition with
  | count ballotMsgCount => rfl
  | limit => rfl
  | idle move nextValue => rfl
  | move move inOrder nextValue => rfl
  | enter waiting found valid inOrder built delivered =>
    rcases delivered with ⟨-, rfl⟩ | delivered
    · exact txSets_resetQ ctx.nodeID
    · cases delivered with
      | refused reason => exact txSets_resetQ ctx.nodeID
      | stored admitted => exact txSets_resetQ ctx.nodeID
  | store admitted origin => rfl
  | announce pledge vouched => rfl
  | resend => rfl
  | stopNomination => rfl
  | externalize c phase commit first => rfl

theorem txSets_of_run (run : BallotRun ctx world heard d d') : d'.txSets = d.txSets := by
  induction run with
  | refl => rfl
  | tail _ transition ih => exact transition.txSets.trans ih

end Validity

structure Quiet (d d' : DecreeState) : Prop where
  ballot : d'.ballot = d.ballot
  externalizeChan : d'.externalizeChan = d.externalizeChan

/-- A delivery that is quiet once the decree is in the externalize phase. -/
def QuietDelivery (deliver : Delivery) : Prop :=
  ∀ d stmt assembled, d.ballot.currentPhase = .externalize →
    (deliver stmt assembled).Holds d (fun _ => Quiet d) (fun _ _ => True)

/-- A delivery that stores or refuses a statement and goes on with transitions, and
is quiet in the externalize phase. -/
structure Delivers (ctx : DecreeContext) (world : World) (heard : String → Pledge → Prop)
    (deliver : Delivery) : Prop where
  leads : ∀ d stmt assembled, SoundDecree ctx d →
    (deliver stmt assembled).Holds d
      (fun _ d' => ∃ middle, Delivered ctx world d stmt assembled middle ∧
        BallotRun ctx world heard middle d')
      (fun _ d' => d' = d ∨ ∃ middle, Delivered ctx world d stmt assembled middle ∧
        Halted ctx world heard middle d')
  quiet : QuietDelivery deliver

section Sending

variable {ctx : DecreeContext} {world : World} {heard : String → Pledge → Prop}
  {deliver : Delivery} {d d' : DecreeState}

theorem SoundDecree.storeBallot (sound : SoundDecree ctx d) (ownID nodeID : String)
    (pledge : Pledge) (assembled : Bool) :
    SoundDecree ctx (d.storeBallot ownID nodeID pledge assembled) :=
  ⟨sound.inOrder, sound.externalized⟩

variable {pledge : Pledge} {stmt : Statement} {assembled : Bool}

theorem Delivered.ballot (delivered : Delivered ctx world d stmt assembled d') :
    d'.ballot = d.ballot := by
  cases delivered <;> rfl

theorem Delivered.sound (sound : SoundDecree ctx d)
    (delivered : Delivered ctx world d stmt assembled d') : SoundDecree ctx d' := by
  cases delivered with
  | refused reason => exact sound
  | stored admitted => exact sound.storeBallot _ _ _ _

theorem Pledge.VouchedBy.progress (vouched : pledge.VouchedBy ctx d.ballot)
    (run : Progress ctx heard d d') : pledge.VouchedBy ctx d'.ballot := by
  cases pledge with
  | prepare message => trivial
  | confirm B PC LC HC quorumHash => exact ⟨run.lock vouched.1, vouched.2⟩
  | externalize B HC quorumHash =>
    rw [run.frozen vouched.2]
    exact vouched

theorem Pledge.VouchedBy.reread (vouched : pledge.VouchedBy ctx d.ballot) :
    (d.reread pledge).VouchedBy ctx d.ballot := by
  unfold DecreeState.reread
  cases d.clearedQ with
  | none => exact vouched
  | some q =>
    cases pledge with
    | prepare message => trivial
    | confirm B PC LC HC quorumHash => exact vouched
    | externalize B HC quorumHash => exact vouched

theorem broadcastBallot_leads {stmt : Pledge} (vouched : stmt.VouchedBy ctx d.ballot) :
    (broadcastBallot ctx stmt).Holds d (fun _ => BallotRun ctx world heard d)
      (fun _ => Halted ctx world heard d) := by
  have journey := ballotJourney ctx world heard
  simp only [broadcastBallot, holds_bind, holds_get]
  split_ifs with noBallot
  · exact journey.refl d
  · cases isNews d.latestBallot ((d.reread stmt).statement ctx.nodeID ctx.index) with
    | error fault => exact journey.halt d
    | ok news =>
      cases news with
      | true => exact .single (.announce _ vouched.reread)
      | false => exact journey.refl d

def recorded (ctx : DecreeContext) (d : DecreeState) : DecreeState :=
  { d with trace := d.trace ++ sentEvents ctx d.ballot }

/-- What `sendBallot` does with the ballots, before the delivery goes on. -/
inductive Sent (ctx : DecreeContext) (world : World) (d : DecreeState) : DecreeState → Prop
  | unsent (none : assembleBallot ctx d.ballot = .ok none) : Sent ctx world d (recorded ctx d)
  | known {stmt : Pledge} (built : assembleBallot ctx d.ballot = .ok (some stmt))
      (known : d.ballots.lookup ctx.nodeID = some stmt) : Sent ctx world d (recorded ctx d)
  | delivered {stmt : Pledge} {middle : DecreeState}
      (built : assembleBallot ctx d.ballot = .ok (some stmt))
      (delivered : Delivered ctx world (recorded ctx d)
        (stmt.statement ctx.nodeID ctx.index) true middle) : Sent ctx world d middle

theorem sendBallot_sends (delivers : Delivers ctx world heard deliver)
    (sound : d.ballot.InOrder → SoundDecree ctx d) :
    (sendBallot ctx deliver).Holds d
      (fun _ d' => d.ballot.InOrder ∧
        ∃ middle, Sent ctx world d middle ∧ BallotRun ctx world heard middle d')
      (fun _ d' => d' = d ∨ d.ballot.InOrder ∧
        ((∃ stmt, assembleBallot ctx d.ballot = .ok (some stmt)) ∧ d' = recorded ctx d ∨
          ∃ middle, Sent ctx world d middle ∧ Halted ctx world heard middle d')) := by
  have journey := ballotJourney ctx world heard
  simp only [sendBallot, holds_bind, holds_get]
  cases checked : d.ballot.checkBallotInvariants with
  | error fault => exact .inl rfl
  | ok _ =>
    have inOrder := (checkBallotInvariants_iff _).mp checked
    rw [holds_lift_ok]
    cases built : assembleBallot ctx d.ballot with
    | error fault => exact .inl rfl
    | ok message =>
      rw [holds_lift_ok]
      cases message with
      | none =>
        have same : recorded ctx d = d := by simp [recorded, sentEvents, built]
        have unsent : Sent ctx world d (recorded ctx d) := .unsent built
        rw [same] at unsent
        exact ⟨inOrder, d, unsent, journey.refl d⟩
      | some stmt =>
        have record : ({ d with trace := d.trace ++ [.sendBallot d.ballot stmt] } :
            DecreeState) = recorded ctx d := by simp [recorded, sentEvents, built]
        simp only [Ultiledger.record, holds_bind, holds_modify, record]
        have soundRecorded : SoundDecree ctx (recorded ctx d) :=
          ⟨(sound inOrder).inOrder, (sound inOrder).externalized⟩
        split_ifs with known
        · exact ⟨inOrder, _, .known built known, journey.refl _⟩
        · rw [holds_bind]
          refine (delivers.leads _ _ true soundRecorded).mono ?_ ?_
          · rintro (err | _) sent ⟨middle, delivered, run⟩
            · exact ⟨inOrder, middle, .delivered built delivered, run⟩
            · have vouched : stmt.VouchedBy ctx sent.ballot := by
                have start : stmt.VouchedBy ctx middle.ballot := by
                  rw [delivered.ballot]
                  exact vouchedBy_assembleBallot inOrder built
                exact start.progress
                  (progress_of_run (delivered.sound soundRecorded) run)
              simp only [holds_bind, holds_pure]
              refine (journey.extend run (broadcastBallot_leads vouched)).mono ?_ ?_
              · exact fun _ _ further => ⟨inOrder, middle, .delivered built delivered, further⟩
              · exact fun _ _ halted =>
                  .inr ⟨inOrder, .inr ⟨middle, .delivered built delivered, halted⟩⟩
          · rintro fault stopped (rfl | ⟨middle, delivered, halted⟩)
            · exact .inr ⟨inOrder, .inl ⟨⟨stmt, rfl⟩, rfl⟩⟩
            · exact .inr ⟨inOrder, .inr ⟨middle, .delivered built delivered, halted⟩⟩

theorem recorded_moved (events : List BallotEvent) (after : BallotState) (nextValue : String) :
    recorded ctx (d.moved events after nextValue) =
      d.moved (events ++ sentEvents ctx after) after nextValue := by
  simp only [recorded, DecreeState.moved, List.append_assoc]

theorem confirming_catchUpEvents (before : BallotState) (b : Ballot) :
    Confirming ctx (before.catchUpEvents b) := by
  intro sent stmt mem
  cases BallotState.eq_of_mem_catchUpEvents mem

theorem BallotMove.confirming {events : List BallotEvent} {after : BallotState}
    (move : BallotMove ctx d events after) : Confirming ctx events := by
  cases move with
  | accept running found => simp [Confirming]
  | confirm found =>
    intro before stmt member
    simp only [List.mem_cons, reduceCtorEq, false_or] at member
    exact confirming_catchUpEvents _ _ before stmt member
  | recommit phase found =>
    intro before stmt member
    simp only [List.mem_cons, reduceCtorEq, false_or] at member
    exact confirming_catchUpEvents _ _ before stmt member
  | externalize found => exact confirming_catchUpEvents _ _
  | bump running fits forward => simp [Confirming]

section Moving

variable {events : List BallotEvent} {after : BallotState} (move : BallotMove ctx d events after)
  (nextValue : String)

include move

theorem BallotMove.halted : Halted ctx world heard d (d.moved events after nextValue) :=
  ⟨d, .refl, ⟨rfl, rfl⟩, events, rfl, move.confirming⟩

theorem BallotMove.run (inOrder : after.InOrder) :
    BallotRun ctx world heard d (recorded ctx (d.moved events after nextValue)) := by
  rw [recorded_moved]
  exact .single (.move move inOrder nextValue)

theorem BallotMove.sent {middle : DecreeState} (inOrder : after.InOrder)
    (sent : Sent ctx world (d.moved events after nextValue) middle) :
    BallotRun ctx world heard d middle := by
  have moved : BallotRun ctx world heard d (recorded ctx (d.moved events after nextValue)) :=
    move.run nextValue inOrder
  cases sent with
  | unsent none => exact moved
  | known built known => exact moved
  | @delivered stmt _ built delivered =>
    cases delivered with
    | refused reason => exact moved
    | @stored received admitted =>
      obtain rfl : stmt = received :=
        Pledge.eq_of_statement (validateBallot_cases admitted.valid).2.1
      exact moved.tail (.store admitted (.inr ⟨rfl, rfl, inOrder, built⟩))

theorem sendBallot_leads (delivers : Delivers ctx world heard deliver) (sound : SoundDecree ctx d) :
    (sendBallot ctx deliver).Holds (d.moved events after nextValue)
      (fun _ => BallotRun ctx world heard d) (fun _ => Halted ctx world heard d) := by
  have journey := ballotJourney ctx world heard
  have soundMoved : after.InOrder → SoundDecree ctx (d.moved events after nextValue) := by
    intro inOrder
    have step : DecreeStep ctx heard d (d.moved events after nextValue) :=
      .move (move.move sound (.moved _ _ _ _) rfl) inOrder
    exact sound.step step
  refine (sendBallot_sends delivers soundMoved).mono ?_ ?_
  · rintro _ final ⟨inOrder, middle, sent, run⟩
    exact journey.trans _ _ _ (move.sent nextValue inOrder sent) run
  · rintro fault final (rfl | ⟨inOrder, ⟨-, rfl⟩ | ⟨middle, sent, halted⟩⟩)
    · exact move.halted nextValue
    · exact journey.resume _ _ _ (move.run nextValue inOrder) (journey.halt _)
    · exact journey.resume _ _ _ (move.sent nextValue inOrder sent) halted

theorem sendIfChanged_leads {changed : Bool} (delivers : Delivers ctx world heard deliver)
    (sound : SoundDecree ctx d) (same : changed = false → after = d.ballot) :
    (sendIfChanged ctx deliver changed).Holds (d.moved events after nextValue)
      (fun _ => BallotRun ctx world heard d) (fun _ => Halted ctx world heard d) := by
  cases changed with
  | true =>
    rw [sendIfChanged, if_pos rfl, holds_bind]
    exact sendBallot_leads move nextValue delivers sound
  | false =>
    obtain rfl := same rfl
    exact .single (.idle move nextValue)

end Moving

end Sending

section Updating

variable {ctx : DecreeContext} {world : World} {heard : String → Pledge → Prop}
  {deliver : Delivery} (delivers : Delivers ctx world heard deliver)

include delivers

theorem updateBallotPhaseWithCounter_leads (val : String) (counter : Nat) :
    BallotLeads ctx world heard (updateBallotPhaseWithCounter ctx deliver val counter) := by
  have journey := ballotJourney ctx world heard
  intro d sound
  simp only [updateBallotPhaseWithCounter, holds_bind, holds_get]
  split_ifs with externalized
  · exact journey.refl d
  rw [holds_bind]
  rcases updateBallotValue_cases (d := d) ⟨counter, d.nextOr val⟩ with
    kept | ⟨fault, stops⟩ | ⟨running, fits, forward, updated⟩
  · rw [holds_of_done kept]
    exact journey.refl d
  · unfold Holds
    rw [stops]
    exact journey.halt d
  · have move : BallotMove ctx d _ _ := .bump running fits forward
    rw [holds_congr updated]
    cases (d.ballot.replaceCurrent ⟨counter, d.nextOr val⟩).checkBallotInvariants with
    | error fault => exact move.halted d.nextValue
    | ok _ =>
      simp only [holds_lift_ok, holds_pure, if_true, holds_bind]
      exact sendBallot_leads move d.nextValue delivers sound

theorem updateBallotPhase_leads (val : String) (force : Bool) :
    BallotLeads ctx world heard (updateBallotPhase ctx deliver val force) := by
  intro d sound
  simp only [updateBallotPhase, holds_bind, holds_get]
  split_ifs
  · exact (ballotJourney ctx world heard).refl d
  · exact updateBallotPhaseWithCounter_leads delivers val _ d sound

theorem update_leads : BallotLeads ctx world heard (update ctx deliver) := by
  have journey := ballotJourney ctx world heard
  intro d sound
  simp only [update, holds_bind, holds_get]
  cases findUpdate d with
  | error fault => exact journey.halt d
  | ok counter =>
    cases counter with
    | none => exact journey.refl d
    | some c =>
      simp only [holds_lift_ok, abandonBallot, holds_bind, holds_get]
      split_ifs
      · exact journey.refl d
      · exact updateBallotPhase_leads delivers _ true d sound
      · exact updateBallotPhaseWithCounter_leads delivers _ c d sound

theorem updateLoop_leads (fuel : Nat) :
    BallotLeads ctx world heard (updateLoop ctx deliver fuel) := by
  have journey := ballotJourney ctx world heard
  induction fuel with
  | zero => exact journey.abort _
  | succ fuel ih =>
    apply journey.bind (update_leads delivers)
    rintro (_ | _)
    · exact journey.pure false
    · exact journey.bind ih fun _ => journey.pure true

end Updating

section Attempts

variable {ctx : DecreeContext} {world : World} {heard : String → Pledge → Prop}
  {deliver : Delivery} {d : DecreeState} (delivers : Delivers ctx world heard deliver)

include delivers

theorem acceptPrepared_leads (stmt : Pledge) :
    BallotLeads ctx world heard (acceptPrepared ctx deliver stmt) := by
  have journey := ballotJourney ctx world heard
  intro d sound
  by_cases externalized : d.ballot.currentPhase = .externalize
  · simp only [acceptPrepared, holds_bind, holds_get, externalized, if_true]
    exact journey.refl d
  rcases found : findAcceptPrepared ctx d (getPreparedCandidates stmt d.ballots)
    with fault | _ | cand
  · simp only [acceptPrepared, holds_bind, holds_get, externalized, if_false, found]
    exact journey.halt d
  · simp only [acceptPrepared, holds_bind, holds_get, externalized, if_false, found]
    exact journey.refl d
  · rw [holds_congr (acceptPrepared_eq externalized found)]
    exact sendIfChanged_leads (.accept externalized found) d.nextValue delivers sound
      d.ballot.acceptPrepared_unchanged

theorem confirmPrepared_leads (stmt : Pledge) :
    BallotLeads ctx world heard (confirmPrepared ctx deliver stmt) := by
  have journey := ballotJourney ctx world heard
  intro d sound
  simp only [confirmPrepared, holds_bind, holds_get]
  rcases found : findConfirmPrepared ctx d stmt with fault | _ | ⟨cb, hb⟩
  · exact journey.halt d
  · exact journey.refl d
  · have waiting := (findConfirmPrepared_spec found).1
    obtain ⟨changed, ended, -, unchanged⟩ :=
      @setConfirmPrepared_eq ctx deliver d cb hb (by simp [waiting])
    rw [holds_lift_ok]
    rw [holds_congr ended]
    exact sendIfChanged_leads (.confirm found) hb.value delivers sound unchanged

omit delivers in
theorem confirming_entryEvents (before : BallotState) (cb hb : Ballot) :
    Confirming ctx (before.entryEvents cb hb) := by
  intro sent stmt member
  rw [BallotState.entryEvents, List.mem_cons, List.mem_append] at member
  rcases member with same | entering | caughtUp
  · simp at same
  · unfold BallotState.enterEvents at entering
    dsimp only at entering
    split_ifs at entering <;> simp at entering
  · exact confirming_catchUpEvents _ _ sent stmt caughtUp

omit delivers in
theorem trace_resetQ (nodeID : String) : (d.resetQ nodeID).trace = d.trace := by
  obtain ⟨clearedQ, ballots, latestBallot, shape⟩ := d.resetQ_eq nodeID
  rw [shape]

/-- Entering the confirm phase: the statement has been delivered, or the call has been
aborted. -/
theorem enter_leads {stmt : Pledge} {cb hb : Ballot} (sound : SoundDecree ctx d)
    (waiting : d.ballot.currentPhase = .prepare)
    (found : findAcceptCommit ctx d stmt = .ok (some (cb, hb)))
    (valid : validateConsensusValue ctx world d hb.value = .ok ()) :
    (sendBallot ctx deliver).Holds
      ((d.resetQ ctx.nodeID).moved (d.ballot.entryEvents cb hb) (d.ballot.entry cb hb) hb.value)
      (fun _ => BallotRun ctx world heard d) (fun _ => Halted ctx world heard d) := by
  have journey := ballotJourney ctx world heard
  have record : recorded ctx ((d.resetQ ctx.nodeID).moved (d.ballot.entryEvents cb hb)
      (d.ballot.entry cb hb) hb.value) = entered ctx d cb hb := recorded_moved _ _ _
  have frame : MoveFrame d ((d.resetQ ctx.nodeID).moved (d.ballot.entryEvents cb hb)
      (d.ballot.entry cb hb) hb.value) :=
    (MoveFrame.resetQ ctx.nodeID d).trans (.moved _ _ _ _)
  have soundMoved : (d.ballot.entry cb hb).InOrder → SoundDecree ctx ((d.resetQ ctx.nodeID).moved
      (d.ballot.entryEvents cb hb) (d.ballot.entry cb hb) hb.value) := by
    intro inOrder
    have step : DecreeStep ctx heard d ((d.resetQ ctx.nodeID).moved
        (d.ballot.entryEvents cb hb) (d.ballot.entry cb hb) hb.value) :=
      .move (.of_prepare frame waiting (by simp [DecreeState.moved, phase_entry])) inOrder
    exact sound.step step
  have reached : ∀ middle, (d.ballot.entry cb hb).InOrder →
      Sent ctx world ((d.resetQ ctx.nodeID).moved (d.ballot.entryEvents cb hb)
        (d.ballot.entry cb hb) hb.value) middle → BallotRun ctx world heard d middle := by
    intro middle inOrder sent
    cases sent with
    | unsent none =>
      obtain ⟨current, shared, shape⟩ := d.ballot.entry_eq cb hb
      simp only [DecreeState.moved, shape] at none
      cases pCase : d.ballot.pBallot <;> simp [assembleBallot, pCase] at none
    | @known pledge built known =>
      rw [record]
      refine .single (.enter waiting found valid inOrder built (.inl ⟨?_, rfl⟩))
      exact known
    | @delivered pledge _ built delivered =>
      rw [record] at delivered
      exact .single (.enter waiting found valid inOrder built (.inr delivered))
  refine (sendBallot_sends delivers soundMoved).mono ?_ ?_
  · rintro _ final ⟨inOrder, middle, sent, run⟩
    exact journey.trans _ _ _ (reached middle inOrder sent) run
  · rintro fault final (rfl | ⟨inOrder, ⟨⟨pledge, built⟩, rfl⟩ | ⟨middle, sent, halted⟩⟩)
    · refine ⟨d, .refl, frame.toSameOutputs, d.ballot.entryEvents cb hb, ?_,
        confirming_entryEvents _ _ _⟩
      rw [DecreeState.moved, trace_resetQ]
    · refine ⟨d, .refl, ?_, d.ballot.entryEvents cb hb ++ [.sendBallot (d.ballot.entry cb hb) pledge],
        ?_, ?_⟩
      · rw [record]
        exact (frame_entered cb hb).toSameOutputs
      · rw [record, entered, DecreeState.moved, trace_resetQ]
        simp only [sentEvents]
        rw [show assembleBallot ctx (d.ballot.entry cb hb) = .ok (some pledge) from built]
      · intro before stmt member
        rw [List.mem_append, List.mem_singleton] at member
        rcases member with early | last
        · exact confirming_entryEvents _ _ _ before stmt early
        · obtain ⟨rfl, rfl⟩ := BallotEvent.sendBallot.inj last
          exact ⟨inOrder, phase_entry _ _ _, built⟩
    · exact journey.resume _ _ _ (reached middle inOrder sent) halted

theorem acceptCommit_leads {stmt : Pledge} (sound : SoundDecree ctx d)
    (valid : ∀ ballot, votedCommit stmt = .ok (some ballot) →
      validateConsensusValue ctx world d ballot.value = .ok ()) :
    (acceptCommit ctx deliver stmt).Holds d (fun _ => BallotRun ctx world heard d)
      (fun _ => Halted ctx world heard d) := by
  have journey := ballotJourney ctx world heard
  simp only [acceptCommit, holds_bind, holds_get]
  rcases found : findAcceptCommit ctx d stmt with fault | _ | ⟨cb, hb⟩
  · exact journey.halt d
  · exact journey.refl d
  · obtain ⟨running, sameValue, -, -, continues⟩ := findAcceptCommit_spec found
    rw [holds_lift_ok]
    rcases phase_cases running with waiting | phase
    · obtain ⟨ballot, voted, value⟩ := findAcceptCommit_value found
      rw [holds_congr (setAcceptCommit_of_prepare waiting), sendIfChanged, if_pos rfl, holds_bind]
      refine enter_leads delivers sound waiting found ?_
      rw [← sameValue, value]
      exact valid ballot voted
    · obtain ⟨h, high, -, higher⟩ := continues phase
      have changed : (d.ballot.acceptCommit cb hb).2 = true := by
        rcases d.ballot.acceptCommit_cases cb hb with same | new
        · have kept := d.ballot.hBallot_acceptCommit cb hb
          rw [same, high, Option.some.injEq] at kept
          rw [kept] at higher
          omega
        · rw [new]
      rw [holds_congr (setAcceptCommit_of_confirm phase changed)]
      exact sendIfChanged_leads (.recommit phase found) hb.value delivers sound (by simp)

end Attempts

section Externalizing

variable {ctx : DecreeContext} {world : World} {heard : String → Pledge → Prop}
  {deliver : Delivery} {d : DecreeState}

theorem broadcastBallot_quiet (stmt : Pledge) :
    (broadcastBallot ctx stmt).Holds d (fun _ => Quiet d) (fun _ _ => True) := by
  simp only [broadcastBallot, holds_bind, holds_get]
  split_ifs with noBallot
  · exact ⟨rfl, rfl⟩
  · cases isNews d.latestBallot ((d.reread stmt).statement ctx.nodeID ctx.index) with
    | error fault => trivial
    | ok news => cases news <;> exact ⟨rfl, rfl⟩

theorem sendBallot_quiet (quiet : QuietDelivery deliver)
    (phase : d.ballot.currentPhase = .externalize) :
    (sendBallot ctx deliver).Holds d (fun _ => Quiet d) (fun _ _ => True) := by
  simp only [sendBallot, holds_bind, holds_get]
  cases d.ballot.checkBallotInvariants with
  | error fault => trivial
  | ok _ =>
    cases assembleBallot ctx d.ballot with
    | error fault => trivial
    | ok message =>
      cases message with
      | none => exact ⟨rfl, rfl⟩
      | some stmt =>
        simp only [holds_lift_ok, record, holds_bind, holds_modify]
        split_ifs with sent
        · exact ⟨rfl, rfl⟩
        · rw [holds_bind]
          refine (quiet { d with trace := d.trace ++ [.sendBallot d.ballot stmt] } _ true
            phase).imp ?_
          rintro (err | _) middle same
          · exact ⟨same.ballot, same.externalizeChan⟩
          · simp only [holds_bind, holds_pure]
            refine (broadcastBallot_quiet stmt).imp ?_
            exact fun _ _ kept => ⟨kept.ballot.trans same.ballot,
              kept.externalizeChan.trans same.externalizeChan⟩

theorem confirmCommit_leads (delivers : Delivers ctx world heard deliver) (stmt : Pledge) :
    BallotLeads ctx world heard (confirmCommit ctx deliver stmt) := by
  have journey := ballotJourney ctx world heard
  intro d sound
  simp only [confirmCommit, holds_bind, holds_get]
  rcases found : findConfirmCommit ctx d stmt with fault | _ | ⟨cb, hb⟩
  · exact journey.halt d
  · exact journey.refl d
  have phase := (findConfirmCommit_spec found).1
  have unsent : d.externalizeChan = [] := by
    by_contra sent
    simpa [phase] using (sound.externalized sent).1
  rw [holds_lift_ok]
  rw [holds_congr (setConfirmCommit_eq cb hb (by simp [phase])), holds_bind]
  have sending := (sendBallot_leads (.externalize found) d.nextValue delivers sound).and
    (sendBallot_quiet delivers.quiet rfl)
  refine sending.mono ?_ (fun _ _ stopped => stopped.1)
  rintro result sent ⟨run, same⟩
  have commit : sent.ballot.cBallot = some cb := by
    have high : (d.ballot.holdCommit cb hb false).hBallot = some hb := rfl
    obtain ⟨b, caughtUp, -⟩ := BallotState.catchUp_high high
    rw [same.ballot, caughtUp]
    rfl
  simp only [holds_bind, holds_modify, holds_get, commit, holds_pure]
  have stopped : BallotRun ctx world heard d { sent with nominationStart := false } :=
    run.tail .stopNomination
  refine stopped.tail (.externalize cb ?_ commit ?_)
  · exact congrArg BallotState.currentPhase same.ballot
  · exact same.externalizeChan.trans unsent

end Externalizing

section Receiving

variable {ctx : DecreeContext} {world : World} {heard : String → Pledge → Prop}
  {deliver : Delivery} {d : DecreeState} (delivers : Delivers ctx world heard deliver)

include delivers

variable (fuel : Nat) {stmt : Pledge}

theorem advance_leads (sound : SoundDecree ctx d)
    (valid : ∀ ballot, votedCommit stmt = .ok (some ballot) →
      validateConsensusValue ctx world d ballot.value = .ok ()) :
    (advance ctx deliver fuel stmt).Holds d (fun _ => BallotRun ctx world heard d)
      (fun _ => Halted ctx world heard d) := by
  have journey := ballotJourney ctx world heard
  rw [advance, holds_bind]
  refine (acceptPrepared_leads delivers stmt d sound).imp ?_
  intro preparedAccepted first early
  have soundFirst := journey.keeps _ _ sound early
  apply journey.extend early
  rw [holds_bind]
  refine (confirmPrepared_leads delivers stmt first soundFirst).imp ?_
  intro preparedConfirmed second late
  have soundSecond := journey.keeps _ _ soundFirst late
  apply journey.extend late
  rw [holds_bind]
  have stillValid : ∀ ballot, votedCommit stmt = .ok (some ballot) →
      validateConsensusValue ctx world second ballot.value = .ok () := by
    intro ballot voted
    rw [validateConsensusValue_congr ((txSets_of_run late).trans (txSets_of_run early))]
    exact valid ballot voted
  refine (acceptCommit_leads delivers soundSecond stillValid).imp ?_
  intro commitAccepted third run
  apply journey.extend run
  refine journey.bind (confirmCommit_leads delivers stmt) ?_ third
    (journey.keeps _ _ soundSecond run)
  intro commitConfirmed d sound
  simp only [holds_bind, holds_get]
  split_ifs
  · rw [holds_bind]
    exact updateLoop_leads delivers fuel d sound
  · exact journey.refl d

theorem step_leads (sound : SoundDecree ctx d)
    (valid : ∀ ballot, votedCommit stmt = .ok (some ballot) →
      validateConsensusValue ctx world d ballot.value = .ok ()) :
    (step ctx deliver fuel stmt).Holds d (fun _ => BallotRun ctx world heard d)
      (fun _ => Halted ctx world heard d) := by
  simp only [step, record, holds_bind, holds_modify, holds_get]
  have counted : BallotTransition ctx world heard d
      { d with ballotMsgCount := d.ballotMsgCount + 1 } := .count _
  split_ifs with atLimit
  · exact (ReflTransGen.single counted).tail .limit
  · have soundCounted : SoundDecree ctx { d with ballotMsgCount := d.ballotMsgCount + 1 } :=
      ⟨sound.inOrder, sound.externalized⟩
    rw [holds_bind]
    refine (advance_leads delivers fuel soundCounted valid).mono ?_ ?_
    · intro updated final run
      have returned : BallotRun ctx world heard d
          { final with ballotMsgCount := final.ballotMsgCount - 1 } :=
        (ReflTransGen.head counted run).tail (.count _)
      split_ifs
      · exact returned.tail .resend
      · exact returned
    · rintro fault final ⟨last, run, rest⟩
      exact ⟨last, ReflTransGen.head counted run, rest⟩

theorem receiveBallot_leads (stmt : Statement) (assembled : Bool) (sound : SoundDecree ctx d) :
    (receiveBallot ctx deliver world fuel stmt assembled).Holds d
      (fun _ d' => ∃ middle, Delivered ctx world d stmt assembled middle ∧
        BallotRun ctx world heard middle d')
      (fun _ d' => d' = d ∨ ∃ middle, Delivered ctx world d stmt assembled middle ∧
        Halted ctx world heard middle d') := by
  have journey := ballotJourney ctx world heard
  unfold receiveBallot
  split_ifs with otherIndex
  · exact ⟨d, .refused (.inl otherIndex), journey.refl d⟩
  simp only [holds_bind, holds_get]
  rcases news : isNews (d.ballots.lookup stmt.nodeID) stmt with fault | _ | _
  · exact .inl rfl
  · exact ⟨d, .refused (.inr (.inl news)), journey.refl d⟩
  simp only [holds_lift_ok, if_true, holds_bind]
  rcases validated : validateBallot ctx world d stmt with fault | err | pledge
  · exact .inl rfl
  · exact ⟨d, .refused (.inr (.inr (.inl ⟨err, validated⟩))), journey.refl d⟩
  have stored : Delivered ctx world d stmt assembled
      (d.storeBallot ctx.nodeID stmt.nodeID pledge assembled) := .stored ⟨news, validated⟩
  simp only [holds_lift_ok, handleBallot, holds_bind, holds_get]
  split_ifs with running
  · simp only [holds_bind, holds_modify]
    have valid : ∀ ballot, votedCommit pledge = .ok (some ballot) → validateConsensusValue ctx world
        (d.storeBallot ctx.nodeID stmt.nodeID pledge assembled) ballot.value = .ok () := by
      intro ballot voted
      exact valid_of_votedCommit validated voted
    refine (step_leads delivers fuel (sound.storeBallot _ _ _ _) valid).mono ?_ ?_
    · rintro (err | _) final run
      · exact ⟨_, stored, run⟩
      · exact ⟨_, stored, run⟩
    · exact fun _ _ halted => .inr ⟨_, stored, halted⟩
  · cases d.ballot.cBallot with
    | none => exact .inl rfl
    | some c =>
      cases getWorkingBallot pledge with
      | none => exact .inl rfl
      | some wb =>
        dsimp only
        split_ifs
        · exact ⟨d, .refused (.inr (.inr (.inr (not_not.mp running)))), journey.refl d⟩
        · exact ⟨_, stored, journey.refl _⟩

end Receiving

theorem receiveBallot_quiet {ctx : DecreeContext} {deliver : Delivery} {d : DecreeState}
    (world : World) (fuel : Nat) (stmt : Statement) (assembled : Bool)
    (phase : d.ballot.currentPhase = .externalize) :
    (receiveBallot ctx deliver world fuel stmt assembled).Holds d (fun _ => Quiet d)
      (fun _ _ => True) := by
  unfold receiveBallot
  split_ifs with otherIndex
  · exact ⟨rfl, rfl⟩
  · simp only [holds_bind, holds_get]
    rcases isNews (d.ballots.lookup stmt.nodeID) stmt with fault | _ | _
    · trivial
    · exact ⟨rfl, rfl⟩
    · simp only [holds_lift_ok, if_true, holds_bind]
      rcases validateBallot ctx world d stmt with fault | err | pledge
      · trivial
      · exact ⟨rfl, rfl⟩
      · simp only [holds_lift_ok, handleBallot, holds_bind, holds_get, phase, ne_eq,
          not_true_eq_false, if_false]
        cases d.ballot.cBallot with
        | none => trivial
        | some c =>
          cases getWorkingBallot pledge with
          | none => trivial
          | some wb =>
            dsimp only
            split_ifs <;> exact ⟨rfl, rfl⟩

theorem recvBallot_quiet (ctx : DecreeContext) (world : World) (fuel : Nat) :
    QuietDelivery (recvBallot ctx world fuel) := by
  cases fuel with
  | zero => exact fun _ _ _ _ => trivial
  | succ fuel =>
    exact fun d stmt assembled phase => receiveBallot_quiet world fuel stmt assembled phase

theorem recvBallot_delivers (ctx : DecreeContext) (world : World)
    (heard : String → Pledge → Prop) (fuel : Nat) :
    Delivers ctx world heard (recvBallot ctx world fuel) := by
  induction fuel with
  | zero => exact ⟨fun d _ _ _ => .inl rfl, recvBallot_quiet ctx world 0⟩
  | succ fuel ih =>
    exact ⟨fun d stmt assembled sound => receiveBallot_leads ih fuel stmt assembled sound,
      recvBallot_quiet ctx world (fuel + 1)⟩

theorem recvBallot_leads {ctx : DecreeContext} {world : World} {heard : String → Pledge → Prop}
    (fuel : Nat) {stmt : Statement}
    (hears : ∀ pledge, stmt = pledge.statement stmt.nodeID stmt.index → heard stmt.nodeID pledge) :
    BallotLeads ctx world heard (recvBallot ctx world fuel stmt false) := by
  have journey := ballotJourney ctx world heard
  intro d sound
  have delivery : ∀ middle, Delivered ctx world d stmt false middle →
      BallotRun ctx world heard d middle := by
    intro middle delivered
    cases delivered with
    | refused reason => exact journey.refl d
    | stored admitted =>
      have known := hears _ (validateBallot_cases admitted.valid).2.1
      exact .single (.store admitted (.inl ⟨rfl, known⟩))
  refine ((recvBallot_delivers ctx world heard fuel).leads d stmt false sound).mono ?_ ?_
  · rintro _ final ⟨middle, delivered, run⟩
    exact journey.trans _ _ _ (delivery middle delivered) run
  · rintro fault final (rfl | ⟨middle, delivered, halted⟩)
    · exact journey.halt _
    · exact journey.resume _ _ _ (delivery middle delivered) halted

end Ultiledger
