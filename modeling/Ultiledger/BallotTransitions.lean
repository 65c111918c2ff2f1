import Ultiledger.BallotMoves
import Ultiledger.DecreeSteps

/-!
# The transitions of the ballot protocol

All that the ballot protocol can do to a decree, at the grain at which its functions
change the state.  A transition carries the search that led to it and the tests that it
has passed, so an invariant of all runs is a case analysis.

The entry to the confirm phase clears the q that the stored statement shares with the
decree, and the statement that replaces it is delivered at once: the two are one
transition.
-/

namespace Ultiledger

open AbortingProgram Program Relation

def sentEvents (ctx : DecreeContext) (d : BallotState) : List BallotEvent :=
  match assembleBallot ctx d with
  | .ok (some stmt) => [.sendBallot d stmt]
  | _ => []

theorem mem_sentEvents {ctx : DecreeContext} {d : BallotState} {event : BallotEvent} :
    event ∈ sentEvents ctx d ↔
      ∃ stmt, assembleBallot ctx d = .ok (some stmt) ∧ event = .sendBallot d stmt := by
  unfold sentEvents
  rcases assembleBallot ctx d with fault | _ | stmt <;> simp

section Transitions

variable (ctx : DecreeContext) (world : World) (heard : String → Pledge → Prop)

/-- The moves of the ballots other than the entry to the confirm phase, with the
calls that are recorded and the ballots afterwards. -/
inductive BallotMove (d : DecreeState) : List BallotEvent → BallotState → Prop
  | accept {cands : List Ballot} {cand : Ballot}
      (running : d.ballot.currentPhase ≠ .externalize)
      (found : findAcceptPrepared ctx d cands = .ok (some cand)) :
      BallotMove d [.setAcceptPrepared d.ballot cand] (d.ballot.acceptPrepared cand).1
  | confirm {stmt : Pledge} {cb : Option Ballot} {hb : Ballot}
      (found : findConfirmPrepared ctx d stmt = .ok (some (cb, hb))) :
      BallotMove d (.setConfirmPrepared d.ballot cb hb ::
          (d.ballot.confirmPrepared cb hb).1.catchUpEvents hb)
        ((d.ballot.confirmPrepared cb hb).1.catchUp hb)
  | recommit {stmt : Pledge} {cb hb : Ballot} (phase : d.ballot.currentPhase = .confirm)
      (found : findAcceptCommit ctx d stmt = .ok (some (cb, hb))) :
      BallotMove d (.setAcceptCommit d.ballot cb hb ::
          (d.ballot.acceptCommit cb hb).1.catchUpEvents hb)
        ((d.ballot.acceptCommit cb hb).1.catchUp hb)
  | externalize {stmt : Pledge} {cb hb : Ballot}
      (found : findConfirmCommit ctx d stmt = .ok (some (cb, hb))) :
      BallotMove d ((d.ballot.holdCommit cb hb false).catchUpEvents hb)
        { (d.ballot.holdCommit cb hb false).catchUp hb with currentPhase := .externalize }
  | bump {b : Ballot} (running : d.ballot.currentPhase ≠ .externalize)
      (fits : ∀ c, d.ballot.currentBallot ≠ none → d.ballot.cBallot = some c →
        c.value = b.value)
      (forward : ∀ old, d.ballot.currentBallot = some old → old ≤ b) :
      BallotMove d [.updateBallot d.ballot b] (d.ballot.replaceCurrent b)

/-- A statement that has passed the tests of `recvBallot`. -/
structure Admitted (d : DecreeState) (stmt : Statement) (pledge : Pledge) : Prop where
  news : isNews (d.ballots.lookup stmt.nodeID) stmt = .ok true
  valid : validateBallot ctx world d stmt = .ok (.ok pledge)

def Refused (d : DecreeState) (stmt : Statement) : Prop :=
  stmt.index ≠ ctx.index ∨ isNews (d.ballots.lookup stmt.nodeID) stmt = .ok false ∨
    (∃ err, validateBallot ctx world d stmt = .ok (.error err)) ∨
      d.ballot.currentPhase = .externalize

inductive Delivered (d : DecreeState) (stmt : Statement) (assembled : Bool) : DecreeState → Prop
  | refused (reason : Refused ctx world d stmt) : Delivered d stmt assembled d
  | stored {pledge : Pledge} (admitted : Admitted ctx world d stmt pledge) :
      Delivered d stmt assembled (d.storeBallot ctx.nodeID stmt.nodeID pledge assembled)

def entered (d : DecreeState) (cb hb : Ballot) : DecreeState :=
  (d.resetQ ctx.nodeID).moved
    (d.ballot.entryEvents cb hb ++ sentEvents ctx (d.ballot.entry cb hb))
    (d.ballot.entry cb hb) hb.value

inductive BallotTransition : DecreeState → DecreeState → Prop
  | count {d : DecreeState} (ballotMsgCount : Nat) :
      BallotTransition d { d with ballotMsgCount := ballotMsgCount }
  | limit {d : DecreeState} :
      BallotTransition d { d with trace := d.trace ++ [.stepLimit d.ballot] }
  | idle {d : DecreeState} {events : List BallotEvent}
      (move : BallotMove ctx d events d.ballot) (nextValue : String) :
      BallotTransition d (d.moved events d.ballot nextValue)
  | move {d : DecreeState} {events : List BallotEvent} {after : BallotState}
      (move : BallotMove ctx d events after) (inOrder : after.InOrder) (nextValue : String) :
      BallotTransition d (d.moved (events ++ sentEvents ctx after) after nextValue)
  | enter {d d' : DecreeState} {stmt pledge : Pledge} {cb hb : Ballot}
      (waiting : d.ballot.currentPhase = .prepare)
      (found : findAcceptCommit ctx d stmt = .ok (some (cb, hb)))
      (valid : validateConsensusValue ctx world d hb.value = .ok ())
      (inOrder : (d.ballot.entry cb hb).InOrder)
      (built : assembleBallot ctx (d.ballot.entry cb hb) = .ok (some pledge))
      (delivered : (entered ctx d cb hb).ballots.lookup ctx.nodeID = some pledge ∧
          d' = entered ctx d cb hb ∨
        Delivered ctx world (entered ctx d cb hb) (pledge.statement ctx.nodeID ctx.index) true d') :
      BallotTransition d d'
  | store {d : DecreeState} {stmt : Statement} {pledge : Pledge} {assembled : Bool}
      (admitted : Admitted ctx world d stmt pledge)
      (origin : assembled = false ∧ heard stmt.nodeID pledge ∨
        assembled = true ∧ stmt.nodeID = ctx.nodeID ∧ d.ballot.InOrder ∧
          assembleBallot ctx d.ballot = .ok (some pledge)) :
      BallotTransition d (d.storeBallot ctx.nodeID stmt.nodeID pledge assembled)
  | announce {d : DecreeState} (pledge : Pledge) (vouched : pledge.VouchedBy ctx d.ballot) :
      BallotTransition d (d.announce ctx.nodeID ctx.index pledge)
  | resend {d : DecreeState} : BallotTransition d (d.resend ctx.nodeID ctx.index)
  | stopNomination {d : DecreeState} : BallotTransition d { d with nominationStart := false }
  | externalize {d : DecreeState} (c : Ballot)
      (phase : d.ballot.currentPhase = .externalize) (commit : d.ballot.cBallot = some c)
      (first : d.externalizeChan = []) :
      BallotTransition d (d.externalize ctx.index c.value)

end Transitions

/-! What a move leaves alone, and the locks it keeps. -/

section Frames

theorem KeepsCommits.refl (pledge : Option Pledge) : KeepsCommits pledge pledge :=
  fun _ found _ => found

theorem KeepsCommits.trans {first second third : Option Pledge}
    (early : KeepsCommits first second) (late : KeepsCommits second third) :
    KeepsCommits first third :=
  fun pledge found commits => early pledge (late pledge found commits) commits

theorem MoveFrame.trans {first second third : DecreeState} (early : MoveFrame first second)
    (late : MoveFrame second third) : MoveFrame first third where
  statementChan := late.statementChan.trans early.statementChan
  externalizeChan := late.externalizeChan.trans early.externalizeChan
  quorum := late.quorum.trans early.quorum
  ballots nodeID := (early.ballots nodeID).trans (late.ballots nodeID)
  latestBallot := early.latestBallot.trans late.latestBallot

theorem MoveFrame.of_private {d d' : DecreeState} (statementChan : d'.statementChan = d.statementChan)
    (externalizeChan : d'.externalizeChan = d.externalizeChan) (quorum : d'.quorum = d.quorum)
    (ballots : d'.ballots = d.ballots) (latestBallot : d'.latestBallot = d.latestBallot) :
    MoveFrame d d' where
  statementChan := statementChan
  externalizeChan := externalizeChan
  quorum := quorum
  ballots nodeID := by
    rw [ballots]
    exact KeepsCommits.refl _
  latestBallot := by
    rw [latestBallot]
    exact KeepsCommits.refl _

theorem MoveFrame.moved (d : DecreeState) (events : List BallotEvent) (after : BallotState)
    (nextValue : String) : MoveFrame d (d.moved events after nextValue) :=
  .of_private rfl rfl rfl rfl rfl

theorem Pledge.eq_of_clear_commits {q : Ballot} {pledge : Pledge}
    (commits : (pledge.clear q).commits ≠ none) : pledge.clear q = pledge := by
  cases pledge with
  | prepare message => exact absurd rfl commits
  | confirm B PC LC HC quorumHash => rfl
  | externalize B HC quorumHash => rfl

theorem MoveFrame.resetQ (nodeID : String) (d : DecreeState) : MoveFrame d (d.resetQ nodeID) := by
  unfold DecreeState.resetQ
  cases d.ballot.qBallot with
  | none => exact .of_private rfl rfl rfl rfl rfl
  | some q =>
    refine ⟨⟨rfl, rfl⟩, rfl, ?_, ?_⟩
    · intro other pledge found commits
      cases assembled : d.ownIsAssembled with
      | false => simpa [assembled] using found
      | true =>
        cases own : d.ballots.lookup nodeID with
        | none => simpa [assembled, own] using found
        | some ownPledge =>
          simp only [assembled, own] at found
          by_cases isOwn : other = nodeID
          · subst isOwn
            rw [AList.lookup_insert, Option.some.injEq] at found
            subst found
            rw [own, Pledge.eq_of_clear_commits commits]
          · rwa [AList.lookup_insert_ne isOwn] at found
    · intro pledge found commits
      obtain ⟨latest, latestCase, rfl⟩ := Option.map_eq_some_iff.mp found
      rw [latestCase, Pledge.eq_of_clear_commits commits]

theorem Pledge.body_injective : Function.Injective Pledge.body := by
  intro first second same
  cases first <;> cases second <;> simp_all [Pledge.body]

theorem Pledge.eq_of_statement {first second : Pledge} {nodeID nodeID' : String}
    {index index' : Nat} (same : first.statement nodeID index = second.statement nodeID' index') :
    first = second :=
  Pledge.body_injective (Option.some.inj (congrArg Statement.stmt same))

theorem vouchedBy_assembleBallot {ctx : DecreeContext} {d : BallotState} {pledge : Pledge}
    (inOrder : d.InOrder) (assembled : assembleBallot ctx d = .ok (some pledge)) :
    pledge.VouchedBy ctx d := by
  by_cases waiting : d.currentPhase = .prepare
  · obtain ⟨phase, current, p, q, h, c, shared⟩ := d
    obtain rfl : phase = .prepare := waiting
    simp only [assembleBallot, Except.ok.injEq, Option.map_eq_some_iff] at assembled
    obtain ⟨B, -, rfl⟩ := assembled
    trivial
  · obtain ⟨locked, lockCase, b, h, c, current, high, commit, cValue, hValue, bValue, -⟩ :=
      inOrder.locked waiting
    obtain ⟨phase, currentBallot, p, q, hBallot, cBallot, shared⟩ := d
    subst current high commit
    cases phase with
    | prepare => exact absurd rfl waiting
    | confirm =>
      cases p with
      | none => simp [assembleBallot] at assembled
      | some p =>
        simp only [assembleBallot, Option.map_some, Except.ok.injEq, Option.some.injEq]
          at assembled
        rw [← assembled]
        exact ⟨by rw [lockCase, bValue], rfl⟩
    | externalize =>
      simp only [assembleBallot, Option.map_some, Except.ok.injEq, Option.some.injEq]
        at assembled
      rw [← assembled]
      exact ⟨by rw [lockCase, cValue], rfl⟩

end Frames

section Moves

variable {ctx : DecreeContext} {d d' : DecreeState}

theorem phase_cases (running : d.ballot.currentPhase ≠ .externalize) :
    d.ballot.currentPhase = .prepare ∨ d.ballot.currentPhase = .confirm := by
  cases phase : d.ballot.currentPhase with
  | prepare => exact .inl rfl
  | confirm => exact .inr rfl
  | externalize => exact absurd phase running

theorem Move.of_prepare (frame : MoveFrame d d') (waiting : d.ballot.currentPhase = .prepare)
    (running : d'.ballot.currentPhase ≠ .externalize) : Move ctx d d' where
  toMoveFrame := frame
  running := by simp [waiting]
  forward := by simp [waiting, BallotPhase.rank]
  lock value locked := by simp [lock_prepare waiting] at locked
  ratified externalized := absurd externalized running

theorem Move.of_confirm (frame : MoveFrame d d') (phase : d.ballot.currentPhase = .confirm)
    (samePhase : d'.ballot.currentPhase = .confirm) (lock : d'.ballot.lock = d.ballot.lock) :
    Move ctx d d' where
  toMoveFrame := frame
  running := by simp [phase]
  forward := by simp [phase, samePhase]
  lock value locked := lock.trans locked
  ratified externalized := by simp [samePhase] at externalized

theorem Move.of_same (frame : MoveFrame d d') (running : d.ballot.currentPhase ≠ .externalize)
    (samePhase : d'.ballot.currentPhase = d.ballot.currentPhase)
    (lock : d'.ballot.lock = d.ballot.lock) : Move ctx d d' := by
  rcases phase_cases running with waiting | phase
  · exact .of_prepare frame waiting (samePhase ▸ running)
  · exact .of_confirm frame phase (samePhase.trans phase) lock

/-- Bumping the current ballot keeps the lock: the new ballot has passed the test
against c, and h has the value of c. -/
theorem lock_bump {b : Ballot} (sound : SoundDecree ctx d)
    (running : d.ballot.currentPhase ≠ .externalize)
    (fits : ∀ c, d.ballot.currentBallot ≠ none → d.ballot.cBallot = some c → c.value = b.value) :
    (d.ballot.replaceCurrent b).lock = d.ballot.lock := by
  rcases phase_cases running with waiting | phase
  · rw [lock_prepare waiting, lock_prepare (by simpa using waiting)]
  · obtain ⟨value, -, current, h, c, currentCase, high, commit, cValue, hValue, -⟩ :=
      (sound.inOrder (by simp [phase])).locked (by simp [phase])
    apply BallotState.lock_replaceCurrent
    intro other found
    rw [high, Option.some.injEq] at found
    rw [← found, hValue, ← cValue, fits c (by simp [currentCase]) commit]

theorem lock_recommit {stmt : Pledge} {cb hb : Ballot} (sound : SoundDecree ctx d)
    (phase : d.ballot.currentPhase = .confirm)
    (found : findAcceptCommit ctx d stmt = .ok (some (cb, hb))) :
    ((d.ballot.acceptCommit cb hb).1.catchUp hb).lock = d.ballot.lock := by
  obtain ⟨-, sameValue, -, -, compatible⟩ := findAcceptCommit_spec found
  obtain ⟨h, high, hValue, -⟩ := compatible phase
  obtain ⟨value, lock, -, h', -, -, high', -, -, hValue', -⟩ :=
    (sound.inOrder (by simp [phase])).locked (by simp [phase])
  cases high.symm.trans high'
  obtain ⟨shared, accepted⟩ := d.ballot.acceptCommit_eq cb hb
  obtain ⟨b, caughtUp, -⟩ :=
    BallotState.catchUp_high (d.ballot.hBallot_acceptCommit cb hb)
  rw [caughtUp, accepted, lock_eq (by simp [BallotState.holdCommit, phase]), lock, ← hValue',
    ← hValue, ← sameValue]
  rfl

theorem BallotMove.move {events : List BallotEvent} {after : BallotState}
    (sound : SoundDecree ctx d) (change : BallotMove ctx d events after)
    (frame : MoveFrame d d') (reached : d'.ballot = after) : Move ctx d d' := by
  cases change with
  | accept running found =>
    refine .of_same frame running (by simp [reached]) ?_
    rw [reached, d.ballot.lock_acceptPrepared]
  | confirm found =>
    have waiting := (findConfirmPrepared_spec found).1
    exact .of_prepare frame waiting (by simp [reached, waiting])
  | recommit phase found =>
    refine .of_confirm frame phase (by simp [reached, phase]) ?_
    rw [reached, lock_recommit sound phase found]
  | @externalize stmt cb hb found =>
    obtain ⟨phase, -, -, -, ⟨c, commit, cValue⟩, ballot, l, r, ratified, sameBallot⟩ :=
      findConfirmCommit_spec found
    have lock : d.ballot.lock = some cb.value := by
      simp [lock_eq (d := d.ballot) (by simp [phase]), commit, cValue]
    have newLock : d'.ballot.lock = some cb.value := by
      have high : (d.ballot.holdCommit cb hb false).hBallot = some hb := rfl
      obtain ⟨b, caughtUp, -⟩ := BallotState.catchUp_high high
      rw [reached, caughtUp]
      rfl
    refine ⟨frame, by simp [phase], by simp [phase, reached, BallotPhase.rank], ?_, ?_⟩
    · intro value locked
      rw [newLock, ← lock, locked]
    · intro _
      exact ⟨ballot, l, r, ratified, by rw [newLock, sameBallot]⟩
  | bump running fits forward =>
    refine .of_same frame running (by simp [reached]) ?_
    rw [reached, lock_bump sound running fits]

end Moves

section Progress

variable {ctx : DecreeContext} {world : World} {heard : String → Pledge → Prop}
  {d d' : DecreeState}

theorem Progress.of_private (ballot : d'.ballot = d.ballot) (ballots : d'.ballots = d.ballots)
    (latestBallot : d'.latestBallot = d.latestBallot)
    (statementChan : d'.statementChan = d.statementChan)
    (externalizeChan : d'.externalizeChan = d.externalizeChan) (quorum : d'.quorum = d.quorum) :
    Progress ctx heard d d' :=
  .single (.aside ⟨ballot, ballots, latestBallot, externalizeChan,
    ⟨[], by simp [statementChan], by simp⟩, .inl quorum⟩)

theorem frame_entered (cb hb : Ballot) : MoveFrame d (entered ctx d cb hb) :=
  (MoveFrame.resetQ ctx.nodeID d).trans (.moved _ _ _ _)

theorem phase_entry (d : BallotState) (cb hb : Ballot) :
    (d.entry cb hb).currentPhase = .confirm := by
  obtain ⟨current, shared, shape⟩ := d.entry_eq cb hb
  rw [shape]

/-- The entry to the confirm phase is a step, whatever becomes of the statement. -/
theorem step_entered {cb hb : Ballot} (waiting : d.ballot.currentPhase = .prepare)
    (inOrder : (d.ballot.entry cb hb).InOrder) : DecreeStep ctx heard d (entered ctx d cb hb) := by
  refine .move (.of_prepare (frame_entered cb hb) waiting ?_) inOrder
  rw [entered, DecreeState.moved, phase_entry]
  simp

theorem BallotTransition.progress (sound : SoundDecree ctx d)
    (transition : BallotTransition ctx world heard d d') : Progress ctx heard d d' := by
  cases transition with
  | count ballotMsgCount => exact .of_private rfl rfl rfl rfl rfl rfl
  | limit => exact .of_private rfl rfl rfl rfl rfl rfl
  | idle move nextValue => exact .of_private rfl rfl rfl rfl rfl rfl
  | move move inOrder nextValue =>
    exact .single (.move (move.move sound (.moved _ _ _ _) rfl) inOrder)
  | @enter _ stmt pledge cb hb waiting found valid inOrder built delivered =>
    have step : DecreeStep ctx heard d (entered ctx d cb hb) := step_entered waiting inOrder
    rcases delivered with ⟨-, rfl⟩ | delivered
    · exact .single step
    · cases delivered with
      | refused reason => exact .single step
      | @stored received admitted =>
        refine (ReflTransGen.single step).tail (.store _ _ _ (.inr ⟨rfl, ?_⟩))
        obtain rfl : pledge = received :=
          Pledge.eq_of_statement (validateBallot_cases admitted.valid).2.1
        exact vouchedBy_assembleBallot inOrder built
  | store admitted origin =>
    refine .single (.store _ _ _ ?_)
    rcases origin with ⟨-, known⟩ | ⟨-, own, inOrder, built⟩
    · exact .inl known
    · exact .inr ⟨own, vouchedBy_assembleBallot inOrder built⟩
  | announce pledge vouched => exact .single (.announce pledge vouched)
  | resend => exact .single .resend
  | stopNomination => exact .of_private rfl rfl rfl rfl rfl rfl
  | externalize c phase commit first =>
    exact .single (.externalize c phase commit first)

end Progress

end Ultiledger
