import Ultiledger.BallotOrder
import Ultiledger.Nomination

/-!
# The steps of a decree

What a decree can do to its ballots, its stored statements and its two channels,
whatever call it is in.  A call that is not aborted is a sequence of such steps; an
aborted one has put on the channels what a sequence of steps puts there.
-/

namespace Ultiledger

open AbortingProgram Program Relation

def Pledge.commits : Pledge → Option String
  | .prepare _ => none
  | .confirm B _ _ _ _ => some B.value
  | .externalize B _ _ => some B.value

/-- The decree is locked on the value that the statement commits to, and the statement
names its own quorum or comes from the externalize phase. -/
def Pledge.VouchedBy (pledge : Pledge) (ctx : DecreeContext) (d : BallotState) : Prop :=
  match pledge with
  | .prepare _ => True
  | .confirm B _ _ _ quorumHash => d.lock = some B.value ∧ quorumHash = ctx.quorumHash
  | .externalize B _ _ => d.lock = some B.value ∧ d.currentPhase = .externalize

def KeepsCommits (before after : Option Pledge) : Prop :=
  ∀ pledge, after = some pledge → pledge.commits ≠ none → before = some pledge

structure SameOutputs (d d' : DecreeState) : Prop where
  statementChan : d'.statementChan = d.statementChan
  externalizeChan : d'.externalizeChan = d.externalizeChan

structure MoveFrame (d d' : DecreeState) : Prop extends SameOutputs d d' where
  quorum : d'.quorum = d.quorum
  ballots : ∀ nodeID, KeepsCommits (d.ballots.lookup nodeID) (d'.ballots.lookup nodeID)
  latestBallot : KeepsCommits d.latestBallot d'.latestBallot

/-- A move of the ballots.  The externalize phase is entered only when the
commit of the locked value has been ratified. -/
structure Move (ctx : DecreeContext) (d d' : DecreeState) : Prop extends MoveFrame d d' where
  running : d.ballot.currentPhase ≠ .externalize
  forward : d.ballot.currentPhase.rank ≤ d'.ballot.currentPhase.rank
  lock : ∀ value, d.ballot.lock = some value → d'.ballot.lock = some value
  ratified : d'.ballot.currentPhase = .externalize → ∃ ballot l r,
    ratifies ctx d (commitAcceptFilter ballot l r) = .ok true ∧
      d'.ballot.lock = some ballot.value

/-- What a step of the nomination protocol leaves alone.  It may broadcast
nominations and put the nested quorums in another order. -/
structure Aside (d d' : DecreeState) : Prop where
  ballot : d'.ballot = d.ballot
  ballots : d'.ballots = d.ballots
  latestBallot : d'.latestBallot = d.latestBallot
  externalizeChan : d'.externalizeChan = d.externalizeChan
  statementChan : ∃ sent, d'.statementChan = d.statementChan ++ sent ∧
    ∀ stmt ∈ sent, stmt.statementType = .nominate
  quorum : d'.quorum = d.quorum ∨
    ∃ world : World, d'.quorum = settleQuorum world.arrange d.quorum

section Steps

variable (ctx : DecreeContext) (heard : String → Pledge → Prop)

/-- The steps of a decree.  A stored statement was heard from outside or is the
decree's own. -/
inductive DecreeStep : DecreeState → DecreeState → Prop
  | aside {d d' : DecreeState} (aside : Aside d d') : DecreeStep d d'
  | store {d : DecreeState} (nodeID : String) (pledge : Pledge) (assembled : Bool)
      (known : heard nodeID pledge ∨ nodeID = ctx.nodeID ∧ pledge.VouchedBy ctx d.ballot) :
      DecreeStep d (d.storeBallot ctx.nodeID nodeID pledge assembled)
  | announce {d : DecreeState} (pledge : Pledge) (vouched : pledge.VouchedBy ctx d.ballot) :
      DecreeStep d (d.announce ctx.nodeID ctx.index pledge)
  | resend {d : DecreeState} : DecreeStep d (d.resend ctx.nodeID ctx.index)
  | move {d d' : DecreeState} (move : Move ctx d d') (inOrder : d'.ballot.InOrder) :
      DecreeStep d d'
  | externalize {d : DecreeState} (c : Ballot)
      (phase : d.ballot.currentPhase = .externalize) (commit : d.ballot.cBallot = some c)
      (first : d.externalizeChan = []) : DecreeStep d (d.externalize ctx.index c.value)

def Progress : DecreeState → DecreeState → Prop := ReflTransGen (DecreeStep ctx heard)

def Stopped (d d' : DecreeState) : Prop :=
  ∃ last, Progress ctx heard d last ∧ SameOutputs last d'

/-- Outside the prepare phase the ballots are in order, and what has been
externalized is the locked value. -/
structure SoundDecree (d : DecreeState) : Prop where
  inOrder : d.ballot.currentPhase ≠ .prepare → d.ballot.InOrder
  externalized : d.externalizeChan ≠ [] → d.ballot.currentPhase = .externalize ∧
    ∃ value, d.ballot.lock = some value ∧ d.externalizeChan = [⟨ctx.index, value⟩]

end Steps

section StepFacts

variable {ctx : DecreeContext} {heard : String → Pledge → Prop} {d d' : DecreeState}

section

variable (step : DecreeStep ctx heard d d')

include step

theorem DecreeStep.ballot_cases : d'.ballot = d.ballot ∨ Move ctx d d' ∧ d'.ballot.InOrder := by
  cases step with
  | aside aside => exact .inl aside.ballot
  | store nodeID pledge assembled known => exact .inl rfl
  | announce pledge vouched => exact .inl rfl
  | resend => exact .inl rfl
  | move move inOrder => exact .inr ⟨move, inOrder⟩
  | externalize c phase commit first => exact .inl rfl

theorem DecreeStep.forward : d.ballot.currentPhase.rank ≤ d'.ballot.currentPhase.rank := by
  rcases step.ballot_cases with same | ⟨move, -⟩
  · rw [same]
  · exact move.forward

theorem DecreeStep.lock {value : String} (locked : d.ballot.lock = some value) :
    d'.ballot.lock = some value := by
  rcases step.ballot_cases with same | ⟨move, -⟩
  · rw [same]
    exact locked
  · exact move.lock value locked

theorem DecreeStep.frozen (phase : d.ballot.currentPhase = .externalize) :
    d'.ballot = d.ballot := by
  rcases step.ballot_cases with same | ⟨move, -⟩
  · exact same
  · exact absurd phase move.running

theorem DecreeStep.externalizeChan : d'.externalizeChan = d.externalizeChan ∨
      d.externalizeChan = [] ∧ d.ballot.currentPhase = .externalize ∧
        d'.ballot = d.ballot ∧ ∃ c, d.ballot.cBallot = some c ∧
          d'.externalizeChan = [⟨ctx.index, c.value⟩] := by
  cases step with
  | aside aside => exact .inl aside.externalizeChan
  | store nodeID pledge assembled known => exact .inl rfl
  | announce pledge vouched => exact .inl rfl
  | resend => exact .inl rfl
  | move move inOrder => exact .inl move.externalizeChan
  | externalize c phase commit first =>
    exact .inr ⟨first, phase, rfl, c, commit, by simp [DecreeState.externalize, first]⟩

end

theorem SoundDecree.step (sound : SoundDecree ctx d) (step : DecreeStep ctx heard d d') :
    SoundDecree ctx d' := by
  constructor
  · intro moved
    rcases step.ballot_cases with same | ⟨-, inOrder⟩
    · rw [same] at moved ⊢
      exact sound.inOrder moved
    · exact inOrder
  · intro sent
    rcases step.externalizeChan with same | ⟨-, phase, sameBallot, c, commit, now⟩
    · rw [same] at sent ⊢
      obtain ⟨phase, value, locked, single⟩ := sound.externalized sent
      rw [step.frozen phase]
      exact ⟨phase, value, locked, single⟩
    · rw [sameBallot]
      exact ⟨phase, c.value, by simp [BallotState.lock, phase, commit], now⟩

theorem SoundDecree.progress (sound : SoundDecree ctx d) (run : Progress ctx heard d d') :
    SoundDecree ctx d' := by
  induction run with
  | refl => exact sound
  | tail _ step ih => exact ih.step step

theorem Progress.forward (run : Progress ctx heard d d') :
    d.ballot.currentPhase.rank ≤ d'.ballot.currentPhase.rank := by
  induction run with
  | refl => exact le_rfl
  | tail _ step ih => exact ih.trans step.forward

theorem Progress.lock (run : Progress ctx heard d d') {value : String}
    (locked : d.ballot.lock = some value) : d'.ballot.lock = some value := by
  induction run with
  | refl => exact locked
  | tail _ step ih => exact step.lock ih

theorem Progress.frozen (run : Progress ctx heard d d')
    (phase : d.ballot.currentPhase = .externalize) : d'.ballot = d.ballot := by
  induction run with
  | refl => rfl
  | tail _ step ih => rw [step.frozen (by rw [ih]; exact phase), ih]

theorem Progress.externalizeChan (run : Progress ctx heard d d')
    (sent : d.externalizeChan ≠ []) : d'.externalizeChan = d.externalizeChan := by
  induction run with
  | refl => rfl
  | tail _ step ih =>
    rcases step.externalizeChan with same | ⟨first, -⟩
    · rw [same, ih]
    · exact absurd (ih.symm.trans first) sent

theorem decreeJourney (ctx : DecreeContext) (heard : String → Pledge → Prop) :
    Journey (SoundDecree ctx) (Progress ctx heard) (Stopped ctx heard) where
  refl d := .refl
  trans _ _ _ first second := ReflTransGen.trans first second
  keeps _ _ sound run := sound.progress run
  halt d := ⟨d, .refl, rfl, rfl⟩
  resume _ _ _ run stopped := by
    obtain ⟨last, further, same⟩ := stopped
    exact ⟨last, ReflTransGen.trans run further, same⟩

end StepFacts

end Ultiledger
