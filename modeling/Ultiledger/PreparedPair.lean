import Ultiledger.BallotHistory

/-! # The two highest prepared ballots -/

namespace Ultiledger

open AbortingProgram Program EventHistory

/-- The ballot that a call of `setAcceptPrepared` is about. -/
def BallotEvent.accepted : BallotEvent → Option Ballot
  | .setAcceptPrepared _ b => some b
  | _ => none

def acceptedBallots (trace : List BallotEvent) : List Ballot :=
  trace.filterMap BallotEvent.accepted

/-- p is the greatest of the accepted ballots and q the greatest of those whose value
is not the value of p; each is nil when there is none. -/
structure HighestPair (d : BallotState) (accepted : List Ballot) : Prop where
  pNone : d.pBallot = none ↔ accepted = []
  highest : ∀ p, d.pBallot = some p → IsGreatest {b | b ∈ accepted} p
  qNone : d.qBallot = none ↔ ∀ p, d.pBallot = some p → ∀ b ∈ accepted, b.value = p.value
  second : ∀ p q, d.pBallot = some p → d.qBallot = some q →
    IsGreatest {b | b ∈ accepted ∧ b.value ≠ p.value} q

/-- The tests by which `acceptPrepared` skips a candidate in the prepare phase. -/
def BallotState.skips (d : BallotState) (cand : Ballot) : Bool :=
  d.qBallot.isSome && (compareBallots (some cand) d.qBallot).isLE ||
    d.pBallot.isSome && lessAndCompatibleBallots (some cand) d.pBallot

/-- The ballots after candidates that are not skipped have been accepted, the last one
last. -/
inductive AcceptsInTurn (start : BallotState) : List Ballot → BallotState → Prop
  | nil : AcceptsInTurn start [] start
  | next {accepted : List Ballot} {d : BallotState} {cand : Ballot}
      (earlier : AcceptsInTurn start accepted d) (tested : d.skips cand = false) :
      AcceptsInTurn start (accepted ++ [cand]) (d.setAcceptPrepared cand).1

section Pairs

variable {d : BallotState} {accepted : List Ballot} {b : Ballot}

theorem HighestPair.congr {d' : BallotState} (pair : HighestPair d accepted)
    (sameP : d'.pBallot = d.pBallot) (sameQ : d'.qBallot = d.qBallot) :
    HighestPair d' accepted := by
  obtain ⟨pNone, highest, qNone, second⟩ := pair
  rw [← sameP] at pNone
  simp only [← sameP, ← sameQ] at highest qNone second
  exact ⟨pNone, highest, qNone, second⟩

theorem skips_eq_false : d.skips b = false ↔
    (∀ q, d.qBallot = some q → q < b) ∧
      ∀ p, d.pBallot = some p → ¬ (b ≤ p ∧ b.value = p.value) := by
  rw [BallotState.skips, Bool.or_eq_false_iff]
  refine and_congr ?_ ?_
  · cases d.qBallot with
    | none => simp
    | some q => simp [compareBallots_some, compare_gt_iff_gt]
  · cases d.pBallot with
    | none => simp
    | some p => simp [Bool.eq_false_iff, lessAndCompatibleBallots_some]

section

variable (pair : HighestPair d accepted) {p : Ballot}

include pair

theorem HighestPair.first (none : d.pBallot = none) :
    HighestPair { d with pBallot := some b } (accepted ++ [b]) := by
  obtain rfl := pair.pNone.mp none
  have qNone : d.qBallot = Option.none := pair.qNone.mpr (by simp [none])
  refine ⟨by simp, ?_, by simp [qNone], by simp [qNone]⟩
  rintro p same
  cases same
  simp

theorem HighestPair.below (pCase : d.pBallot = some p) (below : b < p)
    (other : b.value ≠ p.value) (aboveQ : ∀ q, d.qBallot = some q → q < b) :
    HighestPair { d with qBallot := some b } (accepted ++ [b]) := by
  obtain ⟨pMem, pUpper⟩ := pair.highest p pCase
  refine ⟨by simp [pCase], ?_, ?_, ?_⟩
  · intro p' same
    cases pCase.symm.trans same
    refine ⟨List.mem_append_left _ pMem, ?_⟩
    intro x xMem
    rcases List.mem_append.mp xMem with earlier | last
    · exact pUpper earlier
    · rw [List.mem_singleton.mp last]
      exact below.le
  · simp only [reduceCtorEq, false_iff]
    intro uniform
    exact other (uniform p pCase b (by simp))
  · intro p' q sameP sameQ
    cases pCase.symm.trans sameP
    cases sameQ
    refine ⟨⟨by simp, other⟩, ?_⟩
    rintro x ⟨xMem, xOther⟩
    rcases List.mem_append.mp xMem with earlier | last
    · cases qCase : d.qBallot with
      | none => exact absurd (pair.qNone.mp qCase p pCase x earlier) xOther
      | some q => exact ((pair.second p q pCase qCase).2 ⟨earlier, xOther⟩).trans (aboveQ q qCase).le
    · rw [List.mem_singleton.mp last]

theorem HighestPair.isGreatest_above (pCase : d.pBallot = some p) (above : p < b) :
    IsGreatest {x | x ∈ accepted ++ [b]} b := by
  refine ⟨by simp, ?_⟩
  intro x xMem
  rcases List.mem_append.mp xMem with earlier | last
  · exact ((pair.highest p pCase).2 earlier).trans above.le
  · rw [List.mem_singleton.mp last]

theorem HighestPair.aboveSame (pCase : d.pBallot = some p) (above : p < b)
    (same : b.value = p.value) : HighestPair { d with pBallot := some b } (accepted ++ [b]) := by
  have others : {x | x ∈ accepted ++ [b] ∧ x.value ≠ b.value} =
      {x | x ∈ accepted ∧ x.value ≠ p.value} := by
    ext x
    simp only [List.mem_append, List.mem_singleton, Set.mem_ofPred_eq, same]
    constructor
    · rintro ⟨earlier | rfl, other⟩
      · exact ⟨earlier, other⟩
      · exact absurd same other
    · exact fun ⟨earlier, other⟩ => ⟨.inl earlier, other⟩
  refine ⟨by simp, ?_, ?_, ?_⟩
  · intro p' sameP
    cases sameP
    exact pair.isGreatest_above pCase above
  · simp only [pair.qNone, pCase, Option.some.injEq, forall_eq', List.mem_append,
      List.mem_singleton, or_imp, forall_and, forall_eq, and_true, same]
  · intro p' q sameP qCase
    cases sameP
    rw [others]
    exact pair.second p q pCase qCase

theorem HighestPair.aboveOther (pCase : d.pBallot = some p) (above : p < b)
    (other : b.value ≠ p.value) :
    HighestPair { d with pBallot := some b, qBallot := some p } (accepted ++ [b]) := by
  obtain ⟨pMem, pUpper⟩ := pair.highest p pCase
  refine ⟨by simp, ?_, ?_, ?_⟩
  · intro p' sameP
    cases sameP
    exact pair.isGreatest_above pCase above
  · simp only [reduceCtorEq, false_iff]
    intro uniform
    exact other (uniform b rfl p (List.mem_append_left _ pMem)).symm
  · intro p' q sameP sameQ
    cases sameP
    cases sameQ
    refine ⟨⟨List.mem_append_left _ pMem, other.symm⟩, ?_⟩
    rintro x ⟨xMem, xOther⟩
    rcases List.mem_append.mp xMem with earlier | last
    · exact pUpper earlier
    · exact absurd (congrArg Ballot.value (List.mem_singleton.mp last)) xOther

theorem HighestPair.setAcceptPrepared (tested : d.skips b = false) :
    HighestPair (d.setAcceptPrepared b).1 (accepted ++ [b]) := by
  obtain ⟨aboveQ, uncovered⟩ := skips_eq_false.mp tested
  unfold BallotState.setAcceptPrepared
  cases pCase : d.pBallot with
  | none => exact pair.first pCase
  | some p =>
    simp only [compareBallots_some]
    rcases lt_trichotomy b p with below | same | above
    · have other : b.value ≠ p.value := fun same => uncovered p pCase ⟨below.le, same⟩
      have becomesQ : d.qBallot.isNone ∨ (compareBallots (some b) d.qBallot = .gt ∧
          ¬ compatibleBallots (some b) (some p)) := by
        cases qCase : d.qBallot with
        | none => simp
        | some q => simp [compareBallots_some, compare_gt_iff_gt, aboveQ q qCase, other]
      simp only [compare_lt_iff_lt.mpr below, if_pos becomesQ]
      exact (pair.below pCase below other aboveQ).congr pCase.symm rfl
    · exact absurd ⟨same.le, congrArg Ballot.value same⟩ (uncovered p pCase)
    · simp only [compare_gt_iff_gt.mpr above]
      split_ifs with compatible
      · exact pair.aboveSame pCase above (by simpa using compatible)
      · exact pair.aboveOther pCase above (by simpa using compatible)

end

theorem highestPair_of_acceptsInTurn {start : BallotState} (pair : HighestPair start [])
    (run : AcceptsInTurn start accepted d) : HighestPair d accepted := by
  induction run with
  | nil => exact pair
  | next earlier tested ih => exact ih.setAcceptPrepared tested

theorem HighestPair.acceptPrepared (pair : HighestPair d accepted) (tested : d.skips b = false) :
    HighestPair (d.acceptPrepared b).1 (accepted ++ [b]) := by
  have set := pair.setAcceptPrepared tested
  unfold BallotState.acceptPrepared
  dsimp only
  split_ifs
  · exact set.congr rfl rfl
  · exact set

end Pairs

/-- A later state, if it still waits, has the p and q of the earlier one, which waits too. -/
def SamePair (d d' : BallotState) : Prop :=
  d'.currentPhase = .prepare →
    d.currentPhase = .prepare ∧ d'.pBallot = d.pBallot ∧ d'.qBallot = d.qBallot

section Moves

variable {ctx : DecreeContext} {d : DecreeState} {b : BallotState}

theorem samePair_replaceCurrent (next : Ballot) : SamePair b (b.replaceCurrent next) := by
  intro waiting
  rw [b.currentPhase_replaceCurrent] at waiting
  refine ⟨waiting, ?_⟩
  unfold BallotState.replaceCurrent
  dsimp only
  split_ifs <;> exact ⟨rfl, rfl⟩

theorem samePair_catchUp (hb : Ballot) : SamePair b (b.catchUp hb) := by
  unfold BallotState.catchUp
  split_ifs
  · exact samePair_replaceCurrent hb
  · exact fun waiting => ⟨waiting, rfl, rfl⟩

theorem samePair_confirmPrepared (cb : Option Ballot) (hb : Ballot) :
    SamePair b (b.confirmPrepared cb hb).1 := by
  have raised : SamePair b (b.raiseHigh hb).1 := by
    rcases b.raiseHigh_cases hb with high | high <;> rw [high] <;>
      exact fun waiting => ⟨waiting, rfl, rfl⟩
  unfold BallotState.confirmPrepared
  dsimp only
  split_ifs
  · rcases (b.raiseHigh hb).1.lowerCommit_cases cb
      ((b.raiseHigh hb).2 && decide (cb = some hb)) with low | low <;> rw [low] <;> exact raised
  · exact fun waiting => ⟨waiting, rfl, rfl⟩

variable {events : List BallotEvent} {first middle after second : BallotState}

theorem SamePair.trans {third : BallotState} (early : SamePair first second)
    (late : SamePair second third) : SamePair first third := by
  intro waiting
  obtain ⟨secondWaits, lateP, lateQ⟩ := late waiting
  obtain ⟨firstWaits, earlyP, earlyQ⟩ := early secondWaits
  exact ⟨firstWaits, lateP.trans earlyP, lateQ.trans earlyQ⟩

theorem SamePair.of_moved (moved : second.currentPhase ≠ .prepare) : SamePair first second :=
  fun waiting => absurd waiting moved

def KeepsPair (d : BallotState) (events : List BallotEvent) : Prop :=
  ∀ event ∈ events, event.accepted = none ∧ SamePair d event.before

theorem keepsPair_catchUpEvents (same : SamePair b middle) (hb : Ballot) :
    KeepsPair b (middle.catchUpEvents hb) := by
  intro event mem
  rw [BallotState.eq_of_mem_catchUpEvents mem]
  exact ⟨rfl, same⟩

theorem keepsPair_sentEvents (same : SamePair b middle) : KeepsPair b (sentEvents ctx middle) := by
  intro event mem
  obtain ⟨stmt, -, rfl⟩ := mem_sentEvents.mp mem
  exact ⟨rfl, same⟩

theorem BallotMove.keepsPair (move : BallotMove ctx d events after) :
    (∃ cands cand, findAcceptPrepared ctx d cands = .ok (some cand) ∧
      events = [.setAcceptPrepared d.ballot cand] ∧ after = (d.ballot.acceptPrepared cand).1) ∨
    KeepsPair d.ballot events ∧ SamePair d.ballot after := by
  have refl : SamePair d.ballot d.ballot := fun waiting => ⟨waiting, rfl, rfl⟩
  cases move with
  | accept running found => exact .inl ⟨_, _, found, rfl, rfl⟩
  | @confirm stmt cb hb found =>
    have confirmed : SamePair d.ballot (d.ballot.confirmPrepared cb hb).1 :=
      samePair_confirmPrepared cb hb
    refine .inr ⟨?_, confirmed.trans (samePair_catchUp hb)⟩
    intro event mem
    rcases List.mem_cons.mp mem with rfl | later
    · exact ⟨rfl, refl⟩
    · exact keepsPair_catchUpEvents confirmed hb event later
  | @recommit stmt cb hb phase found =>
    have accepted : SamePair d.ballot (d.ballot.acceptCommit cb hb).1 :=
      .of_moved (by simp [phase])
    refine .inr ⟨?_, .of_moved (by simp [phase])⟩
    intro event mem
    rcases List.mem_cons.mp mem with rfl | later
    · exact ⟨rfl, refl⟩
    · exact keepsPair_catchUpEvents accepted hb event later
  | @externalize stmt cb hb found =>
    have phase := (findConfirmCommit_spec found).1
    have held : SamePair d.ballot (d.ballot.holdCommit cb hb false) :=
      .of_moved (by simp [BallotState.holdCommit, phase])
    exact .inr ⟨keepsPair_catchUpEvents held hb, .of_moved (by simp)⟩
  | @bump next running fits forward =>
    refine .inr ⟨?_, samePair_replaceCurrent next⟩
    simpa [KeepsPair, BallotEvent.accepted, BallotEvent.before] using refl

theorem keepsPair_entry (cb hb : Ballot) :
    KeepsPair b (b.entryEvents cb hb ++ sentEvents ctx (b.entry cb hb)) := by
  obtain ⟨later, events, confirming⟩ := @entry_events ctx b cb hb
  rw [events]
  intro event mem
  rcases List.mem_cons.mp mem with rfl | laterMem
  · exact ⟨rfl, fun waiting => ⟨waiting, rfl, rfl⟩⟩
  · obtain ⟨phase, kind⟩ := confirming event laterMem
    refine ⟨?_, .of_moved (by simp [phase])⟩
    rcases kind with ⟨next, same⟩ | ⟨stmt, same⟩ <;> rw [same] <;> rfl

theorem BallotChange.keepsPair (change : BallotChange ctx d events after) :
    (∃ cands cand rest, findAcceptPrepared ctx d cands = .ok (some cand) ∧
      events = .setAcceptPrepared d.ballot cand :: rest ∧
        after = (d.ballot.acceptPrepared cand).1 ∧ KeepsPair after rest) ∨
    KeepsPair d.ballot events ∧ SamePair d.ballot after := by
  have refl : ∀ same : BallotState, SamePair same same := fun _ waiting => ⟨waiting, rfl, rfl⟩
  cases change with
  | still => exact .inr ⟨by simp [KeepsPair], refl _⟩
  | limit =>
    refine .inr ⟨?_, refl _⟩
    simpa [KeepsPair, BallotEvent.accepted, BallotEvent.before] using refl d.ballot
  | idle move =>
    rcases move.keepsPair with ⟨cands, cand, found, rfl, same⟩ | keeps
    · exact .inl ⟨cands, cand, [], found, rfl, same, by simp [KeepsPair]⟩
    · exact .inr keeps
  | move move inOrder =>
    rcases move.keepsPair with ⟨cands, cand, found, rfl, rfl⟩ | ⟨keeps, same⟩
    · exact .inl ⟨cands, cand, _, found, rfl, rfl, keepsPair_sentEvents (refl _)⟩
    · refine .inr ⟨?_, same⟩
      intro event mem
      rcases List.mem_append.mp mem with early | sent
      · exact keeps event early
      · exact keepsPair_sentEvents same event sent
  | enter waiting found inOrder =>
    exact .inr ⟨keepsPair_entry _ _, .of_moved (by simp [phase_entry])⟩

end Moves

def PairThere (events : List BallotEvent) (d : BallotState) : Prop :=
  d.currentPhase = .prepare → HighestPair d (acceptedBallots events)

section Histories

variable {ctx : DecreeContext} {d d' : BallotState} {trace events : List BallotEvent}

theorem acceptedBallots_append (early late : List BallotEvent) :
    acceptedBallots (early ++ late) = acceptedBallots early ++ acceptedBallots late :=
  List.filterMap_append

theorem KeepsPair.acceptedBallots (keeps : KeepsPair d events) : acceptedBallots events = [] :=
  List.filterMap_eq_nil_iff.mpr fun event mem => (keeps event mem).1

theorem PairThere.same (there : PairThere trace d) (same : SamePair d d') : PairThere trace d' := by
  intro waiting
  obtain ⟨waits, sameP, sameQ⟩ := same waiting
  exact (there waits).congr sameP sameQ

theorem KeepsPair.throughout (keeps : KeepsPair d events) (there : PairThere trace d)
    (same : SamePair d d') :
    Throughout BallotEvent.before (fun early => PairThere (trace ++ early)) d' events := by
  rintro early late rfl
  have quiet : KeepsPair d early := fun event mem => keeps event (List.mem_append_left late mem)
  have point : SamePair d (next BallotEvent.before d' late) :=
    next_mem (SamePair d) same fun event mem => (keeps event (List.mem_append_right early mem)).2
  rw [PairThere, acceptedBallots_append, quiet.acceptedBallots, List.append_nil]
  exact there.same point

theorem pairThroughout (ctx : DecreeContext) : HistoryInvariant ctx fun trace d =>
    Throughout BallotEvent.before PairThere d trace where
  start := by
    rw [throughout_nil]
    intro _
    exact ⟨by simp [newDecree, acceptedBallots], by simp [newDecree], by simp [newDecree],
      by simp [newDecree]⟩
  change d events after change throughout := by
    have there := throughout.atEnd
    rcases change.keepsPair with ⟨cands, cand, rest, found, rfl, rfl, keeps⟩ | ⟨keeps, same⟩
    · refine Throughout.append throughout ?_
      have accepted : PairThere (d.trace ++ [.setAcceptPrepared d.ballot cand])
          (d.ballot.acceptPrepared cand).1 := by
        intro waiting
        rw [d.ballot.currentPhase_acceptPrepared] at waiting
        obtain ⟨-, aboveQ, uncovered⟩ := findAcceptPrepared_spec found
        rw [acceptedBallots_append]
        exact (there waiting).acceptPrepared (skips_eq_false.mpr ⟨aboveQ, uncovered⟩)
      rw [throughout_cons]
      refine ⟨by simpa [BallotEvent.before] using there, ?_⟩
      simpa using keeps.throughout accepted fun waiting => ⟨waiting, rfl, rfl⟩
    · refine Throughout.append (throughout.congr ?_) (keeps.throughout there same)
      exact there.same (next_mem (SamePair d.ballot) same fun event mem => (keeps event mem).2)

end Histories

/-- In the prepare phase p and q are the two highest accepted ballots: for every sequence
of candidates that pass the tests of `acceptPrepared`, and at every point of every
sequence of calls. -/
theorem prepared_pair_highest (ctx : DecreeContext) :
    (∀ accepted d, AcceptsInTurn (newDecree ctx).ballot accepted d → HighestPair d accepted) ∧
      ∀ turns d, runTurns ctx turns (newDecree ctx) = .done () d →
        ∀ early late, d.trace = early ++ late →
          (next BallotEvent.before d.ballot late).currentPhase = .prepare →
            HighestPair (next BallotEvent.before d.ballot late) (acceptedBallots early) := by
  refine ⟨?_, ?_⟩
  · intro accepted d run
    refine highestPair_of_acceptsInTurn ?_ run
    exact (throughout_nil.mp (pairThroughout ctx).start) rfl
  · intro turns d ended
    exact (pairThroughout ctx).holds ended

private def votersQuorum : Quorum := .mk (1 / 2) ["a", "b"] []

private def votersContext : DecreeContext :=
  .plain 7 "n" votersQuorum (fun _ => some votersQuorum) (fun _ => 0)

private def voteTurn (nodeID : String) (b : Ballot) : Turn where
  call := .recv (some ((Pledge.prepare ⟨some b, none, none, 0, 0, nodeID⟩).statement nodeID 7))
  world := .plain
  fuel := 12

private def afterVotes : DecreeState :=
  (runTurns votersContext [voteTurn "a" ⟨1, "v"⟩, voteTurn "b" ⟨2, "w"⟩]
    (newDecree votersContext)).state

/-- Two votes for two values. -/
theorem prepared_pair_highest_two_votes :
    acceptedBallots afterVotes.trace = [⟨1, "v"⟩, ⟨2, "w"⟩] ∧
      afterVotes.ballot.pBallot = some ⟨2, "w"⟩ ∧ afterVotes.ballot.qBallot = some ⟨1, "v"⟩ ∧
        HighestPair afterVotes.ballot (acceptedBallots afterVotes.trace) := by
  have ended : runTurns votersContext [voteTurn "a" ⟨1, "v"⟩, voteTurn "b" ⟨2, "w"⟩]
      (newDecree votersContext) = .done () afterVotes := Outcome.eq_done (by decide +kernel)
  refine ⟨by decide +kernel, by decide +kernel, by decide +kernel, ?_⟩
  exact (prepared_pair_highest votersContext).2 _ _ ended afterVotes.trace [] (by simp)
    (by decide +kernel)

end Ultiledger
