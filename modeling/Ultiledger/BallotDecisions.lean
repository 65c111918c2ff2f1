import Ultiledger.DecreeState

/-! # What the ballot protocol decides

The parts of the ballot protocol of `consensus/decree.go` that only read the decree.
-/

namespace Ultiledger

section Candidates

/-- The ballots a statement speaks of, as `getPreparedCandidates` collects them. -/
def spokenBallots : Pledge → List Ballot
  | .prepare prepare => prepare.B.toList ++ prepare.P.toList ++ prepare.Q.toList
  | .confirm B PC _ _ _ => [⟨PC, B.value⟩, ⟨maxUint32, B.value⟩]
  | .externalize B _ _ => [⟨maxUint32, B.value⟩]

/-- The ballots a stored statement offers below `b`. -/
def offeredBallots (b : Ballot) : Pledge → List Ballot
  | .prepare prepare =>
    (prepare.B.toList ++ prepare.P.toList ++ prepare.Q.toList).filter fun offered =>
      lessAndCompatibleBallots (some offered) (some b)
  | .confirm B PC _ _ _ =>
    if compatibleBallots (some B) (some b) then
      if PC < b.counter then [b, ⟨PC, b.value⟩] else [b]
    else
      []
  | .externalize B _ _ => if compatibleBallots (some B) (some b) then [b] else []

def getPreparedCandidates (stmt : Pledge) (ballots : StatementMap Pledge) : List Ballot :=
  let offers := (spokenBallots stmt).flatMap fun b =>
    ballots.entries.flatMap fun entry => offeredBallots b entry.2
  offers.dedup.insertionSort (· ≥ ·)

def offeredCounters (b : Ballot) : Pledge → List Nat
  | .prepare prepare =>
    if compatibleBallots (some b) prepare.B && decide (prepare.LC > 0) then
      [prepare.LC, prepare.HC]
    else
      []
  | .confirm B _ LC HC _ => if compatibleBallots (some b) (some B) then [LC, HC] else []
  | .externalize B HC _ =>
    if compatibleBallots (some b) (some B) then [B.counter, HC, maxUint32] else []

def getCommitCounters (b : Ballot) (ballots : StatementMap Pledge) : List Nat :=
  let counters := ballots.entries.flatMap fun entry => offeredCounters b entry.2
  counters.dedup.insertionSort (· ≥ ·)

/-- The loop of `findCommitInterval`. -/
def findCommitInterval (filter : Nat → Nat → Except Fault Bool) :
    List Nat → Nat → Nat → Except Fault (Nat × Nat)
  | [], lb, rb => .ok (lb, rb)
  | c :: rest, lb, rb =>
    if lb ≠ 0 ∧ c > rb then
      findCommitInterval filter rest lb rb
    else
      let r := if lb = 0 then c else rb
      match filter c r with
      | .error fault => .error fault
      | .ok true => findCommitInterval filter rest c r
      | .ok false =>
        if lb ≠ 0 then .ok (lb, rb) else findCommitInterval filter rest lb rb

end Candidates

section Decisions

variable (ctx : DecreeContext) (d : DecreeState)

def ratifies (filter : Pledge → Bool) : Except Fault Bool :=
  federatedRatify (d.voting ctx) Pledge.quorumSource filter d.ballots

/-- The loop of `acceptPrepared` over the candidates. -/
def findAcceptPrepared : List Ballot → Except Fault (Option Ballot)
  | [] => .ok none
  | cand :: rest =>
    if d.ballot.currentPhase = .confirm ∧
        ¬ lessAndCompatibleBallots d.ballot.pBallot (some cand) then
      findAcceptPrepared rest
    else if d.ballot.currentPhase = .confirm ∧
        ¬ compatibleBallots d.ballot.cBallot (some cand) then
      .error (.fatal "candidate ballot and commit ballot are not compatible")
    else if d.ballot.qBallot.isSome ∧ (compareBallots (some cand) d.ballot.qBallot).isLE then
      findAcceptPrepared rest
    else if d.ballot.pBallot.isSome ∧
        lessAndCompatibleBallots (some cand) d.ballot.pBallot then
      findAcceptPrepared rest
    else
      match federatedAccept (d.voting ctx) Pledge.quorumSource (prepareVoteFilter cand)
        (prepareAcceptFilter cand) d.ballots with
      | .error fault => .error fault
      | .ok true => .ok (some cand)
      | .ok false => findAcceptPrepared rest

/-- The search of `confirmPrepared` for the high ballot.  It returns the
candidates from that ballot on. -/
def findHigh : List Ballot → Except Fault (Option (Ballot × List Ballot))
  | [] => .ok none
  | cand :: rest =>
    if d.ballot.hBallot.isSome ∧ (compareBallots (some cand) d.ballot.hBallot).isLE then
      .ok none
    else
      match ratifies ctx d (prepareAcceptFilter cand) with
      | .error fault => .error fault
      | .ok true => .ok (some (cand, cand :: rest))
      | .ok false => findHigh rest

/-- The search of `confirmPrepared` for the commit ballot. -/
def findCommit (hCandidate curb : Ballot) :
    List Ballot → Option Ballot → Except Fault (Option Ballot)
  | [], cCandidate => .ok cCandidate
  | cand :: rest, cCandidate =>
    if compareBallots (some cand) (some curb) = .lt then
      .ok cCandidate
    else if ¬ lessAndCompatibleBallots (some cand) (some hCandidate) then
      findCommit hCandidate curb rest cCandidate
    else
      match ratifies ctx d (prepareAcceptFilter cand) with
      | .error fault => .error fault
      | .ok true => findCommit hCandidate curb rest (some cand)
      | .ok false => .ok cCandidate

/-- The test of `confirmPrepared` whether to look for a commit ballot. -/
def seeksCommit (d : BallotState) (hCandidate : Ballot) : Bool :=
  d.cBallot.isNone &&
    (d.pBallot.isNone || !lessAndIncompatibleBallots (some hCandidate) d.pBallot) &&
      (d.qBallot.isNone || !lessAndIncompatibleBallots (some hCandidate) d.qBallot)

/-- What `confirmPrepared` hands to `setConfirmPrepared`. -/
def findConfirmPrepared (stmt : Pledge) : Except Fault (Option (Option Ballot × Ballot)) :=
  if d.ballot.currentPhase ≠ .prepare ∨ d.ballot.pBallot = none then
    .ok none
  else
    match findHigh ctx d (getPreparedCandidates stmt d.ballots) with
    | .error fault => .error fault
    | .ok none => .ok none
    | .ok (some (hCandidate, candidates)) =>
      if seeksCommit d.ballot hCandidate then
        match findCommit ctx d hCandidate (d.ballot.currentBallot.getD zeroBallot)
          candidates none with
        | .error fault => .error fault
        | .ok cCandidate => .ok (some (cCandidate, hCandidate))
      else
        .ok (some (none, hCandidate))

/-- The ballot that `acceptCommit` reads off a statement. -/
def votedCommit : Pledge → Except Fault (Option Ballot)
  | .prepare prepare =>
    if prepare.LC = 0 then
      .ok none
    else
      match prepare.B with
      | none => .error (.nilDereference "prepare.B")
      | some B => .ok (some ⟨prepare.HC, B.value⟩)
  | .confirm B _ _ HC _ => .ok (some ⟨HC, B.value⟩)
  | .externalize B HC _ => .ok (some ⟨HC, B.value⟩)

/-- What `acceptCommit` hands to `setAcceptCommit`. -/
def findAcceptCommit (stmt : Pledge) : Except Fault (Option (Ballot × Ballot)) :=
  if d.ballot.currentPhase = .externalize then
    .ok none
  else
    match votedCommit stmt with
    | .error fault => .error fault
    | .ok none => .ok none
    | .ok (some ballot) =>
      if d.ballot.currentPhase = .confirm ∧
          ¬ compatibleBallots (some ballot) d.ballot.hBallot then
        .ok none
      else
        match findCommitInterval (fun l r =>
            federatedAccept (d.voting ctx) Pledge.quorumSource (commitVoteFilter ballot l r)
              (commitAcceptFilter ballot l r) d.ballots)
          (getCommitCounters ballot d.ballots) 0 0 with
        | .error fault => .error fault
        | .ok (lb, rb) =>
          if lb ≠ 0 ∧ (d.ballot.currentPhase ≠ .confirm ∨
              d.ballot.hBallot.any (rb > ·.counter)) then
            .ok (some (⟨lb, ballot.value⟩, ⟨rb, ballot.value⟩))
          else
            .ok none

/-- The ballot that `confirmCommit` reads off a statement. -/
def acceptedCommit : Pledge → Option Ballot
  | .prepare _ => none
  | .confirm B _ _ HC _ => some ⟨HC, B.value⟩
  | .externalize B HC _ => some ⟨HC, B.value⟩

/-- What `confirmCommit` hands to `setConfirmCommit`. -/
def findConfirmCommit (stmt : Pledge) : Except Fault (Option (Ballot × Ballot)) :=
  if d.ballot.currentPhase ≠ .confirm ∨ d.ballot.hBallot = none ∨ d.ballot.cBallot = none then
    .ok none
  else
    match acceptedCommit stmt with
    | none => .ok none
    | some ballot =>
      if ¬ compatibleBallots d.ballot.cBallot (some ballot) then
        .ok none
      else
        match findCommitInterval (fun l r => ratifies ctx d (commitAcceptFilter ballot l r))
          (getCommitCounters ballot d.ballots) 0 0 with
        | .error fault => .error fault
        | .ok (lb, rb) =>
          if lb ≠ 0 then
            .ok (some (⟨lb, ballot.value⟩, ⟨rb, ballot.value⟩))
          else
            .ok none

/-- The statement that `sendBallot` assembles, if there is a current ballot.  An
externalize statement without a ballot is read by the validation at once. -/
def assembleBallot : BallotState → Except Fault (Option Pledge)
  | ⟨.prepare, currentBallot, pBallot, qBallot, hBallot, cBallot, _⟩ =>
    .ok (currentBallot.map fun B => .prepare
      { B := some B
        P := pBallot
        Q := qBallot
        LC := (cBallot.map (·.counter)).getD 0
        HC := (hBallot.map (·.counter)).getD 0
        quorumHash := ctx.quorumHash })
  | ⟨.confirm, currentBallot, some p, _, some h, some c, _⟩ =>
    .ok (currentBallot.map fun B =>
      .confirm B p.counter c.counter h.counter ctx.quorumHash)
  | ⟨.externalize, currentBallot, _, _, some h, some c, _⟩ =>
    .ok (currentBallot.map fun _ => .externalize c h.counter ctx.quorumHash)
  | ⟨.confirm, _, none, _, _, _, _⟩ => .error (.nilDereference "pBallot")
  | ⟨_, _, _, _, _, none, _⟩ => .error (.nilDereference "cBallot")
  | ⟨_, _, _, _, none, _, _⟩ => .error (.nilDereference "hBallot")

end Decisions

section Counters

def ballotCounter : Pledge → Except Fault Nat
  | .prepare prepare =>
    match prepare.B with
    | none => .error (.nilDereference "prepare.B")
    | some B => .ok B.counter
  | .confirm B _ _ _ _ => .ok B.counter
  | .externalize .. => .ok maxUint32

def isAhead (counter : Nat) : Pledge → Bool
  | .prepare prepare => prepare.B.any (counter < ·.counter)
  | .confirm B _ _ _ _ => decide (counter < B.counter)
  | .externalize .. => decide (counter ≠ maxUint32)

/-- The loop of `update` over the sorted counters.  The set of nodes grows from
one counter to the next. -/
def findCounter (quorum : Quorum) (ballots : StatementMap Pledge) (target : Nat) :
    List Nat → Finset String → Option Nat
  | [], _ => none
  | c :: rest, nodes =>
    if c < target then
      none
    else
      let nodes := nodes ∪ senders (isAhead c) ballots
      if isVblocking quorum nodes then
        findCounter quorum ballots target rest nodes
      else if c = target then
        none
      else
        some c

/-- The counter that `update` would move to. -/
def findUpdate (d : DecreeState) : Except Fault (Option Nat) :=
  if d.ballot.currentPhase = .externalize then
    .ok none
  else
    match d.ballots.entries.mapM fun entry => ballotCounter entry.2 with
    | .error fault => .error fault
    | .ok counters =>
      let target := (d.ballot.currentBallot.map (·.counter)).getD 0
      let sortedCounters := (target :: counters).dedup.insertionSort (· ≤ ·)
      .ok (findCounter d.quorum d.ballots target sortedCounters ∅)

end Counters

theorem findCommitInterval_spec {filter : Nat → Nat → Except Fault Bool} {counters : List Nat}
    {lb rb lb' rb' : Nat} (start : lb ≠ 0 → filter lb rb = .ok true ∧ lb ≤ rb)
    (found : findCommitInterval filter counters lb rb = .ok (lb', rb')) :
    lb' ≠ 0 → filter lb' rb' = .ok true ∧ lb' ≤ rb' := by
  induction counters generalizing lb rb with
  | nil =>
    obtain ⟨rfl, rfl⟩ := found
    exact start
  | cons c rest ih =>
    rw [findCommitInterval] at found
    by_cases beyond : lb ≠ 0 ∧ c > rb
    · rw [if_pos beyond] at found
      exact ih start found
    · rw [if_neg beyond] at found
      cases passes : filter c (if lb = 0 then c else rb) with
      | error fault => simp [passes] at found
      | ok verdict =>
        cases verdict with
        | true =>
          simp only [passes] at found
          refine ih (fun _ => ⟨passes, ?_⟩) found
          split_ifs with fresh
          · exact le_rfl
          · omega
        | false =>
          simp only [passes] at found
          split_ifs at found with fresh
          · obtain ⟨rfl, rfl⟩ := found
            exact start
          · exact ih start found

variable {stmt : Pledge} {cands : List Ballot} {cb hb : Ballot}

variable {ctx : DecreeContext} {d : DecreeState}

theorem findAcceptCommit_spec (found : findAcceptCommit ctx d stmt = .ok (some (cb, hb))) :
    d.ballot.currentPhase ≠ .externalize ∧ cb.value = hb.value ∧ cb.counter ≠ 0 ∧
      cb.counter ≤ hb.counter ∧
        (d.ballot.currentPhase = .confirm →
          ∃ h, d.ballot.hBallot = some h ∧ hb.value = h.value ∧ hb.counter > h.counter) := by
  unfold findAcceptCommit at found
  by_cases externalized : d.ballot.currentPhase = .externalize
  · simp [externalized] at found
  rw [if_neg externalized] at found
  cases voted : votedCommit stmt with
  | error fault => simp [voted] at found
  | ok choice =>
    cases choice with
    | none => simp [voted] at found
    | some ballot =>
      simp only [voted] at found
      by_cases incompatible : d.ballot.currentPhase = .confirm ∧
          ¬ compatibleBallots (some ballot) d.ballot.hBallot
      · simp [incompatible] at found
      rw [if_neg incompatible] at found
      rcases interval : findCommitInterval (fun l r =>
          federatedAccept (d.voting ctx) Pledge.quorumSource (commitVoteFilter ballot l r)
            (commitAcceptFilter ballot l r) d.ballots)
        (getCommitCounters ballot d.ballots) 0 0 with fault | ⟨lb, rb⟩
      · simp [interval] at found
      · simp only [interval] at found
        split_ifs at found with usable
        · obtain ⟨rfl, rfl⟩ := found
          obtain ⟨-, ordered⟩ := findCommitInterval_spec (by simp) interval usable.1
          refine ⟨externalized, rfl, usable.1, ordered, ?_⟩
          intro phase
          cases high : d.ballot.hBallot with
          | none => simp [phase, high, compatibleBallots] at incompatible
          | some h =>
            refine ⟨h, rfl, ?_, ?_⟩
            · simpa [phase, high] using incompatible
            · simpa [phase, high] using usable.2
        · simp at found

theorem findConfirmCommit_spec (found : findConfirmCommit ctx d stmt = .ok (some (cb, hb))) :
    d.ballot.currentPhase = .confirm ∧ cb.value = hb.value ∧ cb.counter ≠ 0 ∧
      cb.counter ≤ hb.counter ∧ (∃ c, d.ballot.cBallot = some c ∧ c.value = cb.value) ∧
        ∃ ballot l r, ratifies ctx d (commitAcceptFilter ballot l r) = .ok true ∧
          ballot.value = cb.value := by
  unfold findConfirmCommit at found
  by_cases idle : d.ballot.currentPhase ≠ .confirm ∨ d.ballot.hBallot = none ∨
      d.ballot.cBallot = none
  · simp [idle] at found
  rw [if_neg idle] at found
  push Not at idle
  obtain ⟨phase, -, committed⟩ := idle
  obtain ⟨c, commit⟩ := Option.ne_none_iff_exists'.mp committed
  cases accepted : acceptedCommit stmt with
  | none => simp [accepted] at found
  | some ballot =>
    simp only [accepted] at found
    by_cases incompatible : ¬ compatibleBallots d.ballot.cBallot (some ballot)
    · simp [incompatible] at found
    rw [if_neg incompatible] at found
    rcases interval : findCommitInterval
        (fun l r => ratifies ctx d (commitAcceptFilter ballot l r))
        (getCommitCounters ballot d.ballots) 0 0 with fault | ⟨lb, rb⟩
    · simp [interval] at found
    · simp only [interval] at found
      split_ifs at found with usable
      · obtain ⟨rfl, rfl⟩ := found
        obtain ⟨ratified, ordered⟩ := findCommitInterval_spec (by simp) interval usable
        refine ⟨phase, rfl, usable, ordered, ⟨c, commit, ?_⟩, ballot, lb, rb, ratified, rfl⟩
        simpa [commit] using incompatible
      · simp at found

/-- A ballot that `acceptPrepared` accepts is above q, is not covered by p, and
in the confirm phase continues p. -/
theorem findAcceptPrepared_spec {cand : Ballot}
    (found : findAcceptPrepared ctx d cands = .ok (some cand)) :
    (d.ballot.currentPhase = .confirm →
        lessAndCompatibleBallots d.ballot.pBallot (some cand) = true) ∧
      (∀ q, d.ballot.qBallot = some q → q < cand) ∧
        ∀ p, d.ballot.pBallot = some p → ¬ (cand ≤ p ∧ cand.value = p.value) := by
  induction cands with
  | nil => simp [findAcceptPrepared] at found
  | cons head rest ih =>
    rw [findAcceptPrepared] at found
    split_ifs at found with old incompatible belowQ covered
    · exact ih found
    · exact ih found
    · exact ih found
    · cases accepted : federatedAccept (d.voting ctx) Pledge.quorumSource
        (prepareVoteFilter head) (prepareAcceptFilter head) d.ballots with
      | error fault => simp [accepted] at found
      | ok verdict =>
        cases verdict with
        | false =>
          simp only [accepted] at found
          exact ih found
        | true =>
          simp only [accepted, Except.ok.injEq, Option.some.injEq] at found
          subst found
          refine ⟨?_, ?_, ?_⟩
          · intro phase
            simpa [phase] using old
          · intro q qCase
            simpa [qCase] using belowQ
          · intro p pCase
            simpa [pCase] using covered

theorem findHigh_spec {rest : List Ballot} (found : findHigh ctx d cands = .ok (some (hb, rest))) :
    ∀ h, d.ballot.hBallot = some h → h < hb := by
  induction cands with
  | nil => simp [findHigh] at found
  | cons head tail ih =>
    rw [findHigh] at found
    split_ifs at found with below
    · simp at found
    · cases ratified : ratifies ctx d (prepareAcceptFilter head) with
      | error fault => simp [ratified] at found
      | ok verdict =>
        cases verdict with
        | false =>
          simp only [ratified] at found
          exact ih found
        | true =>
          simp only [ratified, Except.ok.injEq, Option.some.injEq, Prod.mk.injEq] at found
          obtain ⟨rfl, -⟩ := found
          intro h high
          simpa [high] using below

theorem findCommit_spec {curb : Ballot}
    {start found : Option Ballot} (below : ∀ cb, start = some cb → cb ≤ hb ∧ cb.value = hb.value)
    (search : findCommit ctx d hb curb cands start = .ok found) :
    ∀ cb, found = some cb → cb ≤ hb ∧ cb.value = hb.value := by
  induction cands generalizing start with
  | nil =>
    rw [findCommit, Except.ok.injEq] at search
    subst search
    exact below
  | cons head rest ih =>
    rw [findCommit] at search
    split_ifs at search with old compatible
    · rw [Except.ok.injEq] at search
      subst search
      exact below
    · cases ratified : ratifies ctx d (prepareAcceptFilter head) with
      | error fault => simp [ratified] at search
      | ok verdict =>
        cases verdict with
        | false =>
          simp only [ratified, Except.ok.injEq] at search
          subst search
          exact below
        | true =>
          simp only [ratified] at search
          apply ih ?_ search
          intro cb same
          cases same
          simpa using compatible
    · exact ih below search

/-- What `confirmPrepared` hands on.  A commit ballot is set only where there is
none, and only while no ballot of another value is prepared above it. -/
theorem findConfirmPrepared_spec {cb : Option Ballot}
    (found : findConfirmPrepared ctx d stmt = .ok (some (cb, hb))) :
    d.ballot.currentPhase = .prepare ∧ (∀ h, d.ballot.hBallot = some h → h < hb) ∧
      ∀ c, cb = some c → d.ballot.cBallot = none ∧ c ≤ hb ∧ c.value = hb.value ∧
        (∀ p, d.ballot.pBallot = some p → ¬ (hb ≤ p ∧ hb.value ≠ p.value)) ∧
          ∀ q, d.ballot.qBallot = some q → ¬ (hb ≤ q ∧ hb.value ≠ q.value) := by
  unfold findConfirmPrepared at found
  by_cases idle : d.ballot.currentPhase ≠ .prepare ∨ d.ballot.pBallot = none
  · simp [idle] at found
  rw [if_neg idle] at found
  push Not at idle
  rcases search : findHigh ctx d (getPreparedCandidates stmt d.ballots)
    with fault | _ | ⟨high, rest⟩
  · simp [search] at found
  · simp [search] at found
  · simp only [search] at found
    have above := findHigh_spec search
    split_ifs at found with seeks
    · rcases commits : findCommit ctx d high (d.ballot.currentBallot.getD zeroBallot) rest none
        with fault | commit
      · simp [commits] at found
      · simp only [commits, Except.ok.injEq, Option.some.injEq, Prod.mk.injEq] at found
        obtain ⟨rfl, rfl⟩ := found
        refine ⟨idle.1, above, ?_⟩
        intro c same
        obtain ⟨below, compatible⟩ := findCommit_spec (by simp) commits c same
        unfold seeksCommit at seeks
        simp only [Bool.and_eq_true, Option.isNone_iff_eq_none, Bool.or_eq_true,
          Bool.not_eq_true'] at seeks
        obtain ⟨⟨none, pFree⟩, qFree⟩ := seeks
        refine ⟨none, below, compatible, ?_, ?_⟩
        · intro p pCase
          simpa [pCase, ← lessAndIncompatibleBallots_some] using pFree
        · intro q qCase
          simpa [qCase, ← lessAndIncompatibleBallots_some] using qFree
    · obtain ⟨rfl, rfl⟩ := found
      exact ⟨idle.1, above, by simp⟩

theorem findAcceptCommit_value (found : findAcceptCommit ctx d stmt = .ok (some (cb, hb))) :
    ∃ ballot, votedCommit stmt = .ok (some ballot) ∧ cb.value = ballot.value := by
  unfold findAcceptCommit at found
  split_ifs at found
  · simp at found
  · rcases voted : votedCommit stmt with fault | _ | ballot
    · simp [voted] at found
    · simp [voted] at found
    · refine ⟨ballot, rfl, ?_⟩
      simp only [voted] at found
      split_ifs at found
      · simp at found
      · split at found
        · simp at found
        · split_ifs at found
          · simp only [Except.ok.injEq, Option.some.injEq, Prod.mk.injEq] at found
            rw [← found.1]
          · simp at found

theorem valid_of_votedCommit {world : World} {stmt : Statement} {pledge : Pledge} {ballot : Ballot}
    (passed : validateBallot ctx world d stmt = .ok (.ok pledge))
    (voted : votedCommit pledge = .ok (some ballot)) :
    validateConsensusValue ctx world d ballot.value = .ok () := by
  obtain ⟨-, -, ⟨message, rfl, counters, values⟩ | ⟨B, PC, LC, HC, quorumHash, rfl, values⟩ |
    ⟨B, HC, quorumHash, rfl, values⟩⟩ := validateBallot_cases passed
  · by_cases noCommit : message.LC = 0
    · simp [votedCommit, noCommit] at voted
    · cases present : message.B with
      | none => simp [votedCommit, noCommit, present] at voted
      | some B =>
        have positive := counter_of_prepareProblem counters present noCommit
        obtain rfl : (⟨message.HC, B.value⟩ : Ballot) = ballot := by
          simpa [votedCommit, noCommit, present] using voted
        apply valuesProblem_eq_none_iff.mp values
        simp [prepareValues, present, positive]
  · obtain rfl : (⟨HC, B.value⟩ : Ballot) = ballot := by simpa [votedCommit] using voted
    exact valuesProblem_eq_none_iff.mp values B.value (.head _)
  · obtain rfl : (⟨HC, B.value⟩ : Ballot) = ballot := by simpa [votedCommit] using voted
    exact valuesProblem_eq_none_iff.mp values B.value (.head _)

end Ultiledger
