import Ultiledger.BallotProtocol

/-! # Statements that can be used -/

namespace Ultiledger

def DecreeContext.Knows (ctx : DecreeContext) (quorumHash : String) : Prop :=
  quorumHash ≠ "" ∧ ctx.getQuorum quorumHash ≠ none

instance (ctx : DecreeContext) (quorumHash : String) : Decidable (ctx.Knows quorumHash) :=
  decidable_of_iff (quorumHash ≠ "" ∧ (ctx.getQuorum quorumHash).isSome)
    (by simp [DecreeContext.Knows, Option.isSome_iff_ne_none])

def Pledge.Usable (ctx : DecreeContext) : Pledge → Prop
  | .prepare message => message.B ≠ none ∧ ctx.Knows message.quorumHash
  | .confirm _ _ _ _ quorumHash => ctx.Knows quorumHash
  | .externalize .. => True

def UsableBallots (ctx : DecreeContext) (ballots : StatementMap Pledge) : Prop :=
  ∀ nodeID pledge, ballots.lookup nodeID = some pledge → pledge.Usable ctx

def Nominate.Usable (ctx : DecreeContext) (nom : Nominate) : Prop :=
  nom.quorumHash = "" ∨ ctx.Knows nom.quorumHash

def UsableNominations (ctx : DecreeContext) (nominations : StatementMap Nominate) : Prop :=
  ∀ nodeID nom, nominations.lookup nodeID = some nom → nom.Usable ctx

def Statement.WellFormed (ctx : DecreeContext) (stmt : Statement) : Prop :=
  match stmt.statementType with
  | .nominate => ∃ nom, stmt.getNominate = some nom ∧ nom.Usable ctx
  | .other => True
  | _ => ∃ pledge : Pledge, stmt = pledge.statement stmt.nodeID stmt.index ∧ pledge.Usable ctx

section Lookups

variable {ctx : DecreeContext} {d : DecreeState}

theorem getStatementQuorum_of_knows {quorumHash : String} (knows : ctx.Knows quorumHash) :
    ∃ quorum, getStatementQuorum (d.voting ctx) (.hash quorumHash) = .ok (some quorum) := by
  obtain ⟨quorum, found⟩ := Option.ne_none_iff_exists'.mp knows.2
  simp [getStatementQuorum, knows.1, DecreeState.voting, DecreeState.getQuorum, found]

theorem getStatementQuorum_of_usable {pledge : Pledge} (usable : pledge.Usable ctx) :
    ∃ quorum, getStatementQuorum (d.voting ctx) pledge.quorumSource = .ok (some quorum) := by
  cases pledge with
  | prepare prepare => exact getStatementQuorum_of_knows usable.2
  | confirm B PC LC HC quorumHash => exact getStatementQuorum_of_knows usable
  | externalize B HC quorumHash => exact ⟨_, rfl⟩

theorem getStatementQuorum_of_nominate {nom : Nominate} (usable : nom.Usable ctx) :
    ∃ quorum, getStatementQuorum (d.voting ctx) nom.quorumSource = .ok quorum := by
  rcases usable with empty | knows
  · exact ⟨none, by simp [Nominate.quorumSource, getStatementQuorum, empty]⟩
  · obtain ⟨quorum, found⟩ := getStatementQuorum_of_knows (d := d) knows
    exact ⟨some quorum, found⟩

end Lookups

section Totality

variable {σ : Type} {ctx : VotingContext} {source : σ → QuorumSource} {stmts : StatementMap σ}
  (resolves : ∀ node stmt, stmts.lookup node = some stmt →
    ∃ quorum, getStatementQuorum ctx (source stmt) = .ok quorum)

include resolves

theorem federatedRatify_total (filter : σ → Bool) :
    ∃ verdict, federatedRatify ctx source filter stmts = .ok verdict := by
  have resolved : Resolves ctx source stmts (senders filter stmts) :=
    fun node _ stmt found => resolves node stmt found
  simp only [federatedRatify, pruneNodes_eq ctx source resolved]
  exact ⟨_, rfl⟩

theorem federatedAccept_total (voteFilter acceptFilter : σ → Bool) :
    ∃ verdict, federatedAccept ctx source voteFilter acceptFilter stmts = .ok verdict := by
  unfold federatedAccept
  dsimp only
  split_ifs
  · exact ⟨true, rfl⟩
  · have resolved : Resolves ctx source stmts
        (senders voteFilter stmts ∪ senders acceptFilter stmts) :=
      fun node _ stmt found => resolves node stmt found
    simp only [pruneNodes_eq ctx source resolved]
    exact ⟨_, rfl⟩

end Totality

section Decisions

variable {ctx : DecreeContext} {d : DecreeState} (usable : UsableBallots ctx d.ballots)

include usable

theorem UsableBallots.resolves (nodeID : String) (stmt : Pledge)
    (found : d.ballots.lookup nodeID = some stmt) :
    ∃ quorum, getStatementQuorum (d.voting ctx) stmt.quorumSource = .ok quorum := by
  obtain ⟨quorum, resolved⟩ := getStatementQuorum_of_usable (usable nodeID stmt found)
  exact ⟨some quorum, resolved⟩

theorem UsableBallots.ratifies_total (filter : Pledge → Bool) :
    ∃ verdict, ratifies ctx d filter = .ok verdict :=
  federatedRatify_total usable.resolves filter

theorem findHigh_total (cands : List Ballot) (fault : Fault) :
    findHigh ctx d cands ≠ .error fault := by
  induction cands with
  | nil => simp [findHigh]
  | cons head rest ih =>
    rw [findHigh]
    split_ifs
    · simp
    · obtain ⟨verdict, ratified⟩ := usable.ratifies_total (prepareAcceptFilter head)
      rw [ratified]
      cases verdict with
      | true => simp
      | false => exact ih

theorem findCommit_total (hb curb : Ballot) (cands : List Ballot) (start : Option Ballot)
    (fault : Fault) : findCommit ctx d hb curb cands start ≠ .error fault := by
  induction cands generalizing start with
  | nil => simp [findCommit]
  | cons head rest ih =>
    rw [findCommit]
    split_ifs
    · simp
    · obtain ⟨verdict, ratified⟩ := usable.ratifies_total (prepareAcceptFilter head)
      rw [ratified]
      cases verdict with
      | true => exact ih (some head)
      | false => simp
    · exact ih start

theorem findConfirmPrepared_total (stmt : Pledge) (fault : Fault) :
    findConfirmPrepared ctx d stmt ≠ .error fault := by
  unfold findConfirmPrepared
  split_ifs
  · simp
  · rcases search : findHigh ctx d (getPreparedCandidates stmt d.ballots)
      with failed | _ | ⟨high, rest⟩
    · exact absurd search (findHigh_total usable _ failed)
    · simp
    · dsimp only
      split_ifs
      · rcases commits : findCommit ctx d high (d.ballot.currentBallot.getD zeroBallot) rest none
          with failed | commit
        · exact absurd commits (findCommit_total usable _ _ _ _ failed)
        · simp
      · simp

omit usable in
theorem findCommitInterval_total {filter : Nat → Nat → Except Fault Bool}
    (total : ∀ l r, ∃ verdict, filter l r = .ok verdict) (counters : List Nat) (lb rb : Nat)
    (fault : Fault) : findCommitInterval filter counters lb rb ≠ .error fault := by
  induction counters generalizing lb rb with
  | nil => simp [findCommitInterval]
  | cons c rest ih =>
    rw [findCommitInterval]
    dsimp only
    by_cases beyond : lb ≠ 0 ∧ c > rb
    · rw [if_pos beyond]
      exact ih lb rb
    · rw [if_neg beyond]
      obtain ⟨verdict, decided⟩ := total c (if lb = 0 then c else rb)
      rw [decided]
      cases verdict with
      | true => exact ih c _
      | false =>
        dsimp only
        by_cases begun : lb ≠ 0
        · simp [begun]
        · rw [if_neg begun]
          exact ih lb rb

omit usable in
theorem votedCommit_total {stmt : Pledge} (usable : stmt.Usable ctx) (fault : Fault) :
    votedCommit stmt ≠ .error fault := by
  cases stmt with
  | prepare message =>
    obtain ⟨B, present⟩ := Option.ne_none_iff_exists'.mp usable.1
    simp only [votedCommit, present]
    split_ifs <;> simp
  | confirm B PC LC HC quorumHash => simp [votedCommit]
  | externalize B HC quorumHash => simp [votedCommit]

theorem findAcceptCommit_total {stmt : Pledge} (usableStmt : stmt.Usable ctx) (fault : Fault) :
    findAcceptCommit ctx d stmt ≠ .error fault := by
  unfold findAcceptCommit
  by_cases externalized : d.ballot.currentPhase = .externalize
  · simp [externalized]
  rcases voted : votedCommit stmt with failed | _ | ballot
  · exact absurd voted (votedCommit_total usableStmt failed)
  · simp
  · dsimp only
    by_cases incompatible : d.ballot.currentPhase = .confirm ∧
        ¬ compatibleBallots (some ballot) d.ballot.hBallot
    · simp [incompatible]
    rcases interval : findCommitInterval _ (getCommitCounters ballot d.ballots) 0 0
      with failed | ⟨lb, rb⟩
    · exact absurd interval (findCommitInterval_total
        (fun l r => federatedAccept_total usable.resolves _ _) _ _ _ failed)
    · dsimp only
      split_ifs <;> simp

theorem findConfirmCommit_total (stmt : Pledge) (fault : Fault) :
    findConfirmCommit ctx d stmt ≠ .error fault := by
  unfold findConfirmCommit
  by_cases idle : d.ballot.currentPhase ≠ .confirm ∨ d.ballot.hBallot = none ∨
      d.ballot.cBallot = none
  · simp [idle]
  cases accepted : acceptedCommit stmt with
  | none => simp
  | some ballot =>
    dsimp only
    by_cases incompatible : ¬ compatibleBallots d.ballot.cBallot (some ballot)
    · simp [incompatible]
    rcases interval : findCommitInterval
        (fun l r => ratifies ctx d (commitAcceptFilter ballot l r))
        (getCommitCounters ballot d.ballots) 0 0 with failed | ⟨lb, rb⟩
    · exact absurd interval (findCommitInterval_total
        (fun l r => usable.ratifies_total _) _ _ _ failed)
    · dsimp only
      split_ifs <;> simp

omit usable in
theorem mapM_total {α β : Type} {f : α → Except Fault β} (items : List α)
    (total : ∀ item ∈ items, ∃ value, f item = .ok value) :
    ∃ values, items.mapM f = .ok values := by
  induction items with
  | nil => exact ⟨[], rfl⟩
  | cons item rest ih =>
    obtain ⟨value, headOk⟩ := total item (.head _)
    obtain ⟨values, restOk⟩ := ih fun other otherMem => total other (.tail _ otherMem)
    refine ⟨value :: values, ?_⟩
    rw [List.mapM_cons, headOk]
    change (List.mapM f rest >>= fun values => pure (value :: values)) = _
    rw [restOk]
    rfl

theorem findUpdate_total (fault : Fault) : findUpdate d ≠ .error fault := by
  have counted : ∃ counters, (d.ballots.entries.mapM fun entry => ballotCounter entry.2) =
      .ok counters := by
    apply mapM_total
    rintro ⟨nodeID, pledge⟩ entryMem
    have usablePledge := usable nodeID pledge (AList.mem_lookup_iff.mpr entryMem)
    cases pledge with
    | prepare message =>
      obtain ⟨B, present⟩ := Option.ne_none_iff_exists'.mp usablePledge.1
      exact ⟨B.counter, by simp [ballotCounter, present]⟩
    | confirm B PC LC HC quorumHash => exact ⟨_, rfl⟩
    | externalize B HC quorumHash => exact ⟨_, rfl⟩
  obtain ⟨counters, collected⟩ := counted
  unfold findUpdate
  split_ifs
  · simp
  · simp [collected]

end Decisions

section Statements

variable {ctx : DecreeContext} {d : DecreeState} {pledge : Pledge} {nodeID : String} {index : Nat}

theorem isNews_total (known : Option Pledge) (fault : Fault) :
    isNews known (pledge.statement nodeID index) ≠ .error fault := by
  cases known with
  | none => simp [isNews]
  | some s =>
    unfold isNews isNewerBallot
    dsimp only
    split_ifs with other
    · simp
    · cases s <;> cases pledge <;>
        simp_all [Pledge.statement, Pledge.statementType, Pledge.body, Statement.getPrepare,
          Statement.getConfirm]
      split <;> [simp; simp; split_ifs <;> simp]

theorem prepareProblem_total {message : Prepare} {B : Ballot} (present : message.B = some B)
    (fromSelf : Bool) : ∃ problem, prepareProblem fromSelf message = .ok problem := by
  simp only [prepareProblem, present, Option.isNone_some, Bool.and_false, Bool.false_eq_true,
    if_false]
  split_ifs <;> exact ⟨_, rfl⟩

theorem validateBallot_total (world : World) (usable : pledge.Usable ctx) (fault : Fault) :
    validateBallot ctx world d (pledge.statement nodeID index) ≠ .error fault := by
  have source : ∃ problem, validateSource ctx d pledge.quorumSource = .ok problem := by
    obtain ⟨quorum, resolved⟩ := getStatementQuorum_of_usable (d := d) usable
    unfold validateSource
    rw [resolved]
    dsimp only
    cases validateQuorum quorum 0 false <;> exact ⟨_, rfl⟩
  obtain ⟨problem, source⟩ := source
  cases pledge with
  | prepare message =>
    obtain ⟨B, present⟩ := Option.ne_none_iff_exists'.mp usable.1
    obtain ⟨verdict, counters⟩ := prepareProblem_total present (ctx.nodeID == nodeID)
    simp only [Pledge.quorumSource] at source
    simp only [validateBallot, Pledge.statement, Pledge.statementType, Pledge.body,
      Statement.getPrepare, source, counters]
    cases problem <;> simp
  | confirm B PC LC HC quorumHash =>
    simp only [Pledge.quorumSource] at source
    simp only [validateBallot, Pledge.statement, Pledge.statementType, Pledge.body,
      Statement.getConfirm, source]
    cases problem <;> simp
  | externalize B HC quorumHash =>
    simp only [Pledge.quorumSource] at source
    simp only [validateBallot, Pledge.statement, Pledge.statementType, Pledge.body,
      Statement.getExternalize, source]
    cases problem <;> simp

end Statements

end Ultiledger
