import Ultiledger.PruningClosure
import Ultiledger.QuorumSlices
import Ultiledger.Statement
import Mathlib.Data.Finset.Powerset
import Mathlib.Data.List.AList

/-! # Federated voting

`federatedAccept` and `federatedRatify` of `consensus/decree.go`.  The pruning loop makes
a single pass.
-/

namespace Ultiledger

open PruningClosure

/-- The `sync.Map` from a node to its latest statement. -/
abbrev StatementMap (σ : Type) := AList (fun _ : String => σ)

/-- What `getStatementQuorum` reads off a statement: a quorum hash, or nothing
for an externalize statement, whose quorum is taken to be the local node. -/
inductive QuorumSource where
  | hash (quorumHash : String)
  | localNode
  deriving DecidableEq, Repr

def Nominate.quorumSource (nominate : Nominate) : QuorumSource :=
  .hash nominate.quorumHash

def Pledge.quorumSource : Pledge → QuorumSource
  | .prepare message => .hash message.quorumHash
  | .confirm _ _ _ _ quorumHash => .hash quorumHash
  | .externalize .. => .localNode

/-- The fields of a decree that federated voting reads. -/
structure VotingContext where
  nodeID : String
  quorum : Quorum
  getQuorum : String → Option Quorum

section Voting

variable {σ : Type} (ctx : VotingContext) (source : σ → QuorumSource)

/-- `getStatementQuorum`; a hash that cannot be resolved is fatal, an empty
hash gives the nil quorum. -/
def getStatementQuorum : QuorumSource → Except Fault (Option Quorum)
  | .localNode => .ok (some (getSingletonQuorum ctx.nodeID))
  | .hash quorumHash =>
    if quorumHash = "" then
      .ok none
    else
      match ctx.getQuorum quorumHash with
      | some quorum => .ok (some quorum)
      | none => .error (.fatal ("failed to get quorum of hash: " ++ quorumHash))

theorem getStatementQuorum_cases {origin : QuorumSource} {quorum : Quorum}
    (resolved : getStatementQuorum ctx origin = .ok (some quorum)) :
    (origin = .localNode ∧ quorum = getSingletonQuorum ctx.nodeID) ∨
      ∃ quorumHash, origin = .hash quorumHash ∧ ctx.getQuorum quorumHash = some quorum := by
  cases origin with
  | localNode =>
    exact .inl ⟨rfl, (Option.some.inj (Except.ok.inj resolved)).symm⟩
  | hash quorumHash =>
    simp only [getStatementQuorum] at resolved
    split_ifs at resolved
    · simp at resolved
    · cases looked : ctx.getQuorum quorumHash with
      | none => simp [looked] at resolved
      | some found => simpa [looked] using resolved

def senders (filter : σ → Bool) (stmts : StatementMap σ) : Finset String :=
  ((stmts.entries.filter fun entry => filter entry.2).map Sigma.fst).toFinset

def hasSlice (stmts : StatementMap σ) (nodes : Finset String) (node : String) : Bool :=
  match stmts.lookup node with
  | none => false
  | some stmt =>
    match getStatementQuorum ctx (source stmt) with
    | .ok (some quorum) => isQuorumSlice quorum nodes
    | _ => false

def lookupFault (stmts : StatementMap σ) (nodes : Finset String) : Option Fault :=
  stmts.entries.findSome? fun entry =>
    if entry.1 ∈ nodes then
      match getStatementQuorum ctx (source entry.2) with
      | .ok _ => none
      | .error fault => some fault
    else
      none

/-- The pruning loop of `federatedAccept` and `federatedRatify`. -/
def pruneNodes (stmts : StatementMap σ) (nodes : Finset String) :
    Except Fault (Finset String) :=
  match lookupFault ctx source stmts nodes with
  | some fault => .error fault
  | none =>
    match loop (hasSlice ctx source stmts) (nodes.card + 2) nodes ∅ with
    | some left => .ok left
    | none => .error .outOfFuel

def federatedRatify (filter : σ → Bool) (stmts : StatementMap σ) : Except Fault Bool :=
  match pruneNodes ctx source stmts (senders filter stmts) with
  | .error fault => .error fault
  | .ok left => .ok (isQuorumSlice ctx.quorum left)

/-- `federatedAccept`.  The nodes that pass the second filter are added to
those that passed the first. -/
def federatedAccept (voteFilter acceptFilter : σ → Bool) (stmts : StatementMap σ) :
    Except Fault Bool :=
  let nodes := senders voteFilter stmts
  if isVblocking ctx.quorum nodes then
    .ok true
  else
    match pruneNodes ctx source stmts (nodes ∪ senders acceptFilter stmts) with
    | .error fault => .error fault
    | .ok left => .ok (isQuorumSlice ctx.quorum left)

variable {filter : σ → Bool} {stmts : StatementMap σ} {nodes : Finset String}

theorem mem_senders {node : String} :
    node ∈ senders filter stmts ↔
      ∃ stmt, stmts.lookup node = some stmt ∧ filter stmt = true := by
  simp only [senders, List.mem_toFinset, List.mem_map, List.mem_filter]
  constructor
  · rintro ⟨⟨key, stmt⟩, ⟨entryMem, passes⟩, rfl⟩
    exact ⟨stmt, AList.mem_lookup_iff.mpr entryMem, passes⟩
  · rintro ⟨stmt, found, passes⟩
    exact ⟨⟨node, stmt⟩, ⟨AList.mem_lookup_iff.mp found, passes⟩, rfl⟩

def Resolves (stmts : StatementMap σ) (nodes : Finset String) : Prop :=
  ∀ node ∈ nodes, ∀ stmt, stmts.lookup node = some stmt →
    ∃ quorum, getStatementQuorum ctx (source stmt) = .ok quorum

theorem lookupFault_eq_none_iff (stmts : StatementMap σ) (nodes : Finset String) :
    lookupFault ctx source stmts nodes = none ↔ Resolves ctx source stmts nodes := by
  simp only [lookupFault, List.findSome?_eq_none_iff, Resolves]
  constructor
  · intro clean node nodeMem stmt found
    have entryClean := clean ⟨node, stmt⟩ (AList.mem_lookup_iff.mp found)
    rw [if_pos nodeMem] at entryClean
    cases resolved : getStatementQuorum ctx (source stmt) with
    | ok quorum => exact ⟨quorum, rfl⟩
    | error fault => simp [resolved] at entryClean
  · rintro resolves ⟨node, stmt⟩ entryMem
    split_ifs with nodeMem
    · obtain ⟨quorum, resolved⟩ :=
        resolves node nodeMem stmt (AList.mem_lookup_iff.mpr entryMem)
      simp [resolved]
    · rfl

theorem pruneNodes_eq (resolves : Resolves ctx source stmts nodes) :
    pruneNodes ctx source stmts nodes = .ok (pass (hasSlice ctx source stmts) nodes) := by
  rw [pruneNodes, (lookupFault_eq_none_iff ctx source stmts nodes).mpr resolves,
    loop_eq_pass]

theorem eq_pass_of_pruneNodes {left : Finset String}
    (returned : pruneNodes ctx source stmts nodes = .ok left) :
    left = pass (hasSlice ctx source stmts) nodes := by
  cases faulty : lookupFault ctx source stmts nodes with
  | some fault => simp [pruneNodes, faulty] at returned
  | none =>
    rw [pruneNodes_eq ctx source
      ((lookupFault_eq_none_iff ctx source stmts nodes).mp faulty)] at returned
    exact (Except.ok.inj returned).symm

/-- Senders that pass the filter, each with a slice of its own quorum inside the set,
which also holds a slice of the local quorum. -/
def RatifyingSet (filter : σ → Bool) (stmts : StatementMap σ) (nodes : Finset String) :
    Prop :=
  nodes ⊆ senders filter stmts ∧ Closed (hasSlice ctx source stmts) nodes ∧
    isQuorumSlice ctx.quorum nodes = true

instance (filter : σ → Bool) (stmts : StatementMap σ) :
    Decidable (∃ nodes, RatifyingSet ctx source filter stmts nodes) :=
  decidable_of_iff (∃ nodes ∈ (senders filter stmts).powerset,
    Closed (hasSlice ctx source stmts) nodes ∧ isQuorumSlice ctx.quorum nodes = true) (by
      simp only [RatifyingSet, Finset.mem_powerset])

def NestedOffZero (filter : σ → Bool) (stmts : StatementMap σ) : Prop :=
  (∀ nested ∈ ctx.quorum.nestQuorums, nested.StartsOffZero) ∧
    ∀ node stmt quorum, stmts.lookup node = some stmt → filter stmt = true →
      getStatementQuorum ctx (source stmt) = .ok (some quorum) →
        ∀ nested ∈ quorum.nestQuorums, nested.StartsOffZero

theorem hasSlice_monotoneOn (offZero : NestedOffZero ctx source filter stmts) :
    MonotoneOn (hasSlice ctx source stmts) (senders filter stmts) := by
  intro smaller larger subset within node nodeMem holds
  obtain ⟨stmt, found, passes⟩ := mem_senders.mp (within (subset nodeMem))
  simp only [hasSlice, found] at holds ⊢
  rcases resolved : getStatementQuorum ctx (source stmt) with fault | quorum
  · simp [resolved] at holds
  · rcases quorum with _ | quorum
    · simp [resolved] at holds
    · simp only [resolved] at holds ⊢
      exact isQuorumSlice_mono (offZero.2 node stmt quorum found passes resolved) subset holds

def OnePassSuffices (filter : σ → Bool) (stmts : StatementMap σ) : Prop :=
  pass (hasSlice ctx source stmts) (pass (hasSlice ctx source stmts) (senders filter stmts)) =
    pass (hasSlice ctx source stmts) (senders filter stmts)

instance (filter : σ → Bool) (stmts : StatementMap σ) :
    Decidable (OnePassSuffices ctx source filter stmts) :=
  inferInstanceAs (Decidable (_ = _))

/-- If the answer means a quorum and what is left is closed, one pass was enough; where
one pass is enough both hold, provided that the slice test is monotone on the quorums
involved. -/
theorem federatedRatify_means_quorum {filter : σ → Bool} {stmts : StatementMap σ}
    (resolves : Resolves ctx source stmts (senders filter stmts)) :
    ∃ left, pruneNodes ctx source stmts (senders filter stmts) = .ok left ∧
      federatedRatify ctx source filter stmts = .ok (isQuorumSlice ctx.quorum left) ∧
      (((federatedRatify ctx source filter stmts = .ok true ↔
            ∃ nodes, RatifyingSet ctx source filter stmts nodes) ∧
          Closed (hasSlice ctx source stmts) left) →
        OnePassSuffices ctx source filter stmts) ∧
      (NestedOffZero ctx source filter stmts →
        OnePassSuffices ctx source filter stmts →
        (federatedRatify ctx source filter stmts = .ok true ↔
            ∃ nodes, RatifyingSet ctx source filter stmts nodes) ∧
          Closed (hasSlice ctx source stmts) left) := by
  have ends := pruneNodes_eq ctx source resolves
  have decides : federatedRatify ctx source filter stmts = .ok (isQuorumSlice ctx.quorum
      (pass (hasSlice ctx source stmts) (senders filter stmts))) := by
    simp only [federatedRatify, ends]
  refine ⟨_, ends, decides, ?_, ?_⟩
  · rintro ⟨_, leftClosed⟩
    exact Finset.filter_true_of_mem leftClosed
  · intro offZero stable
    have leftClosed : Closed (hasSlice ctx source stmts)
        (pass (hasSlice ctx source stmts) (senders filter stmts)) := closed_of_pass_eq stable
    refine ⟨?_, leftClosed⟩
    rw [decides, Except.ok.injEq]
    constructor
    · intro slice
      exact ⟨_, pass_subset _ _, leftClosed, slice⟩
    · rintro ⟨nodes, within, nodesClosed, slice⟩
      have survives := subset_pass_of_closed (hasSlice_monotoneOn ctx source offZero)
        within nodesClosed
      exact isQuorumSlice_mono offZero.1 survives slice

end Voting

def preparedUnder (quorumHash : String) : Pledge :=
  .prepare ⟨some ⟨1, "v"⟩, some ⟨1, "v"⟩, none, 0, 0, quorumHash⟩

def uniformContext : VotingContext where
  nodeID := "a"
  quorum := .mk (3/4) ["a", "b", "c", "d"] []
  getQuorum := fun _ => some (.mk (3/4) ["a", "b", "c", "d"] [])

def threePrepared : StatementMap Pledge :=
  ((AList.insert "a" (preparedUnder "q") ∅).insert "b" (preparedUnder "q")).insert "c"
    (preparedUnder "q")

theorem federatedRatify_uniform :
    federatedRatify uniformContext Pledge.quorumSource (prepareAcceptFilter ⟨1, "v"⟩)
        threePrepared = .ok true ↔
      ∃ nodes, RatifyingSet uniformContext Pledge.quorumSource
        (prepareAcceptFilter ⟨1, "v"⟩) threePrepared nodes := by
  have resolves : Resolves uniformContext Pledge.quorumSource threePrepared
      (senders (prepareAcceptFilter ⟨1, "v"⟩) threePrepared) :=
    (lookupFault_eq_none_iff _ _ _ _).mp (by decide +kernel)
  have offZero : NestedOffZero uniformContext Pledge.quorumSource
      (prepareAcceptFilter ⟨1, "v"⟩) threePrepared := by
    refine ⟨by simp [uniformContext, Quorum.nestQuorums], ?_⟩
    intro node stmt quorum found passes resolved
    have flat : quorum.nestQuorums = [] := by
      rcases getStatementQuorum_cases uniformContext resolved with ⟨_, rfl⟩ | ⟨_, _, looked⟩
      · rfl
      · cases looked
        rfl
    simp [flat]
  obtain ⟨left, _, _, _, means⟩ :=
    federatedRatify_means_quorum uniformContext Pledge.quorumSource resolves
  exact (means offZero (by decide +kernel)).1

/-- Each node trusts the next one of a chain whose last node is silent. -/
private def chainContext : VotingContext where
  nodeID := "n"
  quorum := .mk 1 ["a"] []
  getQuorum := fun quorumHash => some (.mk 1 [quorumHash] [])

private def chainPrepared : StatementMap Pledge :=
  ((AList.insert "a" (preparedUnder "b") ∅).insert "b" (preparedUnder "c")).insert "c"
    (preparedUnder "d")

/-- The pass drops the last sender of the chain only, so the local node ratifies
although no set of senders is closed. -/
theorem federatedRatify_without_quorum :
    federatedRatify chainContext Pledge.quorumSource (prepareAcceptFilter ⟨1, "v"⟩)
        chainPrepared = .ok true ∧
      (¬ ∃ nodes, RatifyingSet chainContext Pledge.quorumSource
        (prepareAcceptFilter ⟨1, "v"⟩) chainPrepared nodes) ∧
      pruneNodes chainContext Pledge.quorumSource chainPrepared
        (senders (prepareAcceptFilter ⟨1, "v"⟩) chainPrepared) = .ok {"a", "b"} ∧
      ¬ Closed (hasSlice chainContext Pledge.quorumSource chainPrepared) {"a", "b"} := by
  refine ⟨by decide +kernel, by decide +kernel, ?_, by decide +kernel⟩
  rw [pruneNodes_eq _ _ ((lookupFault_eq_none_iff _ _ _ _).mp (by decide +kernel))]
  exact congrArg Except.ok (by decide +kernel)

end Ultiledger
