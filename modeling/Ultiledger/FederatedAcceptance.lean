import Ultiledger.FederatedVoting

/-! # What acceptance rests on

`federatedAccept` asks the v-blocking question about the nodes that have voted instead
of those that have accepted, and prunes once where a quorum takes pruning to the end.
-/

namespace Ultiledger

open PruningClosure

section Acceptance

variable {σ : Type} (ctx : VotingContext) (source : σ → QuorumSource)
variable (voteFilter acceptFilter : σ → Bool) (stmts : StatementMap σ)

def backers : Finset String := senders voteFilter stmts ∪ senders acceptFilter stmts

theorem backers_eq_senders :
    backers voteFilter acceptFilter stmts =
      senders (fun stmt => voteFilter stmt || acceptFilter stmt) stmts := by
  ext node
  simp only [backers, Finset.mem_union, mem_senders, Bool.or_eq_true, and_or_left, exists_or]

/-- The nodes that have accepted are v-blocking, or a quorum of nodes that have voted
or accepted holds a local slice. -/
def Justified : Prop :=
  isVblocking ctx.quorum (senders acceptFilter stmts) = true ∨
    ∃ nodes, RatifyingSet ctx source (fun stmt => voteFilter stmt || acceptFilter stmt) stmts nodes

instance : Decidable (Justified ctx source voteFilter acceptFilter stmts) :=
  inferInstanceAs (Decidable (_ ∨ _))

variable {ctx source voteFilter acceptFilter stmts}

theorem shortcut_of_federatedAccept
    (accepted : federatedAccept ctx source voteFilter acceptFilter stmts = .ok true) :
    isVblocking ctx.quorum (senders voteFilter stmts) = true ∨
      isQuorumSlice ctx.quorum (pass (hasSlice ctx source stmts)
        (backers voteFilter acceptFilter stmts)) = true := by
  unfold federatedAccept at accepted
  dsimp only at accepted
  split_ifs at accepted with voters
  · exact .inl voters
  · cases pruned : pruneNodes ctx source stmts
        (senders voteFilter stmts ∪ senders acceptFilter stmts) with
    | error fault => simp [pruned] at accepted
    | ok left =>
      simp only [pruned, Except.ok.injEq] at accepted
      obtain rfl := eq_pass_of_pruneNodes ctx source pruned
      exact .inr accepted

/-- Acceptance is justified if the voters are v-blocking only along with the accepters,
and a second pruning pass would remove nobody. -/
theorem federatedAccept_justified
    (along : isVblocking ctx.quorum (senders voteFilter stmts) = true →
      isVblocking ctx.quorum (senders acceptFilter stmts) = true)
    (stable : OnePassSuffices ctx source
      (fun stmt => voteFilter stmt || acceptFilter stmt) stmts)
    (accepted : federatedAccept ctx source voteFilter acceptFilter stmts = .ok true) :
    Justified ctx source voteFilter acceptFilter stmts := by
  rcases shortcut_of_federatedAccept accepted with voters | slice
  · exact .inl (along voters)
  · rw [backers_eq_senders] at slice
    exact .inr ⟨_, pass_subset _ _, closed_of_pass_eq stable, slice⟩

end Acceptance

theorem federatedAccept_justified_uniform :
    federatedAccept uniformContext Pledge.quorumSource (prepareVoteFilter ⟨1, "v"⟩)
        (prepareAcceptFilter ⟨1, "v"⟩) threePrepared = .ok true ∧
      Justified uniformContext Pledge.quorumSource (prepareVoteFilter ⟨1, "v"⟩)
        (prepareAcceptFilter ⟨1, "v"⟩) threePrepared :=
  ⟨by decide +kernel,
    federatedAccept_justified (by decide +kernel) (by decide +kernel) (by decide +kernel)⟩

private def votingUnder (quorumHash : String) : Pledge :=
  .prepare ⟨some ⟨1, "v"⟩, none, none, 0, 0, quorumHash⟩

private def fourNodes : VotingContext where
  nodeID := "a"
  quorum := .mk (3/5) ["a", "b", "c", "d"] []
  getQuorum := fun _ => some (.mk (3/5) ["a", "b", "c", "d"] [])

private def twoVotes : StatementMap Pledge :=
  (AList.insert "a" (votingUnder "q") ∅).insert "b" (votingUnder "q")

/-- Each voter trusts the next one of a chain whose last node is silent. -/
private def votingChain : VotingContext where
  nodeID := "n"
  quorum := .mk (1/3) ["a", "b", "x", "y"] []
  getQuorum := fun quorumHash => some (.mk 1 [quorumHash] [])

private def chainVotes : StatementMap Pledge :=
  ((AList.insert "a" (votingUnder "b") ∅).insert "b" (votingUnder "c")).insert "c"
    (votingUnder "d")

/-- The single pass drops the last voter of the chain only.  And the votes of a v-blocking
minority are taken for acceptances. -/
theorem federatedAccept_unjustified :
    (federatedAccept votingChain Pledge.quorumSource (prepareVoteFilter ⟨1, "v"⟩)
        (prepareAcceptFilter ⟨1, "v"⟩) chainVotes = .ok true ∧
      isVblocking votingChain.quorum (senders (prepareVoteFilter ⟨1, "v"⟩) chainVotes) = false ∧
      ¬ Justified votingChain Pledge.quorumSource (prepareVoteFilter ⟨1, "v"⟩)
        (prepareAcceptFilter ⟨1, "v"⟩) chainVotes) ∧
    federatedAccept fourNodes Pledge.quorumSource (prepareVoteFilter ⟨1, "v"⟩)
        (prepareAcceptFilter ⟨1, "v"⟩) twoVotes = .ok true ∧
      senders (prepareAcceptFilter ⟨1, "v"⟩) twoVotes = ∅ ∧
      ¬ Justified fourNodes Pledge.quorumSource (prepareVoteFilter ⟨1, "v"⟩)
        (prepareAcceptFilter ⟨1, "v"⟩) twoVotes := by
  decide +kernel

section Externalized

theorem isQuorumSlice_singleton (nodeID : String) (nodes : Finset String) :
    isQuorumSlice (getSingletonQuorum nodeID) nodes = true ↔ nodeID ∈ nodes := by
  have need : (getSingletonQuorum nodeID).need = 1 := by
    simp [Quorum.need, getSingletonQuorum, Quorum.size, Quorum.validators, Quorum.nestQuorums,
      Quorum.threshold]
  rw [isQuorumSlice_eq, countdown_nonpos_iff, need, memberFlags_eq_append]
  by_cases inside : nodeID ∈ nodes
  · simp [getSingletonQuorum, Quorum.validators, Quorum.nestQuorums, inside]
  · simp [getSingletonQuorum, Quorum.validators, Quorum.nestQuorums, inside]

variable (ctx : VotingContext) {stmts : StatementMap Pledge} {node quorumHash : String}
  {B : Ballot} {HC : Nat} (latest : stmts.lookup node = some (.externalize B HC quorumHash))

include latest

theorem hasSlice_externalize (nodes : Finset String) :
    hasSlice ctx Pledge.quorumSource stmts nodes node = true ↔ ctx.nodeID ∈ nodes := by
  simp only [hasSlice, latest, Pledge.quorumSource, getStatementQuorum]
  exact isQuorumSlice_singleton ctx.nodeID nodes

/-- Whatever the filtered nodes are, an externalized one among them survives the pruning
with the local node and falls without it. -/
theorem mem_pruneNodes_externalize {nodes : Finset String}
    (resolves : Resolves ctx Pledge.quorumSource stmts nodes) (filtered : node ∈ nodes) :
    ∃ left, pruneNodes ctx Pledge.quorumSource stmts nodes = .ok left ∧
      (node ∈ left ↔ ctx.nodeID ∈ nodes) := by
  refine ⟨_, pruneNodes_eq ctx Pledge.quorumSource resolves, ?_⟩
  rw [mem_pass, hasSlice_externalize ctx latest]
  exact and_iff_right filtered

/-- The pruning keeps an externalized sender exactly if the local node passes the filter
too; and the quorum of its statement is the sender alone exactly if it is the local node.
-/
theorem externalized_kept_iff :
    (∀ filter, filter (.externalize B HC quorumHash) = true →
      Resolves ctx Pledge.quorumSource stmts (senders filter stmts) →
      ∃ left, pruneNodes ctx Pledge.quorumSource stmts (senders filter stmts) = .ok left ∧
        federatedRatify ctx Pledge.quorumSource filter stmts =
          .ok (isQuorumSlice ctx.quorum left) ∧
        (node ∈ left ↔ ctx.nodeID ∈ senders filter stmts)) ∧
    (∀ voteFilter acceptFilter,
      (voteFilter (.externalize B HC quorumHash) ||
        acceptFilter (.externalize B HC quorumHash)) = true →
      Resolves ctx Pledge.quorumSource stmts (backers voteFilter acceptFilter stmts) →
      ∃ left, pruneNodes ctx Pledge.quorumSource stmts
          (backers voteFilter acceptFilter stmts) = .ok left ∧
        federatedAccept ctx Pledge.quorumSource voteFilter acceptFilter stmts =
          .ok (isVblocking ctx.quorum (senders voteFilter stmts) ||
            isQuorumSlice ctx.quorum left) ∧
        (node ∈ left ↔ ctx.nodeID ∈ backers voteFilter acceptFilter stmts)) ∧
    (getStatementQuorum ctx (Pledge.quorumSource (.externalize B HC quorumHash)) =
        .ok (some (getSingletonQuorum node)) ↔
      node = ctx.nodeID) := by
  refine ⟨?_, ?_, ?_⟩
  · intro filter passes resolves
    obtain ⟨left, pruned, kept⟩ := mem_pruneNodes_externalize ctx latest resolves
      (mem_senders.mpr ⟨_, latest, passes⟩)
    refine ⟨left, pruned, ?_, kept⟩
    simp only [federatedRatify, pruned]
  · intro voteFilter acceptFilter passes resolves
    have filtered : node ∈ backers voteFilter acceptFilter stmts := by
      rw [backers_eq_senders]
      exact mem_senders.mpr ⟨_, latest, passes⟩
    obtain ⟨left, pruned, kept⟩ := mem_pruneNodes_externalize ctx latest resolves filtered
    refine ⟨left, pruned, ?_, kept⟩
    rw [backers] at pruned
    simp only [federatedAccept, pruned]
    cases isVblocking ctx.quorum (senders voteFilter stmts) <;> rfl
  · simp only [Pledge.quorumSource, getStatementQuorum, getSingletonQuorum, Except.ok.injEq,
      Option.some.injEq, Quorum.mk.injEq, List.cons.injEq, and_true, true_and]
    exact eq_comm

end Externalized

private def externalized : Pledge := .externalize ⟨1, "v"⟩ 1 "q"

private def follower : VotingContext where
  nodeID := "n"
  quorum := .mk 1 ["p"] []
  getQuorum := fun _ => some (.mk 1 ["n", "p"] [])

private def allExternalized : StatementMap Pledge :=
  (AList.insert "p" externalized ∅).insert "n" (preparedUnder "q")

/-- With the local node among the filtered nodes the peer is kept. -/
theorem externalized_kept_caughtUp :
    ∃ left, pruneNodes follower Pledge.quorumSource allExternalized
        (senders (prepareAcceptFilter ⟨1, "v"⟩) allExternalized) = .ok left ∧ "p" ∈ left := by
  have latest : allExternalized.lookup "p" = some externalized := by decide +kernel
  obtain ⟨left, pruned, -, kept⟩ := (externalized_kept_iff follower latest).1
    (prepareAcceptFilter ⟨1, "v"⟩) (by decide +kernel)
    ((lookupFault_eq_none_iff _ _ _ _).mp (by decide +kernel))
  exact ⟨left, pruned, kept.mpr (by decide +kernel)⟩

private def behind : StatementMap Pledge := AList.insert "p" externalized ∅

/-- A node that is behind drops the externalized peer and ratifies nothing, although the
peer is all it relies on. -/
theorem externalized_dropped :
    senders (prepareAcceptFilter ⟨1, "v"⟩) behind = {"p"} ∧
      pruneNodes follower Pledge.quorumSource behind
        (senders (prepareAcceptFilter ⟨1, "v"⟩) behind) = .ok ∅ ∧
      federatedRatify follower Pledge.quorumSource (prepareAcceptFilter ⟨1, "v"⟩) behind =
        .ok false ∧
      isQuorumSlice follower.quorum {"p"} = true ∧
      getStatementQuorum follower (Pledge.quorumSource externalized) ≠
        .ok (some (getSingletonQuorum "p")) := by
  refine ⟨by decide +kernel, ?_, by decide +kernel, by decide +kernel, ?_⟩
  · rw [pruneNodes_eq _ _ ((lookupFault_eq_none_iff _ _ _ _).mp (by decide +kernel))]
    exact congrArg Except.ok (by decide +kernel)
  · simp [externalized, Pledge.quorumSource, getStatementQuorum, follower, getSingletonQuorum]

end Ultiledger
