import Ultiledger.PeerRequests
import Ultiledger.ValidatorQueues

/-! # From a request to the consensus -/

namespace Ultiledger

open AbortingProgram Program

/-- `RecvStatement` of the engine, which ignores the node's own statements. -/
def recvStatement (ctx : DecreeContext) (vctx : ValidatorContext) (world : World)
    (stmt : Statement) : Program Validator Fault (Except String Unit) :=
  if stmt.nodeID = ctx.nodeID then pure (.ok ())
  else do
    match ← Validator.recv ctx vctx world (some stmt) with
    | .error err => pure (.error ("send statement to validator failed: " ++ err))
    | .ok () => pure (.ok ())

/-- The server and the validator of a node, with the requests that have come in. -/
structure FrontEnd where
  requests : List (ServerView × Request)
  server : NodeServer
  queues : ValidatorQueues

section Steps

variable (ctx : ServerContext) (sha256Hash : Statement → Except String String)
  (maxDecrees : UInt64)

/-- Requests of peers that speak for themselves, statements that the server hands on, and the
goroutines of the validator, which learn no hash. -/
inductive FrontEnd.Reached : FrontEnd → Prop
  | start : Reached ⟨[], newNodeServer, newValidatorQueues⟩
  | request (node : FrontEnd) (view : ServerView) (request : Request) (reached : Reached node)
      (speaks : SpeaksForItself ctx node.server request) :
      Reached { node with
        requests := node.requests ++ [(view, request)]
        server := (handle ctx view request node.server).1 }
  | recv (node : FrontEnd) (dctx : DecreeContext) (vctx : ValidatorContext) (world : World)
      (stmt : Statement) {result : Except String Unit} {after : Validator} (reached : Reached node)
      (forwarded : stmt ∈ node.server.forwarded) (hashes : vctx.sha256Hash = sha256Hash)
      (ended : recvStatement dctx vctx world stmt node.queues.toValidator = .done result after) :
      Reached { node with queues := { node.queues with toValidator := after } }
  | validator (node : FrontEnd) (queues : ValidatorQueues) (reached : Reached node)
      (step : ValidatorStep sha256Hash maxDecrees node.queues queues)
      (silent : queues.statements = node.queues.statements) :
      Reached { node with queues := queues }

structure FrontEnd.Sound (node : FrontEnd) : Prop where
  ordered : node.queues.Ordered sha256Hash
  signed : ∀ stmt ∈ node.server.forwarded, SignedByNode ctx node.requests stmt
  heard : ∀ hash ∈ node.queues.statements, ∃ stmt ∈ node.server.forwarded,
    sha256Hash stmt = .ok hash

end Steps

section Runs

variable {ctx : ServerContext} {sha256Hash : Statement → Except String String}
  {maxDecrees : UInt64} {node : FrontEnd}

theorem recv_statements {dctx : DecreeContext} {vctx : ValidatorContext} {world : World}
    {stmt : Statement} {v after : Validator} {result : Except String Unit}
    (ended : Validator.recv dctx vctx world (some stmt) v = .done result after) :
    ∀ hash ∈ after.statements, hash ∈ v.statements ∨ vctx.sha256Hash stmt = .ok hash := by
  cases hashed : vctx.sha256Hash stmt with
  | error err =>
    simp only [Validator.recv, hashed] at ended
    obtain ⟨-, rfl⟩ := pure_eq_done.mp ended
    exact fun _ => .inl
  | ok new =>
    by_cases known : new ∈ v.statements
    · rw [recv_of_known hashed known] at ended
      cases ended
      exact fun _ => .inl
    · rw [recv_of_new hashed known] at ended
      intro hash member
      suffices hash ∈ new :: v.statements by grind
      split at ended <;> cases ended <;> exact member

theorem FrontEnd.Sound.request {view : ServerView} {request : Request} {next : NodeServer}
    (sound : node.Sound ctx sha256Hash) (speaks : SpeaksForItself ctx node.server request)
    (effect : Effect ctx view node.server request next) :
    FrontEnd.Sound ctx sha256Hash ⟨node.requests ++ [(view, request)], next, node.queues⟩ := by
  have earlier : ∀ stmt ∈ node.server.forwarded,
      SignedByNode ctx (node.requests ++ [(view, request)]) stmt := by
    intro stmt member
    obtain ⟨seen, carrier, data, signature, requestMem, signed⟩ := sound.signed stmt member
    exact ⟨seen, carrier, data, signature, List.mem_append_left _ requestMem, signed⟩
  cases effect with
  | forwarded md req stmt key isStatement decoded sender verified =>
    refine ⟨sound.ordered, fun other otherMem => ?_, fun hash known => ?_⟩
    · rcases List.mem_append.mp otherMem with before | new
      · exact earlier other before
      · obtain rfl := List.mem_singleton.mp new
        obtain ⟨signer, named, sameKey⟩ := speaks md req other key rfl isStatement decoded sender
        refine ⟨view, _, _, _, List.mem_append_right _ (.head _), .notify md req, decoded,
          signer, named, ?_⟩
        rwa [ServerContext.verifyByKey, sameKey]
    · obtain ⟨source, forwarded, hashed⟩ := sound.heard hash known
      exact ⟨source, List.mem_append_left _ forwarded, hashed⟩
  | _ => exact ⟨sound.ordered, earlier, sound.heard⟩

theorem FrontEnd.Reached.sound (reached : node.Reached ctx sha256Hash maxDecrees) :
    node.Sound ctx sha256Hash := by
  induction reached with
  | start =>
    exact ⟨ordered_newValidatorQueues, by simp [newNodeServer], by simp [newValidatorQueues]⟩
  | request node view request reached speaks ih => exact ih.request speaks (effect_handle request)
  | @recv node dctx vctx world stmt result final reached forwarded hashes ended ih =>
    unfold recvStatement at ended
    split at ended
    · obtain ⟨-, rfl⟩ := pure_eq_done.mp ended
      exact ih
    · obtain ⟨answer, after, received, replied⟩ := bind_eq_done.mp ended
      obtain rfl : after = final := by
        cases answer <;> exact (pure_eq_done.mp replied).2
      refine ⟨ih.ordered.recv (hashes ▸ received_of_recv received), ih.signed, fun hash known => ?_⟩
      rcases recv_statements received hash known with before | new
      · exact ih.heard hash before
      · exact ⟨stmt, forwarded, hashes ▸ new⟩
  | validator node queues reached step silent ih =>
    exact ⟨ordered_step ih.ordered step, ih.signed, fun hash known => ih.heard hash (silent ▸ known)⟩

/-- If peers speak for themselves and no two statements have one hash, every statement that is
handed to the consensus was signed by its node, and none is handed over twice. -/
theorem ready_signed_once
    (collisionFree : ∀ stmt other hash, sha256Hash stmt = .ok hash → sha256Hash other = .ok hash →
      stmt = other) (reached : node.Reached ctx sha256Hash maxDecrees) :
    ∀ stmt ∈ node.queues.readyChan, SignedByNode ctx node.requests stmt ∧
      node.queues.readyChan.count stmt = 1 := by
  intro stmt sent
  have sound := reached.sound
  have once := sound.ordered.once stmt
  have known := sound.ordered.known stmt
  have copy := List.count_pos_iff.mpr sent
  rw [ValidatorQueues.copies] at once known
  obtain ⟨hash, recorded, hashed⟩ := known (by omega)
  obtain ⟨other, forwarded, same⟩ := sound.heard hash recorded
  obtain rfl := collisionFree stmt other hash hashed same
  exact ⟨sound.signed stmt forwarded, by omega⟩

end Runs

section Voting

private def firstVote : Statement :=
  ⟨.prepare, "a", 7, some (.prepare ⟨some ⟨1, "v"⟩, none, none, 0, 0, "a"⟩)⟩

private def votingServer : ServerContext :=
  ⟨"net", fun _ => some ⟨.nodeID, []⟩, fun _ _ _ => true, fun _ => none, fun _ => some firstVote,
    fun _ => .ok [], fun _ => .ok "", 1⟩

private def votingView : ServerView := ⟨⟨Bucket.empty, fun _ _ => .ok ()⟩, fun _ => .ok ()⟩

private def greeting : Request := .hello (some ⟨["addr"], ["a"]⟩) "net"

private def greeted : NodeServer := (handle votingServer votingView greeting newNodeServer).1

private def voteRequest : Request :=
  .notify (some ⟨["addr"], ["a"]⟩) ⟨"net", .statement, [], ""⟩

private def hashVote (stmt : Statement) : Except String String :=
  if stmt = firstVote then .ok "vote" else .error "unknown"

private def receivesVote : Outcome Validator Fault (Except String Unit) :=
  recvStatement (.plain 7 "n" (.mk 1 ["a"] []) (fun _ => some (.mk 1 ["a"] [])) fun _ => 0)
    ⟨hashVote, fun _ => none⟩ .plain firstVote newValidatorQueues.toValidator

private def votingNode : FrontEnd where
  requests := [(votingView, greeting), (votingView, voteRequest)]
  server := (handle votingServer votingView voteRequest greeted).1
  queues := ValidatorQueues.dispatch 7 { newValidatorQueues with toValidator := receivesVote.state }

/-- Node a says hello and votes, and the vote comes to the consensus. -/
theorem ready_signed_once_vote :
    firstVote ∈ votingNode.queues.readyChan ∧
      SignedByNode votingServer votingNode.requests firstVote := by
  have speaks : SpeaksForItself votingServer greeted voteRequest := by
    rintro _ _ stmt key ⟨⟩ - - sender
    have filed : greeted.senderKey (some ⟨["addr"], ["a"]⟩) = some ⟨.nodeID, []⟩ := by
      decide +kernel
    exact ⟨⟨.nodeID, []⟩, rfl, congrArg ULTKey.hash (Option.some.inj (filed.symm.trans sender))⟩
  obtain ⟨result, ended⟩ := Outcome.exists_eq_done
    (show receivesVote.isDone = true by decide +kernel)
  have said : FrontEnd.Reached votingServer hashVote 5 _ :=
    .request _ votingView greeting .start (by rintro _ _ _ _ ⟨⟩)
  have reached : votingNode.Reached votingServer hashVote 5 :=
    .validator _ _ (.recv _ _ _ _ firstVote (.request _ votingView voteRequest said speaks)
      (by decide +kernel) rfl ended) (.dispatch 7) (by decide +kernel)
  have collisionFree : ∀ stmt other hash, hashVote stmt = .ok hash → hashVote other = .ok hash →
      stmt = other := by
    unfold hashVote
    grind
  have sent : firstVote ∈ votingNode.queues.readyChan := by decide +kernel
  exact ⟨sent, (ready_signed_once collisionFree reached firstVote sent).1⟩

end Voting

end Ultiledger
