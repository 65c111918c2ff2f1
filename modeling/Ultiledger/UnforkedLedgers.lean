import Ultiledger.Engine

/-! # Ledgers do not fork

A header holds the value that its ledger was closed with and the hash of the header
before it, so nodes that close the same values have the same headers.
-/

namespace Ultiledger

open AbortingProgram Program QuorumSystems

section Chains

variable {ctx : LedgerContext} {headers others : List LedgerHeader}
  {infos otherInfos : List CloseInfo}

/-- Chains that were closed with the same values have the same headers. -/
theorem HeaderChain.suffix_of_agreeing (chain : HeaderChain ctx headers infos)
    (other : HeaderChain ctx others otherInfos)
    (agree : ∀ one ∈ infos, ∀ two ∈ otherInfos, one.index = two.index → one.value = two.value)
    (shorter : headers.length ≤ others.length) : headers <:+ others := by
  induction other generalizing headers infos with
  | genesis =>
    cases chain with
    | genesis => exact List.suffix_refl _
    | close => simp at shorter
  | close curr rest restInfos info txsetHash cv tail next linked hashed decoded agrees ih =>
    have agreeTail : ∀ one ∈ infos, ∀ two ∈ restInfos, one.index = two.index →
        one.value = two.value :=
      fun one oneMem two twoMem => agree one oneMem two (List.mem_append_left _ twoMem)
    by_cases fits : headers.length ≤ (curr :: rest).length
    · exact (ih chain agreeTail fits).trans (List.suffix_cons _ _)
    cases chain with
    | genesis => simp at fits
    | close first older olderInfos last key value chain due link hash decode same =>
      have tails : first :: older <:+ curr :: rest := by
        refine ih chain (fun one oneMem => agreeTail one (List.mem_append_left _ oneMem)) ?_
        simpa using shorter
      cases tails.eq_of_length_le (by simp at fits ⊢; omega)
      have index : last.index = info.index := due.trans next.symm
      have values : last.value = info.value := agree last (by simp) info (by simp) index
      rw [values, decoded] at decode
      cases decode
      rw [link] at linked
      rw [index, values, Except.ok.inj linked, ← same, ← agrees]

end Chains

/-- Every node that externalizes a value is backed by nodes that are locked on it. -/
theorem Federation.Reaches.backed {f : Federation} {net : String → NodeState}
    (reached : f.Reaches net) (ratifySound : f.RatifySound) :
    ∃ shadow, ∀ node ∈ f.nodes, ∀ sent ∈ (net node).decree.externalizeChan,
      Backed f.slices (f.Locked shadow sent.value) node := by
  obtain ⟨shadow, steps, represents⟩ := reached.steps ratifySound
  refine ⟨shadow, fun node member sent onChannel => ?_⟩
  rw [(represents node).1.externalizeChan] at onChannel
  have honest := steps.honest ratifySound node member
  obtain ⟨phase, value, lock, single⟩ := honest.sound.externalized (List.ne_nil_of_mem onChannel)
  rw [single, List.mem_singleton] at onChannel
  rw [onChannel]
  exact honest.backed value phase lock

/-- Engines whose decrees know each other's quorums.  They hash and encode alike. -/
structure EngineNetwork extends Federation where
  role : String → String
  maxDecrees : String → Nat
  ledger : LedgerContext

structure EngineNode (tm : TxManager) where
  engine : Engine tm
  running : Bool

namespace EngineNetwork

variable (n : EngineNetwork) {tm : TxManager}

def engine (node : String) : EngineContext :=
  ⟨n.context node, n.role node, n.maxDecrees node, n.ledger⟩

def after (node : String) (event : EngineEvent) (e : Engine tm) : EngineNode tm :=
  let outcome := event.perform (n.engine node) e
  ⟨outcome.state, outcome.isDone⟩

/-- The nodes take one event at a time, each in step with its ledger.  A statement that is
ready was sent by the decree with its index of some node. -/
inductive Reaches : (String → EngineNode tm) → Prop where
  | start (net : String → EngineNode tm)
      (started : ∀ node ∈ n.nodes, (net node).engine.Started (n.engine node)) : Reaches net
  | step (net : String → EngineNode tm) (node : String) (event : EngineEvent)
      (reached : Reaches net) (member : node ∈ n.nodes) (running : (net node).running = true)
      (inStep : event.InStep (net node).engine)
      (delivered : ∀ stmt view fuel, event = .ready stmt view fuel → ∃ sender ∈ n.nodes,
        ∃ d ∈ (net sender).engine.decrees stmt.index, stmt ∈ d.statementChan) :
      Reaches (Function.update net node (n.after node event (net node).engine))

/-- The decrees of one index. -/
def atIndex (idx : Nat) : Federation where
  nodes := n.nodes
  index := idx
  context node := (n.engine node).decree idx
  nodeID := n.nodeID
  sameIndex _ _ := rfl
  valid := n.valid
  named := n.named
  known := n.known

variable {n} {net : String → EngineNode tm}

theorem Reaches.sound (reached : n.Reaches net) :
    ∀ node ∈ n.nodes, (net node).running = true → (net node).engine.Sound (n.engine node) := by
  induction reached with
  | start net started => exact fun node member _ => (started node member).sound
  | step net node event reached member running inStep delivered ih =>
    intro other otherMem otherRunning
    by_cases same : other = node
    · subst same
      rw [Function.update_self] at otherRunning ⊢
      have holds := event.perform_keeps (ih other member running) inStep
      exact ((holds_of_done (Outcome.eq_done otherRunning)).mp holds).1
    · rw [Function.update_of_ne same] at otherRunning ⊢
      exact ih other otherMem otherRunning

theorem acts_of_sound {node : String} {event : EngineEvent} {e : Engine tm}
    (sound : e.Sound (n.engine node)) (inStep : event.InStep e) :
    event.Acts (n.engine node) (n.after node event e).running e (n.after node event e).engine := by
  have holds := event.perform_keeps sound inStep
  unfold EngineEvent.Keeps Holds at holds
  unfold after
  cases ended : event.perform (n.engine node) e with
  | done _ final => exact (ended ▸ holds : _ ∧ _).2
  | abort fault final => exact (ended ▸ holds :)

variable (n) in
/-- A node of a federation stands for the decree of one index of an engine. -/
structure Mirrors (idx : Nat) (node : String) (here : EngineNode tm) (state : NodeState) :
    Prop where
  current : here.running = true → (n.engine node).current here.engine idx = state.decree
  outputs : ∀ d ∈ here.engine.decrees idx, SameOutputs state.decree d
  running : here.running = true → state.running = true

/-- The decrees of one index take the steps of a federation. -/
theorem Reaches.decrees (reached : n.Reaches net) (idx : Nat) :
    ∃ shadow, (n.atIndex idx).Reaches shadow ∧
      ∀ node ∈ n.nodes, n.Mirrors idx node (net node) (shadow node) := by
  induction reached with
  | start net started =>
    refine ⟨_, .start, fun node member => ⟨fun _ => ?_, ?_, fun _ => rfl⟩⟩
    · rw [EngineContext.current, (started node member).decrees, (started node member).quorum]
      rfl
    · simp [(started node member).decrees]
  | step net node event reached member running inStep delivered ih =>
    obtain ⟨shadow, steps, mirrors⟩ := ih
    have atNode := mirrors node member
    have elsewhere : ∀ state : NodeState, n.Mirrors idx node
        (n.after node event (net node).engine) state → ∀ other ∈ n.nodes, n.Mirrors idx other
          (Function.update net node (n.after node event (net node).engine) other)
          (Function.update shadow node state other) := by
      intro state mirrored other otherMem
      by_cases isNode : other = node
      · subst isNode
        rwa [Function.update_self, Function.update_self]
      · rw [Function.update_of_ne isNode, Function.update_of_ne isNode]
        exact mirrors other otherMem
    cases acts_of_sound (reached.sound node member running) inStep with
    | idle same quorum =>
      refine ⟨_, steps, ?_⟩
      rw [← Function.update_eq_self node shadow]
      refine elsewhere _ ⟨fun _ => ?_, same ▸ atNode.outputs, fun _ => atNode.running running⟩
      rw [EngineContext.current, same, quorum]
      exact atNode.current running
    | call called turn received changed quorum ended =>
      by_cases here : idx = called
      · subst here
        rw [atNode.current running] at changed quorum ended
        have listed := (congrFun changed idx).trans (Function.update_self _ _ _)
        refine ⟨_, .step shadow node turn steps member (atNode.running running) ?_, elsewhere _
          ⟨fun _ => ?_, fun d decree => ?_, fun stillRuns => ended.symm.trans stillRuns⟩⟩
        · intro stmt call
          obtain ⟨rfl, view, fuel, ready⟩ := received stmt call
          obtain ⟨sender, senderMem, d, decree, sent⟩ := delivered stmt view fuel ready
          rw [((mirrors sender senderMem).outputs d decree).statementChan] at sent
          exact ⟨sender, senderMem, sent⟩
        · rw [EngineContext.current, listed, quorum]
          rfl
        · rw [listed, List.mem_singleton] at decree
          rw [decree]
          exact ⟨rfl, rfl⟩
      · have unchanged := (congrFun changed idx).trans (Function.update_of_ne here _ _)
        cases runs : (n.after node event (net node).engine).running with
        | false =>
          refine ⟨_, steps, ?_⟩
          rw [← Function.update_eq_self node shadow]
          exact elsewhere _ ⟨by simp [runs], unchanged ▸ atNode.outputs, by simp [runs]⟩
        | true =>
          have sound := (reached.sound node member running).current called
          have hears : turn.Hears fun _ _ => True := fun _ _ _ _ => trivial
          have progress := (holds_of_done (Outcome.eq_done (ended.symm.trans runs))).mp
            (runTurn_leads hears _ sound)
          have settles : (shadow node).decree.quorum.Settles
              (n.after node event (net node).engine).engine.quorum := by
            rw [quorum, ← atNode.current running]
            exact progress.settles
          refine ⟨_, steps.settle member (atNode.running running) settles,
            elsewhere _ ⟨fun _ => ?_, unchanged ▸ fun d decree => ?_, fun _ => rfl⟩⟩
          · rw [EngineContext.current, unchanged, ← atNode.current running]
            rfl
          · obtain ⟨statements, values⟩ := atNode.outputs d decree
            exact ⟨statements, values⟩

/-- In every network of engines whose quorums meet and in which ratification finds real
quorums, the ledger of one running node extends that of another. -/
theorem engines_never_fork (n : EngineNetwork) (intersecting : Intersecting n.slices n.nodes)
    (ratifySound : n.RatifySound) {net : String → EngineNode tm} (reached : n.Reaches net)
    {first second : String} (firstMem : first ∈ n.nodes) (secondMem : second ∈ n.nodes)
    (firstRuns : (net first).running = true) (secondRuns : (net second).running = true) :
    ∃ one other, HeaderChain n.ledger one (net first).engine.lm.closed ∧
      Represents n.ledger one (net first).engine.lm.toLedgerCore ∧
      HeaderChain n.ledger other (net second).engine.lm.closed ∧
      Represents n.ledger other (net second).engine.lm.toLedgerCore ∧
      (one <:+ other ∨ other <:+ one) := by
  have firstSound := reached.sound first firstMem firstRuns
  have secondSound := reached.sound second secondMem secondRuns
  obtain ⟨one, chain, represents, -⟩ := firstSound.chain
  obtain ⟨other, otherChain, otherRepresents, -⟩ := secondSound.chain
  have agree : ∀ info ∈ (net first).engine.lm.closed,
      ∀ otherInfo ∈ (net second).engine.lm.closed, info.index = otherInfo.index →
        info.value = otherInfo.value := by
    intro info closed otherInfo otherClosed sameIndex
    obtain ⟨shadow, steps, mirrors⟩ := reached.decrees info.index
    obtain ⟨d, decree, sent⟩ := firstSound.closed info closed
    obtain ⟨d', decree', sent'⟩ := secondSound.closed otherInfo otherClosed
    rw [((mirrors first firstMem).outputs d decree).externalizeChan] at sent
    rw [← sameIndex] at decree'
    rw [((mirrors second secondMem).outputs d' decree').externalizeChan] at sent'
    obtain ⟨locks, backed⟩ := steps.backed ratifySound
    obtain ⟨common, ⟨-, locked⟩, -, locked'⟩ := intersecting.exists_common
      (fun _ isLocked => isLocked.1) (fun _ isLocked => isLocked.1)
      (backed first firstMem _ sent) (backed second secondMem _ sent')
    exact Option.some.inj (locked.symm.trans locked')
  refine ⟨one, other, chain, represents, otherChain, otherRepresents, ?_⟩
  rcases le_total one.length other.length with shorter | longer
  · exact .inl (chain.suffix_of_agreeing otherChain agree shorter)
  · exact .inr (otherChain.suffix_of_agreeing chain (fun info closed otherInfo otherClosed same =>
      (agree otherInfo otherClosed info closed same.symm).symm) longer)

private theorem soloQuorum_valid : validateQuorum soloQuorum 0 false = .ok () := by
  decide +kernel

private def hamlet : EngineNetwork where
  nodes := {"A", "B"}
  index := 0
  context node := (soloContext node).toDecreeContext
  nodeID _ _ := rfl
  sameIndex _ _ := rfl
  valid _ _ := soloQuorum_valid
  named node member := by
    change node ≠ ""
    rintro rfl
    exact absurd member (by decide)
  known _ _ _ _ := ⟨soloQuorum, .refl, rfl⟩
  role _ := "validator"
  maxDecrees _ := 5
  ledger := numberedHeaders

private def hamletProposed : String → EngineNode TxManager.plain :=
  Function.update (fun _ => ⟨newEngine, true⟩) "A" (hamlet.after "A" soloPropose newEngine)

private def hamletClosed : String → EngineNode TxManager.plain :=
  Function.update hamletProposed "A" (hamlet.after "A" soloExternalize (hamletProposed "A").engine)

/-- Node A has closed a second ledger, and node B still has the first one only. -/
theorem engines_never_fork_second :
    (hamletClosed "A").engine.lm.closed.length = 1 ∧ ∃ one other,
      HeaderChain hamlet.ledger one (hamletClosed "A").engine.lm.closed ∧
      HeaderChain hamlet.ledger other (hamletClosed "B").engine.lm.closed ∧
      (one <:+ other ∨ other <:+ one) := by
  have memA : "A" ∈ hamlet.nodes := Finset.mem_insert_self _ _
  have memB : "B" ∈ hamlet.nodes := Finset.mem_insert_of_mem (Finset.mem_singleton_self _)
  have atA : hamletProposed "A" = hamlet.after "A" soloPropose newEngine :=
    Function.update_self _ _ _
  have early : hamlet.Reaches hamletProposed :=
    .step _ "A" soloPropose (.start _ fun node _ => newEngine_started node) memA rfl trivial
      (by simp [soloPropose])
  have late : hamlet.Reaches hamletClosed :=
    .step _ "A" soloExternalize early memA (by rw [atA]; decide +kernel)
      (by rw [atA]; exact proposed_due) (by simp [soloExternalize])
  have uniform : hamlet.Uniform soloQuorum := ⟨rfl, fun _ _ => rfl⟩
  have needsA : ∀ set ⊆ hamlet.nodes, IsQuorum hamlet.slices set → "A" ∈ set := by
    intro set within isQuorum
    obtain ⟨node, nodeMem⟩ := isQuorum.nonempty
    have slices : ∀ set ∈ ({"A", "B"} : Finset String).powerset,
        satisfied soloQuorum set = true → "A" ∈ set := by decide +kernel
    exact slices set (Finset.mem_powerset.mpr within) (isQuorum.served node nodeMem)
  have meet : Intersecting hamlet.slices hamlet.nodes := fun first second firstIn secondIn one two =>
    ⟨"A", Finset.mem_inter.mpr ⟨needsA first firstIn one, needsA second secondIn two⟩⟩
  obtain ⟨one, other, chain, -, otherChain, -, comparable⟩ := engines_never_fork hamlet meet
    uniform.ratifySound late memA memB (by decide +kernel) (by decide +kernel)
  exact ⟨by decide +kernel, one, other, chain, otherChain, comparable⟩

end EngineNetwork

end Ultiledger
