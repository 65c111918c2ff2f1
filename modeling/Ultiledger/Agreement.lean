import Ultiledger.DecreeRuns
import Ultiledger.QuorumSystems

/-!
# Agreement between nodes

A federation is a finite set of nodes that run the decree code for one index, each
with a quorum of its own, and receive what any of them has sent in any order, any
number of times or never.  Where ratification finds real quorums, a node that
externalizes is backed by a quorum that is locked on the value, and quorums meet.
-/

namespace Ultiledger

open AbortingProgram Program Relation QuorumSystems

variable {stmt : Statement} {pledge : Pledge} {nodeID : String} {ballot : Ballot} {l r : Nat}

/-- What a quorum may have become, as the nomination protocol sorts nested quorums in
place. -/
def Quorum.Settles : Quorum → Quorum → Prop :=
  ReflTransGen fun before after => ∃ world : World, after = settleQuorum world.arrange before

/-- Nodes that run a decree of one index and know each other's quorums, each in an order in
which its owner may have had it. -/
structure Federation where
  nodes : Finset String
  index : Nat
  context : String → DecreeContext
  nodeID : ∀ node ∈ nodes, (context node).nodeID = node
  sameIndex : ∀ node ∈ nodes, (context node).index = index
  valid : ∀ node ∈ nodes, validateQuorum (context node).quorum 0 false = .ok ()
  named : ∀ node ∈ nodes, (context node).quorumHash ≠ ""
  known : ∀ node ∈ nodes, ∀ other ∈ nodes, ∃ quorum,
    (context other).quorum.Settles quorum ∧
      (context node).getQuorum (context other).quorumHash = some quorum

structure NodeState where
  decree : DecreeState
  running : Bool

namespace Federation

variable (f : Federation)

def after (node : String) (turn : Turn) (d : DecreeState) : NodeState :=
  let outcome := runTurn (f.context node) turn d
  ⟨outcome.state, outcome.isDone⟩

/-- The nodes make calls.  A node has one quorum for its decrees, which a decree of another
index may sort at any time. -/
inductive Reaches : (String → NodeState) → Prop where
  | start : Reaches fun node => ⟨newDecree (f.context node), true⟩
  | step (net : String → NodeState) (node : String) (turn : Turn) (reached : Reaches net)
      (member : node ∈ f.nodes) (running : (net node).running = true)
      (delivered : ∀ stmt, turn.call = .recv (some stmt) →
        ∃ sender ∈ f.nodes, stmt ∈ (net sender).decree.statementChan) :
      Reaches (Function.update net node (f.after node turn (net node).decree))
  | sort (net : String → NodeState) (node : String) (world : World) (reached : Reaches net)
      (member : node ∈ f.nodes) (running : (net node).running = true) :
      Reaches (Function.update net node
        ⟨(net node).decree.withQuorum (settleQuorum world.arrange (net node).decree.quorum), true⟩)

def slices (node : String) (set : Finset String) : Prop :=
  satisfied (f.context node).quorum set = true

def Settled (node : String) (quorum : Quorum) : Prop := (f.context node).quorum.Settles quorum

/-- The quorum that a node counts for another: the node itself once the other has
externalized, else the quorum that it finds under the hash of the other, which for its own
hash is its own quorum in the order that it has by now. -/
def countedQuorum (node : String) (own : Quorum) (externalized : Finset String)
    (other : String) : Quorum :=
  if other ∈ externalized then getSingletonQuorum node
  else if (f.context other).quorumHash = (f.context node).quorumHash then own
  else ((f.context node).getQuorum (f.context other).quorumHash).getD own

/-- Whenever the test of `federatedRatify` succeeds on some nodes, there are nodes
among them that hold a slice of the local quorum and of the quorum of each of
their own that has not externalized. -/
def RatifySound : Prop :=
  ∀ node ∈ f.nodes, ∀ own, f.Settled node own →
    ∀ counted ⊆ f.nodes, ∀ externalized ⊆ counted,
      isQuorumSlice own (counted.filter fun other =>
        isQuorumSlice (f.countedQuorum node own externalized other) counted = true) = true →
      ∃ support ⊆ counted, support.Nonempty ∧ f.slices node support ∧
        ∀ other ∈ support, other ∉ externalized → f.slices other support

end Federation

section Steps

variable {ctx : DecreeContext} {heard further : String → Pledge → Prop} {d d' : DecreeState}

theorem DecreeStep.mono_heard (step : DecreeStep ctx heard d d')
    (wider : ∀ nodeID pledge, heard nodeID pledge → further nodeID pledge) :
    DecreeStep ctx further d d' := by
  cases step with
  | aside aside => exact .aside aside
  | store nodeID pledge assembled known =>
    exact .store nodeID pledge assembled (known.imp_left (wider nodeID pledge))
  | announce pledge vouched => exact .announce pledge vouched
  | resend => exact .resend
  | move move inOrder => exact .move move inOrder
  | externalize c phase commit first => exact .externalize c phase commit first

theorem DecreeStep.statementChan_subset (step : DecreeStep ctx heard d d') :
    d.statementChan ⊆ d'.statementChan := by
  cases step with
  | aside aside =>
    obtain ⟨sent, grown, -⟩ := aside.statementChan
    rw [grown]
    exact List.subset_append_left _ _
  | store nodeID pledge assembled known => exact .refl _
  | announce pledge vouched => exact List.subset_append_left _ _
  | resend => exact List.subset_append_left _ _
  | move move inOrder => rw [move.statementChan]; exact .refl _
  | externalize c phase commit first => exact .refl _

theorem Progress.statementChan_subset (run : Progress ctx heard d d') :
    d.statementChan ⊆ d'.statementChan := by
  induction run with
  | refl => exact .refl _
  | tail _ step ih => exact List.Subset.trans ih step.statementChan_subset

theorem pledge_of_nominate (nomination : stmt.statementType = .nominate) (pledge : Pledge) :
    stmt ≠ pledge.statement stmt.nodeID stmt.index := by
  intro same
  rw [same] at nomination
  cases pledge <;> simp [Pledge.statement, Pledge.statementType] at nomination

theorem vouchedBy_of_commits_eq_none (commits : pledge.commits = none) (b : BallotState) :
    pledge.VouchedBy ctx b := by
  cases pledge with
  | prepare message => trivial
  | confirm B PC LC HC quorumHash => simp [Pledge.commits] at commits
  | externalize B HC quorumHash => simp [Pledge.commits] at commits

theorem DecreeStep.sent (step : DecreeStep ctx heard d d') (onChannel : stmt ∈ d'.statementChan)
    (reads : stmt = pledge.statement stmt.nodeID stmt.index) :
    stmt ∈ d.statementChan ∨ stmt.nodeID = ctx.nodeID ∧
      (pledge.VouchedBy ctx d.ballot ∨ d.latestBallot = some pledge) := by
  cases step with
  | aside aside =>
    obtain ⟨sent, grown, nominations⟩ := aside.statementChan
    rw [grown, List.mem_append] at onChannel
    refine onChannel.imp_right fun new => ?_
    exact absurd reads (pledge_of_nominate (nominations stmt new) pledge)
  | store nodeID pledge assembled known => exact .inl onChannel
  | announce announced vouched =>
    rcases List.mem_append.mp onChannel with old | new
    · exact .inl old
    · obtain rfl := List.mem_singleton.mp new
      obtain rfl := Pledge.eq_of_statement reads
      exact .inr ⟨rfl, .inl vouched⟩
  | resend =>
    rcases List.mem_append.mp onChannel with old | new
    · exact .inl old
    · obtain ⟨latest, found, rfl⟩ := Option.map_eq_some_iff.mp (Option.mem_toList.mp new)
      obtain rfl := Pledge.eq_of_statement reads
      exact .inr ⟨rfl, .inr found⟩
  | move move inOrder =>
    rw [move.statementChan] at onChannel
    exact .inl onChannel
  | externalize c phase commit first => exact .inl onChannel

theorem DecreeStep.latest (step : DecreeStep ctx heard d d')
    (found : d'.latestBallot = some pledge) (commits : pledge.commits ≠ none) :
    d.latestBallot = some pledge ∨ pledge.VouchedBy ctx d.ballot := by
  cases step with
  | aside aside =>
    rw [aside.latestBallot] at found
    exact .inl found
  | store nodeID pledge assembled known => exact .inl found
  | announce announced vouched =>
    cases found
    exact .inr vouched
  | resend => exact .inl found
  | move move inOrder => exact .inl (move.latestBallot pledge found commits)
  | externalize c phase commit first => exact .inl found

/-- A stored statement that commits its sender was stored before, or is heard now, or
is the decree's own. -/
theorem DecreeStep.stored (step : DecreeStep ctx heard d d')
    (found : d'.ballots.lookup nodeID = some pledge) (commits : pledge.commits ≠ none) :
    d.ballots.lookup nodeID = some pledge ∨ heard nodeID pledge ∨
      nodeID = ctx.nodeID ∧ pledge.VouchedBy ctx d.ballot := by
  cases step with
  | aside aside =>
    rw [aside.ballots] at found
    exact .inl found
  | store sender stored assembled known =>
    by_cases same : nodeID = sender
    · subst same
      rw [DecreeState.storeBallot, AList.lookup_insert, Option.some.injEq] at found
      subst found
      exact .inr known
    · rw [DecreeState.storeBallot, AList.lookup_insert_ne same] at found
      exact .inl found
  | announce announced vouched => exact .inl found
  | resend => exact .inl found
  | move move inOrder => exact .inl (move.ballots nodeID pledge found commits)
  | externalize c phase commit first => exact .inl found

theorem DecreeStep.quorum (step : DecreeStep ctx heard d d') :
    d'.quorum = d.quorum ∨ ∃ world : World, d'.quorum = settleQuorum world.arrange d.quorum := by
  cases step with
  | aside aside => exact aside.quorum
  | store nodeID pledge assembled known => exact .inl rfl
  | announce announced vouched => exact .inl rfl
  | resend => exact .inl rfl
  | move move inOrder => exact .inl move.quorum
  | externalize c phase commit first => exact .inl rfl

theorem Progress.settles (run : Progress ctx heard d d') : d.quorum.Settles d'.quorum := by
  induction run with
  | refl => exact .refl
  | tail _ step ih =>
    rcases step.quorum with same | settled
    · rwa [same]
    · exact ih.tail settled

theorem commits_of_commitAcceptFilter (passes : commitAcceptFilter ballot l r pledge = true) :
    pledge.commits = some ballot.value := by
  cases pledge with
  | prepare message => simp [commitAcceptFilter] at passes
  | confirm B PC LC HC quorumHash =>
    simp only [commitAcceptFilter, Bool.and_eq_true, compatibleBallots_some] at passes
    rw [Pledge.commits, passes.1.1]
  | externalize B HC quorumHash =>
    simp only [commitAcceptFilter, Bool.and_eq_true, compatibleBallots_some] at passes
    rw [Pledge.commits, passes.1]

theorem Pledge.VouchedBy.lock {b : BallotState} {value : String}
    (vouched : pledge.VouchedBy ctx b) (commits : pledge.commits = some value) :
    b.lock = some value := by
  cases pledge with
  | prepare message => simp [Pledge.commits] at commits
  | confirm B PC LC HC quorumHash => rw [vouched.1, ← commits]; rfl
  | externalize B HC quorumHash => rw [vouched.1, ← commits]; rfl

end Steps

namespace Federation

variable (f : Federation)

def Heard (shadow : String → DecreeState) (nodeID : String) (pledge : Pledge) : Prop :=
  nodeID ∈ f.nodes ∧
    ∃ index, pledge.statement nodeID index ∈ (shadow nodeID).statementChan

def Locked (shadow : String → DecreeState) (value nodeID : String) : Prop :=
  nodeID ∈ f.nodes ∧ (shadow nodeID).ballot.lock = some value

inductive Steps : (String → DecreeState) → Prop where
  | start : Steps fun node => newDecree (f.context node)
  | step (shadow : String → DecreeState) (node : String) (d : DecreeState)
      (reached : Steps shadow) (member : node ∈ f.nodes)
      (stepped : DecreeStep (f.context node) (f.Heard shadow) (shadow node) d) :
      Steps (Function.update shadow node d)

structure Honest (shadow : String → DecreeState) (node : String) : Prop where
  sound : SoundDecree (f.context node) (shadow node)
  sent : ∀ stmt ∈ (shadow node).statementChan, ∀ pledge : Pledge,
    stmt = pledge.statement stmt.nodeID stmt.index →
      stmt.nodeID = node ∧ pledge.VouchedBy (f.context node) (shadow node).ballot
  latest : ∀ pledge, (shadow node).latestBallot = some pledge →
    pledge.VouchedBy (f.context node) (shadow node).ballot
  stored : ∀ nodeID pledge, (shadow node).ballots.lookup nodeID = some pledge →
    pledge.commits ≠ none → f.Heard shadow nodeID pledge ∨
      nodeID = node ∧ pledge.VouchedBy (f.context node) (shadow node).ballot
  quorum : f.Settled node (shadow node).quorum
  backed : ∀ value, (shadow node).ballot.currentPhase = .externalize →
    (shadow node).ballot.lock = some value → Backed f.slices (f.Locked shadow value) node

variable {f} {shadow : String → DecreeState} {node : String} {d : DecreeState} {quorum : Quorum}

theorem Heard.update (heard : f.Heard shadow nodeID pledge)
    (more : (shadow node).statementChan ⊆ d.statementChan) :
    f.Heard (Function.update shadow node d) nodeID pledge := by
  obtain ⟨member, index, sent⟩ := heard
  refine ⟨member, index, ?_⟩
  by_cases same : nodeID = node
  · subst same
    rw [Function.update_self]
    exact more sent
  · rw [Function.update_of_ne same]
    exact sent

section Update

variable (stepped : DecreeStep (f.context node) (f.Heard shadow) (shadow node) d)

include stepped

theorem Locked.update {value : String} (locked : f.Locked shadow value nodeID) :
    f.Locked (Function.update shadow node d) value nodeID := by
  obtain ⟨member, lock⟩ := locked
  refine ⟨member, ?_⟩
  by_cases same : nodeID = node
  · subst same
    rw [Function.update_self]
    exact stepped.lock lock
  · rw [Function.update_of_ne same]
    exact lock

theorem Honest.update_of_ne {other : String} (honest : f.Honest shadow other)
    (differ : other ≠ node) : f.Honest (Function.update shadow node d) other where
  sound := by
    rw [Function.update_of_ne differ]
    exact honest.sound
  sent := by
    rw [Function.update_of_ne differ]
    exact honest.sent
  latest := by
    rw [Function.update_of_ne differ]
    exact honest.latest
  stored := by
    rw [Function.update_of_ne differ]
    intro nodeID pledge found commits
    exact (honest.stored nodeID pledge found commits).imp_left
      (·.update stepped.statementChan_subset)
  quorum := by
    rw [Function.update_of_ne differ]
    exact honest.quorum
  backed := by
    rw [Function.update_of_ne differ]
    intro value phase lock
    exact (honest.backed value phase lock).mono fun _ locked => Locked.update stepped locked

end Update

/-- Where the statement of a counted node comes from: the node has sent it, or it is
the node that counts. -/
theorem Honest.vouched (honest : ∀ other ∈ f.nodes, f.Honest shadow other) (member : node ∈ f.nodes)
    (found : (shadow node).ballots.lookup nodeID = some pledge) (commits : pledge.commits ≠ none) :
    nodeID ∈ f.nodes ∧ pledge.VouchedBy (f.context nodeID) (shadow nodeID).ballot := by
  rcases (honest node member).stored nodeID pledge found commits with
    ⟨other, index, sent⟩ | ⟨rfl, vouched⟩
  · exact ⟨other, ((honest nodeID other).sent _ sent pledge rfl).2⟩
  · exact ⟨member, vouched⟩

def externalizedBy (d : DecreeState) (nodeID : String) : Bool :=
  match d.ballots.lookup nodeID with
  | some (.externalize ..) => true
  | _ => false

theorem hasSlice_eq (honest : ∀ other ∈ f.nodes, f.Honest shadow other) (member : node ∈ f.nodes)
    (set : Finset String)
    (counted : nodeID ∈ senders (commitAcceptFilter ballot l r) (shadow node).ballots) :
    hasSlice ((shadow node).voting (f.context node)) Pledge.quorumSource (shadow node).ballots
        set nodeID =
      isQuorumSlice (f.countedQuorum node (shadow node).quorum
        ((senders (commitAcceptFilter ballot l r) (shadow node).ballots).filter
          fun other => externalizedBy (shadow node) other = true) nodeID) set := by
  obtain ⟨pledge, found, passes⟩ := mem_senders.mp counted
  have commits := commits_of_commitAcceptFilter passes
  obtain ⟨other, vouched⟩ := Honest.vouched honest member found (by simp [commits])
  cases pledge with
  | prepare message => simp [commitAcceptFilter] at passes
  | confirm B PC LC HC quorumHash =>
    obtain ⟨-, rfl⟩ := vouched
    have notYet : externalizedBy (shadow node) nodeID = false := by simp [externalizedBy, found]
    have named := f.named nodeID other
    obtain ⟨quorum, -, known⟩ := f.known node member nodeID other
    rw [countedQuorum, if_neg (by simp [notYet])]
    simp [hasSlice, found, Pledge.quorumSource, getStatementQuorum, named, DecreeState.voting,
      DecreeState.getQuorum, known]
  | externalize B HC quorumHash =>
    have already : externalizedBy (shadow node) nodeID = true := by simp [externalizedBy, found]
    rw [countedQuorum, if_pos (Finset.mem_filter.mpr ⟨counted, already⟩)]
    simp [hasSlice, found, Pledge.quorumSource, getStatementQuorum, DecreeState.voting,
      f.nodeID node member]

theorem backed_of_ratifies (ratifySound : f.RatifySound)
    (honest : ∀ other ∈ f.nodes, f.Honest shadow other) (member : node ∈ f.nodes)
    (ratified : ratifies (f.context node) (shadow node) (commitAcceptFilter ballot l r) =
      .ok true) : Backed f.slices (f.Locked shadow ballot.value) node := by
  set counted := senders (commitAcceptFilter ballot l r) (shadow node).ballots with countedEq
  set externalized := counted.filter fun other => externalizedBy (shadow node) other = true
    with externalizedEq
  have vouched : ∀ nodeID ∈ counted, ∃ pledge, (shadow node).ballots.lookup nodeID = some pledge ∧
      pledge.commits = some ballot.value ∧ nodeID ∈ f.nodes ∧
        pledge.VouchedBy (f.context nodeID) (shadow nodeID).ballot := by
    intro nodeID nodeIDMem
    obtain ⟨pledge, found, passes⟩ := mem_senders.mp nodeIDMem
    have commits := commits_of_commitAcceptFilter passes
    exact ⟨pledge, found, commits, Honest.vouched honest member found (by simp [commits])⟩
  have within : counted ⊆ f.nodes := by
    intro nodeID nodeIDMem
    obtain ⟨pledge, -, -, inside, -⟩ := vouched nodeID nodeIDMem
    exact inside
  have locked : ∀ nodeID ∈ counted, f.Locked shadow ballot.value nodeID := by
    intro nodeID nodeIDMem
    obtain ⟨pledge, -, commits, inside, stands⟩ := vouched nodeID nodeIDMem
    exact ⟨inside, stands.lock commits⟩
  have slice : isQuorumSlice (shadow node).quorum (counted.filter fun other =>
      isQuorumSlice (f.countedQuorum node (shadow node).quorum externalized other) counted = true) =
        true := by
    unfold ratifies federatedRatify at ratified
    cases left : pruneNodes ((shadow node).voting (f.context node)) Pledge.quorumSource
        (shadow node).ballots counted with
    | error fault => simp [← countedEq, left] at ratified
    | ok kept =>
      have passed := eq_pass_of_pruneNodes _ _ left
      simp only [← countedEq, left, Except.ok.injEq] at ratified
      have sameSet : (counted.filter fun other => isQuorumSlice (f.countedQuorum node
          (shadow node).quorum externalized other) counted = true) = kept := by
        rw [passed]
        ext nodeID
        simp only [Finset.mem_filter, PruningClosure.mem_pass]
        constructor
        · rintro ⟨nodeIDMem, holds⟩
          exact ⟨nodeIDMem, (hasSlice_eq honest member counted nodeIDMem).trans holds⟩
        · rintro ⟨nodeIDMem, holds⟩
          exact ⟨nodeIDMem, (hasSlice_eq honest member counted nodeIDMem).symm.trans holds⟩
      rw [sameSet]
      exact ratified
  obtain ⟨support, inside, nonempty, ownSlice, served⟩ := ratifySound node member _
    (honest node member).quorum counted within externalized (Finset.filter_subset _ _) slice
  apply Backed.of_support (fun other => satisfied_upClosed (f.context other).quorum) nonempty
    (fun nodeID nodeIDMem => locked nodeID (inside nodeIDMem)) ownSlice
  intro nodeID nodeIDMem
  by_cases done : nodeID ∈ externalized
  · right
    obtain ⟨pledge, found, commits, other, stands⟩ := vouched nodeID (inside nodeIDMem)
    have phase : (shadow nodeID).ballot.currentPhase = .externalize := by
      have isExternalize := (Finset.mem_filter.mp done).2
      cases pledge with
      | prepare message => simp [externalizedBy, found] at isExternalize
      | confirm B PC LC HC quorumHash => simp [externalizedBy, found] at isExternalize
      | externalize B HC quorumHash => exact stands.2
    exact (honest nodeID other).backed ballot.value phase (stands.lock commits)
  · exact .inl (served nodeID nodeIDMem done)

theorem Honest.step (ratifySound : f.RatifySound)
    (honest : ∀ other ∈ f.nodes, f.Honest shadow other) (member : node ∈ f.nodes)
    (stepped : DecreeStep (f.context node) (f.Heard shadow) (shadow node) d) :
    f.Honest (Function.update shadow node d) node := by
  have before := honest node member
  have stays : ∀ pledge : Pledge, pledge.VouchedBy (f.context node) (shadow node).ballot →
      pledge.VouchedBy (f.context node) d.ballot :=
    fun pledge vouched => vouched.progress (.single stepped)
  constructor <;> rw [Function.update_self]
  · exact before.sound.step stepped
  · intro stmt onChannel pledge reads
    rcases stepped.sent onChannel reads with old | ⟨own, vouched | latest⟩
    · obtain ⟨sender, vouched⟩ := before.sent stmt old pledge reads
      exact ⟨sender, stays pledge vouched⟩
    · exact ⟨own.trans (f.nodeID node member), stays pledge vouched⟩
    · exact ⟨own.trans (f.nodeID node member), stays pledge (before.latest pledge latest)⟩
  · intro pledge found
    by_cases commits : pledge.commits = none
    · exact vouchedBy_of_commits_eq_none commits _
    · rcases stepped.latest found commits with old | vouched
      · exact stays pledge (before.latest pledge old)
      · exact stays pledge vouched
  · intro nodeID pledge found commits
    rcases stepped.stored found commits with old | heard | ⟨own, vouched⟩
    · rcases before.stored nodeID pledge old commits with heard | ⟨own, vouched⟩
      · exact .inl (heard.update stepped.statementChan_subset)
      · exact .inr ⟨own, stays pledge vouched⟩
    · exact .inl (heard.update stepped.statementChan_subset)
    · exact .inr ⟨own.trans (f.nodeID node member), stays pledge vouched⟩
  · rcases stepped.quorum with same | ⟨world, settled⟩
    · rw [same]
      exact before.quorum
    · exact before.quorum.tail ⟨world, settled⟩
  · intro value phase lock
    rcases stepped.ballot_cases with same | ⟨move, -⟩
    · rw [same] at phase lock
      exact (before.backed value phase lock).mono fun _ locked => Locked.update stepped locked
    · obtain ⟨ballot, l, r, ratified, locked⟩ := move.ratified phase
      cases lock.symm.trans locked
      exact (backed_of_ratifies ratifySound honest member ratified).mono
        fun _ locked => Locked.update stepped locked

theorem honest_newDecree (node : String) :
    f.Honest (fun node => newDecree (f.context node)) node where
  sound := soundDecree_newDecree _
  sent := by simp [newDecree]
  latest := by simp [newDecree]
  stored := by simp [newDecree]
  quorum := .refl
  backed value phase := by simp [newDecree] at phase

theorem Steps.honest (ratifySound : f.RatifySound) (reached : f.Steps shadow) :
    ∀ node ∈ f.nodes, f.Honest shadow node := by
  induction reached with
  | start => exact fun node _ => honest_newDecree node
  | step shadow node d reached member stepped ih =>
    intro other otherMem
    by_cases same : other = node
    · subst same
      exact Honest.step ratifySound ih member stepped
    · exact (ih other otherMem).update_of_ne stepped same

theorem Steps.progress (reached : f.Steps shadow) (member : node ∈ f.nodes)
    (run : Progress (f.context node) (f.Heard shadow) (shadow node) d) :
    f.Steps (Function.update shadow node d) := by
  induction run with
  | refl =>
    rw [Function.update_eq_self]
    exact reached
  | tail run step ih =>
    rename_i middle final
    have wider : ∀ nodeID pledge, f.Heard shadow nodeID pledge →
        f.Heard (Function.update shadow node middle) nodeID pledge :=
      fun _ _ heard => heard.update (Progress.statementChan_subset run)
    have next := Steps.step _ node final ih member (by
      rw [Function.update_self]
      exact step.mono_heard wider)
    rwa [Function.update_idem] at next

variable {net : String → NodeState}

/-- The network, seen as decrees that take steps.  A node whose process has ended is
represented by a decree with the same outputs. -/
theorem Reaches.steps (ratifySound : f.RatifySound) (reached : f.Reaches net) :
    ∃ shadow, f.Steps shadow ∧ ∀ node, SameOutputs (shadow node) (net node).decree ∧
      ((net node).running = true → shadow node = (net node).decree) := by
  induction reached with
  | start => exact ⟨_, .start, fun node => ⟨⟨rfl, rfl⟩, fun _ => rfl⟩⟩
  | step net node turn reached member running delivered ih =>
    obtain ⟨shadow, steps, represents⟩ := ih
    have honest := steps.honest ratifySound
    have current := (represents node).2 running
    have hears : turn.Hears (f.Heard shadow) := by
      intro stmt called pledge reads
      obtain ⟨sender, senderMem, sent⟩ := delivered stmt called
      rw [(represents sender).1.statementChan] at sent
      obtain ⟨rfl, -⟩ := (honest sender senderMem).sent stmt sent pledge reads
      exact ⟨senderMem, stmt.index, reads ▸ sent⟩
    have leads := runTurn_leads hears (shadow node) (honest node member).sound
    have lasts : ∃ last, Progress (f.context node) (f.Heard shadow) (shadow node) last ∧
        SameOutputs last (f.after node turn (net node).decree).decree ∧
        ((f.after node turn (net node).decree).running = true →
          last = (f.after node turn (net node).decree).decree) := by
      unfold Holds at leads
      rw [current] at leads ⊢
      simp only [after]
      cases ended : runTurn (f.context node) turn (net node).decree with
      | done value final =>
        rw [ended] at leads
        exact ⟨final, leads, ⟨rfl, rfl⟩, fun _ => rfl⟩
      | abort fault final =>
        rw [ended] at leads
        obtain ⟨last, run, same⟩ := leads
        exact ⟨last, run, same, fun still => by simp [Outcome.isDone] at still⟩
    obtain ⟨last, run, same, still⟩ := lasts
    refine ⟨_, steps.progress member run, ?_⟩
    intro other
    by_cases isNode : other = node
    · subst isNode
      rw [Function.update_self, Function.update_self]
      exact ⟨same, still⟩
    · rw [Function.update_of_ne isNode, Function.update_of_ne isNode]
      exact represents other
  | sort net node world reached member running ih =>
    obtain ⟨shadow, steps, represents⟩ := ih
    have current := (represents node).2 running
    have sorted : DecreeStep (f.context node) (f.Heard shadow) (shadow node)
        ((shadow node).withQuorum (settleQuorum world.arrange (shadow node).quorum)) :=
      .aside ⟨rfl, rfl, rfl, rfl, ⟨[], (List.append_nil _).symm, by simp⟩, .inr ⟨world, rfl⟩⟩
    refine ⟨_, .step shadow node _ steps member sorted, ?_⟩
    intro other
    by_cases isNode : other = node
    · subst isNode
      rw [Function.update_self, Function.update_self, current]
      exact ⟨⟨rfl, rfl⟩, fun _ => rfl⟩
    · rw [Function.update_of_ne isNode, Function.update_of_ne isNode]
      exact represents other

/-- No two nodes externalize different values, where quorums meet and ratification finds
real quorums. -/
theorem reaches_agreement (f : Federation) (intersecting : Intersecting f.slices f.nodes)
    (ratifySound : f.RatifySound) {net : String → NodeState} (reached : f.Reaches net)
    {first second : String} (firstMem : first ∈ f.nodes) (secondMem : second ∈ f.nodes)
    {one other : ExternalizeValue} (oneSent : one ∈ (net first).decree.externalizeChan)
    (otherSent : other ∈ (net second).decree.externalizeChan) : one.value = other.value := by
  obtain ⟨shadow, steps, represents⟩ := reached.steps ratifySound
  have backs : ∀ node ∈ f.nodes, ∀ sent ∈ (net node).decree.externalizeChan,
      Backed f.slices (f.Locked shadow sent.value) node := by
    intro node member sent onChannel
    rw [(represents node).1.externalizeChan] at onChannel
    have honest := steps.honest ratifySound node member
    obtain ⟨phase, value, lock, single⟩ :=
      honest.sound.externalized (List.ne_nil_of_mem onChannel)
    rw [single, List.mem_singleton] at onChannel
    rw [onChannel]
    exact honest.backed value phase lock
  obtain ⟨common, ⟨-, lockedOne⟩, -, lockedOther⟩ := intersecting.exists_common
    (fun _ locked => locked.1) (fun _ locked => locked.1)
    (backs first firstMem one oneSent) (backs second secondMem other otherSent)
  exact Option.some.inj (lockedOne.symm.trans lockedOther)

def Uniform (f : Federation) (quorum : Quorum) : Prop :=
  quorum.nestQuorums = [] ∧ ∀ node ∈ f.nodes, (f.context node).quorum = quorum

theorem settleQuorum_flat (arrange : List Quorum → List Quorum)
    (flat : quorum.nestQuorums = []) : settleQuorum arrange quorum = quorum := by
  obtain ⟨threshold, validators, nestQuorums⟩ := quorum
  obtain rfl : nestQuorums = [] := flat
  simp [settleQuorum, settleQuorums]

theorem Settled.eq_of_flat (settled : f.Settled node quorum)
    (flat : (f.context node).quorum.nestQuorums = []) : quorum = (f.context node).quorum := by
  induction settled with
  | refl => rfl
  | tail _ sorted ih =>
    obtain ⟨world, rfl⟩ := sorted
    rw [ih]
    exact settleQuorum_flat world.arrange flat

/-- In a uniform federation the test of `federatedRatify` is sound: what one node
counts as a slice is a slice for all. -/
theorem Uniform.ratifySound (uniform : f.Uniform quorum) : f.RatifySound := by
  obtain ⟨flat, same⟩ := uniform
  intro node member settled isSettled counted within externalized _ slice
  obtain rfl : settled = quorum := by
    rw [Settled.eq_of_flat isSettled (by rw [same node member]; exact flat), same node member]
  have inCounted := satisfied_upClosed settled (Finset.filter_subset _ counted)
    (satisfied_of_isQuorumSlice flat slice)
  have positive : 0 < settled.threshold := by
    have valid := f.valid node member
    rw [same node member] at valid
    exact (threshold_of_validateQuorum valid settled settled.self_mem_levels).1
  have nonempty : counted.Nonempty :=
    (nonempty_of_isQuorumSlice flat positive slice).mono (Finset.filter_subset _ counted)
  refine ⟨counted, Finset.Subset.refl _, nonempty, ?_, ?_⟩
  · rw [slices, same node member]
    exact inCounted
  · intro other otherMem _
    rw [slices, same other (within otherMem)]
    exact inCounted

theorem Reaches.settle (reached : f.Reaches net) (member : node ∈ f.nodes)
    (running : (net node).running = true) (settles : (net node).decree.quorum.Settles quorum) :
    f.Reaches (Function.update net node ⟨(net node).decree.withQuorum quorum, true⟩) := by
  induction settles with
  | refl =>
    have same : (⟨(net node).decree.withQuorum (net node).decree.quorum, true⟩ : NodeState) =
        net node := by
      rw [← running]
      rfl
    rwa [same, Function.update_eq_self]
  | tail _ sorted ih =>
    obtain ⟨world, rfl⟩ := sorted
    have next := Reaches.sort _ node world ih member (by rw [Function.update_self])
    rwa [Function.update_self, Function.update_idem] at next

theorem Reaches.call {state : NodeState} (reached : f.Reaches net)
    (turn : Turn) (member : node ∈ f.nodes) (current : net node = state)
    (running : state.running = true) (delivered : ∀ stmt, turn.call = .recv (some stmt) →
      ∃ sender ∈ f.nodes, stmt ∈ (net sender).decree.statementChan) :
    f.Reaches (Function.update net node (f.after node turn state.decree)) := by
  subst current
  exact .step net node turn reached member running delivered

section Pairs

variable (quorum : {quorum : Quorum // validateQuorum quorum 0 false = .ok ()})

private def pair : Federation where
  nodes := {"A", "B"}
  index := 7
  context node := .plain 7 node quorum (fun _ => some quorum.1) (fun _ => 0)
  nodeID _ _ := rfl
  sameIndex _ _ := rfl
  valid _ _ := quorum.2
  named node member := by
    change node ≠ ""
    rintro rfl
    exact absurd member (by decide)
  known _ _ _ _ := ⟨quorum.1, .refl, rfl⟩

private def nominating (value : String) : Turn := ⟨.nominate "" value false, .plain, 12⟩

private def beforeAll : String → NodeState :=
  fun node => ⟨newDecree ((pair quorum).context node), true⟩

private def nominatedA : NodeState :=
  (pair quorum).after "A" (nominating "x") (beforeAll quorum "A").decree

private def nominatedB : NodeState :=
  (pair quorum).after "B" (nominating "y") (beforeAll quorum "B").decree

private def bothNominated : String → NodeState :=
  Function.update (Function.update (beforeAll quorum) "A" (nominatedA quorum)) "B"
    (nominatedB quorum)

private theorem bothNominated_A : bothNominated quorum "A" = nominatedA quorum := by
  rw [bothNominated, Function.update_of_ne (by decide), Function.update_self]

private theorem bothNominated_B : bothNominated quorum "B" = nominatedB quorum :=
  Function.update_self _ _ _

private theorem memA : "A" ∈ (pair quorum).nodes := Finset.mem_insert_self _ _

private theorem memB : "B" ∈ (pair quorum).nodes :=
  Finset.mem_insert_of_mem (Finset.mem_singleton_self _)

private theorem bothNominated_reached : (pair quorum).Reaches (bothNominated quorum) := by
  have fresh : (pair quorum).Reaches (beforeAll quorum) := .start
  have first : (pair quorum).Reaches
      (Function.update (beforeAll quorum) "A" (nominatedA quorum)) :=
    .step _ "A" (nominating "x") fresh (memA quorum) rfl (by simp [nominating])
  have waiting : Function.update (beforeAll quorum) "A" (nominatedA quorum) "B" =
      beforeAll quorum "B" :=
    Function.update_of_ne (by decide) _ _
  exact first.call (nominating "y") (memB quorum) waiting rfl (by simp [nominating])

private theorem pair_intersecting
    (needsA : ∀ set ∈ ({"A", "B"} : Finset String).powerset, satisfied quorum.1 set = true →
      "A" ∈ set) : Intersecting (pair quorum).slices (pair quorum).nodes := by
  have withA : ∀ set ⊆ (pair quorum).nodes, IsQuorum (pair quorum).slices set →
      "A" ∈ set := by
    intro set within isQuorum
    obtain ⟨node, nodeMem⟩ := isQuorum.nonempty
    exact needsA set (Finset.mem_powerset.mpr within) (isQuorum.served node nodeMem)
  intro first second firstIn secondIn firstQuorum secondQuorum
  exact ⟨"A", Finset.mem_inter.mpr
    ⟨withA first firstIn firstQuorum, withA second secondIn secondQuorum⟩⟩

end Pairs

private def onlyA : {quorum : Quorum // validateQuorum quorum 0 false = .ok ()} :=
  ⟨.mk 1 ["A"] [], by decide +kernel⟩

private def sentByA (place : Nat) : Option Statement :=
  (nominatedA onlyA).decree.statementChan[place]?

private def hearing (place : Nat) : Turn := ⟨.recv (sentByA place), .plain, 12⟩

private def heardOnce : NodeState :=
  (pair onlyA).after "B" (hearing 6) (nominatedB onlyA).decree

private def heardTwice : NodeState :=
  (pair onlyA).after "B" (hearing 0) heardOnce.decree

private def followed : String → NodeState :=
  Function.update (Function.update (bothNominated onlyA) "B" heardOnce) "B" heardTwice

private theorem followed_A : followed "A" = nominatedA onlyA := by
  rw [followed, Function.update_of_ne (by decide), Function.update_of_ne (by decide),
    bothNominated_A]

private theorem sent_of_hearing {place : Nat} (called : (hearing place).call = .recv (some stmt)) :
    stmt ∈ (nominatedA onlyA).decree.statementChan :=
  List.mem_of_getElem? (DecreeCall.recv.inj called)

private theorem followed_reached : (pair onlyA).Reaches followed := by
  have first := (bothNominated_reached onlyA).call (hearing 6)
    (memB onlyA) (bothNominated_B onlyA) (by decide +kernel) (by
      intro stmt called
      refine ⟨"A", memA onlyA, ?_⟩
      exact sent_of_hearing called)
  refine first.call (hearing 0) (memB onlyA) (Function.update_self _ _ _)
    (by decide +kernel) ?_
  intro stmt called
  refine ⟨"A", memA onlyA, ?_⟩
  exact sent_of_hearing called

/-- Both nodes externalize, and B externalizes the value of A. -/
theorem reaches_agreement_follower :
    (followed "A").decree.externalizeChan ≠ [] ∧ (followed "B").decree.externalizeChan ≠ [] ∧
      ∀ one ∈ (followed "A").decree.externalizeChan,
        ∀ other ∈ (followed "B").decree.externalizeChan, one.value = other.value := by
  have followedB : followed "B" = heardTwice := Function.update_self _ _ _
  refine ⟨?_, ?_, ?_⟩
  · rw [followed_A]
    decide +kernel
  · rw [followedB]
    decide +kernel
  · intro one oneSent other otherSent
    have uniform : (pair onlyA).Uniform onlyA.1 := ⟨rfl, fun _ _ => rfl⟩
    exact reaches_agreement _ (pair_intersecting onlyA (by decide +kernel))
      uniform.ratifySound followed_reached (memA onlyA) (memB onlyA)
      oneSent otherSent

/-- A quorum that nests the pair, so that neither node has a slice without the other. -/
private def nestedPair : {quorum : Quorum // validateQuorum quorum 0 false = .ok ()} :=
  ⟨.mk 1 [] [.mk 1 ["A", "B"] []], by decide +kernel⟩

/-- Any two quorums meet, but each node externalizes its own value alone. -/
theorem reaches_disagreement :
    Intersecting (pair nestedPair).slices
        (pair nestedPair).nodes ∧
      (pair nestedPair).Reaches (bothNominated nestedPair) ∧
      (bothNominated nestedPair "A").decree.externalizeChan = [⟨7, "x"⟩] ∧
      (bothNominated nestedPair "B").decree.externalizeChan = [⟨7, "y"⟩] := by
  refine ⟨pair_intersecting nestedPair (by decide +kernel),
    bothNominated_reached nestedPair, ?_, ?_⟩
  · decide +kernel
  · decide +kernel

end Federation

end Ultiledger
