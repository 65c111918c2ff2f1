import Ultiledger.UsableStatements

/-! # Moving to the counter of the others

The loop of `update` of `consensus/decree.go` keeps the node set from one counter to
the next, so a set that blocks once blocks at every later counter.
-/

namespace Ultiledger

open AbortingProgram Program

/-- The nodes whose latest counter is above the given one; an externalize
statement counts as the maximum. -/
def nodesAbove (ballots : StatementMap Pledge) (counter : Nat) : Finset String :=
  senders (fun pledge => (ballotCounter pledge).toOption.any (counter < ·)) ballots

def CountersFit (ballots : StatementMap Pledge) : Prop :=
  ∀ nodeID pledge, ballots.lookup nodeID = some pledge →
    ∀ c, ballotCounter pledge = .ok c → c ≤ maxUint32

def CountersKnown (ballots : StatementMap Pledge) : Prop :=
  ∀ nodeID pledge, ballots.lookup nodeID = some pledge → ∃ c, ballotCounter pledge = .ok c

namespace DecreeState

variable (d : DecreeState)

def counter : Nat := (d.ballot.currentBallot.map (·.counter)).getD 0

/-- The counter of a statement that a lagging node should move to. -/
structure IsBumpTarget (c : Nat) : Prop where
  above : d.counter < c
  occurs : ∃ nodeID pledge, d.ballots.lookup nodeID = some pledge ∧ ballotCounter pledge = .ok c
  free : isVblocking d.quorum (nodesAbove d.ballots c) = false
  least : ∀ nodeID pledge, d.ballots.lookup nodeID = some pledge →
    ∀ other, ballotCounter pledge = .ok other → d.counter < other →
      isVblocking d.quorum (nodesAbove d.ballots other) = false → c ≤ other

def FollowsBumpRule (ctx : DecreeContext) (deliver : Delivery) : Prop :=
  if isVblocking d.quorum (nodesAbove d.ballots d.counter) then
    ∃ d' b, update ctx deliver d = .done true d' ∧ d'.ballot.currentBallot = some b ∧
      d.IsBumpTarget b.counter
  else
    update ctx deliver d = .done false d

end DecreeState

section Ahead

variable {ballots : StatementMap Pledge} {low high : Nat}

theorem isAhead_eq {pledge : Pledge} {c : Nat}
    (known : ballotCounter pledge = .ok c) (fits : low ≤ maxUint32) :
    isAhead low pledge = decide (low < c) := by
  cases pledge with
  | prepare message =>
    cases ballot : message.B with
    | none => simp [ballotCounter, ballot] at known
    | some B =>
      obtain rfl : B.counter = c := by simpa [ballotCounter, ballot] using known
      simp [isAhead, ballot]
  | confirm B PC LC HC quorumHash =>
    cases known
    rfl
  | externalize B HC quorumHash =>
    cases known
    have exact : low ≠ maxUint32 ↔ low < maxUint32 := by omega
    simp only [isAhead, exact]

theorem senders_isAhead (known : CountersKnown ballots) (fits : low ≤ maxUint32) :
    senders (isAhead low) ballots = nodesAbove ballots low := by
  ext nodeID
  rw [nodesAbove, mem_senders, mem_senders]
  apply exists_congr
  intro pledge
  apply and_congr_right
  intro stored
  obtain ⟨c, counted⟩ := known nodeID pledge stored
  rw [isAhead_eq counted fits, counted]
  rfl

theorem nodesAbove_subset (below : low ≤ high) :
    nodesAbove ballots high ⊆ nodesAbove ballots low := by
  intro nodeID
  simp only [nodesAbove, mem_senders]
  rintro ⟨pledge, stored, ahead⟩
  refine ⟨pledge, stored, ?_⟩
  cases counted : ballotCounter pledge with
  | error fault => simp [counted, Except.toOption] at ahead
  | ok c =>
    simp only [counted, Except.toOption, Option.any_some, decide_eq_true_eq] at ahead ⊢
    omega

end Ahead

section Loop

variable {quorum : Quorum} {ballots : StatementMap Pledge} {target : Nat}

/-- Once the collected nodes block and hold all that can still be collected, the
loop ends without a counter. -/
theorem findCounter_of_blocking {nodes : Finset String} (blocks : isVblocking quorum nodes = true)
    (counters : List Nat) (collected : ∀ c ∈ counters, senders (isAhead c) ballots ⊆ nodes) :
    findCounter quorum ballots target counters nodes = none := by
  induction counters with
  | nil => rfl
  | cons c rest ih =>
    rw [List.forall_mem_cons] at collected
    have same : nodes ∪ senders (isAhead c) ballots = nodes :=
      Finset.union_eq_left.mpr collected.1
    simp only [findCounter, same, blocks, if_true, ih collected.2, ite_self]

theorem findCounter_eq_none (known : CountersKnown ballots) {counters : List Nat}
    (sorted : counters.Pairwise (· ≤ ·)) (fits : ∀ c ∈ counters, c ≤ maxUint32)
    (occurs : target ∈ counters) : findCounter quorum ballots target counters ∅ = none := by
  cases counters with
  | nil => rfl
  | cons c rest =>
    rw [List.pairwise_cons] at sorted
    rw [List.forall_mem_cons] at fits
    by_cases small : c < target
    · rw [findCounter, if_pos small]
    have first : c = target := by
      rcases List.mem_cons.mp occurs with rfl | later
      · rfl
      · have := sorted.1 target later
        omega
    subst first
    rw [findCounter, if_neg small]
    by_cases blocks : isVblocking quorum (∅ ∪ senders (isAhead c) ballots) = true
    · rw [if_pos blocks]
      apply findCounter_of_blocking blocks
      intro later laterMem
      rw [senders_isAhead known fits.1,
        senders_isAhead known (fits.2 later laterMem)]
      exact nodesAbove_subset (sorted.1 later laterMem)
    · rw [if_neg blocks, if_pos rfl]

end Loop

section Collecting

variable {α β ε : Type} {f : α → Except ε β}

theorem forall₂_of_mapM {items : List α} {values : List β} (collected : items.mapM f = .ok values) :
    List.Forall₂ (fun item value => f item = .ok value) items values := by
  induction items generalizing values with
  | nil =>
    obtain rfl : [] = values := Except.ok.inj collected
    exact .nil
  | cons item rest ih =>
    rw [List.mapM_cons, bind_eq_ok] at collected
    obtain ⟨value, head, collected⟩ := collected
    rw [bind_eq_ok] at collected
    obtain ⟨others, tail, ended⟩ := collected
    cases ended
    exact .cons head (ih tail)

end Collecting

section Update

variable {ctx : DecreeContext} {deliver : Delivery} {d : DecreeState}

theorem countersKnown_of_findUpdate {found : Option Nat}
    (running : d.ballot.currentPhase ≠ .externalize) (search : findUpdate d = .ok found) :
    CountersKnown d.ballots := by
  rw [findUpdate, if_neg running] at search
  cases collected : d.ballots.entries.mapM fun entry => ballotCounter entry.2 with
  | error fault => simp [collected] at search
  | ok counters =>
    intro nodeID pledge stored
    obtain ⟨position, inside, entry⟩ := List.getElem_of_mem (AList.mem_lookup_iff.mp stored)
    have each := forall₂_of_mapM collected
    have counted := each.get inside (each.length_eq ▸ inside)
    exact ⟨_, by simpa [entry] using counted⟩

theorem findUpdate_eq_none (fits : CountersFit d.ballots) (current : d.counter ≤ maxUint32)
    (known : CountersKnown d.ballots) : findUpdate d = .ok none := by
  unfold findUpdate
  split_ifs with ended
  · rfl
  have counted : ∃ counters, (d.ballots.entries.mapM fun entry => ballotCounter entry.2) =
      .ok counters := by
    apply mapM_total
    rintro ⟨nodeID, pledge⟩ entryMem
    exact known nodeID pledge (AList.mem_lookup_iff.mpr entryMem)
  obtain ⟨counters, collected⟩ := counted
  simp only [collected, Except.ok.injEq]
  apply findCounter_eq_none known (List.pairwise_insertionSort _ _)
  · intro c occurs
    rw [List.mem_insertionSort, List.mem_dedup, List.mem_cons] at occurs
    rcases occurs with rfl | occurs
    · exact current
    · obtain ⟨position, inside, rfl⟩ := List.getElem_of_mem occurs
      have each := forall₂_of_mapM collected
      have length := each.length_eq
      have counted := each.get (length ▸ inside) inside
      exact fits _ _ (AList.mem_lookup_iff.mpr (List.getElem_mem (length ▸ inside))) _ counted
  · simp

theorem update_eq_idle (fits : CountersFit d.ballots) (current : d.counter ≤ maxUint32)
    (known : CountersKnown d.ballots) : update ctx deliver d = .done false d := by
  unfold update
  rw [bind_of_done (rfl : get d = .done d d), findUpdate_eq_none fits current known]
  rfl

/-- `update` follows the rule exactly where no v-blocking set of nodes is ahead, and then
it does nothing. -/
theorem update_followsBumpRule_iff (running : d.ballot.currentPhase ≠ .externalize)
    (fits : CountersFit d.ballots) (current : d.counter ≤ maxUint32) :
    d.FollowsBumpRule ctx deliver ↔
      CountersKnown d.ballots ∧ isVblocking d.quorum (nodesAbove d.ballots d.counter) = false := by
  by_cases known : CountersKnown d.ballots
  · have idle := @update_eq_idle ctx deliver d fits current known
    cases blocks : isVblocking d.quorum (nodesAbove d.ballots d.counter) with
    | false => simp [DecreeState.FollowsBumpRule, blocks, known, idle]
    | true => simp [DecreeState.FollowsBumpRule, blocks, idle]
  · cases search : findUpdate d with
    | ok found => exact absurd (countersKnown_of_findUpdate running search) known
    | error fault =>
      have stops : update ctx deliver d = .abort fault d := by
        unfold update
        rw [bind_of_done (rfl : get d = .done d d), search]
        rfl
      simp [DecreeState.FollowsBumpRule, known, stops]

end Update

private def atCounter (nodeID : String) (counter : Nat) : Sigma fun _ : String => Pledge :=
  ⟨nodeID, .prepare ⟨some ⟨counter, "v"⟩, none, none, 0, 0, nodeID⟩⟩

private def thirds : Quorum := .mk (1 / 2) ["a", "b", "c"] []

private def atFirstCounter (peers : List (String × Nat)) : DecreeState :=
  { newDecree (.plain 7 "n" thirds (fun _ => some thirds) (fun _ => 0)) with
    ballot := ⟨.prepare, some ⟨1, "v"⟩, none, none, none, none, false⟩
    latestComposite := "v"
    ballots := (peers.map fun peer => atCounter peer.1 peer.2).toAList }

private theorem lookup_atFirstCounter {peers : List (String × Nat)} {nodeID : String}
    {pledge : Pledge} (stored : (atFirstCounter peers).ballots.lookup nodeID = some pledge) :
    ∃ counter, (nodeID, counter) ∈ peers ∧ ballotCounter pledge = .ok counter := by
  rw [atFirstCounter, AList.lookup_to_alist] at stored
  obtain ⟨peer, peerMem, same⟩ := List.mem_map.mp (List.of_mem_dlookup stored)
  cases same
  exact ⟨peer.2, peerMem, rfl⟩

private theorem countersFit_atFirstCounter {peers : List (String × Nat)}
    (fits : ∀ peer ∈ peers, peer.2 ≤ maxUint32) : CountersFit (atFirstCounter peers).ballots := by
  intro nodeID pledge stored c counted
  obtain ⟨counter, peerMem, same⟩ := lookup_atFirstCounter stored
  cases counted.symm.trans same
  exact fits _ peerMem

private theorem countersKnown_atFirstCounter (peers : List (String × Nat)) :
    CountersKnown (atFirstCounter peers).ballots := by
  intro nodeID pledge stored
  obtain ⟨counter, -, same⟩ := lookup_atFirstCounter stored
  exact ⟨counter, same⟩

/-- One of three nodes being ahead does not move the decree. -/
theorem update_followsBumpRule_one_ahead :
    (atFirstCounter [("a", 5), ("b", 1)]).FollowsBumpRule
      (.plain 7 "n" thirds (fun _ => some thirds) (fun _ => 0)) (fun _ _ => pure (.ok ())) :=
  (update_followsBumpRule_iff (by decide) (countersFit_atFirstCounter (by decide))
    (by decide)).mpr ⟨countersKnown_atFirstCounter _, by decide +kernel⟩

private def lagging : DecreeState := atFirstCounter [("a", 3), ("b", 5), ("c", 5)]

/-- All three nodes are ahead, two of them at counter 5, but `update` leaves the decree where
it is. -/
theorem update_ignores_blocking_nodes :
    lagging.ballot.currentPhase = .prepare ∧ lagging.latestComposite = "v" ∧
      lagging.ballot.cBallot = none ∧
        isVblocking lagging.quorum (nodesAbove lagging.ballots lagging.counter) = true ∧
          lagging.IsBumpTarget 5 ∧
            ∀ ctx deliver, update ctx deliver lagging = .done false lagging := by
  refine ⟨rfl, rfl, rfl, by decide +kernel, ⟨by decide, ?_, by decide +kernel, ?_⟩, ?_⟩
  · exact ⟨"b", (atCounter "b" 5).2, by decide +kernel, rfl⟩
  · intro nodeID pledge stored other counted above free
    obtain ⟨counter, peerMem, same⟩ := lookup_atFirstCounter stored
    cases counted.symm.trans same
    simp only [List.mem_cons, Prod.mk.injEq, List.not_mem_nil, or_false] at peerMem
    rcases peerMem with ⟨-, rfl⟩ | ⟨-, rfl⟩ | ⟨-, rfl⟩
    · exact absurd free (by decide +kernel)
    · exact le_rfl
    · exact le_rfl
  · intro ctx deliver
    exact update_eq_idle (countersFit_atFirstCounter (by decide)) (by decide)
      (countersKnown_atFirstCounter _)

end Ultiledger
