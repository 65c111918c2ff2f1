import Ultiledger.Nomination

/-! # Nested nominations

Every nomination that is sent inside `recvNomination` has one value less to accept.
-/

namespace Ultiledger

open AbortingProgram Program

variable (ctx : DecreeContext) (world : World)

def Statement.votes (stmt : Statement) : List String :=
  (stmt.getNominate.map (·.voteList)).getD []

/-- The local votes and the received ones that are not yet accepted. -/
def unaccepted (d : DecreeState) (stmt : Statement) : Finset String :=
  (d.votes ++ stmt.votes).toFinset \ d.accepts.toFinset

/-- The nomination that `sendNomination` assembles. -/
def ownNomination (d : DecreeState) : Statement :=
  ⟨.nominate, ctx.nodeID, ctx.index,
    some (.nominate ⟨world.iterate d.votes, world.iterate d.accepts, ctx.quorumHash⟩)⟩

/-- `recvNomination` with a given number of nested sends, where a further send is
delivered to `beyond`. -/
def recvNominationWithin (ballotFuel : Nat → Nat)
    (beyond : Statement → DecreeM (Except String Unit)) :
    Nat → Statement → DecreeM (Except String Unit)
  | 0 => receiveNomination ctx world beyond (ballotFuel 0)
  | sends + 1 =>
    receiveNomination ctx world (recvNominationWithin ballotFuel beyond sends)
      (ballotFuel (sends + 1))

theorem recvNomination_eq_within (sends : Nat) :
    recvNomination ctx world (sends + 1) =
      recvNominationWithin ctx world id (fun _ => abort .outOfFuel) sends := by
  induction sends with
  | zero => rfl
  | succ sends ih => rw [recvNomination, ih, recvNominationWithin, id]

/-- What the first loop of `promoteVotes` does to votes and accepted values. -/
structure Promotes (voteList : List String) (d : DecreeState) (updated : Bool)
    (d' : DecreeState) : Prop where
  votes : d'.votes ⊆ d.votes ++ voteList
  accepts : d.accepts ⊆ d'.accepts
  fresh : updated = true → ∃ vote ∈ voteList, vote ∉ d.accepts ∧ vote ∈ d'.accepts

variable {ctx world}

theorem Promotes.skip {vote : String} {voteList : List String} {d d' : DecreeState}
    {updated : Bool} (later : Promotes voteList d updated d') :
    Promotes (vote :: voteList) d updated d' where
  votes value valueMem := by
    have known := later.votes valueMem
    simp only [List.mem_append, List.mem_cons] at known ⊢
    tauto
  accepts := later.accepts
  fresh changed := by
    obtain ⟨value, valueMem, accepted⟩ := later.fresh changed
    exact ⟨value, .tail vote valueMem, accepted⟩

theorem promoteToAccepts_promotes (voteList : List String) (d : DecreeState) :
    (promoteToAccepts ctx world voteList).Holds d (Promotes voteList d) (fun _ _ => True) := by
  induction voteList generalizing d with
  | nil => exact ⟨by simp, .refl _, by simp⟩
  | cons vote rest ih =>
    simp only [promoteToAccepts, holds_bind, holds_get]
    split_ifs with known
    · exact (ih d).mono (fun _ _ later => later.skip) (fun _ _ _ => trivial)
    · rw [holds_bind]
      refine holds_lift (fun accepted _ => ?_) (fun _ _ => trivial)
      split_ifs
      · rw [holds_bind, holds_modify, holds_bind]
        refine (ih _).imp ?_
        intro updated d' later
        refine ⟨fun value valueMem => ?_, fun value valueMem => ?_, fun _ => ?_⟩
        · have grown := later.votes valueMem
          simp only [DecreeState.addValue, List.mem_append, List.mem_insert_iff, List.mem_cons]
            at grown ⊢
          tauto
        · exact later.accepts (List.mem_insert_of_mem valueMem)
        · exact ⟨vote, .head _, known, later.accepts (List.mem_insert_self)⟩
      · exact (ih d).mono (fun _ _ later => later.skip) (fun _ _ _ => trivial)

theorem promoteToCandidates_keeps (acceptList : List String) (d : DecreeState) :
    (promoteToCandidates ctx world acceptList).Holds d
      (fun _ d' => d'.votes = d.votes ∧ d'.accepts = d.accepts) (fun _ _ => True) := by
  induction acceptList generalizing d with
  | nil => exact ⟨rfl, rfl⟩
  | cons accept rest ih =>
    simp only [promoteToCandidates, holds_bind, holds_get]
    split_ifs
    · exact ih d
    · rw [holds_bind]
      refine holds_lift (fun ratified _ => ?_) (fun _ _ => trivial)
      split_ifs
      · rw [holds_bind, holds_modify, holds_bind]
        exact (ih _).mono (fun _ _ same => same) (fun _ _ _ => trivial)
      · exact ih d

/-- A nomination that is sent after something was accepted has less left to accept. -/
theorem unaccepted_ssubset {d d' : DecreeState} {stmt : Statement}
    (promoted : Promotes stmt.votes d true d') :
    unaccepted d' (ownNomination ctx world d') ⊂ unaccepted d stmt := by
  refine Finset.ssubset_iff_subset_ne.mpr ⟨?_, ?_⟩
  · intro value valueMem
    change value ∈ (d'.votes ++ world.iterate d'.votes).toFinset \ d'.accepts.toFinset at valueMem
    simp only [Finset.mem_sdiff, List.mem_toFinset, List.mem_append,
      (world.iterate_perm _).mem_iff, or_self] at valueMem
    simp only [unaccepted, Finset.mem_sdiff, List.mem_toFinset]
    exact ⟨promoted.votes valueMem.1, fun old => valueMem.2 (promoted.accepts old)⟩
  · intro same
    obtain ⟨vote, voteMem, new, accepted⟩ := promoted.fresh rfl
    have left : vote ∈ unaccepted d stmt := by simp [unaccepted, voteMem, new]
    rw [← same] at left
    simp [unaccepted, accepted] at left

section Deliveries

variable {deliver other : Statement → DecreeM (Except String Unit)}

theorem sendNomination_congr {d : DecreeState}
    (agree : deliver (ownNomination ctx world d) d = other (ownNomination ctx world d) d) :
    sendNomination ctx world deliver d = sendNomination ctx world other d := by
  change Program.bind (deliver (ownNomination ctx world d)) _ d =
    Program.bind (other (ownNomination ctx world d)) _ d
  rw [Program.bind, Program.bind, agree]

/-- Receiving a statement depends on the delivery of the decree's own nomination only where
less is left to accept. -/
theorem receiveNomination_congr {d : DecreeState} {stmt : Statement}
    (agree : ∀ own d', unaccepted d' own ⊂ unaccepted d stmt → deliver own d' = other own d')
    (fuel : Nat) :
    receiveNomination ctx world deliver fuel stmt d =
      receiveNomination ctx world other fuel stmt d := by
  unfold receiveNomination
  cases carries : stmt.getNominate with
  | none => rfl
  | some nom =>
    have received : stmt.votes = nom.voteList := by simp [Statement.votes, carries]
    dsimp only
    split_ifs
    · rfl
    apply Holds.bind_congr
    apply Holds.bind_congr
    rw [holds_get]
    split_ifs
    · rfl
    apply Holds.bind_congr
    refine (promoteToAccepts_promotes nom.voteList _).imp ?_
    intro acceptUpdated first promoted
    apply Holds.bind_congr
    refine (promoteToCandidates_keeps nom.acceptList first).imp ?_
    rintro candidateUpdated second ⟨sameVotes, sameAccepts⟩
    cases acceptUpdated with
    | false => rfl
    | true =>
      have promotes : Promotes stmt.votes d true second := by
        rw [received]
        exact ⟨sameVotes ▸ promoted.votes, sameAccepts ▸ promoted.accepts,
          sameAccepts ▸ promoted.fresh⟩
      have sends : sendNomination ctx world deliver second = sendNomination ctx world other second :=
        sendNomination_congr (agree _ second (unaccepted_ssubset promotes))
      change Program.bind _ _ second = Program.bind _ _ second
      rw [Program.bind, Program.bind, sends]

end Deliveries

theorem recvNominationWithin_congr (ballotFuel : Nat → Nat)
    (beyond other : Statement → DecreeM (Except String Unit)) {sends : Nat} {d : DecreeState}
    {stmt : Statement} (enough : (unaccepted d stmt).card ≤ sends) :
    recvNominationWithin ctx world ballotFuel beyond sends stmt d =
      recvNominationWithin ctx world ballotFuel other sends stmt d := by
  induction sends generalizing d stmt with
  | zero =>
    refine receiveNomination_congr (fun own d' fewer => ?_) _
    exact absurd (Finset.card_lt_card fewer) (by omega)
  | succ sends ih =>
    refine receiveNomination_congr (fun own d' fewer => ih ?_) _
    have less := Finset.card_lt_card fewer
    omega

/-- Receiving a nomination makes at most as many nested sends as there are local or
received votes that are not yet accepted. -/
theorem recvNomination_sends_le (ctx : DecreeContext) (world : World) (ballotFuel : Nat → Nat)
    (beyond other : Statement → DecreeM (Except String Unit)) (d : DecreeState)
    (stmt : Statement) (more : Nat) :
    let sends := (unaccepted d stmt).card + more
    recvNominationWithin ctx world ballotFuel beyond sends stmt d =
        recvNominationWithin ctx world ballotFuel other sends stmt d ∧
      recvNomination ctx world (sends + 1) stmt d =
        recvNominationWithin ctx world id beyond sends stmt d := by
  intro sends
  have enough : (unaccepted d stmt).card ≤ sends := Nat.le_add_right _ more
  rw [recvNomination_eq_within]
  exact ⟨recvNominationWithin_congr ballotFuel beyond other enough,
    recvNominationWithin_congr id _ beyond enough⟩

end Ultiledger
