import Ultiledger.GrowingNominations

/-! # The values that advance in the nomination -/

namespace Ultiledger

open AbortingProgram Program Relation

def DecreeState.valuesOf (d : DecreeState) : ValueSet → List String
  | .votes => d.votes
  | .accepts => d.accepts
  | .candidates => d.candidates

/-- The value is valid when it is added, or it is a vote for a proposal of the decree. -/
def Addition.Checked (addition : Addition) (turns : List Turn) : Prop :=
  addition.valid = true ∨ addition.target = .votes ∧ ∃ turn ∈ turns, turn.proposes addition.value

/-- The value is a candidate that some nomination accepted when it was not valid. -/
def Addition.Unchecked (addition : Addition) (receptions : List Reception) : Prop :=
  addition.target = .candidates ∧ ∃ reception ∈ receptions, addition.value ∈ reception.invalid

structure ValuesRecorded (turns : List Turn) (d : DecreeState) : Prop where
  accepts : d.accepts ⊆ d.votes
  recorded : ∀ target, ∀ value ∈ d.valuesOf target,
    ∃ addition ∈ d.additions, addition.target = target ∧ addition.value = value
  checked : ∀ addition ∈ d.additions,
    addition.Checked turns ∨ addition.Unchecked d.receptions

section Runs

variable {ctx : DecreeContext} {world : World} {turns : List Turn} {d d' : DecreeState}

theorem mem_valuesOf_addValue {target other : ValueSet} {value value' : String} :
    value' ∈ (d.addValue ctx world target value).valuesOf other ↔
      other = target ∧ value' = value ∨ value' ∈ d.valuesOf other := by
  cases target <;> cases other <;>
    simp [DecreeState.addValue, DecreeState.valuesOf]

theorem receptions_addValue (d : DecreeState) (target : ValueSet) (value : String) :
    (d.addValue ctx world target value).receptions = d.receptions := by
  cases target <;> rfl

theorem additions_addValue (d : DecreeState) (target : ValueSet) (value : String) :
    (d.addValue ctx world target value).additions = d.additions ++
      [⟨target, value, (validateConsensusValue ctx world d value).isOk⟩] := by
  cases target <;> rfl

theorem ValuesRecorded.frame (before : ValuesRecorded turns d) (same : SameNominations d d') :
    ValuesRecorded turns d' where
  accepts := by
    rw [same.accepts, same.votes]
    exact before.accepts
  recorded target := by
    have values : d'.valuesOf target = d.valuesOf target := by
      cases target with
      | votes => exact same.votes
      | accepts => exact same.accepts
      | candidates => exact same.candidates
    rw [values, same.additions]
    exact before.recorded target
  checked := by
    rw [same.additions, same.receptions]
    exact before.checked

theorem ValuesRecorded.addValue (before : ValuesRecorded turns d) {target : ValueSet}
    {value : String} (voted : target = .accepts → value ∈ d.votes)
    (origin : validateConsensusValue ctx world d value = .ok () ∨
      target = .votes ∧ (∃ turn ∈ turns, turn.proposes value) ∨
      target = .candidates ∧ d.Lists ctx world value) :
    ValuesRecorded turns (d.addValue ctx world target value) where
  accepts := by
    intro accept acceptMem
    change accept ∈ (d.addValue ctx world target value).valuesOf .accepts at acceptMem
    change accept ∈ (d.addValue ctx world target value).valuesOf .votes
    rw [mem_valuesOf_addValue] at acceptMem ⊢
    rcases acceptMem with ⟨rfl, rfl⟩ | old
    · exact .inr (voted rfl)
    · exact .inr (before.accepts old)
  recorded other value' mem := by
    rw [additions_addValue]
    rcases mem_valuesOf_addValue.mp mem with ⟨rfl, rfl⟩ | old
    · exact ⟨_, List.mem_append_right _ (.head _), rfl, rfl⟩
    · obtain ⟨addition, early, facts⟩ := before.recorded other value' old
      exact ⟨addition, List.mem_append_left _ early, facts⟩
  checked := by
    rw [additions_addValue, receptions_addValue, List.forall_mem_append, List.forall_mem_singleton]
    refine ⟨before.checked, ?_⟩
    have ofValid : validateConsensusValue ctx world d value = .ok () →
        (validateConsensusValue ctx world d value).isOk = true := fun valid => by rw [valid]; rfl
    rcases origin with valid | ⟨isVote, own⟩ | ⟨isCandidate, valid | listed⟩
    · exact .inl (.inl (ofValid valid))
    · exact .inl (.inr ⟨isVote, own⟩)
    · exact .inl (.inl (ofValid valid))
    · exact .inr ⟨isCandidate, listed⟩

theorem DecreeTransition.valuesRecorded {turn : Turn} (made : turn ∈ turns)
    (before : ValuesRecorded turns d)
    (transition : DecreeTransition ctx turn.world (fun _ _ => True) turn.proposes d d') :
    ValuesRecorded turns d' := by
  cases transition with
  | balloting transition => exact before.frame transition.sameNominations
  | nomination transition =>
    cases transition with
    | round nominationStart nominationRound renomCount prevConsensusValue =>
      exact before.frame ⟨rfl, rfl, rfl, rfl, rfl, rfl, rfl⟩
    | leaders nominationLeaders => exact ⟨before.accepts, before.recorded, before.checked⟩
    | vote value origin =>
      exact before.addValue (by simp)
        (origin.symm.imp_right fun own => .inl ⟨rfl, turn, made, own⟩)
    | accept value valid =>
      refine (before.addValue (by simp) (.inl valid)).addValue ?_ (.inl ?_)
      · exact fun _ => List.mem_insert_self
      · rwa [validateConsensusValue_congr rfl]
    | candidate value ratified listed =>
      exact before.addValue (by simp) (.inr (.inr ⟨rfl, listed⟩))
    | store nodeID nom =>
      refine ⟨before.accepts, before.recorded, fun addition mem => ?_⟩
      refine (before.checked addition mem).imp_right fun ⟨isCandidate, reception, early, listed⟩ => ?_
      exact ⟨isCandidate, reception, List.mem_append_left _ early, listed⟩

theorem TurnsRun.valuesRecorded (run : TurnsRun ctx (· ∈ turns) d d')
    (start : ValuesRecorded turns d) : ValuesRecorded turns d' := by
  induction run with
  | refl => exact start
  | tail _ step ih =>
    obtain ⟨turn, made, transition⟩ := step
    exact transition.valuesRecorded made ih

end Runs

/-- Every value that is in a set has been recorded when it was added.  What is recorded was
validated at that moment or is a vote for a proposal of the decree, except for candidates
that some nomination accepted when they were not valid. -/
theorem runTurns_values_checked {ctx : DecreeContext} {turns : List Turn} {d : DecreeState}
    (ended : runTurns ctx turns (newDecree ctx) = .done () d) :
    d.accepts ⊆ d.votes ∧
      (∀ target, ∀ value ∈ d.valuesOf target,
        ∃ addition ∈ d.additions, addition.target = target ∧ addition.value = value) ∧
      (∀ addition ∈ d.additions, addition.Checked turns ∨ addition.Unchecked d.receptions) ∧
      ((∀ reception ∈ d.receptions, reception.invalid = []) →
        ∀ addition ∈ d.additions, addition.Checked turns) := by
  have start : ValuesRecorded turns (newDecree ctx) :=
    ⟨.refl _, fun target => by cases target <;> simp [newDecree, DecreeState.valuesOf],
      by simp [newDecree]⟩
  obtain ⟨accepts, recorded, checked⟩ :=
    (turnsRun_of_ended (soundDecree_newDecree ctx) ended).valuesRecorded start
  refine ⟨accepts, recorded, checked, fun valid addition mem =>
    (checked addition mem).resolve_right ?_⟩
  rintro ⟨_, reception, received, listed⟩
  rw [valid reception received] at listed
  exact List.not_mem_nil listed

private def ratifiers : Quorum := .mk (2 / 3) ["b", "c"] []

private def ratifierContext : DecreeContext :=
  .plain 7 "n" ratifiers (fun _ => some ratifiers) (fun _ => 0)

private def acceptTurn (world : World) (nodeID : String) : Turn where
  call := .recv (some ⟨.nominate, nodeID, 7, some (.nominate ⟨["v"], ["v"], nodeID⟩)⟩)
  world := world
  fuel := 12

private def ratifyingTurns (world : World) : List Turn :=
  [⟨.nominate "" "own" false, world, 12⟩, acceptTurn world "b", acceptTurn world "c"]

private def ratifiedDecree (world : World) : DecreeState :=
  (runTurns ratifierContext (ratifyingTurns world) (newDecree ratifierContext)).state

theorem runTurns_values_checked_ratifying :
    (ratifiedDecree .plain).votes = ["v", "own"] ∧ (ratifiedDecree .plain).accepts = ["v"] ∧
      (ratifiedDecree .plain).candidates = ["v"] ∧
      ∀ addition ∈ (ratifiedDecree .plain).additions,
        addition.Checked (ratifyingTurns .plain) := by
  refine ⟨by decide +kernel, by decide +kernel, by decide +kernel, ?_⟩
  have ended : runTurns ratifierContext (ratifyingTurns .plain) (newDecree ratifierContext) =
      .done () (ratifiedDecree .plain) := Outcome.eq_done (by decide +kernel)
  exact (runTurns_values_checked ended).2.2.2 (by decide +kernel)

private def laterWorld : World :=
  { World.plain with ledgerSynced := true, nextLedgerHeaderSeq := 8 }

/-- A value that b and c have accepted becomes a candidate and the composite, though it is
never valid. -/
theorem runTurns_ratifies_invalid :
    runTurns ratifierContext (ratifyingTurns laterWorld) (newDecree ratifierContext) =
        .done () (ratifiedDecree laterWorld) ∧
      (ratifiedDecree laterWorld).candidates = ["v"] ∧
      (ratifiedDecree laterWorld).latestComposite = "v" ∧
      ⟨.candidates, "v", false⟩ ∈ (ratifiedDecree laterWorld).additions ∧
      ∀ turn ∈ ratifyingTurns laterWorld, ∀ before,
        (validateConsensusValue ratifierContext turn.world before "v").isOk = false := by
  refine ⟨Outcome.eq_done (by decide +kernel), by decide +kernel, by decide +kernel,
    by decide +kernel, ?_⟩
  have invalid : ∀ before,
      (validateConsensusValue ratifierContext laterWorld before "v").isOk = false := fun _ => rfl
  intro turn made before
  simp only [ratifyingTurns, List.mem_cons, List.not_mem_nil, or_false] at made
  rcases made with rfl | rfl | rfl <;> exact invalid before

end Ultiledger
