import Ultiledger.ValidatorQueues

/-! # Delivering statements to the consensus -/

namespace Ultiledger

open AbortingProgram Program Relation

section Retries

variable {sha256Hash : Statement → Except String String} {maxDecrees : UInt64}
  {v after : ValidatorQueues} {hash : String}

theorem known_step (step : ValidatorStep sha256Hash maxDecrees v after)
    (known : hash ∈ v.statements) : hash ∈ after.statements := by
  cases step with
  | recv ctx vctx world stmt hashes ended =>
    cases received_of_recv ended with
    | ignored => exact known
    | failed => exact .tail _ known
    | complete => exact .tail _ known
    | lacking => exact .tail _ known
  | monitor ctx vctx world order ended =>
    have shifted := (holds_of_done ended).mp
      (Validator.shifted_monitor ctx vctx world order v.toValidator)
    exact shifted.statements ▸ known
  | download ctx vctx world ended =>
    have shifted := (holds_of_done ended).mp
      (Validator.shifted_download ctx vctx world v.toValidator)
    exact shifted.statements ▸ known
  | dispatch nextSeqNum =>
    unfold ValidatorQueues.dispatch
    cases v.dispatchChan with
    | nil => exact known
    | cons stmt rest =>
      dsimp only
      split_ifs
      · exact known
      · exact known
  | tick fuel nextSeqNum ended =>
    obtain ⟨validator, -⟩ := v.ticked_spec maxDecrees nextSeqNum
    rw [ValidatorQueues.eq_ticked_of_tick ended, validator]
    exact known

theorem known_run (run : ReflTransGen (ValidatorStep sha256Hash maxDecrees) v after)
    (known : hash ∈ v.statements) : hash ∈ after.statements := by
  induction run with
  | refl => exact known
  | tail _ step ih => exact known_step step ih

/-- When `Recv` fails, nothing has changed, or every later `Recv` of the statement drops
it, whatever can be read by then. -/
theorem recv_failed_dropped {ctx : DecreeContext} {vctx : ValidatorContext} {world : World}
    {stmt : Statement} {err : String} {validator : Validator}
    (failed : Validator.recv ctx vctx world (some stmt) v.toValidator =
      .done (.error err) validator) :
    ((∃ cause, vctx.sha256Hash stmt = .error cause) ∧ validator = v.toValidator) ∨
    ∃ hash cause, vctx.sha256Hash stmt = .ok hash ∧
      Validator.validate ctx vctx world stmt = .ok (.error cause) ∧
      validator = { v.toValidator with statements := hash :: v.statements } ∧
      ∀ later, ReflTransGen (ValidatorStep vctx.sha256Hash maxDecrees)
          { v with toValidator := validator } later →
        ∀ laterCtx laterVctx laterWorld, laterVctx.sha256Hash = vctx.sha256Hash →
          Validator.recv laterCtx laterVctx laterWorld (some stmt) later.toValidator =
            .done (.ok ()) later.toValidator := by
  cases hashed : vctx.sha256Hash stmt with
  | error cause =>
    simp only [Validator.recv, hashed] at failed
    obtain ⟨-, rfl⟩ := pure_eq_done.mp failed
    exact .inl ⟨⟨cause, rfl⟩, rfl⟩
  | ok hash =>
    right
    have fresh : hash ∉ v.statements := by
      intro known
      rw [recv_of_known hashed known] at failed
      cases failed
    rw [recv_of_new hashed fresh] at failed
    split at failed
    · cases failed
    · rename_i cause refused
      cases failed
      refine ⟨hash, cause, rfl, refused, rfl, fun later run laterCtx laterVctx laterWorld same => ?_⟩
      exact recv_of_known (same ▸ hashed) (known_run run (.head _))
    · cases failed
    · cases failed

end Retries

section Ticks

variable {sha256Hash : Statement → Except String String} {maxDecrees : UInt64}
  {v : ValidatorQueues}

/-- A tick ends exactly if the largest sequence number seen is not the largest 64-bit
number.  It then sends every cached statement from the next sequence number up once, and
nothing else. -/
theorem dispatch_tick_sends_once
    (run : ReflTransGen (ValidatorStep sha256Hash maxDecrees) newValidatorQueues v)
    (nextSeqNum : UInt64) :
    (v.maxSeqNum = CountedLoop.last → ∀ fuel, v.tick maxDecrees fuel nextSeqNum = none) ∧
    (v.maxSeqNum ≠ CountedLoop.last → ∃ enough after sent,
      (∀ fuel, enough ≤ fuel → v.tick maxDecrees fuel nextSeqNum = some after) ∧
      after.readyChan = v.readyChan ++ sent ∧
      (∀ seqNum, nextSeqNum ≤ seqNum → seqNum ≤ v.maxSeqNum →
        (∀ stmt ∈ v.cached seqNum, sent.count stmt = 1) ∧ after.cached seqNum = []) ∧
      ∀ stmt ∈ sent, nextSeqNum ≤ stmt.seqNum ∧ stmt.seqNum ≤ v.maxSeqNum ∧
        stmt ∈ v.cached stmt.seqNum) := by
  have ordered := ordered_run run
  refine ⟨fun last fuel => ValidatorQueues.tick_last last maxDecrees fuel nextSeqNum, fun below => ?_⟩
  obtain ⟨-, -, ready, caches⟩ := v.ticked_spec maxDecrees nextSeqNum
  refine ⟨(CountedLoop.span nextSeqNum v.maxSeqNum).length + 2, v.ticked maxDecrees nextSeqNum,
    (CountedLoop.span nextSeqNum v.maxSeqNum).flatMap v.cached, ?_, ready, ?_, ?_⟩
  · intro fuel enough
    have ended := ValidatorQueues.tick_eq_ticked below maxDecrees nextSeqNum
      (fuel - ((CountedLoop.span nextSeqNum v.maxSeqNum).length + 2))
    rwa [Nat.add_sub_cancel' enough] at ended
  · intro seqNum above within
    have inSpan := CountedLoop.mem_span.mpr ⟨above, within⟩
    refine ⟨fun stmt found => ?_, ?_⟩
    · obtain ⟨rfl, -⟩ := ordered.sorted seqNum stmt found
      rw [ordered.sorted.count_flatMap (CountedLoop.nodup_span _ _), if_pos inSpan]
      have once := ordered.once stmt
      have present := List.count_pos_iff.mpr found
      rw [ValidatorQueues.copies] at once
      omega
    · rw [caches, if_pos inSpan, ite_self]
  · intro stmt found
    obtain ⟨seqNum, inSpan, found⟩ := List.mem_flatMap.mp found
    obtain ⟨rfl, -⟩ := ordered.sorted seqNum stmt found
    obtain ⟨above, within⟩ := CountedLoop.mem_span.mp inSpan
    exact ⟨above, within, found⟩

end Ticks

section Samples

private def twinQuorum : Quorum := .mk (1 / 2) ["a", "b"] []

private def twinContext : DecreeContext :=
  .plain 7 "n" twinQuorum (fun _ => some twinQuorum) (fun _ => 0)

private def byNode (stmt : Statement) : Except String String := .ok stmt.nodeID

private def readable : ValidatorContext := ⟨byNode, fun _ => none⟩

private def unreadable : ValidatorContext := ⟨byNode, fun _ => some "get quorum from db failed: timeout"⟩

private def voteAt (index : Nat) : Statement :=
  ⟨.prepare, "a", index, some (.prepare ⟨some ⟨1, "v"⟩, none, none, 0, 0, "a"⟩)⟩

private def receives (vctx : ValidatorContext) (index : Nat) (v : ValidatorQueues) :
    Outcome Validator Fault (Except String Unit) :=
  Validator.recv twinContext vctx .plain (some (voteAt index)) v.toValidator

private def reply (outcome : Outcome Validator Fault (Except String Unit)) :
    Option (Except String Unit) :=
  match outcome with
  | .done result _ => some result
  | .abort _ _ => none

private theorem eq_done_of_reply {outcome : Outcome Validator Fault (Except String Unit)}
    {result : Except String Unit} (replied : reply outcome = some result) :
    outcome = .done result outcome.state := by
  cases outcome with
  | done value state => rw [← Option.some.inj replied, Outcome.state]
  | abort fault state => cases replied

private def timedOut : ValidatorQueues :=
  { newValidatorQueues with toValidator := (receives unreadable 7 newValidatorQueues).state }

private theorem times_out : reply (receives unreadable 7 newValidatorQueues) = some (.error
    "validate statement failed: query quorum failed: get quorum from db failed: timeout") := by
  decide +kernel

/-- A statement whose quorum could not be read is dropped at the next attempt. -/
theorem recv_failed_dropped_vote :
    receives readable 7 timedOut = .done (.ok ()) timedOut.toValidator := by
  rcases @recv_failed_dropped 5 newValidatorQueues _ _ _ _ _ _ (eq_done_of_reply times_out) with
    ⟨⟨cause, unhashed⟩, -⟩ | ⟨hash, cause, -, -, -, dropped⟩
  · cases unhashed
  · exact dropped timedOut .refl twinContext readable .plain rfl

/-- The quorum can be read when the statement comes again.  The second call reports a
success and leaves the statement in no queue. -/
theorem recv_retry_ignored :
    reply (receives unreadable 7 newValidatorQueues) = some (.error
        "validate statement failed: query quorum failed: get quorum from db failed: timeout") ∧
      reply (receives readable 7 timedOut) = some (.ok ()) ∧
      (receives readable 7 timedOut).state.dispatchChan = [] ∧
      (receives readable 7 timedOut).state.downloadChan = [] ∧
      (receives readable 7 newValidatorQueues).state.dispatchChan = [voteAt 7] := by
  decide +kernel

private def storing (index : Nat) : ValidatorQueues :=
  ValidatorQueues.dispatch 7
    { newValidatorQueues with toValidator := (receives readable index newValidatorQueues).state }

private theorem holding_reached {index : Nat}
    (received : (receives readable index newValidatorQueues).isDone = true) :
    ReflTransGen (ValidatorStep byNode 5) newValidatorQueues (storing index) := by
  obtain ⟨result, ended⟩ := Outcome.exists_eq_done received
  exact .tail (.tail .refl (.recv twinContext readable .plain (some (voteAt index)) rfl ended))
    (.dispatch 7)

/-- A statement for the ninth ledger goes out with the tick before the eighth. -/
theorem dispatch_tick_ninth :
    ∃ enough after, (storing 9).tick 5 enough 8 = some after ∧ voteAt 9 ∈ after.readyChan ∧
      after.cached 9 = [] := by
  obtain ⟨enough, after, sent, ended, ready, each, -⟩ := (dispatch_tick_sends_once
    (@holding_reached 9 (by decide +kernel)) 8).2 (by decide +kernel)
  obtain ⟨once, cleared⟩ := each 9 (by decide) (by decide +kernel)
  have member : voteAt 9 ∈ sent :=
    List.count_pos_iff.mp (by rw [once (voteAt 9) (by decide +kernel)]; exact Nat.one_pos)
  exact ⟨enough, after, ended enough (le_refl _), ready ▸ List.mem_append_right _ member, cleared⟩

/-- A peer sends a statement with the largest index there is.  The ticks that follow do not
end. -/
theorem dispatch_tick_endless :
    ReflTransGen (ValidatorStep byNode 5) newValidatorQueues
        (storing 18446744073709551615) ∧
      (storing 18446744073709551615).cached 18446744073709551615 =
        [voteAt 18446744073709551615] ∧
      ∀ fuel, (storing 18446744073709551615).tick 5 fuel 7 = none :=
  ⟨holding_reached (by decide +kernel), by decide +kernel,
    fun fuel => ValidatorQueues.tick_last (by decide +kernel) 5 fuel 7⟩

end Samples

end Ultiledger
