import Ultiledger.LedgerChain

/-!
# Catching up

While the ledger is behind, externalized values wait in a buffer and the missing
ledgers are downloaded.  Values are lost when a buffered one cannot be closed, and when
one is accepted between the last look at the buffer and its clearing.
-/

namespace Ultiledger

open AbortingProgram Program

section Closing

variable {tm : TxManager} {ctx : LedgerContext} {moment : LedgerMoment}

/-- What a call of `closeLedger` that returns has done to the ledger. -/
def CloseEffect (info : CloseInfo) (lm : LedgerManager tm) :
    Except String Unit → LedgerManager tm → Prop
  | .ok _, after =>
    (lm.currLedgerHeader.isSome → info.index = lm.nextLedgerHeaderSeq) ∧
      after.closed = lm.closed ++ [info] ∧ after.currLedgerHeader.isSome ∧
      after.nextLedgerHeaderSeq = info.index + 1
  | .error _, after =>
    after.closed = lm.closed ∧ after.currLedgerHeader = lm.currLedgerHeader

theorem CloseResult.effect {info : CloseInfo} {checks : String → Prop}
    {lm after : LedgerManager tm} {result : Except String Unit}
    (closes : CloseResult ctx moment info checks lm.toLedgerCore result after.toLedgerCore)
    (due : ∀ txsetHash, checks txsetHash →
      lm.currLedgerHeader.isSome → info.index = lm.nextLedgerHeaderSeq) :
    CloseEffect info lm result after := by
  generalize core : after.toLedgerCore = final at closes
  cases closes with
  | refused err => exact ⟨by rw [core], by rw [core]⟩
  | closed txsetHash h passes key =>
    have head : after.currLedgerHeader = some (info.header txsetHash) := by
      rw [core]
      rfl
    refine ⟨due txsetHash passes, by rw [core], by rw [head]; rfl, ?_⟩
    rw [LedgerCore.nextLedgerHeaderSeq, head]
    rfl

theorem closeLedger_effect (info : CloseInfo) (lm : LedgerManager tm) :
    (closeLedger ctx moment info).Holds lm
      (fun result after => SameIntake lm after ∧ CloseEffect info lm result after)
      (fun _ _ => True) :=
  (closeLedger_holds info lm).mono
    (fun _ _ both => ⟨both.1, both.2.effect fun _ passes => passes.due⟩) (fun _ _ _ => trivial)

end Closing

section Tasks

variable {tm : TxManager} {ctx : LedgerContext} {moment : LedgerMoment}

/-- A manager that has been started. -/
structure Fresh (lm : LedgerManager tm) : Prop where
  empty : lm.buffer = []
  waiting : lm.catchUp = .waiting
  present : lm.currLedgerHeader.isSome
  resting : lm.ledgerState ≠ .syncing

theorem createGenesisLedger_fresh (accounts : LedgerState tm) :
    (createGenesisLedger ctx moment).Holds (newManager ∅ accounts [])
      (fun _ after => Fresh after ∧ after.nextLedgerHeaderSeq = after.largestConsensusIndex + 2)
      (fun _ _ => True) := by
  refine (createGenesisLedger_holds _).imp ?_
  rintro - after ⟨same, h, -, grown⟩
  have head : after.currLedgerHeader = some (newHeader genesisSeqNum "" "" "") := by
    rw [grown]
    rfl
  refine ⟨⟨same.buffer, same.catchUp, by rw [head]; rfl, by simp [same.ledgerState]⟩, ?_⟩
  rw [same.largest, LedgerCore.nextLedgerHeaderSeq, head]
  rfl

theorem restart_fresh (now : Nat) (lm : LedgerManager tm) :
    (restart ctx now).Holds lm
      (fun _ after => Fresh after ∧ after.nextLedgerHeaderSeq = after.largestConsensusIndex + 1)
      (fun _ _ => True) := by
  unfold restart recoverFromCheckpoint
  simp only [holds_bind, holds_modify, holds_get]
  split
  · rename_i checkpoint _
    split
    · trivial
    · rename_i passes
      obtain ⟨header, current⟩ : ∃ header, checkpoint.currLedgerHeader = some header := by
        cases current : checkpoint.currLedgerHeader with
        | some header => exact ⟨header, rfl⟩
        | none =>
          simp only [checkpointProblem, currHeaderProblem, current,
            LedgerContext.optionalHeaderKey] at passes
          split_ifs at passes
          split at passes <;> simp at passes
      refine ⟨⟨rfl, rfl, ?_, by simp [LedgerManager.restore]⟩, ?_⟩
      · simp [LedgerManager.restore, current]
      · simp [LedgerManager.restore, LedgerCore.nextLedgerHeaderSeq, current]
  · trivial
  · trivial

theorem recvNext_effect (info : CloseInfo) (lm : LedgerManager tm) :
    (recvNext ctx moment info).Holds lm
      (fun result after => after.buffer = lm.buffer ∧ after.catchUp = lm.catchUp ∧
        lm.closed ⊆ after.closed ∧ (lm.currLedgerHeader.isSome → after.currLedgerHeader.isSome) ∧
        match result with
        | .ok _ => after.nextLedgerHeaderSeq = info.index + 1 ∧
            after.largestConsensusIndex = info.index ∧ after.ledgerState = .synced
        | .error _ => after.largestConsensusIndex = lm.largestConsensusIndex ∧
            after.nextLedgerHeaderSeq = lm.nextLedgerHeaderSeq ∧
            after.ledgerState = lm.ledgerState)
      (fun _ _ => True) := by
  unfold recvNext currHeaderHash
  simp only [holds_bind, holds_get]
  split
  · trivial
  · rw [holds_pure]
    split
    · rw [holds_bind]
      refine (closeLedger_effect info lm).imp ?_
      rintro result after ⟨same, effect⟩
      cases result with
      | error err =>
        obtain ⟨closed, current⟩ := effect
        refine ⟨same.buffer, same.catchUp, ?_, ?_, same.largest, ?_, same.ledgerState⟩
        · rw [closed]
          exact .refl _
        · rw [current]
          exact id
        · unfold LedgerCore.nextLedgerHeaderSeq
          rw [current]
      | ok _ =>
        obtain ⟨-, closed, present, next⟩ := effect
        refine ⟨same.buffer, same.catchUp, ?_, fun _ => present, next, rfl, rfl⟩
        rw [closed]
        exact List.subset_append_left _ _
    · trivial

end Tasks

section Runs

variable {tm : TxManager} (ctx : LedgerContext)

/-- The infos that `Append` accepts in a move. -/
def LedgerMove.accepted (lm : LedgerManager tm) : LedgerMove → List CloseInfo
  | .recvExtVal _ info =>
    if (lm.ledgerState = .syncing ∨ lm.nextLedgerHeaderSeq < info.index) ∧
        appendInfo lm.buffer info ≠ lm.buffer then [info]
    else []
  | _ => []

/-- Calls of `RecvExtVal`, downloads, and the steps of the goroutine. -/
def LedgerMove.Interleaves : LedgerMove → Prop
  | .recvExtVal _ _ => True
  | .deliver _ => True
  | .catchUp _ => True
  | .closeLedger _ _ => False
  | .restart _ => False

instance (move : LedgerMove) : Decidable move.Interleaves := by
  cases move <;> unfold LedgerMove.Interleaves <;> infer_instance

def Started (lm : LedgerManager tm) : Prop :=
  (∃ moment accounts,
    createGenesisLedger ctx moment (newManager ∅ accounts []) = .done (.ok ()) lm) ∨
  ∃ now before, restart ctx now before = .done () lm

/-- The states of runs of permitted moves, with the infos that were accepted. -/
inductive Interleaved (permitted : LedgerManager tm → LedgerMove → Prop) :
    LedgerManager tm → List CloseInfo → Prop where
  | start (lm : LedgerManager tm) (started : Started ctx lm) : Interleaved permitted lm []
  | step (move : LedgerMove) (before after : LedgerManager tm) (accepted : List CloseInfo)
      (run : Interleaved permitted before accepted) (interleaves : move.Interleaves)
      (allowed : permitted before move) (performed : move.perform ctx before = .done () after) :
      Interleaved permitted after (accepted ++ move.accepted before)

/-- Nothing is accepted once the buffer is about to be cleared, and every info that
was taken out of the buffer can be closed. -/
def LedgerMove.KeepsInfos (lm : LedgerManager tm) : LedgerMove → Prop
  | .recvExtVal moment info => lm.catchUp = .clearing ∨ lm.catchUp = .settingSynced →
      (LedgerMove.recvExtVal moment info).accepted lm = []
  | .catchUp moment => ∀ head, lm.catchUp = .closing head →
      ∃ after, Ultiledger.closeLedger ctx moment head lm = .done (.ok ()) after
  | _ => True

instance decidableKeepsInfos (lm : LedgerManager tm) (move : LedgerMove) :
    Decidable (move.KeepsInfos ctx lm) :=
  match move with
  | .catchUp moment =>
    match place : lm.catchUp with
    | .closing head =>
      match closes : Ultiledger.closeLedger ctx moment head lm with
      | .done (.ok ()) _ => .isTrue (by simp [LedgerMove.KeepsInfos, place, closes])
      | .done (.error _) _ | .abort _ _ => .isFalse (by simp [LedgerMove.KeepsInfos, place, closes])
    | .waiting | .received _ | .checkSize | .peekHead | .loopSize | .popHead | .clearing
    | .settingSynced => .isTrue (by simp [LedgerMove.KeepsInfos, place])
  | .recvExtVal .. | .deliver _ | .closeLedger .. | .restart _ => by
    unfold LedgerMove.KeepsInfos
    infer_instance

def CatchUp.BeforeLoop : CatchUp → Prop
  | .waiting => True
  | .received _ => True
  | .checkSize => True
  | .peekHead => True
  | _ => False

/-- The accepted infos that are not closed, in order: the one that was taken out of
the buffer, and the buffer. -/
def LedgerManager.unclosed (lm : LedgerManager tm) : List CloseInfo :=
  match lm.catchUp with
  | .closing head => head :: lm.buffer
  | _ => lm.buffer

def Drained (accepted : List CloseInfo) (lm : LedgerManager tm) : Prop :=
  (∀ info ∈ accepted, info ∈ lm.closed) ∧
    ∀ last ∈ accepted.getLast?, lm.nextLedgerHeaderSeq = last.index + 1

/-- The goroutine waits for the ledger before the first buffered one, or empties the
buffer up to the last info that was accepted. -/
structure Syncing (accepted : List CloseInfo) (lm : LedgerManager tm) : Prop where
  first : lm.catchUp.BeforeLoop → ∃ head rest, lm.buffer = head :: rest ∧
    head.index = lm.largestConsensusIndex + 1
  behind : ¬ lm.catchUp.BeforeLoop → lm.largestConsensusIndex < lm.nextLedgerHeaderSeq
  tail : lm.unclosed ≠ [] → lm.unclosed.getLast? = accepted.getLast?
  drained : lm.unclosed = [] → ∀ last ∈ accepted.getLast?,
    lm.nextLedgerHeaderSeq = last.index + 1
  emptied : lm.catchUp = .clearing ∨ lm.catchUp = .settingSynced → lm.buffer = []

/-- The ledger is not syncing: the buffer is empty and the goroutine leaves it
alone. -/
structure Resting (accepted : List CloseInfo) (lm : LedgerManager tm) : Prop where
  empty : lm.buffer = []
  behind : lm.largestConsensusIndex < lm.nextLedgerHeaderSeq
  beforeLoop : lm.catchUp.BeforeLoop ∧ lm.catchUp ≠ .peekHead
  fresh : lm.ledgerState = .notSynced → accepted = []

structure InfoIntake (accepted : List CloseInfo) (lm : LedgerManager tm) : Prop where
  present : lm.currLedgerHeader.isSome
  kept : ∀ info ∈ accepted, info ∈ lm.unclosed ∨ info ∈ lm.closed
  syncing : lm.ledgerState = .syncing → Syncing accepted lm
  resting : lm.ledgerState ≠ .syncing → Resting accepted lm

variable {ctx} {accepted : List CloseInfo} {lm : LedgerManager tm}

theorem CatchUp.BeforeLoop.not_clearing {place : CatchUp} (beforeLoop : place.BeforeLoop) :
    ¬(place = .clearing ∨ place = .settingSynced) := by
  rintro (rfl | rfl) <;> exact beforeLoop

theorem unclosed_of_beforeLoop (beforeLoop : lm.catchUp.BeforeLoop) : lm.unclosed = lm.buffer := by
  unfold LedgerManager.unclosed
  split
  · rename_i head closing
    rw [closing] at beforeLoop
    exact beforeLoop.elim
  · rfl

theorem InfoIntake.closed_of_nothing (intake : InfoIntake accepted lm)
    (nothing : lm.unclosed = []) : ∀ info ∈ accepted, info ∈ lm.closed := by
  intro info infoMem
  simpa [nothing] using intake.kept info infoMem

theorem Resting.nothing (resting : Resting accepted lm) : lm.unclosed = [] := by
  rw [unclosed_of_beforeLoop resting.beforeLoop.1, resting.empty]

theorem appendInfo_cases (infos : List CloseInfo) (info : CloseInfo) :
    appendInfo infos info = infos ∨ appendInfo infos info = infos ++ [info] := by
  unfold appendInfo
  split
  · split_ifs
    · exact .inl rfl
    · exact .inr rfl
  · exact .inr rfl

theorem Fresh.intake (fresh : Fresh lm)
    (behind : lm.largestConsensusIndex < lm.nextLedgerHeaderSeq) : InfoIntake [] lm where
  present := fresh.present
  kept := by simp
  syncing state := absurd state fresh.resting
  resting _ := ⟨fresh.empty, behind, by simp [fresh.waiting, CatchUp.BeforeLoop], fun _ => rfl⟩

theorem intake_of_started (started : Started ctx lm) : InfoIntake [] lm := by
  rcases started with ⟨moment, accounts, created⟩ | ⟨now, before, restarted⟩
  · obtain ⟨fresh, next⟩ := (holds_of_done created).mp (createGenesisLedger_fresh accounts)
    exact fresh.intake (by omega)
  · obtain ⟨fresh, next⟩ := (holds_of_done restarted).mp (restart_fresh now before)
    exact fresh.intake (by omega)

theorem unclosed_append (lm : LedgerManager tm) (info : CloseInfo) :
    { lm with buffer := lm.buffer ++ [info] }.unclosed = lm.unclosed ++ [info] := by
  unfold LedgerManager.unclosed
  dsimp only
  split <;> rfl

theorem Syncing.append (syncing : Syncing accepted lm) (info : CloseInfo)
    (filling : ¬(lm.catchUp = .clearing ∨ lm.catchUp = .settingSynced)) :
    Syncing (accepted ++ [info]) { lm with buffer := lm.buffer ++ [info] } where
  first beforeLoop := by
    obtain ⟨head, rest, buffered, due⟩ := syncing.first beforeLoop
    exact ⟨head, rest ++ [info], by simp [buffered], due⟩
  behind := syncing.behind
  tail _ := by
    rw [unclosed_append]
    simp
  drained empty := by
    rw [unclosed_append] at empty
    simp at empty
  emptied clearing := absurd clearing filling

theorem InfoIntake.append (intake : InfoIntake accepted lm) (syncing : lm.ledgerState = .syncing)
    (info : CloseInfo) (filling : ¬(lm.catchUp = .clearing ∨ lm.catchUp = .settingSynced)) :
    InfoIntake (accepted ++ [info]) { lm with buffer := lm.buffer ++ [info] } where
  present := intake.present
  kept other otherMem := by
    rw [unclosed_append]
    rcases List.mem_append.mp otherMem with early | late
    · exact (intake.kept other early).imp_left (List.mem_append_left _)
    · exact .inl (List.mem_append_right _ late)
  syncing _ := (intake.syncing syncing).append info filling
  resting resting := absurd syncing resting

theorem InfoIntake.start (intake : InfoIntake accepted lm) (resting : Resting accepted lm)
    {info : CloseInfo} (beyond : lm.nextLedgerHeaderSeq < info.index) (tasks : List (Nat × Nat)) :
    InfoIntake (accepted ++ [info])
      { lm with
        buffer := [info]
        tasks := tasks
        largestConsensusIndex := info.index - 1
        ledgerState := .syncing } := by
  have only : { lm with
      buffer := [info]
      tasks := tasks
      largestConsensusIndex := info.index - 1
      ledgerState := .syncing }.unclosed = [info] :=
    unclosed_of_beforeLoop resting.beforeLoop.1
  refine ⟨intake.present, ?_, fun _ => ⟨?_, ?_, ?_, ?_, ?_⟩, fun resting => absurd rfl resting⟩
  · intro other otherMem
    rw [only]
    rcases List.mem_append.mp otherMem with early | late
    · exact .inr (intake.closed_of_nothing resting.nothing other early)
    · exact .inl late
  · intro _
    refine ⟨info, [], rfl, ?_⟩
    dsimp only
    omega
  · intro inLoop
    exact absurd resting.beforeLoop.1 inLoop
  · rw [only]
    simp
  · intro empty
    rw [only] at empty
    simp at empty
  · exact fun clearing => absurd clearing resting.beforeLoop.1.not_clearing

/-- The invariant after a move, and that all infos are closed if the ledger has
become synced. -/
def IntakeAfter (accepted : List CloseInfo) (lm after : LedgerManager tm) : Prop :=
  InfoIntake accepted after ∧
    (lm.ledgerState ≠ .synced → after.ledgerState = .synced → Drained accepted after)

theorem IntakeAfter.stays {after : LedgerManager tm} (same : after.ledgerState = lm.ledgerState)
    (intake : InfoIntake accepted after) : IntakeAfter accepted lm after :=
  ⟨intake, fun notSynced synced => absurd (same.symm.trans synced) notSynced⟩

section

variable (intake : InfoIntake accepted lm)

include intake

theorem recvNext_intake (resting : lm.ledgerState ≠ .syncing) (moment : LedgerMoment)
    (info : CloseInfo) :
    (recvNext ctx moment info).Holds lm (fun _ => IntakeAfter accepted lm) (fun _ _ => True) := by
  have rest := intake.resting resting
  have allClosed := intake.closed_of_nothing rest.nothing
  refine (recvNext_effect info lm).imp ?_
  rintro result after ⟨buffer, catchUp, closed, present, effect⟩
  have stillBeforeLoop : after.catchUp.BeforeLoop ∧ after.catchUp ≠ .peekHead := by
    rw [catchUp]
    exact rest.beforeLoop
  cases result with
  | ok _ =>
    obtain ⟨next, largest, synced⟩ := effect
    refine ⟨⟨present intake.present, fun other otherMem => .inr (closed (allClosed other otherMem)),
      fun syncing => by simp [synced] at syncing, fun _ => ⟨buffer.trans rest.empty, ?_,
        stillBeforeLoop, fun notSynced => by simp [synced] at notSynced⟩⟩, ?_⟩
    · rw [next, largest]
      exact Nat.lt_succ_self _
    · intro notSynced _
      have nothing : accepted = [] := by
        cases state : lm.ledgerState with
        | synced => exact absurd state notSynced
        | syncing => exact absurd state resting
        | notSynced => exact rest.fresh state
      simp [Drained, nothing]
  | error err =>
    obtain ⟨largest, next, state⟩ := effect
    refine .stays state ⟨present intake.present,
      fun other otherMem => .inr (closed (allClosed other otherMem)),
      fun syncing => absurd (state.symm.trans syncing) resting,
      fun _ => ⟨buffer.trans rest.empty, ?_, stillBeforeLoop, ?_⟩⟩
    · rw [largest, next]
      exact rest.behind
    · rw [state]
      exact rest.fresh

theorem recvEarly_intake (resting : lm.ledgerState ≠ .syncing) {info : CloseInfo}
    (beyond : lm.nextLedgerHeaderSeq < info.index) :
    (recvEarly info : LedgerM tm (Except String Unit)).Holds lm
      (fun _ => IntakeAfter (accepted ++ [info]) lm) (fun _ _ => True) := by
  have rest := intake.resting resting
  have behind := rest.behind
  have alone : appendInfo lm.buffer info = [info] := by
    rw [rest.empty]
    rfl
  have unknown : ¬ info.index ≤ lm.largestConsensusIndex := by omega
  have ranged : ¬ lm.largestConsensusIndex + 1 > info.index - 1 := by omega
  unfold recvEarly addTask
  simp only [holds_bind, holds_modify, holds_get, if_neg unknown, if_neg ranged, alone,
    holds_pure]
  exact ⟨intake.start rest beyond _, fun _ synced => by simp at synced⟩

theorem recvExtVal_intake (moment : LedgerMoment) (info : CloseInfo)
    (keeps : (LedgerMove.recvExtVal moment info).KeepsInfos ctx lm) :
    (recvExtVal ctx moment info).Holds lm
      (fun _ => IntakeAfter (accepted ++ (LedgerMove.recvExtVal moment info).accepted lm) lm)
      (fun _ _ => True) := by
  have due : lm.ledgerState ≠ .syncing →
      (if lm.nextLedgerHeaderSeq = info.index then recvNext ctx moment info
        else if info.index < lm.nextLedgerHeaderSeq then pure (.ok ())
        else recvEarly info : LedgerM tm (Except String Unit)).Holds lm
        (fun _ => IntakeAfter (accepted ++ (LedgerMove.recvExtVal moment info).accepted lm) lm)
        (fun _ _ => True) := by
    intro resting
    rcases lt_trichotomy lm.nextLedgerHeaderSeq info.index with beyond | next | old
    · have accepts : (LedgerMove.recvExtVal moment info).accepted lm = [info] := by
        simp [LedgerMove.accepted, beyond, (intake.resting resting).empty, appendInfo]
      rw [if_neg (Nat.ne_of_lt beyond), if_neg (Nat.lt_asymm beyond), accepts]
      exact recvEarly_intake intake resting beyond
    · have nothing : (LedgerMove.recvExtVal moment info).accepted lm = [] := by
        simp [LedgerMove.accepted, resting, next]
      rw [if_pos next, nothing, List.append_nil]
      exact recvNext_intake intake resting moment info
    · have nothing : (LedgerMove.recvExtVal moment info).accepted lm = [] := by
        simp [LedgerMove.accepted, resting, Nat.lt_asymm old]
      rw [if_neg (Nat.ne_of_gt old), if_pos old, nothing, List.append_nil]
      exact .stays rfl intake
  unfold recvExtVal
  rw [holds_bind, holds_get]
  cases state : lm.ledgerState with
  | synced => exact due (by simp [state])
  | notSynced => exact due (by simp [state])
  | syncing =>
    simp only [holds_bind, holds_modify, holds_pure]
    rcases appendInfo_cases lm.buffer info with same | grown
    · have nothing : (LedgerMove.recvExtVal moment info).accepted lm = [] := by
        simp [LedgerMove.accepted, same]
      rw [nothing, List.append_nil, same]
      exact .stays rfl intake
    · have accepts : (LedgerMove.recvExtVal moment info).accepted lm = [info] := by
        simp [LedgerMove.accepted, grown, state]
      have filling : ¬(lm.catchUp = .clearing ∨ lm.catchUp = .settingSynced) := by
        intro clearing
        have nothing := keeps clearing
        rw [accepts] at nothing
        simp at nothing
      rw [accepts, grown]
      exact ⟨intake.append state info filling,
        fun _ synced => by simp [state] at synced⟩

variable {next : CatchUp} {after : LedgerManager tm}

theorem InfoIntake.goTo (here : lm.catchUp.BeforeLoop) (there : next.BeforeLoop)
    (resting : lm.ledgerState ≠ .syncing → next ≠ .peekHead) :
    InfoIntake accepted { lm with catchUp := next } := by
  have before : lm.unclosed = lm.buffer := unclosed_of_beforeLoop here
  have same : { lm with catchUp := next }.unclosed = lm.unclosed :=
    (unclosed_of_beforeLoop there).trans before.symm
  refine ⟨intake.present, ?_, fun state => ?_, fun state => ?_⟩
  · rw [same]
    exact intake.kept
  · have syncing := intake.syncing state
    refine ⟨fun _ => syncing.first here, fun inLoop => absurd there inLoop, ?_, ?_, ?_⟩
    · rw [same]
      exact syncing.tail
    · rw [same]
      exact syncing.drained
    · exact fun clearing => absurd clearing there.not_clearing
  · have rest := intake.resting state
    exact ⟨rest.empty, rest.behind, ⟨there, resting state⟩, rest.fresh⟩

theorem InfoIntake.turn (state : lm.ledgerState = .syncing)
    (behind : lm.largestConsensusIndex < lm.nextLedgerHeaderSeq) {buffer : List CloseInfo}
    (inLoop : ¬ next.BeforeLoop)
    (same : { lm with buffer := buffer, catchUp := next }.unclosed = lm.unclosed)
    (emptied : next = .clearing ∨ next = .settingSynced → buffer = []) :
    InfoIntake accepted { lm with buffer := buffer, catchUp := next } := by
  have syncing := intake.syncing state
  refine ⟨intake.present, ?_, fun _ => ⟨fun beforeLoop => absurd beforeLoop inLoop,
    fun _ => behind, ?_, ?_, emptied⟩, fun resting => absurd state resting⟩
  · rw [same]
    exact intake.kept
  · rw [same]
    exact syncing.tail
  · rw [same]
    exact syncing.drained

theorem InfoIntake.close (here : lm.catchUp.BeforeLoop) {info : CloseInfo}
    {result : Except String Unit} (same : SameIntake lm after)
    (effect : CloseEffect info lm result after) : InfoIntake accepted after := by
  have unclosed : after.unclosed = lm.unclosed := by
    unfold LedgerManager.unclosed
    rw [same.catchUp, same.buffer]
  have beforeLoop : after.catchUp.BeforeLoop := by
    rw [same.catchUp]
    exact here
  have grown : lm.closed ⊆ after.closed ∧ after.currLedgerHeader.isSome ∧
      lm.nextLedgerHeaderSeq ≤ after.nextLedgerHeaderSeq := by
    cases result with
    | ok _ =>
      obtain ⟨due, closed, present, next⟩ := effect
      refine ⟨?_, present, ?_⟩
      · rw [closed]
        exact List.subset_append_left _ _
      · have index := due intake.present
        omega
    | error err =>
      obtain ⟨closed, current⟩ := effect
      refine ⟨?_, ?_, ?_⟩
      · rw [closed]
        exact .refl _
      · rw [current]
        exact intake.present
      · unfold LedgerCore.nextLedgerHeaderSeq
        rw [current]
  obtain ⟨closed, present, next⟩ := grown
  refine ⟨present, ?_, fun state => ?_, fun state => ?_⟩
  · intro other otherMem
    rw [unclosed]
    exact (intake.kept other otherMem).imp_right fun early => closed early
  · have syncing := intake.syncing (same.ledgerState ▸ state)
    obtain ⟨head, rest, buffered, first⟩ := syncing.first here
    have waiting : after.unclosed ≠ [] := by
      rw [unclosed, unclosed_of_beforeLoop here, buffered]
      simp
    refine ⟨fun _ => ⟨head, rest, same.buffer.trans buffered, same.largest ▸ first⟩,
      fun inLoop => absurd beforeLoop inLoop, ?_, fun empty => absurd empty waiting, ?_⟩
    · rw [unclosed]
      exact syncing.tail
    · rw [same.catchUp, same.buffer]
      exact syncing.emptied
  · have rest := intake.resting (same.ledgerState ▸ state)
    refine ⟨same.buffer.trans rest.empty, ?_, ?_, ?_⟩
    · rw [same.largest]
      exact lt_of_lt_of_le rest.behind next
    · rw [same.catchUp]
      exact rest.beforeLoop
    · rw [same.ledgerState]
      exact rest.fresh

theorem InfoIntake.inLoop (inLoop : ¬ lm.catchUp.BeforeLoop) :
    lm.ledgerState = .syncing ∧ lm.largestConsensusIndex < lm.nextLedgerHeaderSeq := by
  have state : lm.ledgerState = .syncing := by
    by_contra resting
    exact inLoop (intake.resting resting).beforeLoop.1
  exact ⟨state, (intake.syncing state).behind inLoop⟩

theorem InfoIntake.closeHead {head : CloseInfo} (place : lm.catchUp = .closing head)
    (same : SameIntake lm after) (effect : CloseEffect head lm (.ok ()) after) :
    InfoIntake accepted { after with catchUp := .loopSize } := by
  obtain ⟨state, behind⟩ := intake.inLoop (by simp [place, CatchUp.BeforeLoop])
  obtain ⟨due, closed, present, next⟩ := effect
  have index := due intake.present
  have whole : lm.unclosed = head :: lm.buffer := by simp [LedgerManager.unclosed, place]
  have tail := (intake.syncing state).tail (by simp [whole])
  refine ⟨present, ?_, fun _ => ⟨False.elim, fun _ => ?_, ?_, ?_, by simp⟩,
    fun resting => absurd (same.ledgerState.trans state) resting⟩
  · intro other otherMem
    rw [same.buffer, closed]
    rcases intake.kept other otherMem with unclosed | early
    · rw [whole] at unclosed
      rcases List.mem_cons.mp unclosed with rfl | later
      · exact .inr (by simp)
      · exact .inl later
    · exact .inr (List.mem_append_left _ early)
  · change after.largestConsensusIndex < after.nextLedgerHeaderSeq
    rw [same.largest]
    omega
  · intro nonempty
    change after.buffer ≠ [] at nonempty
    rw [same.buffer] at nonempty ⊢
    rw [whole, List.getLast?_cons_of_ne_nil nonempty] at tail
    exact tail
  · intro empty last lastMem
    change after.buffer = [] at empty
    rw [same.buffer] at empty
    rw [whole, empty] at tail
    rw [← tail] at lastMem
    cases lastMem
    exact next

theorem InfoIntake.settle (place : lm.catchUp = .settingSynced) :
    IntakeAfter accepted lm { lm with ledgerState := .synced, catchUp := .waiting } := by
  obtain ⟨state, behind⟩ := intake.inLoop (by simp [place, CatchUp.BeforeLoop])
  have syncing := intake.syncing state
  have empty := syncing.emptied (.inr place)
  have nothing : lm.unclosed = [] := by simp [LedgerManager.unclosed, place, empty]
  have allClosed := intake.closed_of_nothing nothing
  refine ⟨⟨intake.present, fun info infoMem => .inr (allClosed info infoMem),
    fun syncing => by simp at syncing, fun _ => ⟨empty, behind, by simp [CatchUp.BeforeLoop],
      fun notSynced => by simp at notSynced⟩⟩, fun _ _ => ?_⟩
  exact ⟨allClosed, syncing.drained nothing⟩

theorem catchUpStep_intake (moment : LedgerMoment)
    (keeps : (LedgerMove.catchUp moment).KeepsInfos ctx lm) :
    (catchUpStep ctx moment).Holds lm (fun _ => IntakeAfter accepted lm) (fun _ _ => True) := by
  unfold catchUpStep
  rw [holds_bind, holds_get]
  cases place : lm.catchUp with
  | waiting => exact .stays rfl intake
  | received info =>
    have here : lm.catchUp.BeforeLoop := by simp [place, CatchUp.BeforeLoop]
    unfold currHeaderHash
    simp only [holds_bind, holds_get]
    split
    · trivial
    · refine (closeLedger_effect info lm).imp ?_
      rintro result after ⟨same, effect⟩
      have closed := intake.close here same effect
      refine .stays same.ledgerState (closed.goTo ?_ trivial (by simp))
      rw [same.catchUp]
      exact here
  | checkSize =>
    have here : lm.catchUp.BeforeLoop := by simp [place, CatchUp.BeforeLoop]
    dsimp only
    split
    · exact .stays rfl (intake.goTo here trivial (by simp))
    · rename_i nonempty
      refine .stays rfl (intake.goTo here trivial fun resting => ?_)
      exact absurd (intake.resting resting).empty nonempty
  | peekHead =>
    have here : lm.catchUp.BeforeLoop := by simp [place, CatchUp.BeforeLoop]
    have state : lm.ledgerState = .syncing := by
      by_contra resting
      exact (intake.resting resting).beforeLoop.2 place
    obtain ⟨head, rest, buffered, first⟩ := (intake.syncing state).first here
    have waiting : lm.unclosed = lm.buffer := unclosed_of_beforeLoop here
    simp only [buffered, List.head?_cons]
    split
    · exact .stays rfl (intake.goTo here trivial (by simp))
    · exact .stays rfl (intake.turn state (by omega) id waiting.symm (by simp))
  | loopSize =>
    obtain ⟨state, behind⟩ := intake.inLoop (by simp [place, CatchUp.BeforeLoop])
    have whole : lm.unclosed = lm.buffer := by simp [LedgerManager.unclosed, place]
    dsimp only
    split
    · rename_i empty
      exact .stays rfl (intake.turn state behind id whole.symm fun _ => empty)
    · exact .stays rfl (intake.turn state behind id whole.symm (by simp))
  | popHead =>
    obtain ⟨state, behind⟩ := intake.inLoop (by simp [place, CatchUp.BeforeLoop])
    cases buffered : lm.buffer with
    | nil => trivial
    | cons head rest =>
      have whole : lm.unclosed = head :: rest := by
        simp [LedgerManager.unclosed, place, buffered]
      exact .stays rfl (intake.turn state behind id whole.symm (by simp))
  | closing head =>
    obtain ⟨after, closes⟩ := keeps head place
    obtain ⟨same, effect⟩ := (holds_of_done closes).mp (closeLedger_effect head lm)
    rw [holds_bind, holds_of_done closes]
    exact .stays same.ledgerState (intake.closeHead place same effect)
  | clearing =>
    obtain ⟨state, behind⟩ := intake.inLoop (by simp [place, CatchUp.BeforeLoop])
    have empty := (intake.syncing state).emptied (.inl place)
    have nothing : lm.unclosed = [] := by simp [LedgerManager.unclosed, place, empty]
    exact .stays rfl (intake.turn state behind id nothing.symm fun _ => rfl)
  | settingSynced => exact intake.settle place

theorem perform_intake {move : LedgerMove} (interleaves : move.Interleaves)
    (keeps : move.KeepsInfos ctx lm) :
    (move.perform ctx).Holds lm (fun _ => IntakeAfter (accepted ++ move.accepted lm) lm)
      (fun _ _ => True) := by
  cases move with
  | recvExtVal moment info =>
    change (recvExtVal ctx moment info >>= fun _ => pure ()).Holds lm _ _
    rw [holds_bind]
    exact recvExtVal_intake intake moment info keeps
  | deliver info =>
    have nothing : (LedgerMove.deliver info).accepted lm = [] := rfl
    rw [nothing, List.append_nil]
    change IntakeAfter accepted lm _
    dsimp only
    split
    · rename_i waiting
      exact .stays rfl (intake.goTo (by simp [waiting, CatchUp.BeforeLoop]) trivial (by simp))
    · exact .stays rfl intake
  | catchUp moment =>
    have nothing : (LedgerMove.catchUp moment).accepted lm = [] := rfl
    rw [nothing, List.append_nil]
    exact catchUpStep_intake intake moment keeps
  | closeLedger moment info => exact interleaves.elim
  | restart now => exact interleaves.elim

end

theorem Interleaved.intake
    (run : Interleaved ctx (fun lm move => move.KeepsInfos ctx lm) lm accepted) :
    InfoIntake accepted lm := by
  induction run with
  | start lm started => exact intake_of_started started
  | step move before after accepted run interleaves allowed performed ih =>
    exact ((holds_of_done performed).mp (perform_intake ih interleaves allowed)).1

/-- If nothing is accepted once the buffer is about to be cleared and every info taken out
of it can be closed, an accepted info is buffered, in the hands of the goroutine, or
closed; and all are closed when the ledger becomes synced. -/
theorem catchUp_loses_no_info
    (run : Interleaved ctx (fun lm move => move.KeepsInfos ctx lm) lm accepted) :
    (∀ info ∈ accepted, info ∈ lm.buffer ∨ lm.catchUp = .closing info ∨ info ∈ lm.closed) ∧
    ∀ (move : LedgerMove) (after : LedgerManager tm), move.Interleaves →
      move.KeepsInfos ctx lm → move.perform ctx lm = .done () after →
      lm.ledgerState ≠ .synced → after.ledgerState = .synced →
      (∀ info ∈ accepted ++ move.accepted lm, info ∈ after.closed) ∧
        ∀ last ∈ (accepted ++ move.accepted lm).getLast?,
          after.nextLedgerHeaderSeq = last.index + 1 := by
  have intake := run.intake
  constructor
  · intro info infoMem
    rcases intake.kept info infoMem with unclosed | closed
    · unfold LedgerManager.unclosed at unclosed
      split at unclosed
      · rename_i head closing
        rcases List.mem_cons.mp unclosed with rfl | buffered
        · exact .inr (.inl closing)
        · exact .inl buffered
      · exact .inl unclosed
    · exact .inr (.inr closed)
  · intro move after interleaves keeps performed
    exact ((holds_of_done performed).mp (perform_intake intake interleaves keeps)).2

variable (ctx)

/-- The moves in order, as long as each is permitted, with the infos that were
accepted. -/
def follow (permitted : LedgerManager tm → LedgerMove → Prop)
    [∀ lm move, Decidable (permitted lm move)] :
    List LedgerMove → LedgerManager tm → List CloseInfo →
      Option (LedgerManager tm × List CloseInfo)
  | [], lm, accepted => some (lm, accepted)
  | move :: moves, lm, accepted =>
    if move.Interleaves ∧ permitted lm move then
      match move.perform ctx lm with
      | .done () after => follow permitted moves after (accepted ++ move.accepted lm)
      | .abort _ _ => none
    else
      none

variable {ctx}

theorem Interleaved.of_follow {permitted : LedgerManager tm → LedgerMove → Prop}
    [∀ lm move, Decidable (permitted lm move)] (run : Interleaved ctx permitted lm accepted)
    {moves : List LedgerMove} {after : LedgerManager tm} {all : List CloseInfo}
    (followed : follow ctx permitted moves lm accepted = some (after, all)) :
    Interleaved ctx permitted after all := by
  induction moves generalizing lm accepted with
  | nil =>
    cases followed
    exact run
  | cons move moves ih =>
    unfold follow at followed
    split_ifs at followed with allowed
    split at followed
    · rename_i between performed
      exact ih (run.step move lm between accepted allowed.1 allowed.2 performed) followed
    · simp at followed

end Runs

def infoAt (seq : Nat) : CloseInfo :=
  ⟨seq, "value", ⟨"header " ++ toString [seq - 1], []⟩⟩

abbrev goodMoment : LedgerMoment := momentAt 9 (.ok ())

def fromGenesis (permitted : LedgerManager TxManager.plain → LedgerMove → Prop)
    [∀ lm move, Decidable (permitted lm move)] (moves : List LedgerMove) :
    LedgerManager .plain × List CloseInfo :=
  (follow numberedHeaders permitted moves oneLedger []).getD (oneLedger, [])

theorem fromGenesis_interleaved (permitted : LedgerManager TxManager.plain → LedgerMove → Prop)
    [∀ lm move, Decidable (permitted lm move)] (moves : List LedgerMove) :
    Interleaved numberedHeaders permitted (fromGenesis permitted moves).1
      (fromGenesis permitted moves).2 := by
  have genesis : Interleaved numberedHeaders permitted oneLedger [] :=
    .start _ (.inl ⟨momentAt 5 (.ok ()), _, rfl⟩)
  unfold fromGenesis
  cases followed : follow numberedHeaders permitted moves oneLedger [] with
  | none => exact genesis
  | some last => exact genesis.of_follow followed

def catchUpWith (info : CloseInfo) (steps : Nat) : List LedgerMove :=
  .deliver info :: List.replicate steps (.catchUp goodMoment)

def drainedBuffer : LedgerManager TxManager.plain × List CloseInfo :=
  fromGenesis (fun lm move => move.KeepsInfos numberedHeaders lm)
    ([.recvExtVal goodMoment (infoAt 4), .recvExtVal goodMoment (infoAt 5)] ++
      catchUpWith (infoAt 2) 3 ++ catchUpWith (infoAt 3) 11)

theorem catchUp_loses_no_info_five :
    drainedBuffer.1.ledgerState = .syncing ∧ ∃ after : LedgerManager TxManager.plain,
      catchUpStep numberedHeaders goodMoment drainedBuffer.1 = .done () after ∧
      (after.ledgerState = .synced →
        (∀ info ∈ [infoAt 4, infoAt 5], info ∈ after.closed) ∧ after.nextLedgerHeaderSeq = 6) := by
  have syncing : drainedBuffer.1.ledgerState = .syncing := by decide +kernel
  have accepted : drainedBuffer.2 = [infoAt 4, infoAt 5] := by decide +kernel
  have performed : catchUpStep numberedHeaders goodMoment drainedBuffer.1 = _ :=
    Outcome.eq_done (by decide +kernel)
  refine ⟨syncing, _, performed, fun synced => ?_⟩
  have run : Interleaved numberedHeaders (fun lm move => move.KeepsInfos numberedHeaders lm)
      drainedBuffer.1 drainedBuffer.2 := fromGenesis_interleaved _ _
  obtain ⟨-, becomes⟩ := catchUp_loses_no_info run
  obtain ⟨closed, next⟩ := becomes (.catchUp goodMoment) _ trivial (by decide +kernel) performed
    (by rw [syncing]; simp) synced
  rw [accepted] at closed next
  exact ⟨closed, next (infoAt 5) rfl⟩

def Lost (info : CloseInfo) (run : LedgerManager TxManager.plain × List CloseInfo) : Prop :=
  info ∈ run.2 ∧ run.1.ledgerState = .synced ∧ info ∉ run.1.buffer ∧
    run.1.catchUp ≠ .closing info ∧ info ∉ run.1.closed

instance decidableLost (info : CloseInfo)
    (run : LedgerManager .plain × List CloseInfo) : Decidable (Lost info run) :=
  inferInstanceAs (Decidable (_ ∧ _))

def arrivesLate : LedgerManager TxManager.plain × List CloseInfo :=
  fromGenesis (fun _ _ => True)
    ([.recvExtVal goodMoment (infoAt 3)] ++ catchUpWith (infoAt 2) 7 ++
      [.recvExtVal goodMoment (infoAt 4), .catchUp goodMoment, .catchUp goodMoment])

def badInfo : CloseInfo :=
  { infoAt 3 with txSet := ⟨"header [2]", [⟨"nobody", 1000, "gone", 1, []⟩]⟩ }

def failsToClose : LedgerManager TxManager.plain × List CloseInfo :=
  fromGenesis (fun _ _ => True)
    ([.recvExtVal goodMoment badInfo, .recvExtVal goodMoment (infoAt 4)] ++
      catchUpWith (infoAt 2) 8)

theorem catchUp_loses_info :
    (Interleaved numberedHeaders (fun _ _ => True) arrivesLate.1 arrivesLate.2 ∧
      Lost (infoAt 4) arrivesLate) ∧
    (Interleaved numberedHeaders (fun _ _ => True) failsToClose.1 failsToClose.2 ∧
      Lost badInfo failsToClose ∧ Lost (infoAt 4) failsToClose) :=
  ⟨⟨fromGenesis_interleaved _ _, by decide +kernel⟩,
    ⟨fromGenesis_interleaved _ _, by decide +kernel⟩⟩

/-- What sets the largest index after the genesis ledger, or moves the ledger on without
setting it. -/
inductive LedgerEvent where
  | recovered
  | closed
  | asked (ledgers : Nat)
  | caughtUp
  deriving DecidableEq, Repr

/-- How far the largest index is ahead of the ledger, by what has happened since the
genesis ledger, newest first. -/
def owed : List LedgerEvent → Int
  | [] => -1
  | .recovered :: _ => 0
  | .closed :: _ => 0
  | .asked ledgers :: _ => ledgers
  | .caughtUp :: events => owed events - 1

/-- The goroutine has closed no ledger since a recovery or a close by `RecvExtVal`, or
exactly those that were asked for. -/
def UpToDate (events : List LedgerEvent) : Prop :=
  ∃ count cause earlier, events = List.replicate count .caughtUp ++ cause :: earlier ∧
    (cause = .asked count ∨ count = 0 ∧ (cause = .recovered ∨ cause = .closed))

theorem owed_eq_iff (events : List LedgerEvent) (ahead : Nat) :
    owed events = ahead ↔ ∃ count cause earlier,
      events = List.replicate count .caughtUp ++ cause :: earlier ∧
      (cause = .asked (count + ahead) ∨
        count + ahead = 0 ∧ (cause = .recovered ∨ cause = .closed)) := by
  induction events generalizing ahead with
  | nil => simp [owed, show (-1 : Int) ≠ ahead by omega]
  | cons event events ih =>
    constructor
    · intro same
      cases event with
      | recovered | closed =>
        have none : ahead = 0 := by simpa [owed, eq_comm] using same
        exact ⟨0, _, events, rfl, .inr ⟨by omega, by simp⟩⟩
      | asked ledgers =>
        have all : ledgers = ahead := by simpa [owed] using same
        exact ⟨0, .asked ledgers, events, rfl, .inl (by rw [all, Nat.zero_add])⟩
      | caughtUp =>
        have more : owed events = (ahead + 1 : Nat) := by
          rw [owed] at same
          omega
        obtain ⟨count, cause, earlier, rfl, found⟩ := (ih (ahead + 1)).mp more
        refine ⟨count + 1, cause, earlier, by rw [List.replicate_succ, List.cons_append], ?_⟩
        rwa [show count + 1 + ahead = count + (ahead + 1) by omega]
    · rintro ⟨_ | count, cause, earlier, split, found⟩
      · cases split
        rcases found with rfl | ⟨none, rfl | rfl⟩
        · simp [owed]
        all_goals
          rw [owed]
          omega
      · cases split
        have more := (ih (ahead + 1)).mpr ⟨count, cause, earlier, rfl, by
          rwa [show count + (ahead + 1) = count + 1 + ahead by omega]⟩
        rw [owed]
        omega

section Gaps

variable {tm : TxManager} (ctx : LedgerContext)

def LedgerMove.events (lm after : LedgerManager tm) : LedgerMove → List LedgerEvent
  | .recvExtVal _ info =>
    if lm.ledgerState = .syncing then []
    else if after.ledgerState = .syncing then [.asked (info.index - lm.nextLedgerHeaderSeq)]
    else if after.nextLedgerHeaderSeq = lm.nextLedgerHeaderSeq then []
    else [.closed]
  | .catchUp _ =>
    if after.nextLedgerHeaderSeq = lm.nextLedgerHeaderSeq then [] else [.caughtUp]
  | _ => []

/-- The states of runs with their events, newest first. -/
inductive Recorded : LedgerManager tm → List LedgerEvent → Prop where
  | genesis (moment : LedgerMoment) (accounts : LedgerState tm) (lm : LedgerManager tm)
      (created : createGenesisLedger ctx moment (newManager ∅ accounts []) = .done (.ok ()) lm) :
      Recorded lm []
  | recovered (now : Nat) (before lm : LedgerManager tm)
      (restarted : restart ctx now before = .done () lm) : Recorded lm [.recovered]
  | step (move : LedgerMove) (before after : LedgerManager tm) (events : List LedgerEvent)
      (run : Recorded before events) (interleaves : move.Interleaves)
      (performed : move.perform ctx before = .done () after) :
      Recorded after (move.events before after ++ events)

structure Tracks (events : List LedgerEvent) (lm : LedgerManager tm) : Prop where
  present : lm.currLedgerHeader.isSome
  ahead : (lm.largestConsensusIndex : Int) + 1 = lm.nextLedgerHeaderSeq + owed events

variable {ctx} {events : List LedgerEvent} {lm : LedgerManager tm}

theorem Interleaved.recorded {permitted : LedgerManager tm → LedgerMove → Prop}
    {accepted : List CloseInfo} (run : Interleaved ctx permitted lm accepted) :
    ∃ events, Recorded ctx lm events := by
  induction run with
  | start lm started =>
    rcases started with ⟨moment, accounts, created⟩ | ⟨now, before, restarted⟩
    · exact ⟨[], .genesis moment accounts lm created⟩
    · exact ⟨[.recovered], .recovered now before lm restarted⟩
  | step move before after accepted run interleaves allowed performed ih =>
    obtain ⟨events, recorded⟩ := ih
    exact ⟨_, recorded.step move before after events interleaves performed⟩

section

variable (tracks : Tracks events lm) (moment : LedgerMoment)

include tracks

theorem recvEarly_tracks {info : CloseInfo} (resting : lm.ledgerState ≠ .syncing)
    (beyond : lm.nextLedgerHeaderSeq < info.index) :
    (recvEarly info).Holds lm
      (fun _ after => Tracks ((LedgerMove.recvExtVal moment info).events lm after ++ events) after)
      (fun _ _ => True) := by
  unfold recvEarly addTask LedgerMove.events
  simp only [holds_bind, holds_modify, holds_get, if_neg resting]
  split
  · refine ⟨tracks.present, ?_⟩
    simpa [resting] using tracks.ahead
  · split
    · refine ⟨tracks.present, ?_⟩
      simpa [resting] using tracks.ahead
    · refine ⟨tracks.present, ?_⟩
      change ((info.index - 1 : Nat) : Int) + 1 =
        lm.nextLedgerHeaderSeq + ((info.index - lm.nextLedgerHeaderSeq : Nat) : Int)
      omega

theorem recvNext_tracks {info : CloseInfo} (resting : lm.ledgerState ≠ .syncing)
    (next : lm.nextLedgerHeaderSeq = info.index) :
    (recvNext ctx moment info).Holds lm
      (fun _ after => Tracks ((LedgerMove.recvExtVal moment info).events lm after ++ events) after)
      (fun _ _ => True) := by
  refine (recvNext_effect info lm).imp ?_
  rintro result after ⟨-, -, -, present, effect⟩
  unfold LedgerMove.events
  cases result with
  | ok _ =>
    obtain ⟨later, largest, synced⟩ := effect
    refine ⟨present tracks.present, ?_⟩
    simp [resting, synced, later, next, largest, owed]
  | error err =>
    obtain ⟨largest, same, state⟩ := effect
    refine ⟨present tracks.present, ?_⟩
    simpa [resting, state, same, largest] using tracks.ahead

theorem recvExtVal_tracks (info : CloseInfo) :
    (recvExtVal ctx moment info).Holds lm
      (fun _ after => Tracks ((LedgerMove.recvExtVal moment info).events lm after ++ events) after)
      (fun _ _ => True) := by
  unfold recvExtVal
  rw [holds_bind, holds_get]
  split
  · rename_i state
    refine ⟨tracks.present, ?_⟩
    simpa [LedgerMove.events, state] using tracks.ahead
  · rename_i resting
    split_ifs with next old
    · exact recvNext_tracks tracks moment resting next
    · simpa [LedgerMove.events, if_neg resting] using tracks
    · exact recvEarly_tracks tracks moment resting (by omega)

theorem Tracks.unmoved {after : LedgerManager tm} (core : after.toLedgerCore = lm.toLedgerCore)
    (largest : after.largestConsensusIndex = lm.largestConsensusIndex) :
    Tracks ((LedgerMove.catchUp moment).events lm after ++ events) after := by
  refine ⟨by rw [core]; exact tracks.present, ?_⟩
  simpa [LedgerMove.events, core, largest] using tracks.ahead

theorem Tracks.close (info : CloseInfo) (result : Except String Unit) (after : LedgerManager tm)
    (next : CatchUp) (closed : SameIntake lm after ∧ CloseEffect info lm result after) :
    Tracks ((LedgerMove.catchUp moment).events lm { after with catchUp := next } ++ events)
      { after with catchUp := next } := by
  obtain ⟨same, effect⟩ := closed
  cases result with
  | error err =>
    have head : after.nextLedgerHeaderSeq = lm.nextLedgerHeaderSeq := by
      unfold LedgerCore.nextLedgerHeaderSeq
      rw [effect.2]
    refine ⟨by rw [effect.2]; exact tracks.present, ?_⟩
    simpa [LedgerMove.events, head, same.largest] using tracks.ahead
  | ok _ =>
    obtain ⟨due, -, present, later⟩ := effect
    rw [due tracks.present] at later
    refine ⟨present, ?_⟩
    have ahead := tracks.ahead
    simp only [LedgerMove.events, later, same.largest, Nat.succ_ne_self, if_false,
      List.singleton_append, owed]
    omega

theorem catchUpStep_tracks :
    (catchUpStep ctx moment).Holds lm
      (fun _ after => Tracks ((LedgerMove.catchUp moment).events lm after ++ events) after)
      (fun _ _ => True) := by
  unfold catchUpStep
  rw [holds_bind, holds_get]
  cases lm.catchUp with
  | received info =>
    unfold currHeaderHash
    simp only [holds_bind, holds_get]
    split
    · trivial
    · exact (closeLedger_effect info lm).mono
        (fun result after => tracks.close moment info result after _) (fun _ _ _ => trivial)
  | closing head =>
    rw [holds_bind]
    refine (closeLedger_effect head lm).imp ?_
    rintro (err | _) after both
    · exact tracks.close moment head _ after _ both
    · exact tracks.close moment head _ after _ both
  | waiting => exact tracks.unmoved moment rfl rfl
  | checkSize | loopSize =>
    dsimp only
    split <;> exact tracks.unmoved moment rfl rfl
  | peekHead =>
    dsimp only
    split
    · trivial
    · split <;> exact tracks.unmoved moment rfl rfl
  | popHead =>
    dsimp only
    split
    · trivial
    · exact tracks.unmoved moment rfl rfl
  | clearing | settingSynced => exact tracks.unmoved moment rfl rfl

end

theorem Recorded.tracks (run : Recorded ctx lm events) : Tracks events lm := by
  induction run with
  | genesis moment accounts lm created =>
    obtain ⟨fresh, next⟩ := (holds_of_done created).mp (createGenesisLedger_fresh accounts)
    refine ⟨fresh.present, ?_⟩
    rw [owed]
    omega
  | recovered now before lm restarted =>
    obtain ⟨fresh, next⟩ := (holds_of_done restarted).mp (restart_fresh now before)
    refine ⟨fresh.present, ?_⟩
    rw [owed]
    omega
  | step move before after events run interleaves performed ih =>
    cases move with
    | recvExtVal moment info =>
      obtain ⟨_, _, received, ended⟩ := bind_eq_done.mp performed
      obtain ⟨-, rfl⟩ := pure_eq_done.mp ended
      exact (holds_of_done received).mp (recvExtVal_tracks ih moment info)
    | deliver info =>
      cases performed
      dsimp only
      split <;> exact ⟨ih.present, ih.ahead⟩
    | catchUp moment => exact (holds_of_done performed).mp (catchUpStep_tracks ih moment)
    | closeLedger moment info => exact interleaves.elim
    | restart now => exact interleaves.elim

/-- A value beyond the next ledger makes the manager ask for the ledgers from where the
largest index has been left.  It asks for exactly the gap if and only if the largest index
is up to date, or so far ahead that nothing is asked for. -/
theorem recvExtVal_covers_gap_iff (run : Recorded ctx lm events) (moment : LedgerMoment)
    (info : CloseInfo) (resting : lm.ledgerState ≠ .syncing)
    (beyond : lm.nextLedgerHeaderSeq < info.index) :
    (recvExtVal ctx moment info).Holds lm
      (fun result after => after.ledgerState = .syncing → result = .ok () ∧ ∃ start : Nat,
        start = lm.nextLedgerHeaderSeq + owed events ∧
        after.tasks = lm.tasks ++ [(start, info.index - 1)])
      (fun _ _ => False) ∧
    ((recvExtVal ctx moment info).Holds lm
      (fun result after => result = .ok () ∧ (after.ledgerState = .syncing →
        after.tasks = lm.tasks ++ [(lm.nextLedgerHeaderSeq, info.index - 1)]))
      (fun _ _ => False) ↔
    info.index < lm.nextLedgerHeaderSeq + owed events ∨ UpToDate events) := by
  have ahead := run.tracks.ahead
  have upToDate : UpToDate events ↔ lm.largestConsensusIndex + 1 = lm.nextLedgerHeaderSeq := by
    refine (owed_eq_iff events 0).symm.trans ?_
    omega
  have known : (info.index : Int) < lm.nextLedgerHeaderSeq + owed events ↔
      info.index ≤ lm.largestConsensusIndex := by
    omega
  have early : recvExtVal ctx moment info lm = recvEarly info lm := by
    unfold recvExtVal
    rw [bind_of_done (rfl : get lm = _)]
    cases synced : lm.ledgerState with
    | syncing => exact absurd synced resting
    | synced => simp only [if_neg (Nat.ne_of_lt beyond), if_neg (Nat.lt_asymm beyond)]
    | notSynced => simp only [if_neg (Nat.ne_of_lt beyond), if_neg (Nat.lt_asymm beyond)]
  rw [known, upToDate, holds_congr early, holds_congr early]
  unfold recvEarly addTask
  simp only [holds_bind, holds_modify, holds_get]
  by_cases asked : info.index ≤ lm.largestConsensusIndex
  · simp [asked, resting]
  · by_cases empty : lm.largestConsensusIndex + 1 > info.index - 1
    · simp only [asked, empty, if_true, if_false, holds_bind, holds_pure, false_or]
      refine ⟨fun syncing => absurd syncing resting, iff_of_false (by simp) ?_⟩
      omega
    · simp only [asked, empty, if_false, holds_bind, holds_pure, holds_modify, false_or,
        true_and, true_implies, List.append_cancel_left_eq, List.cons.injEq, Prod.mk.injEq,
        and_true]
      exact ⟨lm.largestConsensusIndex + 1, by rw [← ahead, Nat.cast_succ], rfl⟩

end Gaps

theorem recvExtVal_covers_gap_second :
    ∃ after : LedgerManager .plain,
      recvExtVal numberedHeaders goodMoment (infoAt 5) (twoLedgers (.ok ())).state =
        .done (.ok ()) after ∧ (after.ledgerState = .syncing → after.tasks = [(3, 4)]) := by
  have run : Recorded numberedHeaders (twoLedgers (.ok ())).state [.closed] :=
    .step (secondLedger (.ok ())) oneLedger _ []
      (.genesis (momentAt 5 (.ok ())) _ oneLedger rfl) trivial (Outcome.eq_done (by decide +kernel))
  obtain ⟨-, covers⟩ := recvExtVal_covers_gap_iff run goodMoment (infoAt 5) (by decide +kernel)
    (by decide +kernel)
  obtain ⟨result, after, performed, rfl, task⟩ :=
    (covers.mpr (.inr ⟨0, .closed, [], rfl, .inr ⟨rfl, .inr rfl⟩⟩)).exists_done
  exact ⟨after, performed, task⟩

def caughtUp : LedgerManager TxManager.plain × List CloseInfo :=
  fromGenesis (fun _ _ => True)
    ([.recvExtVal goodMoment (infoAt 2), .recvExtVal goodMoment (infoAt 5)] ++
      catchUpWith (infoAt 3) 3 ++ catchUpWith (infoAt 4) 9)

def askedFor (lm : LedgerManager TxManager.plain) (info : CloseInfo) :
    LedgerSyncState × Option (Nat × Nat) :=
  let after := (recvExtVal numberedHeaders goodMoment info lm).state
  (after.ledgerState, after.tasks.getLast?)

/-- The gap is missed after the genesis ledger and after a download that went well. -/
theorem recvExtVal_misses_gap :
    (Recorded numberedHeaders oneLedger [] ∧ oneLedger.nextLedgerHeaderSeq = 2 ∧
      askedFor oneLedger (infoAt 5) = (.syncing, some (1, 4))) ∧
    ((∃ events, Recorded numberedHeaders caughtUp.1 events) ∧
      caughtUp.1.ledgerState = .synced ∧ caughtUp.1.nextLedgerHeaderSeq = 6 ∧
      askedFor caughtUp.1 (infoAt 8) = (.syncing, some (5, 7))) :=
  ⟨⟨.genesis (momentAt 5 (.ok ())) _ oneLedger rfl, by decide +kernel⟩,
    ⟨(fromGenesis_interleaved _ _).recorded, by decide +kernel⟩⟩

end Ultiledger
