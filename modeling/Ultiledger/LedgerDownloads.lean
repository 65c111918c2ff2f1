import Ultiledger.CountedLoop
import Ultiledger.LedgerManager

/-!
# Downloading ledgers

`ledger/downloader.go`: a feeder hands out the indices of a range, eight workers ask the
peers for them, and a loop merges what they have got and passes it to `reorder`, which
sends the infos on in order.

All channels are unbuffered, so a send and its receive are one step.  A query that fails
leaves a gap, and nothing behind the first gap is sent.
-/

namespace Ultiledger

open CountedLoop

/-- What the workers call: the encodings, the signature of a request, and the peers. -/
structure DownloadContext where
  ledger : LedgerContext
  sign : String → Except String String
  queryLedger : String → String → Except String (LedgerHeader × TxSet)

/-- `query` of `runTask`; nothing if any of its steps fails. -/
def DownloadContext.query (ctx : DownloadContext) (i : UInt64) : Option CloseInfo :=
  let payload := Nat.repr i.toNat
  match ctx.sign payload with
  | .error _ => none
  | .ok sign =>
    match ctx.queryLedger payload sign with
    | .error _ => none
    | .ok (header, txset) =>
      match ctx.ledger.getTxSetKey txset with
      | .error _ => none
      | .ok txsetHash =>
        if header.txSetHash ≠ txsetHash then none
        else
          match ctx.ledger.closeValue header.consensusValue with
          | .error _ => none
          | .ok cv =>
            if cv.txSetHash ≠ txsetHash then none
            else some ⟨i.toNat, header.consensusValue, txset⟩

inductive Worker where
  | ready
  | asking (i : UInt64)
  | offering (info : Option CloseInfo)
  | finished
  deriving DecidableEq

/-- A worker and the goroutine of `mergeInfo` that reads from it. -/
structure Lane where
  worker : Worker
  merging : Option CloseInfo
  deriving DecidableEq

/-- `Downloader` during a task.  What is sent on `readyChan` is kept. -/
structure Downloader where
  nextTask : UInt64
  tasksClosed : Bool
  lanes : Fin 8 → Lane
  received : Option CloseInfo
  infoMap : Finmap fun _ : UInt64 => CloseInfo
  nextIndex : UInt64
  reordering : Bool
  readyChan : List CloseInfo

/-- The start of a task, with an empty `infoMap`. -/
def startTask (startIndex : UInt64) : Downloader where
  nextTask := startIndex
  tasksClosed := false
  lanes _ := ⟨.ready, none⟩
  received := none
  infoMap := ∅
  nextIndex := startIndex
  reordering := false
  readyChan := []

/-- A step of one goroutine, or of two that meet at a channel. -/
inductive DownloadMove where
  | handOut (w : Fin 8)
  | closeTasks
  | answer (w : Fin 8)
  | offer (w : Fin 8)
  | finish (w : Fin 8)
  | merge (w : Fin 8)
  | reorder
  | send
  | await
  deriving DecidableEq

namespace Downloader

def setLane (d : Downloader) (w : Fin 8) (lane : Lane) : Downloader :=
  { d with lanes := Function.update d.lanes w lane }

variable (ctx : DownloadContext) (endIndex : UInt64)

def perform (d : Downloader) : DownloadMove → Option Downloader
  | .handOut w =>
    if d.nextTask ≤ endIndex ∧ (d.lanes w).worker = .ready then
      some { d.setLane w ⟨.asking d.nextTask, (d.lanes w).merging⟩ with
        nextTask := d.nextTask + 1 }
    else none
  | .closeTasks =>
    if d.nextTask ≤ endIndex ∨ d.tasksClosed then none else some { d with tasksClosed := true }
  | .answer w =>
    match (d.lanes w).worker with
    | .asking i => some (d.setLane w ⟨.offering (ctx.query i), (d.lanes w).merging⟩)
    | _ => none
  | .offer w =>
    match d.lanes w with
    | ⟨.offering info, none⟩ => some (d.setLane w ⟨.ready, info⟩)
    | _ => none
  | .finish w =>
    if d.tasksClosed ∧ (d.lanes w).worker = .ready then
      some (d.setLane w ⟨.finished, (d.lanes w).merging⟩)
    else none
  | .merge w =>
    match d.received, (d.lanes w).merging with
    | none, some info =>
      some { d.setLane w ⟨(d.lanes w).worker, none⟩ with received := some info }
    | _, _ => none
  | .reorder =>
    match d.received, d.reordering with
    | some info, false => some { d with
        received := none
        infoMap := d.infoMap.insert (.ofNat info.index) info
        reordering := true }
    | _, _ => none
  | .send =>
    match d.reordering, d.infoMap.lookup d.nextIndex with
    | true, some ci => some { d with
        readyChan := d.readyChan ++ [ci]
        nextIndex := d.nextIndex + 1 }
    | _, _ => none
  | .await =>
    match d.reordering, d.infoMap.lookup d.nextIndex with
    | true, none => some { d with reordering := false }
    | _, _ => none

def Step (d after : Downloader) : Prop := ∃ move, d.perform ctx endIndex move = some after

/-- The task is over: `download` has returned and `reorder` waits. -/
def Over (d : Downloader) : Prop :=
  (∀ w, d.lanes w = ⟨.finished, none⟩) ∧ d.received = none ∧ d.reordering = false

end Downloader

section Gaps

variable {answer : UInt64 → Option CloseInfo}

def gapFree (answer : UInt64 → Option CloseInfo) : List UInt64 → List CloseInfo
  | [] => []
  | i :: rest =>
    match answer i with
    | none => []
    | some info => info :: gapFree answer rest

theorem gapFree_of_none {i : UInt64} (missing : answer i = none) (rest : List UInt64) :
    gapFree answer (i :: rest) = [] := by
  rw [gapFree, missing]

theorem gapFree_append {served : List UInt64} {infos : List CloseInfo}
    (answered : infos.map some = served.map answer) (rest : List UInt64) :
    gapFree answer (served ++ rest) = infos ++ gapFree answer rest := by
  induction served generalizing infos with
  | nil =>
    obtain rfl := List.map_eq_nil_iff.mp answered
    rfl
  | cons i served ih =>
    cases infos with
    | nil => cases answered
    | cons info infos =>
      obtain ⟨first, later⟩ := List.cons.inj answered
      rw [List.cons_append, gapFree, ← first]
      exact congrArg (info :: ·) (ih later)

end Gaps

section Moves

variable {ctx : DownloadContext} {startIndex endIndex : UInt64} {d after : Downloader}

theorem index_of_query {i : UInt64} {info : CloseInfo} (found : ctx.query i = some info) :
    UInt64.ofNat info.index = i := by
  unfold DownloadContext.query at found
  dsimp only at found
  split at found
  · cases found
  · split at found
    · cases found
    · split at found
      · cases found
      · split_ifs at found
        split at found
        · cases found
        · split_ifs at found
          rw [← Option.some.inj found]
          exact UInt64.ofNat_toNat

namespace Downloader

inductive Moved (ctx : DownloadContext) (endIndex : UInt64) (d : Downloader) : Downloader → Prop
  | handOut (w : Fin 8) (due : d.nextTask ≤ endIndex) (ready : (d.lanes w).worker = .ready) :
      Moved ctx endIndex d { d.setLane w ⟨.asking d.nextTask, (d.lanes w).merging⟩ with
        nextTask := d.nextTask + 1 }
  | closeTasks (fed : endIndex < d.nextTask) (unclosed : d.tasksClosed = false) :
      Moved ctx endIndex d { d with tasksClosed := true }
  | answer (w : Fin 8) (i : UInt64) (asking : (d.lanes w).worker = .asking i) :
      Moved ctx endIndex d (d.setLane w ⟨.offering (ctx.query i), (d.lanes w).merging⟩)
  | offer (w : Fin 8) (info : Option CloseInfo) (offering : d.lanes w = ⟨.offering info, none⟩) :
      Moved ctx endIndex d (d.setLane w ⟨.ready, info⟩)
  | finish (w : Fin 8) (closed : d.tasksClosed = true) (ready : (d.lanes w).worker = .ready) :
      Moved ctx endIndex d (d.setLane w ⟨.finished, (d.lanes w).merging⟩)
  | merge (w : Fin 8) (info : CloseInfo) (idle : d.received = none)
      (merging : (d.lanes w).merging = some info) :
      Moved ctx endIndex d { d.setLane w ⟨(d.lanes w).worker, none⟩ with received := some info }
  | reorder (info : CloseInfo) (received : d.received = some info) (idle : d.reordering = false) :
      Moved ctx endIndex d { d with
        received := none
        infoMap := d.infoMap.insert (.ofNat info.index) info
        reordering := true }
  | send (ci : CloseInfo) (busy : d.reordering = true)
      (found : d.infoMap.lookup d.nextIndex = some ci) :
      Moved ctx endIndex d { d with
        readyChan := d.readyChan ++ [ci]
        nextIndex := d.nextIndex + 1 }
  | await (busy : d.reordering = true) (missing : d.infoMap.lookup d.nextIndex = none) :
      Moved ctx endIndex d { d with reordering := false }

theorem moved_of_step (step : d.Step ctx endIndex after) : d.Moved ctx endIndex after := by
  obtain ⟨move, performed⟩ := step
  unfold perform at performed
  cases move with
  | handOut w =>
    dsimp only at performed
    split_ifs at performed with possible
    cases performed
    exact .handOut w possible.1 possible.2
  | closeTasks =>
    split_ifs at performed with impossible
    cases performed
    exact .closeTasks (UInt64.not_le.mp fun due => impossible (.inl due))
      (Bool.not_eq_true _ ▸ fun closed => impossible (.inr closed))
  | answer w =>
    dsimp only at performed
    split at performed
    · rename_i i asking
      cases performed
      exact .answer w i asking
    · cases performed
  | offer w =>
    dsimp only at performed
    split at performed
    · rename_i info offering
      cases performed
      exact .offer w info offering
    · cases performed
  | finish w =>
    dsimp only at performed
    split_ifs at performed with possible
    cases performed
    exact .finish w possible.1 possible.2
  | merge w =>
    dsimp only at performed
    split at performed
    · rename_i info idle merging
      cases performed
      exact .merge w info idle merging
    · cases performed
  | reorder =>
    dsimp only at performed
    split at performed
    · rename_i info received idle
      cases performed
      exact .reorder info received idle
    · cases performed
  | send =>
    dsimp only at performed
    split at performed
    · rename_i ci busy found
      cases performed
      exact .send ci busy found
    · cases performed
  | await =>
    dsimp only at performed
    split at performed
    · rename_i busy missing
      cases performed
      exact .await busy missing
    · cases performed

end Downloader

def Lane.Holds (lane : Lane) (info : CloseInfo) : Prop :=
  lane.worker = .offering (some info) ∨ lane.merging = some info

namespace Downloader

def Holds (d : Downloader) (info : CloseInfo) : Prop :=
  (∃ w, (d.lanes w).Holds info) ∨ d.received = some info ∨
    d.infoMap.lookup (.ofNat info.index) = some info

theorem lanes_setLane (w : Fin 8) (lane : Lane) : (d.setLane w lane).lanes w = lane := by
  change Function.update d.lanes w lane w = lane
  rw [Function.update_self]

theorem lanes_setLane_ne {w other : Fin 8} (apart : other ≠ w) (lane : Lane) :
    (d.setLane w lane).lanes other = d.lanes other := by
  change Function.update d.lanes w lane other = d.lanes other
  rw [Function.update_of_ne apart]

/-- What the feeder and the lanes keep: only indices of the range are asked for, and the
answers of those that were handed out are not lost. -/
structure Feeding (ctx : DownloadContext) (startIndex endIndex : UInt64) (d : Downloader) :
    Prop where
  started : startIndex ≤ d.nextTask
  asking : ∀ w i, (d.lanes w).worker = .asking i → i ∈ span startIndex endIndex
  holding : ∀ info, d.Holds info → ∃ i ∈ span startIndex endIndex, ctx.query i = some info
  fed : ∀ i ∈ span startIndex endIndex, ∀ info, ctx.query i = some info → i < d.nextTask →
    (∃ w, (d.lanes w).worker = .asking i) ∨ d.Holds info
  closed : d.tasksClosed = true → endIndex < d.nextTask
  finished : ∀ w, (d.lanes w).worker = .finished → d.tasksClosed = true

/-- What `reorder` keeps: it has sent the infos of the indices before the next one. -/
structure Ordering (ctx : DownloadContext) (startIndex endIndex : UInt64) (d : Downloader) :
    Prop where
  filed : ∀ i info, d.infoMap.lookup i = some info → UInt64.ofNat info.index = i
  awaiting : d.reordering = false → d.infoMap.lookup d.nextIndex = none
  served : ∃ served, span startIndex endIndex = served ++ span d.nextIndex endIndex ∧
    d.readyChan.map some = served.map ctx.query

theorem feeding_startTask : (startTask startIndex).Feeding ctx startIndex endIndex where
  started := UInt64.le_refl startIndex
  asking w i asks := by cases asks
  holding info holds := by
    rcases holds with ⟨w, offers | merges⟩ | received | filed
    · cases offers
    · cases merges
    · cases received
    · cases filed
  fed i inSpan info found earlier :=
    absurd earlier (UInt64.not_lt.mpr (mem_span.mp inSpan).1)
  closed closes := by cases closes
  finished w finishes := by cases finishes

theorem ordering_startTask : (startTask startIndex).Ordering ctx startIndex endIndex where
  filed i info found := by cases found
  awaiting _ := rfl
  served := ⟨[], rfl, rfl⟩

section

variable (feeding : d.Feeding ctx startIndex endIndex) {info : CloseInfo}

include feeding

theorem Feeding.frame (nextTask : after.nextTask = d.nextTask)
    (tasksClosed : after.tasksClosed = d.tasksClosed)
    (workers : ∀ w, (after.lanes w).worker = (d.lanes w).worker)
    (holds : ∀ info, after.Holds info ↔ d.Holds info) : after.Feeding ctx startIndex endIndex where
  started := nextTask ▸ feeding.started
  asking w i asks := feeding.asking w i (workers w ▸ asks)
  holding info held := feeding.holding info ((holds info).mp held)
  fed i inSpan info found earlier := by
    simp only [workers, holds]
    exact feeding.fed i inSpan info found (nextTask ▸ earlier)
  closed closes := by
    rw [nextTask]
    exact feeding.closed (tasksClosed ▸ closes)
  finished w finishes := by
    rw [tasksClosed]
    exact feeding.finished w (workers w ▸ finishes)

theorem Feeding.setLane {w : Fin 8} {lane : Lane}
    (asking : ∀ i, lane.worker = .asking i → i ∈ span startIndex endIndex)
    (new : ∀ info, lane.Holds info → (d.lanes w).Holds info ∨ ∃ i ∈ span startIndex endIndex, ctx.query i = some info)
    (kept : ∀ info, (d.lanes w).Holds info → lane.Holds info)
    (answered : ∀ i info, (d.lanes w).worker = .asking i → ctx.query i = some info → lane.worker = .asking i ∨ lane.Holds info)
    (finished : lane.worker = .finished → d.tasksClosed = true) :
    (d.setLane w lane).Feeding ctx startIndex endIndex := by
  have keeps : ∀ info, d.Holds info → (d.setLane w lane).Holds info := by
    rintro info (⟨other, holds⟩ | later)
    · by_cases same : other = w
      · subst same
        refine .inl ⟨other, ?_⟩
        rw [lanes_setLane]
        exact kept info holds
      · refine .inl ⟨other, ?_⟩
        rwa [lanes_setLane_ne same]
    · exact .inr later
  refine ⟨feeding.started, ?_, ?_, ?_, feeding.closed, ?_⟩
  · intro other i asks
    by_cases same : other = w
    · subst same
      rw [lanes_setLane] at asks
      exact asking i asks
    · rw [lanes_setLane_ne same] at asks
      exact feeding.asking other i asks
  · rintro info (⟨other, holds⟩ | later)
    · by_cases same : other = w
      · subst same
        rw [lanes_setLane] at holds
        rcases new info holds with before | answer
        · exact feeding.holding info (.inl ⟨other, before⟩)
        · exact answer
      · rw [lanes_setLane_ne same] at holds
        exact feeding.holding info (.inl ⟨other, holds⟩)
    · exact feeding.holding info (.inr later)
  · intro i inSpan info found earlier
    rcases feeding.fed i inSpan info found earlier with ⟨other, asks⟩ | holds
    · by_cases same : other = w
      · subst same
        rcases answered i info asks found with still | now
        · exact .inl ⟨other, by rw [lanes_setLane, still]⟩
        · exact .inr (.inl ⟨other, by rwa [lanes_setLane]⟩)
      · exact .inl ⟨other, by rw [lanes_setLane_ne same, asks]⟩
    · exact .inr (keeps info holds)
  · intro other finishes
    by_cases same : other = w
    · subst same
      rw [lanes_setLane] at finishes
      exact finished finishes
    · rw [lanes_setLane_ne same] at finishes
      exact feeding.finished other finishes

theorem Feeding.handOut (below : endIndex ≠ last) {w : Fin 8} (due : d.nextTask ≤ endIndex)
    (ready : (d.lanes w).worker = .ready) :
    Feeding ctx startIndex endIndex { d.setLane w ⟨.asking d.nextTask, (d.lanes w).merging⟩ with
      nextTask := d.nextTask + 1 } := by
  have grown := toNat_add_one (ne_last_of_le due below)
  have asked : (d.setLane w ⟨.asking d.nextTask, (d.lanes w).merging⟩).Feeding ctx startIndex
      endIndex := by
    refine feeding.setLane (fun i asks => ?_) (fun info holds => ?_) (fun info holds => ?_)
      (fun i info asks => ?_) (fun finishes => ?_)
    · cases asks
      exact mem_span.mpr ⟨feeding.started, due⟩
    · rcases holds with offers | merges
      · cases offers
      · exact .inl (.inr merges)
    · rcases holds with offers | merges
      · rw [ready] at offers
        cases offers
      · exact .inr merges
    · rw [ready] at asks
      cases asks
    · cases finishes
  refine ⟨?_, asked.asking, asked.holding, ?_, fun closes => ?_, asked.finished⟩
  · have started := UInt64.le_iff_toNat_le.mp feeding.started
    rw [UInt64.le_iff_toNat_le, grown]
    omega
  · intro i inSpan info found earlier
    rw [UInt64.lt_iff_toNat_lt, grown] at earlier
    by_cases same : i = d.nextTask
    · subst same
      exact .inl ⟨w, by rw [lanes_setLane]⟩
    · have differs : i.toNat ≠ d.nextTask.toNat := fun equal => same (UInt64.toNat_inj.mp equal)
      exact asked.fed i inSpan info found (UInt64.lt_iff_toNat_lt.mpr (by
        change i.toNat < d.nextTask.toNat
        omega))
  · exact absurd (feeding.closed closes) (UInt64.not_lt.mpr due)

theorem query_of_filed (ordering : d.Ordering ctx startIndex endIndex) {i : UInt64}
    (found : d.infoMap.lookup i = some info) :
    i ∈ span startIndex endIndex ∧ ctx.query i = some info := by
  have key := ordering.filed i info found
  obtain ⟨j, inSpan, answered⟩ := feeding.holding info (.inr (.inr (key.symm ▸ found)))
  obtain rfl : i = j := key.symm.trans (index_of_query answered)
  exact ⟨inSpan, answered⟩

theorem Feeding.merge {w : Fin 8} (idle : d.received = none)
    (merging : (d.lanes w).merging = some info) : Feeding ctx startIndex endIndex
      { d.setLane w ⟨(d.lanes w).worker, none⟩ with received := some info } := by
  refine feeding.frame rfl rfl (fun other => ?_) (fun held => ⟨?_, ?_⟩)
  · by_cases same : other = w
    · rw [same, lanes_setLane]
    · rw [lanes_setLane_ne same]
  · rintro (⟨other, holds⟩ | received | filed)
    · by_cases same : other = w
      · rw [same, lanes_setLane] at holds
        rcases holds with offers | merges
        · exact .inl ⟨w, .inl offers⟩
        · cases merges
      · rw [lanes_setLane_ne same] at holds
        exact .inl ⟨other, holds⟩
    · cases received
      exact .inl ⟨w, .inr merging⟩
    · exact .inr (.inr filed)
  · rintro (⟨other, holds⟩ | received | filed)
    · by_cases same : other = w
      · subst same
        rcases holds with offers | merges
        · refine .inl ⟨other, ?_⟩
          rw [lanes_setLane]
          exact .inl offers
        · exact .inr (.inl (merging.symm.trans merges))
      · refine .inl ⟨other, ?_⟩
        rwa [lanes_setLane_ne same]
    · rw [idle] at received
      cases received
    · exact .inr (.inr filed)

/-- `reorder` files an info.  Under its key there can only be the same info. -/
theorem Feeding.reorder (ordering : d.Ordering ctx startIndex endIndex)
    (received : d.received = some info) : Feeding ctx startIndex endIndex { d with
      received := none
      infoMap := d.infoMap.insert (.ofNat info.index) info
      reordering := true } := by
  refine feeding.frame rfl rfl (fun _ => rfl) (fun held => ⟨?_, ?_⟩)
  · rintro (inLane | arrives | filed)
    · exact .inl inLane
    · cases arrives
    · by_cases same : UInt64.ofNat held.index = UInt64.ofNat info.index
      · rw [same, Finmap.lookup_insert] at filed
        exact .inr (.inl (received.trans filed))
      · rw [Finmap.lookup_insert_of_ne _ same] at filed
        exact .inr (.inr filed)
  · rintro (inLane | arrives | filed)
    · exact .inl inLane
    · cases received.symm.trans arrives
      exact .inr (.inr (Finmap.lookup_insert d.infoMap))
    · refine .inr (.inr ?_)
      by_cases same : UInt64.ofNat held.index = UInt64.ofNat info.index
      · obtain ⟨i, -, answered⟩ := feeding.holding info (.inr (.inl received))
        obtain ⟨-, before⟩ := query_of_filed feeding ordering filed
        rw [same, index_of_query answered, answered] at before
        rw [same, Finmap.lookup_insert, before]
      · rw [Finmap.lookup_insert_of_ne _ same]
        exact filed

theorem Feeding.moved (ordering : d.Ordering ctx startIndex endIndex) (below : endIndex ≠ last)
    (moved : d.Moved ctx endIndex after) : after.Feeding ctx startIndex endIndex := by
  cases moved with
  | handOut w due ready => exact feeding.handOut below due ready
  | closeTasks fed unclosed =>
    exact ⟨feeding.started, feeding.asking, feeding.holding, feeding.fed, fun _ => fed,
      fun _ _ => rfl⟩
  | answer w i asking =>
    have inSpan := feeding.asking w i asking
    refine feeding.setLane (fun j asks => ?_) (fun info holds => ?_) (fun info holds => ?_)
      (fun j info asks found => ?_) (fun finishes => ?_)
    · cases asks
    · rcases holds with offers | merges
      · exact .inr ⟨i, inSpan, Worker.offering.inj offers⟩
      · exact .inl (.inr merges)
    · rcases holds with offers | merges
      · rw [asking] at offers
        cases offers
      · exact .inr merges
    · obtain rfl := Worker.asking.inj (asking.symm.trans asks)
      exact .inr (.inl (congrArg Worker.offering found))
    · cases finishes
  | offer w info offering =>
    refine feeding.setLane (fun j asks => ?_) (fun other holds => ?_) (fun other holds => ?_)
      (fun j other asks => ?_) (fun finishes => ?_)
    · cases asks
    · rw [offering]
      rcases holds with offers | merges
      · cases offers
      · exact .inl (.inl (congrArg Worker.offering merges))
    · rw [offering] at holds
      rcases holds with offers | merges
      · exact .inr (Worker.offering.inj offers)
      · cases merges
    · rw [offering] at asks
      cases asks
    · cases finishes
  | finish w closed ready =>
    refine feeding.setLane (fun j asks => ?_) (fun info holds => ?_) (fun info holds => ?_)
      (fun j info asks => ?_) (fun _ => closed)
    · cases asks
    · rcases holds with offers | merges
      · cases offers
      · exact .inl (.inr merges)
    · rcases holds with offers | merges
      · rw [ready] at offers
        cases offers
      · exact .inr merges
    · rw [ready] at asks
      cases asks
  | merge w info idle merging => exact feeding.merge idle merging
  | reorder info received idle => exact feeding.reorder ordering received
  | send ci busy found => exact feeding.frame rfl rfl (fun _ => rfl) (fun _ => Iff.rfl)
  | await busy missing => exact feeding.frame rfl rfl (fun _ => rfl) (fun _ => Iff.rfl)

theorem Ordering.moved (ordering : d.Ordering ctx startIndex endIndex) (below : endIndex ≠ last)
    (moved : d.Moved ctx endIndex after) : after.Ordering ctx startIndex endIndex := by
  cases moved with
  | handOut w due ready => exact ⟨ordering.filed, ordering.awaiting, ordering.served⟩
  | closeTasks fed unclosed => exact ⟨ordering.filed, ordering.awaiting, ordering.served⟩
  | answer w i asking => exact ⟨ordering.filed, ordering.awaiting, ordering.served⟩
  | offer w info offering => exact ⟨ordering.filed, ordering.awaiting, ordering.served⟩
  | finish w closed ready => exact ⟨ordering.filed, ordering.awaiting, ordering.served⟩
  | merge w info idle merging => exact ⟨ordering.filed, ordering.awaiting, ordering.served⟩
  | reorder info received idle =>
    refine ⟨fun i other found => ?_, fun stops => (by cases stops), ordering.served⟩
    by_cases same : i = UInt64.ofNat info.index
    · subst same
      rw [Finmap.lookup_insert] at found
      rw [Option.some.inj found]
    · rw [Finmap.lookup_insert_of_ne _ same] at found
      exact ordering.filed i other found
  | send ci busy found =>
    obtain ⟨inSpan, answered⟩ := query_of_filed feeding ordering found
    obtain ⟨served, split, sent⟩ := ordering.served
    refine ⟨ordering.filed, fun stops => ?_, served ++ [d.nextIndex], ?_, ?_⟩
    · rw [show d.reordering = false from stops] at busy
      cases busy
    · rw [split, span_of_le (mem_span.mp inSpan).2 below, List.append_assoc]
      rfl
    · rw [List.map_append, sent]
      simp [answered]
  | await busy missing => exact ⟨ordering.filed, fun _ => missing, ordering.served⟩

end

theorem run_keeps (below : endIndex ≠ last)
    (run : Relation.ReflTransGen (Step ctx endIndex) (startTask startIndex) d) :
    d.Feeding ctx startIndex endIndex ∧ d.Ordering ctx startIndex endIndex := by
  induction run with
  | refl => exact ⟨feeding_startTask, ordering_startTask⟩
  | tail _ step ih =>
    obtain ⟨feeding, ordering⟩ := ih
    have moved := moved_of_step step
    exact ⟨feeding.moved ordering below moved, ordering.moved feeding below moved⟩

end Downloader

end Moves

end Ultiledger
