import Mathlib.Algebra.BigOperators.Fin
import Mathlib.Order.OrderIsoNat
import Ultiledger.LedgerDownloads

/-! # Downloads arrive in order -/

namespace Ultiledger

open CountedLoop

namespace Downloader

section Progress

variable {ctx : DownloadContext} {endIndex : UInt64} {d : Downloader}

theorem step_of_worker (merged : ∀ w, (d.lanes w).merging = none)
    {w : Fin 8} (working : (d.lanes w).worker ≠ .finished) :
    ∃ after, d.Step ctx endIndex after := by
  cases worker : (d.lanes w).worker with
  | ready =>
    by_cases due : d.nextTask ≤ endIndex
    · exact ⟨_, .handOut w, if_pos ⟨due, worker⟩⟩
    · by_cases closed : d.tasksClosed = true
      · exact ⟨_, .finish w, if_pos ⟨closed, worker⟩⟩
      · exact ⟨_, .closeTasks, if_neg (not_or.mpr ⟨due, closed⟩)⟩
  | asking i => exact ⟨_, .answer w, by simp only [perform, worker]; rfl⟩
  | offering info =>
    have lane : d.lanes w = ⟨.offering info, none⟩ := by
      rw [← worker, ← merged w]
    exact ⟨_, .offer w, by simp only [perform, lane]; rfl⟩
  | finished => exact absurd worker working

theorem step_of_not_over (unfinished : ¬ d.Over) : ∃ after, d.Step ctx endIndex after := by
  by_cases busy : d.reordering = true
  · cases found : d.infoMap.lookup d.nextIndex with
    | none => exact ⟨_, .await, by simp only [perform, busy, found]; rfl⟩
    | some ci => exact ⟨_, .send, by simp only [perform, busy, found]; rfl⟩
  have resting : d.reordering = false := Bool.not_eq_true _ ▸ busy
  cases received : d.received with
  | some info => exact ⟨_, .reorder, by simp only [perform, received, resting]; rfl⟩
  | none =>
    by_cases merged : ∀ w, (d.lanes w).merging = none
    swap
    · obtain ⟨w, merging⟩ := not_forall.mp merged
      obtain ⟨info, merging⟩ := Option.ne_none_iff_exists'.mp merging
      exact ⟨_, .merge w, by simp only [perform, received, merging]; rfl⟩
    by_cases finished : ∀ w, (d.lanes w).worker = .finished
    · refine absurd ⟨fun w => ?_, received, resting⟩ unfinished
      rw [← finished w, ← merged w]
    · obtain ⟨w, working⟩ := not_forall.mp finished
      exact step_of_worker merged working

end Progress

section Measure

/-- The moves that the infos of a lane need to reach `reorder`, and its worker to end. -/
def laneWork (lane : Lane) : Nat :=
  (match lane.worker with
    | .ready => 1
    | .asking _ => 7
    | .offering _ => 6
    | .finished => 0) + 4 * lane.merging.isSome.toNat

/-- A bound for the number of moves that can still be made. -/
def work (endIndex : UInt64) (d : Downloader) : Nat :=
  7 * (endIndex.toNat + 1 - d.nextTask.toNat) + (!d.tasksClosed).toNat +
    ∑ w, laneWork (d.lanes w) + 3 * d.received.isSome.toNat + d.reordering.toNat +
    (endIndex.toNat + 1 - d.nextIndex.toNat)

variable {ctx : DownloadContext} {startIndex endIndex : UInt64} {d after : Downloader}

theorem work_setLane (endIndex : UInt64) (d : Downloader) (w : Fin 8) (lane : Lane) :
    (d.setLane w lane).work endIndex + laneWork (d.lanes w) =
      d.work endIndex + laneWork lane := by
  have others : ∑ other ∈ Finset.univ.erase w, laneWork ((d.setLane w lane).lanes other) =
      ∑ other ∈ Finset.univ.erase w, laneWork (d.lanes other) :=
    Finset.sum_congr rfl fun other member => by
      rw [lanes_setLane_ne (Finset.ne_of_mem_erase member)]
  rw [work, work, ← Finset.add_sum_erase _ _ (Finset.mem_univ w), others, lanes_setLane,
    ← Finset.add_sum_erase Finset.univ (fun other => laneWork (d.lanes other)) (Finset.mem_univ w)]
  dsimp only [setLane]
  omega

theorem work_setLane_lt {w : Fin 8} {lane : Lane} (less : laneWork lane < laneWork (d.lanes w)) :
    (d.setLane w lane).work endIndex < d.work endIndex := by
  have changed := work_setLane endIndex d w lane
  omega

theorem work_lt_of_moved (below : endIndex ≠ last) (feeding : d.Feeding ctx startIndex endIndex)
    (ordering : d.Ordering ctx startIndex endIndex) (moved : d.Moved ctx endIndex after) :
    after.work endIndex < d.work endIndex := by
  cases moved with
  | handOut w due ready =>
    have changed := work_setLane endIndex d w ⟨.asking d.nextTask, (d.lanes w).merging⟩
    have grown := toNat_add_one (ne_last_of_le due below)
    rw [UInt64.le_iff_toNat_le] at due
    simp only [laneWork, ready] at changed
    unfold work at changed ⊢
    dsimp only [setLane] at changed ⊢
    omega
  | closeTasks fed unclosed =>
    unfold work
    simp [unclosed]
  | answer w i asking =>
    apply work_setLane_lt
    simp [laneWork, asking]
  | offer w info offering =>
    apply work_setLane_lt
    rw [offering]
    cases info with
    | none => decide
    | some info => exact Nat.lt_succ_self 5
  | finish w closed ready =>
    apply work_setLane_lt
    simp [laneWork, ready]
  | merge w info idle merging =>
    have changed := work_setLane endIndex d w ⟨(d.lanes w).worker, none⟩
    simp only [laneWork, merging, Option.isSome, Bool.toNat_true, Bool.toNat_false] at changed
    unfold work at changed ⊢
    simp only [setLane, idle, Option.isSome, Bool.toNat_true, Bool.toNat_false] at changed ⊢
    omega
  | reorder info received idle =>
    unfold work
    simp only [received, idle, Option.isSome, Bool.toNat_true, Bool.toNat_false]
    omega
  | send ci busy found =>
    have within := (mem_span.mp (query_of_filed feeding ordering found).1).2
    have grown := toNat_add_one (ne_last_of_le within below)
    rw [UInt64.le_iff_toNat_le] at within
    unfold work
    dsimp only
    omega
  | await busy missing =>
    unfold work
    simp only [busy, Bool.toNat_true, Bool.toNat_false]
    omega

end Measure

section Runs

open Relation

variable {ctx : DownloadContext} {startIndex endIndex : UInt64} {d after : Downloader}

theorem no_endless_run (below : endIndex ≠ last) {run : Nat → Downloader}
    (starts : run 0 = startTask startIndex) : ¬ ∀ n, (run n).Step ctx endIndex (run (n + 1)) := by
  intro steps
  have reached : ∀ n, ReflTransGen (Step ctx endIndex) (startTask startIndex) (run n) := by
    intro n
    induction n with
    | zero => rw [starts]
    | succ n ih => exact ih.tail (steps n)
  have less : ∀ n, (run (n + 1)).work endIndex < (run n).work endIndex := by
    intro n
    obtain ⟨feeding, ordering⟩ := run_keeps below (reached n)
    exact work_lt_of_moved below feeding ordering (moved_of_step (steps n))
  exact not_strictAnti_of_wellFoundedLT (fun n => (run n).work endIndex)
    (strictAnti_nat_of_succ_lt less)

theorem filed_of_over (feeding : d.Feeding ctx startIndex endIndex) (finished : d.Over)
    {i : UInt64} (inSpan : i ∈ span startIndex endIndex) {info : CloseInfo}
    (answered : ctx.query i = some info) : d.infoMap.lookup i = some info := by
  obtain ⟨lanes, received, -⟩ := finished
  have fed : endIndex < d.nextTask :=
    feeding.closed (feeding.finished 0 (congrArg Lane.worker (lanes 0)))
  have due : i < d.nextTask := UInt64.lt_of_le_of_lt (mem_span.mp inSpan).2 fed
  rcases feeding.fed i inSpan info answered due with ⟨w, asks⟩ | ⟨w, offers | merges⟩ | arrives |
      filed
  · rw [lanes w] at asks
    cases asks
  · rw [lanes w] at offers
    cases offers
  · rw [lanes w] at merges
    cases merges
  · rw [received] at arrives
    cases arrives
  · rwa [index_of_query answered] at filed

theorem gapFree_eq_readyChan_append (ordering : d.Ordering ctx startIndex endIndex) :
    gapFree ctx.query (span startIndex endIndex) =
      d.readyChan ++ gapFree ctx.query (span d.nextIndex endIndex) := by
  obtain ⟨served, split, sent⟩ := ordering.served
  rw [split, gapFree_append sent]

theorem readyChan_of_over (below : endIndex ≠ last) (feeding : d.Feeding ctx startIndex endIndex)
    (ordering : d.Ordering ctx startIndex endIndex) (finished : d.Over) :
    d.readyChan = gapFree ctx.query (span startIndex endIndex) := by
  obtain ⟨served, split, -⟩ := ordering.served
  rw [gapFree_eq_readyChan_append ordering]
  by_cases within : d.nextIndex ≤ endIndex
  · rw [span_of_le within below] at split ⊢
    have inSpan : d.nextIndex ∈ span startIndex endIndex := by
      rw [split]
      simp
    cases answered : ctx.query d.nextIndex with
    | none => rw [gapFree_of_none answered, List.append_nil]
    | some info =>
      have filed := filed_of_over feeding finished inSpan answered
      rw [ordering.awaiting finished.2.2] at filed
      cases filed
  · rw [span_of_lt (UInt64.not_le.mp within)]
    exact (List.append_nil _).symm

theorem not_over_of_last (run : ReflTransGen (Step ctx last) (startTask startIndex) d) :
    ¬ d.Over := by
  have feeding : d.tasksClosed = false ∧ ∀ w, (d.lanes w).worker ≠ .finished := by
    induction run with
    | refl => exact ⟨rfl, fun w => Worker.noConfusion⟩
    | @tail before after _ step ih =>
      obtain ⟨unclosed, working⟩ := ih
      have kept : ∀ w lane, lane.worker ≠ .finished →
          ∀ other, ((before.setLane w lane).lanes other).worker ≠ .finished := by
        intro w lane works other
        by_cases same : other = w
        · rwa [same, lanes_setLane]
        · rw [lanes_setLane_ne same]
          exact working other
      cases moved_of_step step with
      | handOut w due ready => exact ⟨unclosed, kept w _ Worker.noConfusion⟩
      | closeTasks fed _ => exact absurd (le_last _) (UInt64.not_le.mpr fed)
      | answer w i asking => exact ⟨unclosed, kept w _ Worker.noConfusion⟩
      | offer w info offering => exact ⟨unclosed, kept w _ Worker.noConfusion⟩
      | finish w closed ready =>
        rw [unclosed] at closed
        cases closed
      | merge w info idle merging => exact ⟨unclosed, kept w _ (working w)⟩
      | reorder info received idle => exact ⟨unclosed, working⟩
      | send ci busy found => exact ⟨unclosed, working⟩
      | await busy missing => exact ⟨unclosed, working⟩
  intro finished
  exact feeding.2 0 (congrArg Lane.worker (finished.1 0))

/-- A task sends the infos of its indices before the first failed query in their order: a
part of them at any time, all of them when it is over, and it gets there unless it ends at
the largest number. -/
theorem download_in_order (ctx : DownloadContext) (startIndex endIndex : UInt64) :
    (endIndex ≠ last →
      (∀ d, ReflTransGen (Step ctx endIndex) (startTask startIndex) d →
        d.readyChan <+: gapFree ctx.query (span startIndex endIndex) ∧
        (d.Over → d.readyChan = gapFree ctx.query (span startIndex endIndex)) ∧
        (¬ d.Over → ∃ after, d.Step ctx endIndex after)) ∧
      ∀ run : Nat → Downloader, run 0 = startTask startIndex →
        ¬ ∀ n, (run n).Step ctx endIndex (run (n + 1))) ∧
    (endIndex = last →
      ∀ d, ReflTransGen (Step ctx endIndex) (startTask startIndex) d → ¬ d.Over) := by
  refine ⟨fun below => ⟨fun d run => ?_, fun run starts => no_endless_run below starts⟩, ?_⟩
  · obtain ⟨feeding, ordering⟩ := run_keeps below run
    refine ⟨?_, readyChan_of_over below feeding ordering, step_of_not_over⟩
    rw [gapFree_eq_readyChan_append ordering]
    exact List.prefix_append _ _
  · rintro rfl d run
    exact not_over_of_last run

theorem run_of_moves {moves : List DownloadMove}
    (made : moves.foldlM (perform ctx endIndex) d = some after) :
    ReflTransGen (Step ctx endIndex) d after := by
  induction moves generalizing d with
  | nil => rw [Option.some.inj made]
  | cons move moves ih =>
    obtain ⟨next, performed, made⟩ := Option.bind_eq_some_iff.mp made
    exact (ih made).head ⟨move, performed⟩

end Runs

section Samples

private def peersWithGap : DownloadContext where
  ledger := {
    marshalHeader := fun _ => .ok []
    marshalCheckpoint := fun _ => .ok []
    headerKey := fun _ => ""
    getTxSetKey := fun _ => .ok "txs"
    decodeBase58 := fun _ => .ok []
    decodeConsensusValue := fun _ => .ok ⟨"txs", 0⟩ }
  sign payload := .ok payload
  queryLedger payload _ :=
    if payload = "4" then .error "not found"
    else .ok (⟨1, "", "txs", "cv", 1, 3, 0, 0, 0⟩, ⟨"", []⟩)

private def movesWithGap : List DownloadMove :=
  [.handOut 0, .handOut 1, .closeTasks, .answer 1, .offer 1, .answer 0, .offer 0, .merge 0,
    .reorder, .send, .await, .finish 0, .finish 1, .finish 2, .finish 3, .finish 4, .finish 5,
    .finish 6, .finish 7]

theorem download_before_gap :
    ∃ d, Relation.ReflTransGen (Step peersWithGap 4) (startTask 3) d ∧ d.Over ∧
      d.readyChan = [⟨3, "cv", ⟨"", []⟩⟩] := by
  have made : (movesWithGap.foldlM (perform peersWithGap 4) (startTask 3)).isSome := by decide
  obtain ⟨d, done⟩ := Option.isSome_iff_exists.mp made
  have run := run_of_moves done
  have finished : d.Over := by
    cases done
    exact ⟨by decide, rfl, rfl⟩
  refine ⟨d, run, finished, ?_⟩
  rw [(((download_in_order peersWithGap 3 4).1 (by decide)).1 d run).2.1 finished]
  rfl

private def movesPastEnd : List DownloadMove :=
  [.handOut 0, .handOut 1, .answer 0, .offer 0, .merge 0, .reorder, .send, .await,
    .answer 1, .offer 1, .merge 1, .reorder, .send]

theorem download_past_end :
    ∃ d, Relation.ReflTransGen (Step peersWithGap last) (startTask last) d ∧
      d.readyChan.map CloseInfo.index = [18446744073709551615, 0] ∧
      (gapFree peersWithGap.query (span last last)).map CloseInfo.index =
        [18446744073709551615] := by
  have made : (movesPastEnd.foldlM (perform peersWithGap last) (startTask last)).isSome := by
    decide
  obtain ⟨d, done⟩ := Option.isSome_iff_exists.mp made
  refine ⟨d, run_of_moves done, ?_, by decide⟩
  cases done
  rfl

end Samples

end Downloader

end Ultiledger
