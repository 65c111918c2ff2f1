import Ultiledger.CatchingUp

/-! # Closed ledgers in the database

`advanceLedger` of `ledger/manager.go` writes the new header and then the checkpoint.
If the header cannot be written the error is dropped.
-/

namespace Ultiledger

open AbortingProgram Program

abbrev HeaderCache := Finmap fun _ : String => LedgerHeader

/-- `GetLedgerHeader` on the bucket and the cache, which is returned as well.  Under the key
of a header there is a header or nothing. -/
def getLedgerHeader (bucket : Finmap fun _ : String => LedgerRecord) (headers : HeaderCache)
    (seq : String) : HeaderCache × Except String (Option LedgerHeader) :=
  match headers.lookup seq with
  | some header => (headers, .ok (some header))
  | none =>
    match bucket.lookup seq with
    | none => (headers, .ok none)
    | some (.checkpoint _) => (headers, .error "decode ledger failed: ")
    | some (.header header) => (headers.insert seq header, .ok (some header))

theorem getLedgerHeader_of_stored {core : LedgerCore} {seq : Nat} {header : LedgerHeader}
    (stored : core.storedHeader seq = some header) :
    (getLedgerHeader core.bucket ∅ (Nat.repr seq)).2 = .ok (some header) := by
  unfold LedgerCore.storedHeader at stored
  unfold getLedgerHeader
  rw [Finmap.lookup_empty]
  split at stored
  · rename_i found
    rw [found, Option.some.inj stored]
  · cases stored

section Writes

variable {tm : TxManager} {ctx : LedgerContext} {moment : LedgerMoment}

/-- A ledger was closed with a header that is stored if its write succeeded; if not,
nothing under its number has changed. -/
structure ClosedWith (moment : LedgerMoment) (seq : Nat) (before after : LedgerCore)
    (header : LedgerHeader) : Prop where
  current : after.currLedgerHeader = some header
  seqNum : header.seqNum = seq
  saved : after.Saved
  stored : moment.putHeader = .ok () → after.storedHeader seq = some header
  lost : ∀ err, moment.putHeader = .error err → after.storedHeader seq = before.storedHeader seq

theorem closedWith_extended (moment : LedgerMoment) (core : LedgerCore) (header : LedgerHeader)
    (h : String) :
    ClosedWith moment header.seqNum core (core.extended header moment h) header where
  current := rfl
  seqNum := rfl
  saved := saved_putCheckpoint _
  stored succeeds := by rw [storedHeader_extended succeeds, if_pos rfl]
  lost err fails := by
    rw [LedgerCore.extended, storedHeader_putCheckpoint, storedHeader_advance,
      LedgerCore.putHeader, fails]

theorem ClosedWith.log {seq : Nat} {before after : LedgerCore} {header : LedgerHeader}
    (closedWith : ClosedWith moment seq before after header) (closed : List CloseInfo) :
    ClosedWith moment seq before { after with closed := closed } header :=
  ⟨closedWith.current, closedWith.seqNum, closedWith.saved, closedWith.stored, closedWith.lost⟩

theorem closeLedger_closedWith (info : CloseInfo) (lm : LedgerManager tm) :
    (closeLedger ctx moment info).Holds lm
      (fun result after => result = .ok () →
        ∃ header, ClosedWith moment info.index lm.toLedgerCore after.toLedgerCore header)
      (fun _ _ => True) := by
  refine (closeLedger_holds info lm).imp ?_
  rintro result after ⟨-, closes⟩ succeeded
  generalize after.toLedgerCore = core at closes
  cases closes with
  | refused err => cases succeeded
  | closed txsetHash h passes key =>
    exact ⟨_, (closedWith_extended moment lm.toLedgerCore (info.header txsetHash) h).log _⟩

theorem createGenesisLedger_closedWith (lm : LedgerManager tm) :
    (createGenesisLedger ctx moment).Holds lm
      (fun _ after => ∃ header,
        ClosedWith moment genesisSeqNum lm.toLedgerCore after.toLedgerCore header)
      (fun _ _ => True) := by
  refine (createGenesisLedger_holds lm).imp ?_
  rintro - final ⟨-, h, -, grown⟩
  have closedWith := closedWith_extended moment lm.toLedgerCore
    (newHeader genesisSeqNum "" "" "") h
  exact ⟨_, grown ▸ closedWith⟩

/-- A call that closes a ledger stores the checkpoint, and the new header if its write
succeeds.  As long as none fails, a new process over the database answers for every
ledger up to its current one. -/
theorem closed_ledger_durable (ctx : LedgerContext) :
    (∀ moment info (lm after : LedgerManager tm),
      closeLedger ctx moment info lm = .done (.ok ()) after →
      ∃ header, ClosedWith moment info.index lm.toLedgerCore after.toLedgerCore header) ∧
    (∀ moment (lm after : LedgerManager tm),
      createGenesisLedger ctx moment lm = .done (.ok ()) after →
      ∃ header, ClosedWith moment genesisSeqNum lm.toLedgerCore after.toLedgerCore header) ∧
    ∀ lm : LedgerManager tm, Reached ctx (fun moment => moment.putHeader = .ok ()) lm →
      (∀ moment info after, closeLedger ctx moment info lm = .done (.ok ()) after →
        ((∃ header, after.storedHeader info.index = some header) ↔ moment.putHeader = .ok ())) ∧
      ∀ now recovered, restart ctx now lm = .done () recovered →
        recovered.nextLedgerHeaderSeq = lm.nextLedgerHeaderSeq ∧
        ∀ seq, 1 ≤ seq → seq < lm.nextLedgerHeaderSeq → ∃ header, header.seqNum = seq ∧
          (getLedgerHeader recovered.bucket ∅ (Nat.repr seq)).2 = .ok (some header) := by
  refine ⟨fun moment info lm after closes => ?_, fun moment lm after creates => ?_,
    fun lm reached => ?_⟩
  · exact (holds_of_done closes).mp (closeLedger_closedWith info lm) rfl
  · exact (holds_of_done creates).mp (createGenesisLedger_closedWith lm)
  have sound : LedgerSound ctx True lm.toLedgerCore := reached.sound fun _ succeeds _ => succeeds
  obtain ⟨curr, integrity⟩ := sound.integrity
  have next : lm.nextLedgerHeaderSeq = curr.seqNum + 1 := by
    unfold LedgerCore.nextLedgerHeaderSeq
    rw [integrity.current]
  refine ⟨fun moment info after closes => ⟨fun stored => ?_, fun succeeds => ?_⟩,
    fun now recovered restarts => ?_⟩
  · obtain ⟨header, closedWith⟩ := (holds_of_done closes).mp (closeLedger_closedWith info lm) rfl
    obtain ⟨-, due, -⟩ := (holds_of_done closes).mp (closeLedger_effect info lm)
    rw [integrity.current] at due
    cases written : moment.putHeader with
    | ok _ => rfl
    | error err =>
      rw [closedWith.lost err written, integrity.consecutive, due rfl] at stored
      omega
  · obtain ⟨header, closedWith⟩ := (holds_of_done closes).mp (closeLedger_closedWith info lm) rfl
    exact ⟨header, closedWith.stored succeeds⟩
  · have same := (holds_of_done restarts).mp (restart_restores now sound)
    rw [same]
    refine ⟨rfl, fun seq positive below => ?_⟩
    obtain ⟨header, stored⟩ := (integrity.consecutive seq).mpr ⟨positive, by omega⟩
    exact ⟨header, integrity.numbered seq header stored, getLedgerHeader_of_stored stored⟩

end Writes

section Samples

private def fullDisk : Except String Unit := .error "disk full"

private def noAccounts : LedgerManager TxManager.plain := newManager ∅ ⟨Bucket.empty, ∅, []⟩ []

private def ledgerTwo : CloseInfo := ⟨2, "value", ⟨"header [1]", []⟩⟩

private def closesSecond (putHeader : Except String Unit) :
    Outcome (LedgerManager .plain) Fault (Except String Unit) :=
  closeLedger numberedHeaders (momentAt 9 putHeader) ledgerTwo oneLedger

private def succeeded (outcome : Outcome (LedgerManager TxManager.plain) Fault (Except String Unit)) :
    Bool :=
  match outcome with
  | .done (.ok ()) _ => true
  | _ => false

private theorem eq_done_of_succeeded
    {outcome : Outcome (LedgerManager .plain) Fault (Except String Unit)}
    (success : succeeded outcome = true) : outcome = .done (.ok ()) outcome.state := by
  rcases outcome with ⟨err | ⟨⟨⟩⟩, state⟩ | ⟨fault, state⟩
  · cases success
  · rfl
  · cases success

/-- The second ledger is closed with its header written. -/
theorem closed_ledger_durable_second :
    succeeded (closesSecond (.ok ())) = true ∧
      ∃ header, (closesSecond (.ok ())).state.storedHeader 2 = some header ∧ header.seqNum = 2 := by
  have success : succeeded (closesSecond (.ok ())) = true := by decide +kernel
  obtain ⟨header, closedWith⟩ := (closed_ledger_durable numberedHeaders).1 _ _ _ _
    (eq_done_of_succeeded success)
  exact ⟨success, header, closedWith.stored rfl, closedWith.seqNum⟩

/-- The disk is full when the headers are written.  The manager that starts again has the
second ledger as its current one and does not find its header. -/
theorem closed_ledger_lost :
    succeeded (createGenesisLedger numberedHeaders (momentAt 5 fullDisk) noAccounts) = true ∧
      (getLedgerHeader (createGenesisLedger numberedHeaders (momentAt 5 fullDisk)
        noAccounts).state.bucket ∅ "1").2 = .ok none ∧
    succeeded (closesSecond fullDisk) = true ∧
      (restart numberedHeaders 9 (closesSecond fullDisk).state).isDone = true ∧
      (restart numberedHeaders 9 (closesSecond fullDisk).state).state.nextLedgerHeaderSeq = 3 ∧
      (getLedgerHeader (restart numberedHeaders 9 (closesSecond fullDisk).state).state.bucket ∅
        "2").2 = .ok none := by
  decide +kernel

end Samples

end Ultiledger
