import Ultiledger.LedgerManager

/-! # The chain of ledger headers -/

namespace Ultiledger

open AbortingProgram Program

section Chains

variable (ctx : LedgerContext)

/-- The chains of headers, newest first, and the infos they were closed from, oldest
first. -/
inductive HeaderChain : List LedgerHeader → List CloseInfo → Prop where
  | genesis : HeaderChain [newHeader genesisSeqNum "" "" ""] []
  | close (curr : LedgerHeader) (headers : List LedgerHeader) (infos : List CloseInfo)
      (info : CloseInfo) (txsetHash : String) (cv : ConsensusValue)
      (chain : HeaderChain (curr :: headers) infos) (next : info.index = curr.seqNum + 1)
      (linked : ctx.getLedgerHeaderKey curr = .ok info.txSet.prevLedgerHash)
      (hashed : ctx.getTxSetKey info.txSet = .ok txsetHash)
      (decoded : ctx.closeValue info.value = .ok cv) (agrees : cv.txSetHash = txsetHash) :
      HeaderChain (newHeader info.index info.txSet.prevLedgerHash txsetHash info.value ::
        curr :: headers) (infos ++ [info])

/-- A header was closed from an info: the hash of its transaction set is in its
consensus value as well. -/
structure ClosedFrom (header : LedgerHeader) (info : CloseInfo) : Prop where
  index : info.index = header.seqNum
  value : info.value = header.consensusValue
  hashed : ctx.getTxSetKey info.txSet = .ok header.txSetHash
  decoded : ∃ cv, ctx.closeValue header.consensusValue = .ok cv ∧
    cv.txSetHash = header.txSetHash

variable {ctx} {headers : List LedgerHeader} {infos : List CloseInfo}

theorem HeaderChain.exists_head (chain : HeaderChain ctx headers infos) :
    ∃ curr rest, headers = curr :: rest ∧ curr.seqNum = headers.length := by
  induction chain with
  | genesis => exact ⟨_, _, rfl, rfl⟩
  | close curr headers infos info txsetHash cv chain next linked hashed decoded agrees ih =>
    obtain ⟨_, _, same, number⟩ := ih
    cases same
    refine ⟨_, _, rfl, ?_⟩
    change info.index = _
    rw [next, number, List.length_cons, List.length_cons, List.length_cons]

theorem HeaderChain.seqNum_head {curr : LedgerHeader} (chain : HeaderChain ctx (curr :: headers) infos) :
    curr.seqNum = headers.length + 1 := by
  obtain ⟨_, _, same, number⟩ := chain.exists_head
  cases same
  exact number

section

variable (chain : HeaderChain ctx headers infos)

include chain

theorem HeaderChain.exists_seqNum_iff (seq : Nat) :
    (∃ header ∈ headers, header.seqNum = seq) ↔ 1 ≤ seq ∧ seq ≤ headers.length := by
  induction chain with
  | genesis =>
    simp only [List.mem_singleton, exists_eq_left, newHeader, genesisSeqNum,
      List.length_singleton]
    omega
  | close curr headers infos info txsetHash cv chain next linked hashed decoded agrees ih =>
    rw [List.exists_mem_cons_iff, ih]
    change info.index = seq ∨ _ ↔ _
    rw [next, chain.seqNum_head]
    simp only [List.length_cons]
    omega

theorem HeaderChain.linked_of_mem {header : LedgerHeader} (member : header ∈ headers)
    (later : 1 < header.seqNum) : ∃ prev ∈ headers, prev.seqNum + 1 = header.seqNum ∧
      ctx.getLedgerHeaderKey prev = .ok header.prevLedgerHash := by
  induction chain with
  | genesis =>
    obtain rfl := List.mem_singleton.mp member
    exact absurd later (by decide)
  | close curr headers infos info txsetHash cv chain next linked hashed decoded agrees ih =>
    rcases List.mem_cons.mp member with rfl | older
    · exact ⟨curr, by simp, next.symm, linked⟩
    · obtain ⟨prev, prevMember, consecutive, key⟩ := ih older
      exact ⟨prev, .tail _ prevMember, consecutive, key⟩

theorem HeaderChain.closedFrom_of_mem {header : LedgerHeader} (member : header ∈ headers)
    (later : 1 < header.seqNum) : ∃ info ∈ infos, ClosedFrom ctx header info := by
  induction chain with
  | genesis =>
    obtain rfl := List.mem_singleton.mp member
    exact absurd later (by decide)
  | close curr headers infos info txsetHash cv chain next linked hashed decoded agrees ih =>
    rcases List.mem_cons.mp member with rfl | older
    · exact ⟨info, by simp, rfl, rfl, hashed, cv, decoded, agrees⟩
    · obtain ⟨earlier, logged, closedFrom⟩ := ih older
      exact ⟨earlier, List.mem_append_left _ logged, closedFrom⟩

theorem HeaderChain.indices : infos.map (·.index) = List.range' 2 (headers.length - 1) := by
  induction chain with
  | genesis => rfl
  | close curr headers infos info txsetHash cv chain next linked hashed decoded agrees ih =>
    rw [List.map_append, List.map_singleton, next, chain.seqNum_head]
    simp only [List.length_cons, Nat.add_sub_cancel]
    rw [List.range'_concat]
    congr 2
    omega

end

theorem HeaderChain.head_linked {curr : LedgerHeader} (chain : HeaderChain ctx (curr :: headers) infos) :
    match headers.head? with
    | none => curr.seqNum = 1 ∧ curr.prevLedgerHash = ""
    | some prev => prev.seqNum + 1 = curr.seqNum ∧
        ctx.getLedgerHeaderKey prev = .ok curr.prevLedgerHash := by
  cases chain with
  | genesis => exact ⟨rfl, rfl⟩
  | close prev headers infos info txsetHash cv chain next linked hashed decoded agrees =>
    exact ⟨next.symm, linked⟩

end Chains

def LedgerCore.storedHeader (core : LedgerCore) (seq : Nat) : Option LedgerHeader :=
  match core.bucket.lookup (Nat.repr seq) with
  | some (.header header) => some header
  | _ => none

theorem repr_ne_checkpoint (seq : Nat) : Nat.repr seq ≠ "CHECKPOINT" := by
  intro same
  have letter : 'C' ∈ (Nat.repr seq).toList := by
    rw [same]
    decide
  have digit : 'C'.isDigit = true :=
    Nat.isDigit_of_mem_toDigits (b := 10) (by decide) (by decide)
      (by simpa [Nat.repr] using letter)
  exact absurd digit (by decide)

theorem seqNum_eq_of_repr_eq {first second : Nat} (same : Nat.repr first = Nat.repr second) :
    first = second := by
  have digits : Nat.toDigits 10 first = Nat.toDigits 10 second := by
    rw [← Nat.toList_repr, ← Nat.toList_repr, same]
  calc first = Nat.ofDigitChars 10 (Nat.toDigits 10 first) 0 :=
        Nat.ofDigitChars_ten_toDigits.symm
    _ = Nat.ofDigitChars 10 (Nat.toDigits 10 second) 0 := by rw [digits]
    _ = second := Nat.ofDigitChars_ten_toDigits

section Stores

variable (core : LedgerCore) (header : LedgerHeader)

theorem storedHeader_saveHeader (seq : Nat) :
    (core.saveHeader header).storedHeader seq =
      if seq = header.seqNum then some header else core.storedHeader seq := by
  unfold LedgerCore.storedHeader LedgerCore.saveHeader
  by_cases same : seq = header.seqNum
  · rw [if_pos same, same, Finmap.lookup_insert]
  · have differ : Nat.repr seq ≠ Nat.repr header.seqNum := fun equal =>
      same (seqNum_eq_of_repr_eq equal)
    rw [if_neg same, Finmap.lookup_insert_of_ne _ differ]

@[simp]
theorem storedHeader_putCheckpoint (seq : Nat) :
    core.putCheckpoint.storedHeader seq = core.storedHeader seq := by
  unfold LedgerCore.storedHeader LedgerCore.putCheckpoint
  rw [Finmap.lookup_insert_of_ne _ (repr_ne_checkpoint seq)]

@[simp]
theorem storedHeader_advance (h : String) (now seq : Nat) :
    (core.advance header h now).storedHeader seq = core.storedHeader seq :=
  rfl

def LedgerCore.Saved : Prop :=
  core.bucket.lookup "CHECKPOINT" = some (.checkpoint core.checkpoint)

theorem saved_putCheckpoint : core.putCheckpoint.Saved :=
  Finmap.lookup_insert _

/-- The bucket after the write of a header, whose error is dropped. -/
def LedgerCore.putHeader (moment : LedgerMoment) : LedgerCore :=
  match moment.putHeader with
  | .error _ => core
  | .ok () => core.saveHeader header

/-- What `advanceLedger` leaves when it succeeds. -/
def LedgerCore.extended (moment : LedgerMoment) (h : String) : LedgerCore :=
  ((core.putHeader header moment).advance header h moment.now).putCheckpoint

theorem closed_extended (moment : LedgerMoment) (h : String) :
    (core.extended header moment h).closed = core.closed := by
  unfold LedgerCore.extended LedgerCore.putHeader
  cases moment.putHeader <;> rfl

variable {core header} in
theorem storedHeader_extended {moment : LedgerMoment} (succeeds : moment.putHeader = .ok ())
    (h : String) (seq : Nat) :
    (core.extended header moment h).storedHeader seq =
      if seq = header.seqNum then some header else core.storedHeader seq := by
  unfold LedgerCore.extended
  rw [storedHeader_putCheckpoint, storedHeader_advance, LedgerCore.putHeader, succeeds]
  exact storedHeader_saveHeader core header seq

end Stores

section Representation

variable (ctx : LedgerContext)

structure Represents (headers : List LedgerHeader) (core : LedgerCore) : Prop where
  current : core.currLedgerHeader = headers.head?
  currentKey : ∀ curr, headers.head? = some curr →
    ctx.getLedgerHeaderKey curr = .ok core.currLedgerHeaderHash
  previous : core.prevLedgerHeader = headers.tail.head?
  previousHash : ∀ curr, headers.head? = some curr →
    core.prevLedgerHeaderHash = curr.prevLedgerHash
  count : core.ledgerHeaderCount = headers.length
  closeTime : 0 ≤ core.lastCloseTime

def Stores (headers : List LedgerHeader) (core : LedgerCore) : Prop :=
  ∀ seq header, core.storedHeader seq = some header ↔ header ∈ headers ∧ header.seqNum = seq

/-- A chain, represented and saved, with its headers if these are `kept`: a header whose
write fails is lost. -/
def LedgerSound (kept : Prop) (core : LedgerCore) : Prop :=
  ∃ headers, HeaderChain ctx headers core.closed ∧ Represents ctx headers core ∧
    core.Saved ∧ (kept → Stores headers core)

variable {ctx} {headers : List LedgerHeader} {core : LedgerCore}

theorem Represents.extended (represents : Represents ctx headers core) {header : LedgerHeader}
    {h : String} (moment : LedgerMoment) (key : ctx.getLedgerHeaderKey header = .ok h)
    (links : core.currLedgerHeaderHash = header.prevLedgerHash) :
    Represents ctx (header :: headers) (core.extended header moment h) := by
  have untouched : core.putHeader header moment =
      { core with bucket := (core.putHeader header moment).bucket } := by
    unfold LedgerCore.putHeader
    cases moment.putHeader <;> rfl
  unfold LedgerCore.extended
  rw [untouched]
  refine ⟨rfl, ?_, represents.current, ?_, ?_, Int.natCast_nonneg moment.now⟩
  · intro curr newest
    cases newest
    exact key
  · intro curr newest
    cases newest
    exact links
  · change core.ledgerHeaderCount + 1 = _
    rw [represents.count, List.length_cons, Nat.cast_succ]

theorem Stores.extended (stores : Stores headers core) {header : LedgerHeader}
    {moment : LedgerMoment} (succeeds : moment.putHeader = .ok ()) (h : String)
    (new : ∀ older ∈ headers, older.seqNum ≠ header.seqNum) :
    Stores (header :: headers) (core.extended header moment h) := by
  intro seq other
  rw [storedHeader_extended succeeds, List.mem_cons]
  by_cases same : seq = header.seqNum
  · rw [if_pos same]
    constructor
    · intro found
      cases found
      exact ⟨.inl rfl, same.symm⟩
    · rintro ⟨rfl | older, number⟩
      · rfl
      · exact absurd (number.trans same) (new other older)
  · rw [if_neg same, stores seq other]
    constructor
    · rintro ⟨older, number⟩
      exact ⟨.inr older, number⟩
    · rintro ⟨rfl | older, number⟩
      · exact absurd number.symm same
      · exact ⟨older, number⟩

variable {tm : TxManager} (accounts : LedgerState tm)

theorem represents_nil :
    Represents ctx [] (newManager ∅ accounts []).toLedgerCore where
  current := rfl
  currentKey curr newest := by simp at newest
  previous := rfl
  previousHash curr newest := by simp at newest
  count := rfl
  closeTime := le_rfl

theorem stores_nil : Stores [] (newManager ∅ accounts []).toLedgerCore := by
  intro seq header
  simp [LedgerCore.storedHeader, newManager]

end Representation

def KeepsChain (tm : TxManager) {Value : Type} (ctx : LedgerContext) (kept : Prop)
    (program : LedgerM tm Value) : Prop :=
  Maintains (fun lm => LedgerSound ctx kept lm.toLedgerCore) (fun _ _ => True) program

section Closing

variable {tm : TxManager} {ctx : LedgerContext} {moment : LedgerMoment} {kept : Prop}

/-- Closing a ledger does not touch what `RecvExtVal` and the goroutine share. -/
structure SameIntake (lm after : LedgerManager tm) : Prop where
  ledgerState : after.ledgerState = lm.ledgerState
  largest : after.largestConsensusIndex = lm.largestConsensusIndex
  buffer : after.buffer = lm.buffer
  catchUp : after.catchUp = lm.catchUp

theorem SameIntake.refl (lm : LedgerManager tm) : SameIntake lm lm := ⟨rfl, rfl, rfl, rfl⟩

theorem SameIntake.trans {first second third : LedgerManager tm}
    (early : SameIntake first second) (late : SameIntake second third) : SameIntake first third :=
  ⟨late.ledgerState.trans early.ledgerState, late.largest.trans early.largest,
    late.buffer.trans early.buffer, late.catchUp.trans early.catchUp⟩

theorem SameIntake.core (lm : LedgerManager tm) (core : LedgerCore) (accounts : LedgerState tm) :
    SameIntake lm { lm with toLedgerCore := core, accounts := accounts } :=
  ⟨rfl, rfl, rfl, rfl⟩

theorem advanceLedger_holds (seq : Nat) (prevHeaderHash txHash cv : String)
    (lm : LedgerManager tm) :
    (advanceLedger ctx moment seq prevHeaderHash txHash cv).Holds lm
      (fun result final => SameIntake lm final ∧ (result = .ok () → ∃ h,
        ctx.getLedgerHeaderKey (newHeader seq prevHeaderHash txHash cv) = .ok h ∧
        final.toLedgerCore =
          lm.toLedgerCore.extended (newHeader seq prevHeaderHash txHash cv) moment h))
      (fun _ _ => False) := by
  unfold advanceLedger LedgerCore.extended LedgerCore.putHeader
  dsimp only
  cases ctx.marshalHeader (newHeader seq prevHeaderHash txHash cv) with
  | error err => simp [SameIntake.refl]
  | ok b =>
    cases key : ctx.getLedgerHeaderKey (newHeader seq prevHeaderHash txHash cv) with
    | error err => simp [SameIntake.refl]
    | ok h =>
      cases moment.putHeader with
      | error err =>
        simp only [saveCheckpoint, modifyCore, holds_bind, holds_modify, holds_get]
        split
        · simp [SameIntake.core]
        · cases moment.putCheckpoint <;> simp [SameIntake.core]
      | ok _ =>
        simp only [saveCheckpoint, modifyCore, holds_bind, holds_modify, holds_get]
        split
        · simp [SameIntake.core]
        · cases moment.putCheckpoint <;> simp [SameIntake.core]

theorem applyToAccounts_holds (txList : List Tx) (ledgerSeqNum : Nat) (lm : LedgerManager tm) :
    (applyToAccounts moment txList ledgerSeqNum).Holds lm
      (fun _ final => SameIntake lm final ∧ final.toLedgerCore = lm.toLedgerCore)
      (fun _ _ => True) := by
  unfold Holds applyToAccounts
  split
  next ended =>
    split at ended <;> cases ended <;> exact ⟨.core lm _ _, rfl⟩
  next => trivial

structure PassesChecks (ctx : LedgerContext) (core : LedgerCore) (info : CloseInfo)
    (txsetHash : String) : Prop where
  due : core.currLedgerHeader.isSome → info.index = core.nextLedgerHeaderSeq
  linked : core.currLedgerHeader.isSome → core.currLedgerHeaderHash = info.txSet.prevLedgerHash
  hashed : ctx.getTxSetKey info.txSet = .ok txsetHash
  agrees : ∃ cv, ctx.closeValue info.value = .ok cv ∧ cv.txSetHash = txsetHash

def CloseInfo.header (info : CloseInfo) (txsetHash : String) : LedgerHeader :=
  newHeader info.index info.txSet.prevLedgerHash txsetHash info.value

/-- What a call that closes an info, if its hash passes the checks, has done when it
returns. -/
inductive CloseResult (ctx : LedgerContext) (moment : LedgerMoment) (info : CloseInfo)
    (checks : String → Prop) (core : LedgerCore) : Except String Unit → LedgerCore → Prop
  | refused (err : String) : CloseResult ctx moment info checks core (.error err) core
  | closed (txsetHash h : String) (passes : checks txsetHash)
      (key : ctx.getLedgerHeaderKey (info.header txsetHash) = .ok h) :
      CloseResult ctx moment info checks core (.ok ())
        { core.extended (info.header txsetHash) moment h with closed := core.closed ++ [info] }

theorem closeChecked_holds (info : CloseInfo) {checks : String → Prop} {txsetHash : String}
    (passes : checks txsetHash) (lm : LedgerManager tm) :
    (closeChecked ctx moment info txsetHash).Holds lm
      (fun result final => SameIntake lm final ∧
        CloseResult ctx moment info checks lm.toLedgerCore result final.toLedgerCore)
      (fun _ _ => True) := by
  unfold closeChecked
  rw [holds_bind, holds_get, holds_bind]
  refine (applyToAccounts_holds _ _ lm).imp ?_
  rintro applied middle ⟨intake, same⟩
  cases applied with
  | error err =>
    rw [holds_pure, same]
    exact ⟨intake, .refused _⟩
  | ok _ =>
    rw [holds_bind]
    refine (advanceLedger_holds _ _ _ _ middle).mono ?_ (fun _ _ _ => trivial)
    rintro advanced final ⟨later, extended⟩
    cases advanced with
    | error err => trivial
    | ok _ =>
      obtain ⟨h, key, grown⟩ := extended rfl
      refine ⟨(intake.trans later).trans (.core final _ _), ?_⟩
      change CloseResult _ _ _ _ _ _ { final.toLedgerCore with closed := final.closed ++ [info] }
      rw [grown, closed_extended, same]
      exact .closed txsetHash h passes key

theorem closeLedger_holds (info : CloseInfo) (lm : LedgerManager tm) :
    (closeLedger ctx moment info).Holds lm
      (fun result final => SameIntake lm final ∧ CloseResult ctx moment info
        (PassesChecks ctx lm.toLedgerCore info) lm.toLedgerCore result final.toLedgerCore)
      (fun _ _ => True) := by
  unfold closeLedger
  rw [holds_bind, holds_get]
  split
  · exact ⟨.refl lm, .refused _⟩
  · rename_i due
    split
    · trivial
    · rename_i linked
      split
      · exact ⟨.refl lm, .refused _⟩
      · rename_i txsetHash hashed
        split
        · exact ⟨.refl lm, .refused _⟩
        · rename_i cv decoded
          split
          · exact ⟨.refl lm, .refused _⟩
          · rename_i agrees
            refine closeChecked_holds info ⟨fun present => ?_, fun present => ?_, hashed, cv,
              decoded, ?_⟩ lm
            · exact (not_not.mp fun differs => due ⟨present, differs⟩).symm
            · exact not_not.mp fun differs => linked ⟨present, differs⟩
            · exact not_not.mp agrees

theorem closeLedger_sound (succeeds : kept → moment.putHeader = .ok ()) (info : CloseInfo) :
    KeepsChain tm ctx kept (closeLedger ctx moment info) := by
  intro lm sound
  refine (closeLedger_holds info lm).imp ?_
  rintro result final ⟨-, closes⟩
  generalize final.toLedgerCore = core at closes
  cases closes with
  | refused err => exact sound
  | closed txsetHash h passes key =>
    obtain ⟨headers, chain, represents, saved, stores⟩ := sound
    obtain ⟨newest, rest, rfl, number⟩ := chain.exists_head
    have current : lm.currLedgerHeader = some newest := represents.current
    have due := passes.due (by rw [current]; rfl)
    have linked := passes.linked (by rw [current]; rfl)
    unfold LedgerCore.nextLedgerHeaderSeq at due
    rw [current] at due
    have currKey := represents.currentKey newest rfl
    rw [linked] at currKey
    have new : ∀ older ∈ newest :: rest, older.seqNum ≠ info.index := by
      intro older member equal
      have bound := (chain.exists_seqNum_iff older.seqNum).mp ⟨older, member, rfl⟩
      dsimp only at due
      omega
    have longer := represents.extended moment key linked
    obtain ⟨cv, decoded, agrees⟩ := passes.agrees
    refine ⟨_, ?_, ⟨longer.current, longer.currentKey, longer.previous,
      longer.previousHash, longer.count, longer.closeTime⟩, saved_putCheckpoint _, ?_⟩
    · exact .close newest rest _ info txsetHash cv chain due currKey passes.hashed decoded agrees
    · intro keeps
      exact (stores keeps).extended (succeeds keeps) h new

theorem createGenesisLedger_holds (lm : LedgerManager tm) :
    (createGenesisLedger ctx moment).Holds lm
      (fun _ final => SameIntake { lm with ledgerState := .synced } final ∧ ∃ h,
        ctx.getLedgerHeaderKey (newHeader genesisSeqNum "" "" "") = .ok h ∧
        final.toLedgerCore =
          lm.toLedgerCore.extended (newHeader genesisSeqNum "" "" "") moment h)
      (fun _ _ => True) := by
  unfold createGenesisLedger
  rw [holds_bind, holds_modify, holds_bind]
  refine (advanceLedger_holds _ _ _ _ _).mono ?_ (fun _ _ _ => trivial)
  rintro advanced final ⟨same, extended⟩
  cases advanced with
  | error err => trivial
  | ok _ => exact ⟨same, extended rfl⟩

theorem createGenesisLedger_sound (succeeds : kept → moment.putHeader = .ok ()) (accounts : LedgerState tm) :
    (createGenesisLedger ctx moment).Holds (newManager ∅ accounts [])
      (fun _ final => LedgerSound ctx kept final.toLedgerCore) (fun _ _ => True) := by
  refine (createGenesisLedger_holds _).imp ?_
  rintro - final ⟨-, h, key, grown⟩
  rw [grown]
  refine ⟨_, ?_, (represents_nil accounts).extended moment key rfl, saved_putCheckpoint _, ?_⟩
  · rw [closed_extended]
    exact .genesis
  · intro keeps
    exact (stores_nil accounts).extended (succeeds keeps) h (by simp)

end Closing

section Recovery

variable {tm : TxManager} {ctx : LedgerContext} {core : LedgerCore} {kept : Prop}

theorem checkpointProblem_eq_none {headers : List LedgerHeader}
    (chain : HeaderChain ctx headers core.closed) (represents : Represents ctx headers core) {now : Nat}
    (past : core.lastCloseTime ≤ now) : checkpointProblem ctx now core.checkpoint = none := by
  obtain ⟨curr, rest, rfl, number⟩ := chain.exists_head
  have current : core.checkpoint.currLedgerHeader = some curr := represents.current
  have time : ¬(core.checkpoint.lastCloseTime < 0 ∨ core.checkpoint.lastCloseTime > now) := by
    have nonneg := represents.closeTime
    change ¬(core.lastCloseTime < 0 ∨ core.lastCloseTime > now)
    omega
  have count : core.checkpoint.ledgerHeaderCount = rest.length + 1 := by
    change core.ledgerHeaderCount = _
    rw [represents.count, List.length_cons, Nat.cast_succ]
  have previous : ¬(core.checkpoint.prevLedgerHeader = none ∧
      core.checkpoint.ledgerHeaderCount ≠ 1) := by
    rintro ⟨missing, several⟩
    have alone : rest = [] := List.head?_eq_none_iff.mp (represents.previous.symm.trans missing)
    rw [count, alone] at several
    exact several rfl
  have currKey := represents.currentKey curr rfl
  have currHeader : currHeaderProblem ctx core.checkpoint = none := by
    unfold currHeaderProblem
    rw [current]
    simp only [LedgerContext.optionalHeaderKey, currKey]
    simp [LedgerCore.checkpoint, represents.previousHash curr rfl]
  unfold checkpointProblem
  rw [if_neg time, if_neg (by omega), if_neg previous]
  exact currHeader

theorem recoverFromCheckpoint_restores (sound : LedgerSound ctx kept core) {now : Nat}
    (past : core.lastCloseTime ≤ now) (accounts : LedgerState tm) (closed : List CloseInfo) :
    ∃ recovered : LedgerManager tm,
      recoverFromCheckpoint ctx now (newManager core.bucket accounts closed) =
        .done (.ok ()) recovered ∧ recovered.toLedgerCore = { core with closed := closed } := by
  obtain ⟨headers, chain, represents, saved, stores⟩ := sound
  have found : (newManager core.bucket accounts closed).bucket.lookup "CHECKPOINT" =
      some (.checkpoint core.checkpoint) := saved
  unfold recoverFromCheckpoint
  rw [bind_of_done (rfl : get _ = _), found]
  dsimp only
  rw [checkpointProblem_eq_none chain represents past]
  exact ⟨_, rfl, rfl⟩

theorem restart_restores (now : Nat) {lm : LedgerManager tm}
    (sound : LedgerSound ctx kept lm.toLedgerCore) :
    (restart ctx now).Holds lm (fun _ final => final.toLedgerCore = lm.toLedgerCore)
      (fun _ _ => True) := by
  unfold restart
  rw [holds_bind, holds_modify, holds_bind]
  by_cases past : lm.lastCloseTime ≤ now
  · obtain ⟨recovered, ended, same⟩ := recoverFromCheckpoint_restores sound past lm.accounts
      lm.closed
    rw [holds_of_done ended, holds_pure, same]
  · obtain ⟨headers, chain, represents, saved, stores⟩ := sound
    have found : (newManager lm.bucket lm.accounts lm.closed).bucket.lookup "CHECKPOINT" =
        some (.checkpoint lm.checkpoint) := saved
    have late : checkpointProblem ctx now lm.checkpoint = some "invalid LastCloseTime" :=
      if_pos (.inr (not_le.mp past))
    unfold recoverFromCheckpoint
    rw [holds_bind, holds_get, found]
    dsimp only
    rw [late]
    trivial

theorem restart_sound (now : Nat) : KeepsChain tm ctx kept (restart ctx now) := by
  intro lm sound
  refine (restart_restores now sound).mono (fun _ final same => ?_) (fun _ _ _ => trivial)
  rw [same]
  exact sound

end Recovery

section Runs

variable {tm : TxManager} {ctx : LedgerContext} {moment : LedgerMoment} {kept : Prop}

variable {move : LedgerMove} {allowed : LedgerMoment → Prop}
  {change : LedgerManager tm → LedgerManager tm} (info : CloseInfo)

theorem modify_sound (same : ∀ lm, (change lm).toLedgerCore = lm.toLedgerCore) :
    KeepsChain tm ctx kept (modify change : LedgerM tm Unit) := by
  refine .modify ?_
  intro lm sound
  rw [same]
  exact sound

theorem modify_pure_sound {Value : Type} (value : Value)
    (same : ∀ lm, (change lm).toLedgerCore = lm.toLedgerCore) :
    KeepsChain tm ctx kept (do modify change; pure value : LedgerM tm Value) :=
  (modify_sound same).bind fun _ => .pure value

theorem currHeaderHash_sound : KeepsChain tm ctx kept (currHeaderHash : LedgerM tm String) := by
  intro lm sound
  unfold currHeaderHash
  rw [holds_bind, holds_get]
  split
  · trivial
  · exact sound

theorem recvNext_sound (succeeds : kept → moment.putHeader = .ok ()) (info : CloseInfo) :
    KeepsChain tm ctx kept (recvNext ctx moment info) := by
  refine currHeaderHash_sound.bind ?_
  intro hash
  split
  · refine (closeLedger_sound succeeds info).bind ?_
    intro result
    cases result with
    | error err => exact .pure _
    | ok _ => exact modify_pure_sound _ fun _ => rfl
  · intro lm sound
    trivial

theorem addTask_sound (start finish : Nat) :
    KeepsChain tm ctx kept (addTask start finish : LedgerM tm (Except String Unit)) := by
  unfold addTask
  split
  · exact .pure _
  · exact modify_pure_sound _ fun _ => rfl

theorem recvEarly_sound :
    KeepsChain tm ctx kept (recvEarly info : LedgerM tm (Except String Unit)) := by
  refine .bind (modify_sound fun _ => rfl) ?_
  intro _ lm sound
  rw [holds_bind, holds_get]
  split
  · exact sound
  · refine (addTask_sound _ _ lm sound).andThen ?_
    intro result
    cases result with
    | error err => exact .pure _
    | ok _ => exact modify_pure_sound _ fun _ => rfl

theorem recvExtVal_sound (succeeds : kept → moment.putHeader = .ok ()) (info : CloseInfo) :
    KeepsChain tm ctx kept (recvExtVal ctx moment info) := by
  have due : ∀ lm : LedgerManager tm, LedgerSound ctx kept lm.toLedgerCore →
      (if lm.nextLedgerHeaderSeq = info.index then recvNext ctx moment info
        else if info.index < lm.nextLedgerHeaderSeq then pure (.ok ())
        else recvEarly info : LedgerM tm (Except String Unit)).Holds lm
        (fun _ final => LedgerSound ctx kept final.toLedgerCore) (fun _ _ => True) := by
    intro lm sound
    split
    · exact recvNext_sound succeeds info lm sound
    · split
      · exact sound
      · exact recvEarly_sound info lm sound
  intro lm sound
  unfold recvExtVal
  rw [holds_bind, holds_get]
  cases lm.ledgerState with
  | syncing => exact sound
  | synced => exact due lm sound
  | notSynced => exact due lm sound

theorem goTo_sound (next : CatchUp) : KeepsChain tm ctx kept (goTo next : LedgerM tm Unit) :=
  modify_sound fun _ => rfl

theorem catchUpStep_sound (succeeds : kept → moment.putHeader = .ok ()) :
    KeepsChain tm ctx kept (catchUpStep ctx moment) := by
  intro lm sound
  unfold catchUpStep
  rw [holds_bind, holds_get]
  cases lm.catchUp with
  | waiting => exact sound
  | received info =>
    exact (currHeaderHash_sound.bind fun _ =>
      (closeLedger_sound succeeds info).bind fun _ => goTo_sound _) lm sound
  | checkSize =>
    dsimp only
    split <;> exact goTo_sound _ lm sound
  | peekHead =>
    cases lm.buffer.head? with
    | none => trivial
    | some head =>
      dsimp only
      split <;> exact goTo_sound _ lm sound
  | loopSize =>
    dsimp only
    split <;> exact goTo_sound _ lm sound
  | popHead =>
    cases lm.buffer with
    | nil => trivial
    | cons head rest => exact modify_sound (fun _ => rfl) lm sound
  | closing head =>
    refine ((closeLedger_sound succeeds head).bind ?_) lm sound
    intro result
    cases result with
    | error err => exact goTo_sound _
    | ok _ => exact goTo_sound _
  | clearing => exact modify_sound (fun _ => rfl) lm sound
  | settingSynced => exact modify_sound (fun _ => rfl) lm sound

theorem deliver_sound : KeepsChain tm ctx kept (deliver info : LedgerM tm Unit) := by
  refine modify_sound ?_
  intro lm
  split <;> rfl

theorem perform_sound (succeeds : move.Allowed fun moment => kept → moment.putHeader = .ok ()) :
    KeepsChain tm ctx kept (move.perform ctx) := by
  cases move with
  | recvExtVal moment info =>
    exact (recvExtVal_sound succeeds info).bind fun _ => .pure _
  | deliver info => exact deliver_sound info
  | catchUp moment => exact catchUpStep_sound succeeds
  | closeLedger moment info =>
    exact (closeLedger_sound succeeds info).bind fun _ => .pure _
  | restart now => exact restart_sound now

theorem LedgerMove.Allowed.mono {weaker : LedgerMoment → Prop} (permitted : move.Allowed allowed)
    (weakens : ∀ moment, allowed moment → weaker moment) : move.Allowed weaker := by
  cases move with
  | recvExtVal moment info => exact weakens moment permitted
  | deliver info => trivial
  | catchUp moment => exact weakens moment permitted
  | closeLedger moment info => exact weakens moment permitted
  | restart now => trivial

theorem Reached.sound {lm : LedgerManager tm} (reached : Reached ctx allowed lm)
    (succeeds : ∀ moment, allowed moment → kept → moment.putHeader = .ok ()) :
    LedgerSound ctx kept lm.toLedgerCore := by
  induction reached with
  | genesis moment accounts lm permitted created =>
    exact (holds_of_done created).mp
      (createGenesisLedger_sound (succeeds moment permitted) accounts)
  | step move before after reached permitted performed ih =>
    exact (holds_of_done performed).mp (perform_sound (permitted.mono succeeds) before ih)

end Runs

/-- The stored headers form a chain that ends in the current header. -/
structure ChainIntegrity (ctx : LedgerContext) (core : LedgerCore) (curr : LedgerHeader) :
    Prop where
  current : core.currLedgerHeader = some curr
  currentKey : ctx.getLedgerHeaderKey curr = .ok core.currLedgerHeaderHash
  currentStored : core.storedHeader curr.seqNum = some curr
  consecutive : ∀ seq, (∃ header, core.storedHeader seq = some header) ↔
    1 ≤ seq ∧ seq ≤ curr.seqNum
  numbered : ∀ seq header, core.storedHeader seq = some header → header.seqNum = seq
  linked : ∀ seq prev header, core.storedHeader seq = some prev →
    core.storedHeader (seq + 1) = some header →
    ctx.getLedgerHeaderKey prev = .ok header.prevLedgerHash
  previous : match core.prevLedgerHeader with
    | none => curr.seqNum = 1 ∧ core.prevLedgerHeaderHash = ""
    | some prev => core.storedHeader prev.seqNum = some prev ∧
        prev.seqNum + 1 = curr.seqNum ∧
        ctx.getLedgerHeaderKey prev = .ok core.prevLedgerHeaderHash
  closedOnce : core.closed.map (·.index) = List.range' 2 (curr.seqNum - 1)
  closedFrom : ∀ seq header, core.storedHeader seq = some header → 1 < seq →
    ∃ info ∈ core.closed, ClosedFrom ctx header info

section Results

variable {tm : TxManager} {ctx : LedgerContext}

theorem LedgerSound.integrity {core : LedgerCore} (sound : LedgerSound ctx True core) :
    ∃ curr, ChainIntegrity ctx core curr := by
  obtain ⟨headers, chain, represents, saved, stores⟩ := sound
  obtain ⟨curr, rest, rfl, number⟩ := chain.exists_head
  have stored : ∀ seq header, core.storedHeader seq = some header ↔
      header ∈ curr :: rest ∧ header.seqNum = seq := stores trivial
  have unique : ∀ first ∈ curr :: rest, ∀ second ∈ curr :: rest,
      first.seqNum = second.seqNum → first = second := by
    intro first firstMem second secondMem same
    have firstFound := (stored second.seqNum first).mpr ⟨firstMem, same⟩
    have secondFound := (stored second.seqNum second).mpr ⟨secondMem, rfl⟩
    exact Option.some.inj (firstFound.symm.trans secondFound)
  refine ⟨curr, represents.current, represents.currentKey curr rfl,
    (stored _ _).mpr ⟨.head _, rfl⟩, ?_, ?_, ?_, ?_, ?_, ?_⟩
  · intro seq
    simp only [stored]
    rw [chain.exists_seqNum_iff, number]
  · intro seq header found
    exact ((stored seq header).mp found).2
  · intro seq prev header prevFound found
    obtain ⟨prevMem, prevNumber⟩ := (stored seq prev).mp prevFound
    obtain ⟨headerMem, headerNumber⟩ := (stored (seq + 1) header).mp found
    have positive := ((chain.exists_seqNum_iff seq).mp ⟨prev, prevMem, prevNumber⟩).1
    obtain ⟨before, beforeMem, succeeds, key⟩ :=
      chain.linked_of_mem headerMem (by omega)
    rw [unique prev prevMem before beforeMem (by omega)]
    exact key
  · rw [represents.previous, represents.previousHash curr rfl]
    have link := chain.head_linked
    cases rest with
    | nil => exact link
    | cons prev older =>
      exact ⟨(stored _ _).mpr ⟨by simp, rfl⟩, link.1, link.2⟩
  · rw [chain.indices, number]
  · intro seq header found later
    obtain ⟨member, same⟩ := (stored seq header).mp found
    exact chain.closedFrom_of_mem member (by omega)

/-- However ledgers arrive, the stored headers form a chain. -/
theorem reached_chain_integrity {lm : LedgerManager tm}
    (reached : Reached ctx LedgerMoment.WritesSucceed lm) :
    ∃ curr, ChainIntegrity ctx lm.toLedgerCore curr :=
  (reached.sound fun _ succeeds _ => succeeds.1).integrity

def numberedHeaders : LedgerContext where
  marshalHeader header := .ok [UInt8.ofNat header.seqNum]
  marshalCheckpoint _ := .ok []
  headerKey bytes := "header " ++ toString (bytes.map UInt8.toNat)
  getTxSetKey _ := .ok "txs"
  decodeBase58 _ := .ok []
  decodeConsensusValue _ := .ok ⟨"txs", 7⟩

def momentAt (now : Nat) (putHeader : Except String Unit) : LedgerMoment :=
  ⟨now, .insertion, putHeader, .ok ()⟩

def oneLedger : LedgerManager TxManager.plain :=
  (createGenesisLedger numberedHeaders (momentAt 5 (.ok ()))
    (newManager ∅ ⟨Bucket.empty, ∅, []⟩ [])).state

def secondLedger (putHeader : Except String Unit) : LedgerMove :=
  .recvExtVal (momentAt 9 putHeader) ⟨2, "value", ⟨"header [1]", []⟩⟩

def twoLedgers (putHeader : Except String Unit) :
    Outcome (LedgerManager .plain) Fault Unit :=
  (secondLedger putHeader).perform numberedHeaders oneLedger

theorem twoLedgers_reached {putHeader : Except String Unit} {allowed : LedgerMoment → Prop}
    (first : allowed (momentAt 5 (.ok ()))) (second : allowed (momentAt 9 putHeader))
    (ended : (twoLedgers putHeader).isDone = true) :
    Reached numberedHeaders allowed (twoLedgers putHeader).state := by
  have genesis : Reached numberedHeaders allowed oneLedger :=
    .genesis (momentAt 5 (.ok ())) _ oneLedger first rfl
  exact .step (secondLedger putHeader) oneLedger _ genesis second (Outcome.eq_done ended)

theorem reached_chain_integrity_second :
    (twoLedgers (.ok ())).state.closed.length = 1 ∧
      ∃ curr, ChainIntegrity numberedHeaders (twoLedgers (.ok ())).state.toLedgerCore curr :=
  ⟨by decide +kernel, reached_chain_integrity
    (twoLedgers_reached ⟨rfl, rfl⟩ ⟨rfl, rfl⟩ (by decide +kernel))⟩

/-- A new manager over the database of any run recovers its ledger, whether or not
the headers could be written. -/
theorem reached_recovers {lm : LedgerManager tm} (reached : Reached ctx (fun _ => True) lm)
    {now : Nat} (past : lm.lastCloseTime ≤ now) (accounts : LedgerState tm) (closed : List CloseInfo) :
    ∃ recovered : LedgerManager tm,
      recoverFromCheckpoint ctx now (newManager lm.bucket accounts closed) =
        .done (.ok ()) recovered ∧
      recovered.lastCloseTime = lm.lastCloseTime ∧
      recovered.ledgerHeaderCount = lm.ledgerHeaderCount ∧
      recovered.prevLedgerHeader = lm.prevLedgerHeader ∧
      recovered.prevLedgerHeaderHash = lm.prevLedgerHeaderHash ∧
      recovered.currLedgerHeader = lm.currLedgerHeader ∧
      recovered.currLedgerHeaderHash = lm.currLedgerHeaderHash ∧
      recovered.nextLedgerHeaderSeq = lm.nextLedgerHeaderSeq := by
  have sound : LedgerSound ctx False lm.toLedgerCore := reached.sound fun _ _ => False.elim
  obtain ⟨recovered, ended, same⟩ := recoverFromCheckpoint_restores sound past accounts closed
  refine ⟨recovered, ended, ?_⟩
  simp [same, LedgerCore.nextLedgerHeaderSeq]

/-- The header of the second ledger is lost, but the ledger recovers. -/
theorem reached_recovers_second :
    (twoLedgers (.error "disk full")).state.storedHeader 2 = none ∧
      ∃ recovered : LedgerManager .plain,
        recoverFromCheckpoint numberedHeaders 9
            (newManager (twoLedgers (.error "disk full")).state.bucket ⟨Bucket.empty, ∅, []⟩ []) =
          .done (.ok ()) recovered ∧
        recovered.nextLedgerHeaderSeq = 3 := by
  have reached : Reached numberedHeaders (fun _ => True) (twoLedgers (.error "disk full")).state :=
    twoLedgers_reached trivial trivial (by decide +kernel)
  have past : (twoLedgers (.error "disk full")).state.lastCloseTime ≤ (9 : Nat) := by
    decide +kernel
  have next : (twoLedgers (.error "disk full")).state.nextLedgerHeaderSeq = 3 := by
    decide +kernel
  obtain ⟨recovered, ended, _, _, _, _, _, _, nextSeq⟩ :=
    reached_recovers reached past ⟨Bucket.empty, ∅, []⟩ []
  exact ⟨by decide +kernel, recovered, ended, nextSeq.trans next⟩

end Results

end Ultiledger
