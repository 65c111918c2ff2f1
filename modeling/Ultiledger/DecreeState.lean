import Ultiledger.FederatedVoting
import Ultiledger.RoundLeaders
import Ultiledger.TxManager

/-!
# The state of a decree

The fields of `Decree` in `consensus/decree.go`, the checks of its ballots and the
validation of statements and values.

The source holds ballots through pointers and clears some in place, so the model keeps
what is shared: the commit and the high ballot can be one object (`hIsC`), and the
prepare statements that a decree has assembled share their p and q with it.

The trace is not part of the program.  It records the calls that move the ballots, the
statements built from them and the steps that the limit on nested calls ends.
-/

namespace Ultiledger

inductive BallotPhase where
  | prepare
  | confirm
  | externalize
  deriving DecidableEq, Repr

def BallotPhase.rank : BallotPhase → Nat
  | .prepare => 0
  | .confirm => 1
  | .externalize => 2

structure ExternalizeValue where
  index : Nat
  value : String
  deriving DecidableEq, Repr

structure ConsensusValue where
  txSetHash : String
  proposeTime : Int
  deriving DecidableEq, Repr

structure TxSet where
  prevLedgerHash : String
  txList : List Tx
  deriving DecidableEq, Repr

/-- `DecreeContext`, with the lookups and encodings that a decree calls.  The
decoder refuses the empty text. -/
structure DecreeContext where
  index : Nat
  nodeID : String
  quorum : Quorum
  quorumHash : String
  getQuorum : String → Option Quorum
  decodeBase58 : String → Except String (List UInt8)
  decodeConsensusValue : List UInt8 → Except String ConsensusValue
  encodeConsensusValue : ConsensusValue → Except String String
  getTxSetKey : TxSet → Except String String
  sha256Hash : List UInt8 → String
  sha256HashUint64 : List UInt8 → Nat
  decodeBase58_empty : (decodeBase58 "").isOk = false

/-- What one call sees of the ledger manager, and the orders in which it happens
to go through sets and to leave nested quorums. -/
structure World where
  ledgerSynced : Bool
  nextLedgerHeaderSeq : Nat
  currHeaderConsensusValue : String
  currLedgerHeaderHash : String
  getTxSet : String → Except String (Option TxSet)
  addTxSet : String → TxSet → Except String Unit
  iterate : List String → List String
  iterate_perm : ∀ set, (iterate set).Perm set
  arrange : List Quorum → List Quorum
  arrange_perm : ∀ quorums, (arrange quorums).Perm quorums

structure BallotState where
  currentPhase : BallotPhase
  currentBallot : Option Ballot
  pBallot : Option Ballot
  qBallot : Option Ballot
  hBallot : Option Ballot
  cBallot : Option Ballot
  hIsC : Bool
  deriving DecidableEq, Repr

/-- A call of a function that moves the ballots, a statement that is built or a
step that is ended by the limit, with the ballots it finds. -/
inductive BallotEvent where
  | setAcceptPrepared (before : BallotState) (b : Ballot)
  | setConfirmPrepared (before : BallotState) (cb : Option Ballot) (hb : Ballot)
  | setAcceptCommit (before : BallotState) (cb hb : Ballot)
  | updateBallot (before : BallotState) (b : Ballot)
  | sendBallot (before : BallotState) (stmt : Pledge)
  | stepLimit (before : BallotState)
  deriving DecidableEq, Repr

inductive ValueSet where
  | votes
  | accepts
  | candidates
  deriving DecidableEq, Repr

/-- A value that enters a set, and whether it is valid at that moment. -/
structure Addition where
  target : ValueSet
  value : String
  valid : Bool
  deriving DecidableEq, Repr

/-- A nomination that is received, and the values that it accepts though they are not
valid at that moment. -/
structure Reception where
  nodeID : String
  nom : Nominate
  invalid : List String
  deriving DecidableEq, Repr

/-- The fields of `Decree`, with a record of what has happened to it: the moves of its
ballots, the values that entered the sets and the nominations that were received. -/
structure DecreeState where
  quorum : Quorum
  prevConsensusValue : String
  votes : List String
  accepts : List String
  candidates : List String
  nominationLeaders : List String
  nominations : StatementMap Nominate
  nominationRound : Nat
  nominationStart : Bool
  renomCount : Nat
  latestNomination : Option Nominate
  latestComposite : String
  txSets : List (String × TxSet)
  ballot : BallotState
  ballots : StatementMap Pledge
  ownIsAssembled : Bool
  clearedQ : Option Ballot
  latestBallot : Option Pledge
  nextValue : String
  ballotMsgCount : Nat
  maxRecursions : Nat
  statementChan : List Statement
  externalizeChan : List ExternalizeValue
  trace : List BallotEvent
  additions : List Addition
  receptions : List Reception

def newDecree (ctx : DecreeContext) : DecreeState where
  quorum := ctx.quorum
  prevConsensusValue := ""
  votes := []
  accepts := []
  candidates := []
  nominationLeaders := []
  nominations := ∅
  nominationRound := 0
  nominationStart := false
  renomCount := 0
  latestNomination := none
  latestComposite := ""
  txSets := []
  ballot := ⟨.prepare, none, none, none, none, none, false⟩
  ballots := ∅
  ownIsAssembled := false
  clearedQ := none
  latestBallot := none
  nextValue := ""
  ballotMsgCount := 0
  maxRecursions := 10
  statementChan := []
  externalizeChan := []
  trace := []
  additions := []
  receptions := []

def maxRenomCount : Nat := 100

def zeroBallot : Ballot := ⟨0, ""⟩

namespace BallotState

variable (d : BallotState)

def resetC : BallotState :=
  { d with
    cBallot := some zeroBallot
    hBallot := if d.hIsC then some zeroBallot else d.hBallot }

def resetH : BallotState :=
  { d with
    hBallot := some zeroBallot
    cBallot := if d.hIsC then some zeroBallot else d.cBallot }

/-- The check of p and q in `checkBallotInvariants`. -/
def preparedInOrder : Bool :=
  match d.pBallot, d.qBallot with
  | some p, some q =>
    (compareBallots (some q) (some p)).isLE && !compatibleBallots (some q) (some p)
  | _, _ => true

def checkBallotInvariants : Except Fault Unit :=
  if d.currentBallot.any (·.counter == 0) then
    .error (.fatal "current ballot is not nil but counter is zero")
  else if !d.preparedInOrder then
    .error (.fatal "q ballot and p ballot invariant not satisfied")
  else if d.hBallot.isSome && d.currentBallot.isNone then
    .error (.fatal "high ballot is not nil but current ballot is nil")
  else if d.hBallot.isSome && !lessAndCompatibleBallots d.hBallot d.currentBallot then
    .error (.fatal "current ballot and higher ballot invariant not satisfied")
  else if d.cBallot.isSome && d.currentBallot.isNone then
    .error (.fatal "commit ballot is not nil but current ballot is nil")
  else if d.cBallot.isSome && !lessAndCompatibleBallots d.cBallot d.hBallot then
    .error (.fatal "commit ballot and higher ballot invariant not satisfied")
  else if d.cBallot.isSome && !lessAndCompatibleBallots d.hBallot d.currentBallot then
    .error (.fatal "current ballot and higher ballot invariant not satisfied")
  else
    match d.currentPhase with
    | .prepare => .ok ()
    | .confirm =>
      if d.cBallot.isNone then
        .error (.fatal "commit ballot should not be nil in confirm phase")
      else
        .ok ()
    | .externalize =>
      if d.cBallot.isNone then
        .error (.fatal "commit ballot should not be nil in externalize phase")
      else if d.hBallot.isNone then
        .error (.fatal "higher ballot should not be nil in externalize phase")
      else
        .ok ()

end BallotState

/-- What is left of an assembled statement when the given q has been cleared. -/
def Pledge.clear (q : Ballot) : Pledge → Pledge
  | .prepare message =>
    .prepare { message with
      P := message.P.map fun p => if p = q then zeroBallot else p
      Q := message.Q.map fun p => if p = q then zeroBallot else p }
  | pledge => pledge

/-- The decree when something else has sorted the quorum that it has by reference. -/
def DecreeState.withQuorum (d : DecreeState) (quorum : Quorum) : DecreeState :=
  { d with quorum := quorum }

/-- `GetQuorum` of the validator.  Its cache has the decree's own quorum by reference,
in whatever order that is in by now. -/
def DecreeState.getQuorum (d : DecreeState) (ctx : DecreeContext) (quorumHash : String) :
    Option Quorum :=
  (ctx.getQuorum quorumHash).map fun quorum =>
    if quorumHash = ctx.quorumHash then d.quorum else quorum

def DecreeState.voting (d : DecreeState) (ctx : DecreeContext) : VotingContext :=
  ⟨ctx.nodeID, d.quorum, d.getQuorum ctx⟩

section Validation

variable (ctx : DecreeContext) (world : World) (d : DecreeState)

/-- `GetTxSet` of the ledger manager, which also knows the sets that this decree
has added. -/
def DecreeState.getTxSet (txsetHash : String) : Except String (Option TxSet) :=
  match d.txSets.lookup txsetHash with
  | some txset => .ok (some txset)
  | none => world.getTxSet txsetHash

/-- `DecodeConsensusValue` after `b58.Decode`, with the texts of the two errors. -/
def decodeValue (decodeText valueText val : String) : Except String ConsensusValue :=
  match ctx.decodeBase58 val with
  | .error err => .error (decodeText ++ err)
  | .ok bytes =>
    match ctx.decodeConsensusValue bytes with
    | .error err => .error (valueText ++ err)
    | .ok cv => .ok cv

/-- The check of `validateConsensusValueFull` against the last closed ledger. -/
def isTimely (cv : ConsensusValue) : Except String Unit :=
  if world.currHeaderConsensusValue = "" then
    .ok ()
  else
    match decodeValue ctx "decode hex string failed: "
      "decode ledger header consensus value failed: " world.currHeaderConsensusValue with
    | .error err => .error err
    | .ok headerCV =>
      if headerCV.proposeTime > cv.proposeTime then
        .error "consensus value is too old"
      else
        .ok ()

def validateConsensusValueFull (cv : ConsensusValue) : Except String Unit :=
  if world.ledgerSynced && decide (world.nextLedgerHeaderSeq ≠ ctx.index) then
    .error "consensus value is not compatible with ledger state"
  else
    match isTimely ctx world cv with
    | .error err => .error err
    | .ok () =>
      match d.getTxSet world cv.txSetHash with
      | .error err => .error ("get txset failed: " ++ err)
      | .ok none => .error "get txset failed: <nil>"
      | .ok (some _) => .ok ()

def validateConsensusValue (val : String) : Except String Unit :=
  match decodeValue ctx "decode hex string failed: " "decode consensus value failed: " val with
  | .error err => .error err
  | .ok cv =>
    match validateConsensusValueFull ctx world d cv with
    | .error err => .error ("consensus value is not valid: " ++ err)
    | .ok () => .ok ()

/-- The first check of `validateBallot`, of the statement's quorum. -/
def validateSource (source : QuorumSource) : Except Fault (Option String) :=
  match getStatementQuorum (d.voting ctx) source with
  | .error fault => .error fault
  | .ok none => .error (.nilDereference "quorum")
  | .ok (some quorum) =>
    match validateQuorum quorum 0 false with
    | .error err => .ok (some ("validate quorum failed: " ++ err))
    | .ok () => .ok none

def prepareProblem (fromSelf : Bool) (prepare : Prepare) : Except Fault (Option String) :=
  if !fromSelf && prepare.B.isNone then
    .error (.nilDereference "prepare.B")
  else if !fromSelf && prepare.B.any (·.counter == 0) then
    .ok (some "prepare ballot counter is zero and not self msg")
  else if prepare.Q.isSome && prepare.P.isSome &&
      !((compareBallots prepare.Q prepare.P).isLE && !compatibleBallots prepare.Q prepare.P) then
    .ok (some "prepare q ballot and p ballot are not in expected states")
  else if !(prepare.HC == 0 || prepare.P.any (prepare.HC ≤ ·.counter)) then
    .ok (some "prepare p ballot and higher counters are not in expected states")
  else if prepare.LC = 0 then
    .ok none
  else if prepare.HC = 0 then
    .ok (some "prepare ballot counters are not in expected states")
  else
    match prepare.B with
    | none => .error (.nilDereference "prepare.B")
    | some B =>
      if prepare.HC ≤ B.counter ∧ prepare.LC ≤ prepare.HC then
        .ok none
      else
        .ok (some "prepare ballot counters are not in expected states")

def prepareValues (prepare : Prepare) : List String :=
  ((prepare.B.filter (·.counter > 0)).toList ++ prepare.P.toList).map (·.value)

/-- The validation of the collected values, whose last error is returned. -/
def valuesProblem (values : List String) : Option String :=
  (world.iterate values.dedup).foldl (fun valueErr v =>
    match validateConsensusValue ctx world d v with
    | .error err => some err
    | .ok () => valueErr) none

/-- The last stage of `validateBallot`. -/
def finishValidation (problem : Option String) (values : List String) (pledge : Pledge) :
    Except String Pledge :=
  match problem with
  | some err => .error err
  | none =>
    match valuesProblem ctx world d values with
    | some err => .error err
    | none => .ok pledge

/-- `validateBallot`; what passes is a pledge.  The last two types are not
ballot statements, and `Recv` lets none of them through. -/
def validateBallot (stmt : Statement) : Except Fault (Except String Pledge) :=
  match stmt.statementType with
  | .prepare =>
    match stmt.getPrepare with
    | none => .error (.nilDereference "prepare")
    | some prepare =>
      match validateSource ctx d (.hash prepare.quorumHash) with
      | .error fault => .error fault
      | .ok (some err) => .ok (.error err)
      | .ok none =>
        match prepareProblem (ctx.nodeID == stmt.nodeID) prepare with
        | .error fault => .error fault
        | .ok problem =>
          .ok (finishValidation ctx world d problem (prepareValues prepare)
            (.prepare prepare))
  | .confirm =>
    match stmt.getConfirm with
    | none => .error (.nilDereference "confirm")
    | some confirm =>
      match validateSource ctx d (.hash confirm.quorumHash) with
      | .error fault => .error fault
      | .ok (some err) => .ok (.error err)
      | .ok none =>
        match confirm.B with
        | none => .error (.nilDereference "confirm.B")
        | some B =>
          let problem :=
            if B.counter = 0 then
              some "confirm current ballot counter should not be zero"
            else if confirm.LC ≤ confirm.HC ∧ confirm.HC ≤ B.counter then
              none
            else
              some "confirm ballot counters are not in expected states"
          .ok (finishValidation ctx world d problem [B.value]
            (.confirm B confirm.PC confirm.LC confirm.HC confirm.quorumHash))
  | .externalize =>
    match validateSource ctx d .localNode with
    | .error fault => .error fault
    | .ok (some err) => .ok (.error err)
    | .ok none =>
      match stmt.getExternalize with
      | none => .error (.nilDereference "externalize")
      | some ext =>
        match ext.B with
        | none => .error (.nilDereference "externalize.B")
        | some B =>
          let problem :=
            if 0 < B.counter ∧ B.counter ≤ ext.HC then
              none
            else
              some "externalize ballot counters are not in expected states"
          .ok (finishValidation ctx world d problem [B.value]
            (.externalize B ext.HC ext.quorumHash))
  | .nominate => .error (.fatal errUnknownStmtType)
  | .other => .error (.fatal errUnknownStmtType)

end Validation

/-- A context in which a consensus value is its own text and a transaction set
is known by the note of its first transaction. -/
def DecreeContext.plain (index : Nat) (nodeID : String) (quorum : Quorum)
    (getQuorum : String → Option Quorum) (sha256HashUint64 : List UInt8 → Nat) :
    DecreeContext where
  index := index
  nodeID := nodeID
  quorum := quorum
  quorumHash := nodeID
  getQuorum := getQuorum
  decodeBase58 text :=
    if text = "" then .error "zero length string"
    else .ok (text.toList.map fun char => UInt8.ofNat char.toNat)
  decodeConsensusValue bytes :=
    .ok ⟨String.ofList (bytes.map fun byte => Char.ofNat byte.toNat), 0⟩
  encodeConsensusValue cv := .ok cv.txSetHash
  getTxSetKey txset := .ok ((txset.txList.map (·.note)).headD "")
  sha256Hash bytes := String.ofList (bytes.map fun byte => Char.ofNat byte.toNat)
  sha256HashUint64 := sha256HashUint64
  decodeBase58_empty := rfl

def World.plain : World where
  ledgerSynced := false
  nextLedgerHeaderSeq := 0
  currHeaderConsensusValue := ""
  currLedgerHeaderHash := ""
  getTxSet txsetHash := .ok (some ⟨"", [⟨"", 0, txsetHash, 0, []⟩]⟩)
  addTxSet _ _ := .ok ()
  iterate set := set
  iterate_perm set := .refl set
  arrange quorums := quorums
  arrange_perm quorums := .refl quorums

section ValidationFacts

variable {ctx : DecreeContext} {world : World} {d : DecreeState} {stmt : Statement}
  {pledge : Pledge}

variable {values : List String}

theorem of_finishValidation {problem : Option String} {checked : Pledge}
    (passed : finishValidation ctx world d problem values checked = .ok pledge) :
    problem = none ∧ valuesProblem ctx world d values = none ∧ checked = pledge := by
  unfold finishValidation at passed
  cases problem with
  | some err => simp at passed
  | none =>
    cases problem : valuesProblem ctx world d values with
    | some err => simp [problem] at passed
    | none => simpa [problem] using passed

theorem validateBallot_cases (passed : validateBallot ctx world d stmt = .ok (.ok pledge)) :
    validateSource ctx d pledge.quorumSource = .ok none ∧
      stmt = pledge.statement stmt.nodeID stmt.index ∧
        ((∃ prepare, pledge = .prepare prepare ∧
            prepareProblem (ctx.nodeID == stmt.nodeID) prepare = .ok none ∧
              valuesProblem ctx world d (prepareValues prepare) = none) ∨
          (∃ B PC LC HC quorumHash, pledge = .confirm B PC LC HC quorumHash ∧
            valuesProblem ctx world d [B.value] = none) ∨
          ∃ B HC quorumHash, pledge = .externalize B HC quorumHash ∧
            valuesProblem ctx world d [B.value] = none) := by
  obtain ⟨statementType, nodeID, index, body⟩ := stmt
  unfold validateBallot at passed
  cases statementType with
  | nominate => simp at passed
  | other => simp at passed
  | prepare =>
    rcases body with _ | ⟨nominate | prepare | confirm | ext⟩ <;>
      simp only [Statement.getPrepare, reduceCtorEq] at passed
    rcases source : validateSource ctx d (.hash prepare.quorumHash) with fault | _ | err <;>
      simp only [source, reduceCtorEq, Except.ok.injEq] at passed
    rcases counters : prepareProblem (ctx.nodeID == nodeID) prepare with fault | problem <;>
      simp only [counters, reduceCtorEq, Except.ok.injEq] at passed
    obtain ⟨rfl, values, rfl⟩ := of_finishValidation passed
    exact ⟨source, rfl, .inl ⟨prepare, rfl, counters, values⟩⟩
  | confirm =>
    rcases body with _ | ⟨nominate | prepare | confirm | ext⟩ <;>
      simp only [Statement.getConfirm, reduceCtorEq] at passed
    rcases source : validateSource ctx d (.hash confirm.quorumHash) with fault | _ | err <;>
      simp only [source, reduceCtorEq, Except.ok.injEq] at passed
    rcases confirm with ⟨_ | B, PC, LC, HC, quorumHash⟩ <;>
      simp only [reduceCtorEq, Except.ok.injEq] at passed
    obtain ⟨-, values, rfl⟩ := of_finishValidation passed
    exact ⟨source, rfl, .inr (.inl ⟨B, PC, LC, HC, quorumHash, rfl, values⟩)⟩
  | externalize =>
    rcases source : validateSource ctx d .localNode with fault | _ | err <;>
      simp only [source, reduceCtorEq, Except.ok.injEq] at passed
    rcases body with _ | ⟨nominate | prepare | confirm | ⟨_ | B, HC, quorumHash⟩⟩ <;>
      simp only [Statement.getExternalize, reduceCtorEq, Except.ok.injEq] at passed
    obtain ⟨-, values, rfl⟩ := of_finishValidation passed
    exact ⟨source, rfl, .inr (.inr ⟨B, HC, quorumHash, rfl, values⟩)⟩

theorem validateConsensusValue_congr {d' : DecreeState} (same : d'.txSets = d.txSets)
    (val : String) :
    validateConsensusValue ctx world d' val = validateConsensusValue ctx world d val := by
  simp only [validateConsensusValue, validateConsensusValueFull, DecreeState.getTxSet, same]

theorem named_of_valid {val : String} (valid : validateConsensusValue ctx world d val = .ok ()) :
    val ≠ "" := by
  rintro rfl
  cases decoded : ctx.decodeBase58 "" with
  | error err => simp [validateConsensusValue, decodeValue, decoded] at valid
  | ok bytes =>
    have empty := ctx.decodeBase58_empty
    simp [decoded, Except.isOk, Except.toBool] at empty

theorem foldl_valueErr_eq_none_iff {start : Option String} :
    values.foldl (fun valueErr v =>
      match validateConsensusValue ctx world d v with
      | .error err => some err
      | .ok () => valueErr) start = none ↔
    start = none ∧ ∀ value ∈ values, validateConsensusValue ctx world d value = .ok () := by
  induction values generalizing start with
  | nil => simp
  | cons value rest ih =>
    rw [List.foldl_cons, ih, List.forall_mem_cons]
    cases validateConsensusValue ctx world d value <;> simp

theorem valuesProblem_eq_none_iff :
    valuesProblem ctx world d values = none ↔
      ∀ value ∈ values, validateConsensusValue ctx world d value = .ok () := by
  rw [valuesProblem, foldl_valueErr_eq_none_iff]
  simp only [true_and, (world.iterate_perm _).mem_iff, List.mem_dedup]

theorem counter_of_prepareProblem {fromSelf : Bool} {message : Prepare} {B : Ballot}
    (passed : prepareProblem fromSelf message = .ok none) (present : message.B = some B)
    (commits : message.LC ≠ 0) : 0 < B.counter := by
  unfold prepareProblem at passed
  split_ifs at passed with _ _ _ _ noHigh
  all_goals simp_all
  omega

end ValidationFacts

end Ultiledger
