import Ultiledger.DecreeSafety

/-!
# Statements from the network

`consensus/validator.go`: a statement goes through `Recv` of the validator and, if its
quorum and transaction sets are known, on to `Recv` of the decree.  Both look at the
type of the statement and then trust its sub-message.
-/

namespace Ultiledger

open AbortingProgram Program

/-- The hash of a statement, and the error of reading a quorum if there is one. -/
structure ValidatorContext where
  sha256Hash : Statement → Except String String
  quorumReadError : String → Option String

structure Validator where
  statements : List String
  downloads : Finmap fun _ : String => Statement
  dispatchChan : List Statement
  downloadChan : List Statement

def readPart {Part Value : Type} (what : String) (part : Option Part) (read : Part → Value) :
    Except Fault Value :=
  match part with
  | none => .error (.nilDereference what)
  | some part => .ok (read part)

def extractQuorumHash (stmt : Statement) : Except Fault String :=
  match stmt.statementType with
  | .nominate => readPart "nominate" stmt.getNominate (·.quorumHash)
  | .prepare => readPart "prepare" stmt.getPrepare (·.quorumHash)
  | .confirm => readPart "confirm" stmt.getConfirm (·.quorumHash)
  | .externalize => readPart "externalize" stmt.getExternalize (·.quorumHash)
  | .other => .error (.fatal errUnknownStmtType)

/-- The value of `getWorkingBallot`, for a statement as it arrives. -/
def workingValue (stmt : Statement) : Except Fault String :=
  match stmt.statementType with
  | .prepare => do
    let B ← readPart "prepare" stmt.getPrepare (·.B)
    readPart "prepare.B" B (·.value)
  | .confirm => do
    let B ← readPart "confirm" stmt.getConfirm (·.B)
    readPart "confirm.B" B (·.value)
  | .externalize => do
    let B ← readPart "externalize" stmt.getExternalize (·.B)
    readPart "externalize.B" B (·.value)
  | _ => .error (.fatal errUnknownStmtType)

section Validation

variable (ctx : DecreeContext) (vctx : ValidatorContext) (world : World)

def txSetHashes (values : List String) : Except String (List String) :=
  values.mapM fun v =>
    (decodeValue ctx "decode hex string failed: " "decode consensus value failed: " v).map
      (·.txSetHash)

def extractTxSetHash (stmt : Statement) : Except Fault (Except String (List String)) :=
  match stmt.statementType with
  | .nominate =>
    readPart "nominate" stmt.getNominate fun nom =>
      txSetHashes ctx (nom.voteList ++ nom.acceptList)
  | .other => .ok (.error "unknown statement type")
  | _ => (workingValue stmt).map fun value => txSetHashes ctx [value]

namespace Validator

def getQuorum (quorumHash : String) : Except String (Option Quorum) :=
  match vctx.quorumReadError quorumHash with
  | some err => .error err
  | none => .ok (ctx.getQuorum quorumHash)

/-- The loop of `validate` over the transaction sets. -/
def knowsTxSets : List String → Except String Bool
  | [] => .ok true
  | txsetHash :: rest =>
    match world.getTxSet txsetHash with
    | .error err => .error ("query txset failed: " ++ err)
    | .ok none => .ok false
    | .ok (some _) => knowsTxSets rest

def validate (stmt : Statement) : Except Fault (Except String Bool) :=
  match extractQuorumHash stmt with
  | .error fault => .error fault
  | .ok quorumHash =>
    match getQuorum ctx vctx quorumHash with
    | .error err => .ok (.error ("query quorum failed: " ++ err))
    | .ok none => .ok (.ok false)
    | .ok (some _) =>
      match extractTxSetHash ctx stmt with
      | .error fault => .error fault
      | .ok (.error err) =>
        .ok (.error ("extract tx list hash from statement failed: " ++ err))
      | .ok (.ok txsetHashes) => .ok (knowsTxSets world txsetHashes)

def recv (stmt : Option Statement) : Program Validator Fault (Except String Unit) :=
  match stmt with
  | none => pure (.ok ())
  | some stmt =>
    match vctx.sha256Hash stmt with
    | .error err => pure (.error ("compute statement hash failed: " ++ err))
    | .ok hash => do
      let v ← get
      if hash ∈ v.statements then
        pure (.ok ())
      else do
        modify fun v => { v with statements := hash :: v.statements }
        match ← lift (validate ctx vctx world stmt) with
        | .error err => pure (.error ("validate statement failed: " ++ err))
        | .ok true => do
          modify fun v => { v with dispatchChan := v.dispatchChan ++ [stmt] }
          pure (.ok ())
        | .ok false => do
          modify fun v => { v with
            downloadChan := v.downloadChan ++ [stmt]
            downloads := v.downloads.insert hash stmt }
          pure (.ok ())

end Validator

structure Intake where
  validator : Validator
  decree : DecreeState

/-- `Recv` of the validator, followed by `Recv` of the decree for a statement that
was dispatched. -/
def intake (fuel : Nat) (stmt : Statement) : Program Intake Fault (Except String Unit) :=
  fun node =>
    match Validator.recv ctx vctx world (some stmt) node.validator with
    | .abort fault v => .abort fault { node with validator := v }
    | .done (.error err) v => .done (.error err) { node with validator := v }
    | .done (.ok ()) v =>
      if v.dispatchChan = node.validator.dispatchChan then
        .done (.ok ()) { node with validator := v }
      else
        match recv ctx world fuel (some stmt) node.decree with
        | .abort fault d => .abort fault ⟨v, d⟩
        | .done result d => .done result ⟨v, d⟩

end Validation

namespace Statement

def HasBody (stmt : Statement) : Prop :=
  match stmt.statementType with
  | .nominate => stmt.getNominate ≠ none
  | .prepare => stmt.getPrepare ≠ none
  | .confirm => stmt.getConfirm ≠ none
  | .externalize => stmt.getExternalize ≠ none
  | .other => False

def HasBallot (stmt : Statement) : Prop :=
  match stmt.statementType with
  | .nominate => True
  | .prepare => (stmt.getPrepare.bind (·.B)) ≠ none
  | .confirm => (stmt.getConfirm.bind (·.B)) ≠ none
  | .externalize => (stmt.getExternalize.bind (·.B)) ≠ none
  | .other => False

/-- A statement whose quorum the decree checks has a hash for it. -/
def NamesQuorum (stmt : Statement) : Prop :=
  match stmt.statementType with
  | .prepare => stmt.getPrepare.map (·.quorumHash) ≠ some ""
  | .confirm => stmt.getConfirm.map (·.quorumHash) ≠ some ""
  | _ => True

end Statement

/-- No fault, except for the bound of the model. -/
def Harmless {State Value : Type} (outcome : Outcome State Fault Value) : Prop :=
  ∀ fault, outcome.fault = some fault → fault = .outOfFuel

section Extraction

variable {ctx : DecreeContext} {stmt : Statement}

theorem readPart_eq_ok {Part Value : Type} {what : String} {part : Option Part}
    {read : Part → Value} {value : Value} (ended : readPart what part read = .ok value) :
    ∃ present, part = some present ∧ read present = value := by
  cases part with
  | none => simp [readPart] at ended
  | some present => exact ⟨present, rfl, Except.ok.inj ended⟩

theorem extractQuorumHash_cases (stmt : Statement) :
    (stmt.HasBody ∧ ∃ quorumHash, extractQuorumHash stmt = .ok quorumHash) ∨
      (¬stmt.HasBody ∧ ∃ fault, extractQuorumHash stmt = .error fault ∧ fault ≠ .outOfFuel) := by
  unfold Statement.HasBody extractQuorumHash
  cases stmt.statementType with
  | nominate => cases stmt.getNominate <;> simp [readPart]
  | prepare => cases stmt.getPrepare <;> simp [readPart]
  | confirm => cases stmt.getConfirm <;> simp [readPart]
  | externalize => cases stmt.getExternalize <;> simp [readPart]
  | other => simp

theorem readInner_cases {Part Inner Value Result : Type} (what whatInner : String)
    (part : Option Part) (inner : Part → Option Inner) (read : Inner → Value)
    (onward : Value → Result) :
    (part.bind inner ≠ none ∧ ∃ result,
        (readPart what part inner >>= fun found => readPart whatInner found read).map onward =
          .ok result) ∨
      (¬part.bind inner ≠ none ∧ ∃ fault,
        (readPart what part inner >>= fun found => readPart whatInner found read).map onward =
          .error fault ∧ fault ≠ .outOfFuel) := by
  cases part with
  | none => exact .inr ⟨by simp, .nilDereference what, rfl, by simp⟩
  | some present =>
    change (inner present ≠ none ∧ ∃ result,
        (readPart whatInner (inner present) read).map onward = .ok result) ∨
      (¬inner present ≠ none ∧ ∃ fault,
        (readPart whatInner (inner present) read).map onward = .error fault ∧
          fault ≠ .outOfFuel)
    cases inner present with
    | none => exact .inr ⟨by simp, .nilDereference whatInner, rfl, by simp⟩
    | some found => exact .inl ⟨by simp, onward (read found), rfl⟩

/-- With a sub-message, the transaction sets can be read exactly if the ballot is
there. -/
theorem extractTxSetHash_cases (ctx : DecreeContext) (body : stmt.HasBody) :
    (stmt.HasBallot ∧ ∃ result, extractTxSetHash ctx stmt = .ok result) ∨
      (¬stmt.HasBallot ∧ ∃ fault, extractTxSetHash ctx stmt = .error fault ∧
        fault ≠ .outOfFuel) := by
  unfold Statement.HasBody at body
  unfold Statement.HasBallot extractTxSetHash workingValue
  cases kind : stmt.statementType with
  | nominate =>
    rw [kind] at body
    obtain ⟨nom, present⟩ := Option.ne_none_iff_exists'.mp body
    simp [readPart, present]
  | prepare => exact readInner_cases _ _ _ _ _ _
  | confirm => exact readInner_cases _ _ _ _ _ _
  | externalize => exact readInner_cases _ _ _ _ _ _
  | other =>
    rw [kind] at body
    exact body.elim

end Extraction

section Intakes

variable (ctx : DecreeContext) (vctx : ValidatorContext) (world : World)

def FindsQuorum (stmt : Statement) : Prop :=
  ∃ quorumHash quorum, extractQuorumHash stmt = .ok quorumHash ∧
    Validator.getQuorum ctx vctx quorumHash = .ok (some quorum)

/-- What a statement needs not to stop the node: its sub-message, its ballot if the
quorum is known, and a quorum hash if the decree comes to check it. -/
structure Digestible (d : DecreeState) (stmt : Statement) : Prop where
  body : stmt.HasBody
  ballot : FindsQuorum ctx vctx stmt → stmt.HasBallot
  named : Validator.validate ctx vctx world stmt = .ok (.ok true) → stmt.index = ctx.index →
    isNews (d.ballots.lookup stmt.nodeID) stmt = .ok true → stmt.NamesQuorum

def Validator.Fresh (v : Validator) (stmt : Statement) : Prop :=
  ∃ hash, vctx.sha256Hash stmt = .ok hash ∧ hash ∉ v.statements

variable {ctx vctx world} {stmt : Statement} {d : DecreeState} {v : Validator}

/-- `validate` fails exactly on a missing sub-message, or a missing ballot of a
statement whose quorum is known. -/
theorem validate_cases (ctx : DecreeContext) (vctx : ValidatorContext) (world : World)
    (stmt : Statement) :
    (stmt.HasBody ∧ (FindsQuorum ctx vctx stmt → stmt.HasBallot) ∧
        ∃ verdict, Validator.validate ctx vctx world stmt = .ok verdict) ∨
      (¬(stmt.HasBody ∧ (FindsQuorum ctx vctx stmt → stmt.HasBallot)) ∧
        ∃ fault, Validator.validate ctx vctx world stmt = .error fault ∧ fault ≠ .outOfFuel) := by
  rcases extractQuorumHash_cases stmt with ⟨body, quorumHash, extracted⟩ | ⟨noBody, fault, failed, crash⟩
  swap
  · refine .inr ⟨fun both => noBody both.1, fault, ?_, crash⟩
    simp [Validator.validate, failed]
  have finds : FindsQuorum ctx vctx stmt ↔
      ∃ quorum, Validator.getQuorum ctx vctx quorumHash = .ok (some quorum) := by
    simp [FindsQuorum, extracted]
  simp only [Validator.validate, extracted, finds]
  cases found : Validator.getQuorum ctx vctx quorumHash with
  | error err => exact .inl ⟨body, by simp, _, rfl⟩
  | ok stored =>
    cases stored with
    | none => exact .inl ⟨body, by simp, _, rfl⟩
    | some quorum =>
      rcases extractTxSetHash_cases ctx body with ⟨ballot, result, read⟩ |
        ⟨noBallot, fault, failed, crash⟩
      · refine .inl ⟨body, fun _ => ballot, ?_⟩
        rw [read]
        cases result <;> exact ⟨_, rfl⟩
      · refine .inr ⟨fun both => noBallot (both.2 ⟨quorum, rfl⟩), fault, ?_, crash⟩
        rw [failed]

theorem findsQuorum_of_validate (passed : Validator.validate ctx vctx world stmt = .ok (.ok true)) :
    FindsQuorum ctx vctx stmt := by
  cases extracted : extractQuorumHash stmt with
  | error fault => simp [Validator.validate, extracted] at passed
  | ok quorumHash =>
    simp only [Validator.validate, extracted] at passed
    cases found : Validator.getQuorum ctx vctx quorumHash with
    | error err => simp [found] at passed
    | ok stored =>
      cases stored with
      | none => simp [found] at passed
      | some quorum => exact ⟨quorumHash, quorum, extracted, found⟩

variable {node : Intake} {quorumHash : String}

theorem getQuorum_eq_some {quorum : Quorum}
    (found : Validator.getQuorum ctx vctx quorumHash = .ok (some quorum)) :
    ctx.getQuorum quorumHash = some quorum := by
  unfold Validator.getQuorum at found
  split at found
  · cases found
  · exact Except.ok.inj found

theorem knows_of_validate (passed : Validator.validate ctx vctx world stmt = .ok (.ok true))
    (extracted : extractQuorumHash stmt = .ok quorumHash) (named : quorumHash ≠ "") :
    ctx.Knows quorumHash := by
  obtain ⟨other, quorum, same, found⟩ := findsQuorum_of_validate passed
  obtain rfl : quorumHash = other := Except.ok.inj (extracted.symm.trans same)
  exact ⟨named, by simp [getQuorum_eq_some found]⟩

theorem statement_of_getPrepare {prepare : Prepare} (kind : stmt.statementType = .prepare)
    (present : stmt.getPrepare = some prepare) :
    stmt = (Pledge.prepare prepare).statement stmt.nodeID stmt.index := by
  obtain ⟨statementType, nodeID, index, body⟩ := stmt
  rcases body with _ | (_ | _ | _ | _) <;> simp_all [Statement.getPrepare, Pledge.statement,
    Pledge.statementType, Pledge.body]

theorem statement_of_getConfirm {confirm : Confirm} {B : Ballot}
    (kind : stmt.statementType = .confirm) (present : stmt.getConfirm = some confirm)
    (ballot : confirm.B = some B) :
    stmt = (Pledge.confirm B confirm.PC confirm.LC confirm.HC confirm.quorumHash).statement
      stmt.nodeID stmt.index := by
  obtain ⟨statementType, nodeID, index, body⟩ := stmt
  obtain ⟨B', PC, LC, HC, quorumHash⟩ := confirm
  rcases body with _ | (_ | _ | _ | _) <;> simp_all [Statement.getConfirm, Pledge.statement,
    Pledge.statementType, Pledge.body]

theorem statement_of_getExternalize {ext : Externalize} {B : Ballot}
    (kind : stmt.statementType = .externalize) (present : stmt.getExternalize = some ext)
    (ballot : ext.B = some B) :
    stmt = (Pledge.externalize B ext.HC ext.quorumHash).statement stmt.nodeID stmt.index := by
  obtain ⟨statementType, nodeID, index, body⟩ := stmt
  obtain ⟨B', HC, quorumHash⟩ := ext
  rcases body with _ | (_ | _ | _ | _) <;> simp_all [Statement.getExternalize, Pledge.statement,
    Pledge.statementType, Pledge.body]

theorem pledge_of_hasBallot (kind : stmt.statementType = .prepare ∨
      stmt.statementType = .confirm) (ballot : stmt.HasBallot) :
    ∃ pledge : Pledge, stmt = pledge.statement stmt.nodeID stmt.index := by
  rcases kind with kind | kind <;> simp only [Statement.HasBallot, kind] at ballot
  · obtain ⟨B, present⟩ := Option.ne_none_iff_exists'.mp ballot
    obtain ⟨prepare, found, -⟩ := Option.bind_eq_some_iff.mp present
    exact ⟨_, statement_of_getPrepare kind found⟩
  · obtain ⟨B, present⟩ := Option.ne_none_iff_exists'.mp ballot
    obtain ⟨confirm, found, hasB⟩ := Option.bind_eq_some_iff.mp present
    exact ⟨_, statement_of_getConfirm kind found hasB⟩

theorem wellFormed_of_validate (passed : Validator.validate ctx vctx world stmt = .ok (.ok true))
    (ballot : stmt.HasBallot) (named : stmt.NamesQuorum) : stmt.WellFormed ctx := by
  obtain ⟨quorumHash, -, extracted, -⟩ := findsQuorum_of_validate passed
  have knows := fun nonempty => knows_of_validate passed extracted nonempty
  cases kind : stmt.statementType <;>
    simp only [Statement.HasBallot, Statement.NamesQuorum, Statement.WellFormed,
      extractQuorumHash, kind] at ballot named extracted ⊢
  case nominate =>
    obtain ⟨nom, present, rfl⟩ := readPart_eq_ok extracted
    refine ⟨nom, present, ?_⟩
    by_cases empty : nom.quorumHash = ""
    · exact .inl empty
    · exact .inr (knows empty)
  case prepare =>
    obtain ⟨prepare, present, rfl⟩ := readPart_eq_ok extracted
    rw [present] at ballot named
    exact ⟨_, statement_of_getPrepare kind present, ballot, knows (by simpa using named)⟩
  case confirm =>
    obtain ⟨confirm, present, rfl⟩ := readPart_eq_ok extracted
    rw [present] at ballot named
    obtain ⟨B, hasB⟩ := Option.ne_none_iff_exists'.mp ballot
    exact ⟨_, statement_of_getConfirm kind present hasB, knows (by simpa using named)⟩
  case externalize =>
    obtain ⟨ext, present, rfl⟩ := readPart_eq_ok extracted
    rw [present] at ballot
    obtain ⟨B, hasB⟩ := Option.ne_none_iff_exists'.mp ballot
    exact ⟨_, statement_of_getExternalize kind present hasB, trivial⟩

theorem recv_of_known {hash : String} (hashed : vctx.sha256Hash stmt = .ok hash)
    (known : hash ∈ v.statements) :
    Validator.recv ctx vctx world (some stmt) v = .done (.ok ()) v := by
  simp only [Validator.recv, hashed]
  rw [bind_of_done (rfl : get _ = _), if_pos known]
  rfl

theorem recv_of_new {hash : String} (hashed : vctx.sha256Hash stmt = .ok hash)
    (fresh : hash ∉ v.statements) :
    Validator.recv ctx vctx world (some stmt) v =
      match Validator.validate ctx vctx world stmt with
      | .error fault => .abort fault { v with statements := hash :: v.statements }
      | .ok (.error err) => .done (.error ("validate statement failed: " ++ err))
          { v with statements := hash :: v.statements }
      | .ok (.ok true) => .done (.ok ()) { v with
          statements := hash :: v.statements
          dispatchChan := v.dispatchChan ++ [stmt] }
      | .ok (.ok false) => .done (.ok ()) { v with
          statements := hash :: v.statements
          downloadChan := v.downloadChan ++ [stmt]
          downloads := v.downloads.insert hash stmt } := by
  simp only [Validator.recv, hashed]
  rw [bind_of_done (rfl : get _ = _), if_neg fresh, bind_of_done (rfl : modify _ _ = _)]
  cases Validator.validate ctx vctx world stmt with
  | error fault => exact bind_of_abort rfl
  | ok verdict =>
    rcases verdict with err | ⟨_ | _⟩
    · rfl
    · rfl
    · rfl

variable (ctx world) in
theorem intake_of_stale (stale : ¬node.validator.Fresh vctx stmt) (fuel : Nat) :
    ∃ result final, intake ctx vctx world fuel stmt node = .done result final := by
  cases hashed : vctx.sha256Hash stmt with
  | error err =>
    unfold intake Validator.recv
    simp only [hashed]
    exact ⟨_, _, rfl⟩
  | ok hash =>
    have seen : hash ∈ node.validator.statements := by
      by_contra unseen
      exact stale ⟨hash, hashed, unseen⟩
    rw [intake, recv_of_known hashed seen]
    exact ⟨.ok (), node, by simp⟩

theorem intake_of_error (fresh : node.validator.Fresh vctx stmt) {fault : Fault}
    (failed : Validator.validate ctx vctx world stmt = .error fault) (fuel : Nat) :
    (intake ctx vctx world fuel stmt node).fault = some fault := by
  obtain ⟨hash, hashed, unseen⟩ := fresh
  simp [intake, recv_of_new hashed unseen, failed, Outcome.fault]

theorem intake_of_held (fresh : node.validator.Fresh vctx stmt) {verdict : Except String Bool}
    (validated : Validator.validate ctx vctx world stmt = .ok verdict) (held : verdict ≠ .ok true)
    (fuel : Nat) : (intake ctx vctx world fuel stmt node).fault = none := by
  obtain ⟨hash, hashed, unseen⟩ := fresh
  rcases verdict with err | ⟨_ | _⟩
  · simp [intake, recv_of_new hashed unseen, validated, Outcome.fault]
  · simp [intake, recv_of_new hashed unseen, validated, Outcome.fault]
  · exact absurd rfl held

theorem intake_of_dispatched (fresh : node.validator.Fresh vctx stmt)
    (passed : Validator.validate ctx vctx world stmt = .ok (.ok true)) (fuel : Nat) :
    (intake ctx vctx world fuel stmt node).fault =
        (recv ctx world fuel (some stmt) node.decree).fault ∧
      (intake ctx vctx world fuel stmt node).state.decree =
        (recv ctx world fuel (some stmt) node.decree).state := by
  obtain ⟨hash, hashed, unseen⟩ := fresh
  simp only [intake, recv_of_new hashed unseen, passed, List.append_right_eq_self, List.cons_ne_nil, if_false]
  cases recv ctx world fuel (some stmt) node.decree with
  | done result d => exact ⟨rfl, rfl⟩
  | abort fault d => exact ⟨rfl, rfl⟩

theorem recv_skips (fuel : Nat) (ballot : stmt.statementType = .prepare ∨
      stmt.statementType = .confirm)
    (skipped : stmt.index ≠ ctx.index ∨ isNews (d.ballots.lookup stmt.nodeID) stmt = .ok false) :
    (recv ctx world (fuel + 1) (some stmt) d).fault = none := by
  have returned : ∃ result, recvBallot ctx world (fuel + 1) stmt false d = .done result d := by
    simp only [recvBallot, receiveBallot]
    by_cases index : stmt.index = ctx.index
    · have old := skipped.resolve_left (not_not_intro index)
      rw [if_neg (not_not_intro index), bind_of_done (rfl : get _ = _), old]
      exact ⟨_, rfl⟩
    · rw [if_pos index]
      exact ⟨_, rfl⟩
  obtain ⟨result, ended⟩ := returned
  rcases ballot with kind | kind <;>
  · simp only [recv, kind]
    rw [bind_of_done ended]
    cases result <;> rfl

variable (world) in
theorem recv_of_unnamed (fuel : Nat) (body : stmt.HasBody) (unnamed : ¬stmt.NamesQuorum)
    (index : stmt.index = ctx.index)
    (news : isNews (d.ballots.lookup stmt.nodeID) stmt = .ok true) :
    (recv ctx world (fuel + 1) (some stmt) d).fault = some (.nilDereference "quorum") := by
  have ballot : stmt.statementType = .prepare ∨ stmt.statementType = .confirm := by
    cases kind : stmt.statementType <;> simp [Statement.NamesQuorum, kind] at unnamed ⊢
  have failed : validateBallot ctx world d stmt = .error (.nilDereference "quorum") := by
    rcases ballot with kind | kind <;>
    · simp only [Statement.HasBody, Statement.NamesQuorum, kind] at body unnamed
      obtain ⟨message, present⟩ := Option.ne_none_iff_exists'.mp body
      have empty : message.quorumHash = "" := by simpa [present] using unnamed
      simp [validateBallot, kind, present, empty, validateSource, getStatementQuorum]
  have stopped : recvBallot ctx world (fuel + 1) stmt false d =
      .abort (.nilDereference "quorum") d := by
    simp only [recvBallot, receiveBallot]
    rw [if_neg (not_not_intro index), bind_of_done (rfl : get _ = _), news, failed]
    rfl
  rcases ballot with kind | kind <;>
  · simp only [recv, kind]
    rw [bind_of_abort stopped]
    rfl

/-- A well-formed statement stops the decree only through a move of the ballots that
does not meet its condition. -/
theorem recv_of_wellFormed (own : ctx.Knows ctx.quorumHash) (steady : Steady ctx d) (fuel : Nat)
    (wellFormed : stmt.WellFormed ctx)
    (calm : Calm (recv ctx world fuel (some stmt) d).state.trace) :
    Harmless (recv ctx world fuel (some stmt) d) := by
  have holds := recv_steady own world fuel wellFormed d steady
  unfold Holds at holds
  intro fault struck
  rw [Outcome.eq_abort struck] at holds
  exact holds calm

theorem isNews_ne_error (wellFormed : ∃ pledge : Pledge,
      stmt = pledge.statement stmt.nodeID stmt.index) (known : Option Pledge) (fault : Fault) :
    isNews known stmt ≠ .error fault := by
  obtain ⟨pledge, reads⟩ := wellFormed
  rw [reads]
  exact isNews_total known fault

/-- A new statement that is harmless has the parts that are read.  On a decree in order,
one that has them is harmless as long as the ballots move under their conditions. -/
theorem intake_harmless_iff (node : Intake) (stmt : Statement) (fuel : Nat) :
    (Harmless (intake ctx vctx world (fuel + 1) stmt node) →
      (node.validator.Fresh vctx stmt → Digestible ctx vctx world node.decree stmt)) ∧
    (ctx.Knows ctx.quorumHash → Steady ctx node.decree →
      Calm (intake ctx vctx world (fuel + 1) stmt node).state.decree.trace →
      (node.validator.Fresh vctx stmt → Digestible ctx vctx world node.decree stmt) →
      Harmless (intake ctx vctx world (fuel + 1) stmt node)) := by
  by_cases fresh : node.validator.Fresh vctx stmt
  swap
  · obtain ⟨result, final, ended⟩ := intake_of_stale ctx world fresh (fuel + 1)
    simp [Harmless, ended, Outcome.fault, fresh]
  simp only [fresh, true_imp_iff]
  rcases validate_cases ctx vctx world stmt with ⟨body, ballot, verdict, validated⟩ |
    ⟨lacks, fault, failed, crash⟩
  swap
  · constructor
    · intro harmless
      exact absurd (harmless fault (intake_of_error fresh failed _)) crash
    · intro _ _ _ digestible
      exact absurd ⟨digestible.body, digestible.ballot⟩ lacks
  by_cases passed : verdict = .ok true
  swap
  · have quiet := intake_of_held fresh validated passed (fuel + 1)
    constructor
    · intro _
      refine ⟨body, ballot, ?_⟩
      intro dispatched
      rw [validated, Except.ok.injEq] at dispatched
      exact absurd dispatched passed
    · intro _ _ _ _ fault struck
      rw [quiet] at struck
      cases struck
  rw [passed] at validated
  obtain ⟨sameFault, sameDecree⟩ := intake_of_dispatched fresh validated (fuel + 1)
  constructor
  · intro harmless
    refine ⟨body, ballot, ?_⟩
    intro _ index news
    by_contra unnamed
    have struck := recv_of_unnamed world fuel body unnamed index news
    exact absurd (harmless _ (sameFault.trans struck)) (by simp)
  · intro own steady calm digestible fault struck
    rw [sameFault] at struck
    have hasBallot : stmt.HasBallot := ballot (findsQuorum_of_validate validated)
    by_cases named : stmt.NamesQuorum
    · rw [sameDecree] at calm
      exact recv_of_wellFormed own steady _ (wellFormed_of_validate validated hasBallot named) calm
        fault struck
    · have ballotKind : stmt.statementType = .prepare ∨ stmt.statementType = .confirm := by
        cases kind : stmt.statementType <;> simp [Statement.NamesQuorum, kind] at named ⊢
      have skipped : stmt.index ≠ ctx.index ∨
          isNews (node.decree.ballots.lookup stmt.nodeID) stmt = .ok false := by
        by_cases index : stmt.index = ctx.index
        · right
          cases news : isNews (node.decree.ballots.lookup stmt.nodeID) stmt with
          | error other =>
            exact absurd news (isNews_ne_error (pledge_of_hasBallot ballotKind hasBallot) _ _)
          | ok fresh =>
            cases fresh with
            | false => rfl
            | true => exact absurd (digestible.named validated index news) named
        · exact .inl index
      rw [recv_skips fuel ballotKind skipped] at struck
      cases struck

end Intakes

private def peerQuorum : Quorum := .mk (1 / 2) ["a", "b"] []

private def peerContext : DecreeContext :=
  .plain 7 "n" peerQuorum (fun _ => some peerQuorum) (fun _ => 0)

private def peerHashes : ValidatorContext := ⟨fun stmt => .ok stmt.nodeID, fun _ => none⟩

private def newNode : Intake := ⟨⟨[], ∅, [], []⟩, newDecree peerContext⟩

private def fromPeer (statementType : StatementType) (body : Option Body) : Statement :=
  ⟨statementType, "a", 7, body⟩

private def received (stmt : Statement) : Outcome Intake Fault (Except String Unit) :=
  intake peerContext peerHashes .plain 12 stmt newNode

private def voteForV : Statement :=
  fromPeer .prepare (some (.prepare ⟨some ⟨1, "v"⟩, none, none, 0, 0, "a"⟩))

/-- A prepare statement with its ballot and the hash of its quorum goes through. -/
theorem intake_harmless_prepare :
    (received voteForV).state.decree.ballots.lookup "a" ≠ none ∧ Harmless (received voteForV) := by
  refine ⟨by decide +kernel, ?_⟩
  have calm : Calm (received voteForV).state.decree.trace := by
    unfold Calm
    decide +kernel
  apply (intake_harmless_iff newNode voteForV 11).2 (by decide +kernel)
    (steady_newDecree peerContext) calm
  intro fresh
  refine ⟨?_, fun _ => ?_, fun _ _ _ => ?_⟩
  · simp [Statement.HasBody, voteForV, fromPeer, Statement.getPrepare]
  · simp [Statement.HasBallot, voteForV, fromPeer, Statement.getPrepare]
  · simp [Statement.NamesQuorum, voteForV, fromPeer, Statement.getPrepare]

/-- A statement of an unknown type is fatal, and so is reading through a sub-message
that is missing or of another kind, or through a missing ballot. -/
theorem intake_stops_node :
    (received (fromPeer .other none)).fault = some (.fatal "unknown statement type") ∧
      (received (fromPeer .prepare none)).fault = some (.nilDereference "prepare") ∧
      (received (fromPeer .nominate (some (.externalize ⟨some ⟨1, "v"⟩, 1, "a"⟩)))).fault =
        some (.nilDereference "nominate") ∧
      (received (fromPeer .confirm (some (.confirm ⟨none, 1, 1, 1, "a"⟩)))).fault =
        some (.nilDereference "confirm.B") := by
  decide +kernel

end Ultiledger
