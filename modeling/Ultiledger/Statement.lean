import Mathlib.Data.Finset.Basic
import Mathlib.Data.Prod.Lex
import Mathlib.Data.String.Basic

/-!
# Ballots and consensus statements

The messages of `ultpb/consensus.proto` and the comparisons and filters of
`consensus/util.go` and `consensus/filter.go`.  Values are compared by their characters,
which for UTF-8 text is the byte order of `strings.Compare`.

A statement as it arrives may lack its sub-message or its ballot.  `validateBallot`
reads all of them, so a decree stores the typed form `Pledge`, which has them.
-/

namespace Ultiledger

/-- What stops the process: a `log.Fatal`, a nil dereference, or (in the model
only) a bound on the recursion that was chosen too small. -/
inductive Fault where
  | fatal (message : String)
  | nilDereference (what : String)
  | indexOutOfRange
  | outOfFuel
  deriving DecidableEq, Repr

def errUnknownStmtType : String := "unknown statement type"

@[ext]
structure Ballot where
  counter : Nat
  value : String
  deriving DecidableEq, Repr

def maxUint32 : Nat := 2 ^ 32 - 1

/-- Ballots are ordered by counter, then by value. -/
instance : LinearOrder Ballot :=
  LinearOrder.lift' (fun ballot => toLex (ballot.counter, ballot.value)) (by
    intro first second same
    have fields := Prod.mk.inj (toLex.injective same)
    exact Ballot.ext fields.1 fields.2)

variable {first second : Ballot}

theorem Ballot.le_iff :
    first ≤ second ↔ first.counter < second.counter ∨
      first.counter = second.counter ∧ first.value ≤ second.value :=
  Prod.Lex.le_iff

theorem Ballot.lt_iff :
    first < second ↔ first.counter < second.counter ∨
      first.counter = second.counter ∧ first.value < second.value :=
  Prod.Lex.lt_iff

theorem Ballot.le_iff_counter_le (compatible : first.value = second.value) :
    first ≤ second ↔ first.counter ≤ second.counter := by
  rw [Ballot.le_iff, compatible]
  simp only [le_refl, and_true]
  omega

/-- `compareBallots`; a nil ballot is below every other ballot. -/
def compareBallots : Option Ballot → Option Ballot → Ordering
  | none, none => .eq
  | none, some _ => .lt
  | some _, none => .gt
  | some lb, some rb =>
    if lb.counter < rb.counter then .lt
    else if lb.counter > rb.counter then .gt
    else compare lb.value rb.value

def compatibleBallots : Option Ballot → Option Ballot → Bool
  | some lb, some rb => lb.value == rb.value
  | _, _ => false

def lessAndCompatibleBallots (lb rb : Option Ballot) : Bool :=
  (compareBallots lb rb).isLE && compatibleBallots lb rb

def lessAndIncompatibleBallots (lb rb : Option Ballot) : Bool :=
  (compareBallots lb rb).isLE && !compatibleBallots lb rb

variable (first second : Ballot)

theorem compareBallots_some : compareBallots (some first) (some second) = compare first second := by
  rw [compareBallots]
  split_ifs with less greater
  · exact (compare_lt_iff_lt.mpr (Ballot.lt_iff.mpr (.inl less))).symm
  · exact (compare_gt_iff_gt.mpr (Ballot.lt_iff.mpr (.inl greater))).symm
  · have sameCounter : first.counter = second.counter := by omega
    rcases lt_trichotomy first.value second.value with below | same | above
    · rw [compare_lt_iff_lt.mpr below,
        compare_lt_iff_lt.mpr (Ballot.lt_iff.mpr (.inr ⟨sameCounter, below⟩))]
    · rw [compare_eq_iff_eq.mpr same, compare_eq_iff_eq.mpr (Ballot.ext sameCounter same)]
    · rw [compare_gt_iff_gt.mpr above,
        compare_gt_iff_gt.mpr (Ballot.lt_iff.mpr (.inr ⟨sameCounter.symm, above⟩))]

@[simp]
theorem compareBallots_isLE :
    (compareBallots (some first) (some second)).isLE = true ↔ first ≤ second := by
  rw [compareBallots_some, ← Ordering.ne_gt_iff_isLE, compare_gt_iff_gt, not_lt]

@[simp]
theorem compatibleBallots_some :
    compatibleBallots (some first) (some second) = true ↔ first.value = second.value := by
  simp [compatibleBallots]

@[simp]
theorem lessAndCompatibleBallots_some :
    lessAndCompatibleBallots (some first) (some second) = true ↔
      first ≤ second ∧ first.value = second.value := by
  simp [lessAndCompatibleBallots]

@[simp]
theorem lessAndCompatibleBallots_none (first : Option Ballot) :
    lessAndCompatibleBallots first none = false := by
  cases first <;> rfl

@[simp]
theorem lessAndIncompatibleBallots_some :
    lessAndIncompatibleBallots (some first) (some second) = true ↔
      first ≤ second ∧ first.value ≠ second.value := by
  simp [lessAndIncompatibleBallots, ← compatibleBallots_some]

structure Nominate where
  voteList : List String
  acceptList : List String
  quorumHash : String
  deriving DecidableEq, Repr

structure Prepare where
  B : Option Ballot
  P : Option Ballot
  Q : Option Ballot
  LC : Nat
  HC : Nat
  quorumHash : String
  deriving DecidableEq, Repr

structure Confirm where
  B : Option Ballot
  PC : Nat
  LC : Nat
  HC : Nat
  quorumHash : String
  deriving DecidableEq, Repr

structure Externalize where
  B : Option Ballot
  HC : Nat
  quorumHash : String
  deriving DecidableEq, Repr

/-- The sub-message of a statement (the `oneof` field). -/
inductive Body where
  | nominate (nominate : Nominate)
  | prepare (prepare : Prepare)
  | confirm (confirm : Confirm)
  | externalize (externalize : Externalize)
  deriving DecidableEq, Repr

/-- `ultpb.StatementType`; `other` is any number without a name. -/
inductive StatementType where
  | nominate
  | prepare
  | confirm
  | externalize
  | other
  deriving DecidableEq, Repr

/-- `ultpb.Statement`.  Nothing ties the sub-message to the type. -/
structure Statement where
  statementType : StatementType
  nodeID : String
  index : Nat
  stmt : Option Body
  deriving DecidableEq, Repr

namespace Statement

def getNominate (stmt : Statement) : Option Nominate :=
  match stmt.stmt with
  | some (.nominate nominate) => some nominate
  | _ => none

def getPrepare (stmt : Statement) : Option Prepare :=
  match stmt.stmt with
  | some (.prepare prepare) => some prepare
  | _ => none

def getConfirm (stmt : Statement) : Option Confirm :=
  match stmt.stmt with
  | some (.confirm confirm) => some confirm
  | _ => none

def getExternalize (stmt : Statement) : Option Externalize :=
  match stmt.stmt with
  | some (.externalize externalize) => some externalize
  | _ => none

end Statement

/-- A ballot statement whose parts are present, but for the ballot of a prepare statement
that names the local node as its sender, which is not checked. -/
inductive Pledge where
  | prepare (prepare : Prepare)
  | confirm (B : Ballot) (PC LC HC : Nat) (quorumHash : String)
  | externalize (B : Ballot) (HC : Nat) (quorumHash : String)
  deriving DecidableEq, Repr

namespace Pledge

def body : Pledge → Body
  | .prepare message => .prepare message
  | .confirm B PC LC HC quorumHash => .confirm ⟨some B, PC, LC, HC, quorumHash⟩
  | .externalize B HC quorumHash => .externalize ⟨some B, HC, quorumHash⟩

def statementType : Pledge → StatementType
  | .prepare _ => .prepare
  | .confirm .. => .confirm
  | .externalize .. => .externalize

def statement (pledge : Pledge) (nodeID : String) (index : Nat) : Statement where
  statementType := pledge.statementType
  nodeID := nodeID
  index := index
  stmt := some pledge.body

end Pledge

/-- The number of a statement type, as far as ballots are concerned. -/
def StatementType.rank : StatementType → Nat
  | .nominate => 0
  | .prepare => 1
  | .confirm => 2
  | .externalize => 3
  | .other => 4

/-- The comparison of `isNewerBallot` for two prepare messages: b, p, q, h. -/
def isNewerPrepare (lp rp : Prepare) : Bool :=
  match compareBallots lp.B rp.B with
  | .lt => true
  | .gt => false
  | .eq =>
    match compareBallots lp.P rp.P with
    | .lt => true
    | .gt => false
    | .eq =>
      match compareBallots lp.Q rp.Q with
      | .lt => true
      | .gt => false
      | .eq => decide (lp.HC < rp.HC)

/-- `isNewerBallot` for a stored statement and one that has just arrived, which
may lack its sub-message. -/
def isNewerBallot (lb : Pledge) (rb : Statement) : Except Fault Bool :=
  if lb.statementType ≠ rb.statementType then
    .ok (decide (lb.statementType.rank < rb.statementType.rank))
  else
    match lb with
    | .prepare lp =>
      match rb.getPrepare with
      | none => .error (.nilDereference "prepare")
      | some rp => .ok (isNewerPrepare lp rp)
    | .confirm lB lPC _ lHC _ =>
      match rb.getConfirm with
      | none => .error (.nilDereference "confirm")
      | some rc =>
        match compareBallots (some lB) rc.B with
        | .lt => .ok true
        | .gt => .ok false
        | .eq =>
          if lPC = rc.PC then .ok (decide (lHC < rc.HC))
          else .ok (decide (lPC < rc.PC))
    | .externalize .. => .ok false

def isProperSubset (a b : List String) : Bool :=
  if a.length > b.length then false
  else decide (a.toFinset ⊂ b.toFinset)

/-- `isNewerNomination`; the first nomination may be absent. -/
def isNewerNomination : Option Nominate → Nominate → Bool
  | none, _ => true
  | some anom, bnom =>
    isProperSubset anom.voteList bnom.voteList ||
      isProperSubset anom.acceptList bnom.acceptList

def getWorkingBallot : Pledge → Option Ballot
  | .prepare prepare => prepare.B
  | .confirm B _ LC _ _ => some ⟨LC, B.value⟩
  | .externalize B _ _ => some B

def voteFilter (vote : String) (nominate : Nominate) : Bool :=
  nominate.voteList.any (vote == ·)

def acceptFilter (vote : String) (nominate : Nominate) : Bool :=
  nominate.acceptList.any (vote == ·)

def prepareVoteFilter (b : Ballot) : Pledge → Bool
  | .prepare prepare => lessAndCompatibleBallots (some b) prepare.B
  | .confirm B _ _ _ _ => compatibleBallots (some b) (some B)
  | .externalize B _ _ => compatibleBallots (some b) (some B)

def prepareAcceptFilter (b : Ballot) : Pledge → Bool
  | .prepare prepare =>
    (prepare.P.isSome && lessAndCompatibleBallots (some b) prepare.P) ||
      (prepare.Q.isSome && lessAndCompatibleBallots (some b) prepare.Q)
  | .confirm B PC _ _ _ => lessAndCompatibleBallots (some b) (some ⟨PC, B.value⟩)
  | .externalize B _ _ => compatibleBallots (some b) (some B)

def commitVoteFilter (b : Ballot) (l r : Nat) : Pledge → Bool
  | .prepare prepare =>
    compatibleBallots (some b) prepare.B && decide (prepare.LC ≠ 0) &&
      decide (prepare.LC ≤ l) && decide (r ≤ prepare.HC)
  | .confirm B _ LC _ _ => compatibleBallots (some b) (some B) && decide (LC ≤ l)
  | .externalize B _ _ => compatibleBallots (some b) (some B) && decide (B.counter ≤ l)

def commitAcceptFilter (b : Ballot) (l r : Nat) : Pledge → Bool
  | .prepare _ => false
  | .confirm B _ LC HC _ =>
    compatibleBallots (some b) (some B) && decide (LC ≤ l) && decide (r ≤ HC)
  | .externalize B _ _ => compatibleBallots (some b) (some B) && decide (B.counter ≤ l)

end Ultiledger
