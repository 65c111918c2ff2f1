import Ultiledger.CountedLoop
import Ultiledger.FinmapTotals
import Ultiledger.StatementIntake

/-!
# The queues of the validator

The goroutines of `consensus/validator.go` behind `Recv`: `monitor` moves statements
whose downloads have come in, `download` asks for what a statement lacks, and `dispatch`
hands statements to the consensus, at once or at its ticks.

Over every interleaving a statement is in one place at most, because `Recv` lets its
hash through once.
-/

namespace Ultiledger

open AbortingProgram Program

variable {stmt : Statement} {hash : String} {validator : Validator}

def Statement.seqNum (stmt : Statement) : UInt64 := .ofNat stmt.index

/-- `Validator`, with the part that only `dispatch` uses. -/
structure ValidatorQueues extends Validator where
  decreeStmts : Finmap fun _ : UInt64 => List Statement
  maxSeqNum : UInt64
  readyChan : List Statement

/-- `NewValidator`. -/
def newValidatorQueues : ValidatorQueues := ⟨⟨[], ∅, [], []⟩, ∅, 0, []⟩

namespace Validator

variable (ctx : DecreeContext) (vctx : ValidatorContext) (world : World)

/-- `monitor` at a tick, for the downloads with some hashes, in the order in which the map
is traversed. -/
def monitor : List String → Program Validator Fault Unit
  | [] => pure ()
  | hash :: rest => do
    let v ← get
    match v.downloads.lookup hash with
    | none => monitor rest
    | some stmt =>
      match ← lift (validate ctx vctx world stmt) with
      | .ok true => do
        modify fun v => { v with
          dispatchChan := v.dispatchChan ++ [stmt]
          downloads := v.downloads.erase hash }
        monitor rest
      | _ => monitor rest

/-- `download` of one statement: the hashes of the quorums and of the transaction sets that
are asked for. -/
def download : Program Validator Fault (List String × List String) := do
  let v ← get
  match v.downloadChan with
  | [] => pure ([], [])
  | stmt :: rest => do
    modify fun v => { v with downloadChan := rest }
    let quorumHash ← lift (extractQuorumHash stmt)
    let txsetHashes ← lift (extractTxSetHash ctx stmt)
    let missingQuorum := match getQuorum ctx vctx quorumHash with
      | .ok (some _) => []
      | _ => [quorumHash]
    let missingTxSets := (txsetHashes.toOption.getD []).filter fun txsetHash =>
      match world.getTxSet txsetHash with
      | .ok (some _) => false
      | _ => true
    pure (missingQuorum, missingTxSets)

end Validator

namespace ValidatorQueues

def cached (v : ValidatorQueues) (seqNum : UInt64) : List Statement :=
  (v.decreeStmts.lookup seqNum).getD []

def handOn (stmt : Statement) (v : ValidatorQueues) : ValidatorQueues :=
  { v with readyChan := v.readyChan ++ [stmt] }

def store (stmt : Statement) (v : ValidatorQueues) : ValidatorQueues :=
  { v with
    decreeStmts := v.decreeStmts.insert stmt.seqNum (v.cached stmt.seqNum ++ [stmt])
    maxSeqNum := if stmt.seqNum > v.maxSeqNum then stmt.seqNum else v.maxSeqNum }

/-- `dispatch` with a statement from the queue. -/
def dispatch (nextSeqNum : UInt64) (v : ValidatorQueues) : ValidatorQueues :=
  match v.dispatchChan with
  | [] => v
  | stmt :: rest =>
    let taken := { v with dispatchChan := rest }
    if stmt.seqNum = nextSeqNum then taken.handOn stmt else taken.store stmt

def sendCached (seqNum : UInt64) (v : ValidatorQueues) : ValidatorQueues :=
  if (v.cached seqNum).length = 0 then v
  else { v with
    readyChan := v.readyChan ++ v.cached seqNum
    decreeStmts := v.decreeStmts.insert seqNum [] }

/-- The second loop of a tick.  Its index is computed anew in each iteration. -/
def removeOld (nextSeqNum maxDecrees : UInt64) :
    Nat → (Finmap fun _ : UInt64 => List Statement) →
      Option (Finmap fun _ : UInt64 => List Statement)
  | 0, _ => none
  | fuel + 1, stmts =>
    if nextSeqNum ≤ maxDecrees then some stmts
    else
      let index := nextSeqNum - maxDecrees
      if index ∈ stmts then removeOld nextSeqNum maxDecrees fuel (stmts.erase index)
      else some stmts

/-- `dispatch` at a tick. -/
def tick (maxDecrees : UInt64) (fuel : Nat) (nextSeqNum : UInt64) (v : ValidatorQueues) :
    Option ValidatorQueues := do
  let sent ← CountedLoop.run v.maxSeqNum sendCached fuel nextSeqNum v
  let left ← removeOld nextSeqNum maxDecrees fuel sent.decreeStmts
  some { sent with decreeStmts := left }

end ValidatorQueues

/-- What the validator does between two points at which it can be observed. -/
inductive ValidatorStep (sha256Hash : Statement → Except String String) (maxDecrees : UInt64)
    (v : ValidatorQueues) : ValidatorQueues → Prop
  | recv (ctx : DecreeContext) (vctx : ValidatorContext) (world : World) (stmt : Option Statement)
      {result : Except String Unit} {after : Validator} (hashes : vctx.sha256Hash = sha256Hash)
      (ended : Validator.recv ctx vctx world stmt v.toValidator = .done result after) :
      ValidatorStep sha256Hash maxDecrees v { v with toValidator := after }
  | monitor (ctx : DecreeContext) (vctx : ValidatorContext) (world : World) (order : List String)
      {after : Validator}
      (ended : Validator.monitor ctx vctx world order v.toValidator = .done () after) :
      ValidatorStep sha256Hash maxDecrees v { v with toValidator := after }
  | download (ctx : DecreeContext) (vctx : ValidatorContext) (world : World)
      {asked : List String × List String} {after : Validator}
      (ended : Validator.download ctx vctx world v.toValidator = .done asked after) :
      ValidatorStep sha256Hash maxDecrees v { v with toValidator := after }
  | dispatch (nextSeqNum : UInt64) :
      ValidatorStep sha256Hash maxDecrees v (v.dispatch nextSeqNum)
  | tick (fuel : Nat) (nextSeqNum : UInt64) {after : ValidatorQueues}
      (ended : v.tick maxDecrees fuel nextSeqNum = some after) :
      ValidatorStep sha256Hash maxDecrees v after

section Receiving

variable {ctx : DecreeContext} {vctx : ValidatorContext} {world : World}

/-- All that `Recv` can do to the validator. -/
inductive Validator.Received (sha256Hash : Statement → Except String String) (v : Validator) :
    Validator → Prop
  | ignored : Received sha256Hash v v
  | failed (stmt : Statement) (hash : String) (hashed : sha256Hash stmt = .ok hash)
      (fresh : hash ∉ v.statements) :
      Received sha256Hash v { v with statements := hash :: v.statements }
  | complete (stmt : Statement) (hash : String) (hashed : sha256Hash stmt = .ok hash)
      (fresh : hash ∉ v.statements) :
      Received sha256Hash v { v with
        statements := hash :: v.statements
        dispatchChan := v.dispatchChan ++ [stmt] }
  | lacking (stmt : Statement) (hash : String) (hashed : sha256Hash stmt = .ok hash)
      (fresh : hash ∉ v.statements) :
      Received sha256Hash v { v with
        statements := hash :: v.statements
        downloadChan := v.downloadChan ++ [stmt]
        downloads := v.downloads.insert hash stmt }

theorem received_of_recv {stmt : Option Statement} {result : Except String Unit}
    {v after : Validator} (ended : Validator.recv ctx vctx world stmt v = .done result after) :
    v.Received vctx.sha256Hash after := by
  cases stmt with
  | none =>
    obtain ⟨-, rfl⟩ := pure_eq_done.mp ended
    exact .ignored
  | some stmt =>
    cases hashed : vctx.sha256Hash stmt with
    | error err =>
      simp only [Validator.recv, hashed] at ended
      obtain ⟨-, rfl⟩ := pure_eq_done.mp ended
      exact .ignored
    | ok hash =>
      by_cases known : hash ∈ v.statements
      · rw [recv_of_known hashed known] at ended
        cases ended
        exact .ignored
      · rw [recv_of_new hashed known] at ended
        split at ended
        · cases ended
        · cases ended
          exact .failed stmt hash hashed known
        · cases ended
          exact .complete stmt hash hashed known
        · cases ended
          exact .lacking stmt hash hashed known

end Receiving

section Ticks

namespace ValidatorQueues

variable {v : ValidatorQueues} {seqNum : UInt64}

theorem cached_insert (v : ValidatorQueues) (seqNum : UInt64) (stmts : List Statement)
    (other : UInt64) :
    cached { v with decreeStmts := v.decreeStmts.insert seqNum stmts } other =
      if other = seqNum then stmts else v.cached other := by
  unfold cached
  split_ifs with same
  · rw [same, Finmap.lookup_insert, Option.getD_some]
  · rw [Finmap.lookup_insert_of_ne _ same]

theorem sendCached_spec (seqNum : UInt64) (v : ValidatorQueues) :
    (v.sendCached seqNum).toValidator = v.toValidator ∧
      (v.sendCached seqNum).maxSeqNum = v.maxSeqNum ∧
      (v.sendCached seqNum).readyChan = v.readyChan ++ v.cached seqNum ∧
      ∀ other, (v.sendCached seqNum).cached other = if other = seqNum then [] else v.cached other := by
  unfold sendCached
  split_ifs with empty
  · have none := List.length_eq_zero_iff.mp empty
    refine ⟨rfl, rfl, by rw [none, List.append_nil], fun other => ?_⟩
    split_ifs with same
    · rw [same, none]
    · rfl
  · exact ⟨rfl, rfl, rfl, v.cached_insert seqNum []⟩

theorem sendAll_spec {seqNums : List UInt64} (nodup : seqNums.Nodup) (v : ValidatorQueues) :
    (seqNums.foldl (fun current seqNum => current.sendCached seqNum) v).toValidator =
        v.toValidator ∧
      (seqNums.foldl (fun current seqNum => current.sendCached seqNum) v).maxSeqNum =
        v.maxSeqNum ∧
      (seqNums.foldl (fun current seqNum => current.sendCached seqNum) v).readyChan =
        v.readyChan ++ seqNums.flatMap v.cached ∧
      ∀ other, (seqNums.foldl (fun current seqNum => current.sendCached seqNum) v).cached other =
        if other ∈ seqNums then [] else v.cached other := by
  induction seqNums generalizing v with
  | nil => exact ⟨rfl, rfl, (List.append_nil _).symm, fun other => rfl⟩
  | cons seqNum rest ih =>
    obtain ⟨apart, restNodup⟩ := List.nodup_cons.mp nodup
    obtain ⟨validator, maxSeqNum, ready, caches⟩ := v.sendCached_spec seqNum
    obtain ⟨restValidator, restMaxSeqNum, restReady, restCaches⟩ := ih restNodup
      (v.sendCached seqNum)
    have same : rest.flatMap (v.sendCached seqNum).cached = rest.flatMap v.cached := by
      refine List.flatMap_congr fun other later => ?_
      have differs : other ≠ seqNum := by
        rintro rfl
        exact apart later
      rw [caches, if_neg differs]
    refine ⟨restValidator.trans validator, restMaxSeqNum.trans maxSeqNum, ?_, fun other => ?_⟩
    · rw [List.foldl_cons, restReady, ready, same, List.flatMap_cons, List.append_assoc]
    · rw [List.foldl_cons, restCaches, caches]
      by_cases first : other = seqNum
      · simp [first]
      · simp [first]

/-- The cache without what the second loop of a tick removes. -/
def forget (nextSeqNum maxDecrees : UInt64) (stmts : Finmap fun _ : UInt64 => List Statement) :
    Finmap fun _ : UInt64 => List Statement :=
  if nextSeqNum ≤ maxDecrees then stmts else stmts.erase (nextSeqNum - maxDecrees)

theorem erase_of_notMem {stmts : Finmap fun _ : UInt64 => List Statement}
    (absent : seqNum ∉ stmts) : stmts.erase seqNum = stmts := by
  refine Finmap.ext_lookup fun other => ?_
  by_cases same : other = seqNum
  · subst same
    rw [Finmap.lookup_erase, Finmap.lookup_eq_none.mpr absent]
  · rw [Finmap.lookup_erase_ne same]

theorem removeOld_add_two (nextSeqNum maxDecrees : UInt64) (fuel : Nat)
    (stmts : Finmap fun _ : UInt64 => List Statement) :
    removeOld nextSeqNum maxDecrees (fuel + 2) stmts =
      some (forget nextSeqNum maxDecrees stmts) := by
  rw [removeOld, forget]
  by_cases early : nextSeqNum ≤ maxDecrees
  · rw [if_pos early, if_pos early]
  rw [if_neg early, if_neg early]
  by_cases present : nextSeqNum - maxDecrees ∈ stmts
  · rw [if_pos present, removeOld, if_neg early]
    rw [if_neg Finmap.notMem_erase_self]
  · rw [if_neg present, erase_of_notMem present]

theorem eq_forget_of_removeOld {nextSeqNum maxDecrees : UInt64} {fuel : Nat}
    {stmts left : Finmap fun _ : UInt64 => List Statement}
    (ended : removeOld nextSeqNum maxDecrees fuel stmts = some left) :
    left = forget nextSeqNum maxDecrees stmts := by
  match fuel with
  | 0 => cases ended
  | 1 =>
    rw [removeOld] at ended
    unfold forget
    by_cases early : nextSeqNum ≤ maxDecrees
    · rw [if_pos early] at ended ⊢
      exact (Option.some.inj ended).symm
    rw [if_neg early] at ended ⊢
    by_cases present : nextSeqNum - maxDecrees ∈ stmts
    · rw [if_pos present] at ended
      cases ended
    · rw [if_neg present] at ended
      rw [erase_of_notMem present]
      exact (Option.some.inj ended).symm
  | fuel + 2 =>
    rw [removeOld_add_two] at ended
    exact (Option.some.inj ended).symm

theorem cached_forget (nextSeqNum maxDecrees : UInt64) (v : ValidatorQueues) (seqNum : UInt64) :
    cached { v with decreeStmts := forget nextSeqNum maxDecrees v.decreeStmts } seqNum =
      if maxDecrees < nextSeqNum ∧ seqNum = nextSeqNum - maxDecrees then [] else v.cached seqNum := by
  unfold cached forget
  by_cases early : nextSeqNum ≤ maxDecrees
  · rw [if_pos early, if_neg fun late => UInt64.not_lt.mpr early late.1]
  · by_cases same : seqNum = nextSeqNum - maxDecrees
    · rw [if_neg early, if_pos ⟨UInt64.not_le.mp early, same⟩, same, Finmap.lookup_erase,
        Option.getD_none]
    · rw [if_neg early, if_neg fun old => same old.2, Finmap.lookup_erase_ne same]

def ticked (maxDecrees nextSeqNum : UInt64) (v : ValidatorQueues) : ValidatorQueues :=
  let sent := (CountedLoop.span nextSeqNum v.maxSeqNum).foldl
    (fun current seqNum => current.sendCached seqNum) v
  { sent with decreeStmts := forget nextSeqNum maxDecrees sent.decreeStmts }

theorem tick_eq_ticked (below : v.maxSeqNum ≠ CountedLoop.last) (maxDecrees nextSeqNum : UInt64)
    (fuel : Nat) :
    v.tick maxDecrees ((CountedLoop.span nextSeqNum v.maxSeqNum).length + 2 + fuel) nextSeqNum =
      some (v.ticked maxDecrees nextSeqNum) := by
  unfold tick
  rw [CountedLoop.run_eq_span below _ (by omega)]
  change (removeOld nextSeqNum maxDecrees _ _).bind _ = _
  rw [Nat.add_right_comm, removeOld_add_two]
  rfl

theorem tick_last (last : v.maxSeqNum = CountedLoop.last) (maxDecrees : UInt64) (fuel : Nat)
    (nextSeqNum : UInt64) : v.tick maxDecrees fuel nextSeqNum = none := by
  unfold tick
  rw [last, CountedLoop.run_last]
  rfl

theorem eq_ticked_of_tick {after : ValidatorQueues} {maxDecrees nextSeqNum : UInt64} {fuel : Nat}
    (ended : v.tick maxDecrees fuel nextSeqNum = some after) :
    after = v.ticked maxDecrees nextSeqNum := by
  obtain ⟨sent, sends, ended⟩ := Option.bind_eq_some_iff.mp ended
  obtain ⟨left, removes, ended⟩ := Option.bind_eq_some_iff.mp ended
  obtain ⟨-, rfl⟩ := CountedLoop.eq_of_run sends
  rw [eq_forget_of_removeOld removes] at ended
  exact (Option.some.inj ended).symm

/-- A tick sends the cached statements from the next sequence number up, and forgets what
is too old. -/
theorem ticked_spec (maxDecrees nextSeqNum : UInt64) (v : ValidatorQueues) :
    (v.ticked maxDecrees nextSeqNum).toValidator = v.toValidator ∧
      (v.ticked maxDecrees nextSeqNum).maxSeqNum = v.maxSeqNum ∧
      (v.ticked maxDecrees nextSeqNum).readyChan =
        v.readyChan ++ (CountedLoop.span nextSeqNum v.maxSeqNum).flatMap v.cached ∧
      ∀ seqNum, (v.ticked maxDecrees nextSeqNum).cached seqNum =
        if maxDecrees < nextSeqNum ∧ seqNum = nextSeqNum - maxDecrees then []
        else if seqNum ∈ CountedLoop.span nextSeqNum v.maxSeqNum then [] else v.cached seqNum := by
  obtain ⟨validator, maxSeqNum, ready, caches⟩ :=
    sendAll_spec (CountedLoop.nodup_span nextSeqNum v.maxSeqNum) v
  refine ⟨validator, maxSeqNum, ready, fun seqNum => ?_⟩
  rw [ticked, cached_forget, caches]

end ValidatorQueues

end Ticks

section Places

/-- How often the statement waits for a download or for `dispatch`. -/
def Validator.pending (v : Validator) (stmt : Statement) : Nat :=
  FinmapTotals.total (fun waiting => [waiting].count stmt) v.downloads + v.dispatchChan.count stmt

def ValidatorQueues.copies (v : ValidatorQueues) (stmt : Statement) : Nat :=
  v.pending stmt + (v.cached stmt.seqNum).count stmt + v.readyChan.count stmt

def ValidatorQueues.Sorted (v : ValidatorQueues) : Prop :=
  ∀ seqNum, ∀ stmt ∈ v.cached seqNum, stmt.seqNum = seqNum ∧ seqNum ≤ v.maxSeqNum

/-- Every statement is in one place at most, and the hash of one that is in some place is
known. -/
structure ValidatorQueues.Ordered (sha256Hash : Statement → Except String String)
    (v : ValidatorQueues) : Prop where
  known : ∀ stmt, 0 < v.copies stmt → ∃ hash ∈ v.statements, sha256Hash stmt = .ok hash
  once : ∀ stmt, v.copies stmt ≤ 1
  sorted : v.Sorted

variable {sha256Hash : Statement → Except String String} {v after : ValidatorQueues}

theorem ordered_newValidatorQueues : newValidatorQueues.Ordered sha256Hash := by
  have nowhere : ∀ stmt, newValidatorQueues.copies stmt = 0 := fun stmt => rfl
  refine ⟨fun stmt some => ?_, fun stmt => ?_, fun seqNum stmt found => ?_⟩
  · rw [nowhere] at some
    omega
  · exact Nat.zero_le 1
  · cases found

theorem ValidatorQueues.Ordered.moved (ordered : v.Ordered sha256Hash)
    (statements : after.statements = v.statements)
    (copies : ∀ stmt, after.copies stmt ≤ v.copies stmt) (sorted : after.Sorted) :
    after.Ordered sha256Hash where
  known stmt some := by
    rw [statements]
    exact ordered.known stmt (Nat.lt_of_lt_of_le some (copies stmt))
  once stmt := (copies stmt).trans (ordered.once stmt)
  sorted := sorted

theorem ValidatorQueues.Ordered.copies_of_fresh (ordered : v.Ordered sha256Hash)
    (hashed : sha256Hash stmt = .ok hash) (fresh : hash ∉ v.statements) : v.copies stmt = 0 := by
  by_contra some
  obtain ⟨other, known, same⟩ := ordered.known stmt (Nat.pos_of_ne_zero some)
  cases hashed.symm.trans same
  exact fresh known

/-- A step of the validator that learns the hash of a statement and adds at most one copy
of it. -/
theorem ValidatorQueues.Ordered.learned (ordered : v.Ordered sha256Hash)
    (hashed : sha256Hash stmt = .ok hash) (fresh : hash ∉ v.statements)
    (statements : validator.statements = hash :: v.statements)
    (pending : ∀ other, validator.pending other ≤ v.pending other + [stmt].count other) :
    ValidatorQueues.Ordered sha256Hash { v with toValidator := validator } := by
  have copies : ∀ other, ValidatorQueues.copies { v with toValidator := validator } other ≤
      v.copies other + [stmt].count other := by
    intro other
    have added := pending other
    change validator.pending other + (v.cached other.seqNum).count other +
      v.readyChan.count other ≤ _
    rw [ValidatorQueues.copies]
    omega
  have others : ∀ other, stmt ≠ other →
      ValidatorQueues.copies { v with toValidator := validator } other ≤ v.copies other := by
    intro other differs
    have bound := copies other
    rwa [List.count_singleton, if_neg (by simpa using differs)] at bound
  refine ⟨fun other some => ?_, fun other => ?_, ordered.sorted⟩
  · rw [statements]
    by_cases same : stmt = other
    · exact ⟨hash, .head _, same ▸ hashed⟩
    · obtain ⟨otherHash, known, hashes⟩ := ordered.known other
        (Nat.lt_of_lt_of_le some (others other same))
      exact ⟨otherHash, .tail hash known, hashes⟩
  · by_cases same : stmt = other
    · subst same
      have bound := copies stmt
      rwa [ordered.copies_of_fresh hashed fresh, List.count_singleton_self] at bound
    · exact (others other same).trans (ordered.once other)

theorem ValidatorQueues.Ordered.recv (ordered : v.Ordered sha256Hash)
    (received : v.toValidator.Received sha256Hash validator) :
    ValidatorQueues.Ordered sha256Hash { v with toValidator := validator } := by
  cases received with
  | ignored => exact ordered
  | failed stmt hash hashed fresh =>
    exact ordered.learned hashed fresh rfl fun other => Nat.le_add_right _ _
  | complete stmt hash hashed fresh =>
    refine ordered.learned hashed fresh rfl fun other => ?_
    unfold Validator.pending
    rw [List.count_append]
    exact (Nat.add_assoc _ _ _).ge
  | lacking stmt hash hashed fresh =>
    refine ordered.learned hashed fresh rfl fun other => ?_
    have inserted := FinmapTotals.total_insert (fun waiting => [waiting].count other)
      v.downloads hash stmt
    unfold Validator.pending
    dsimp only at inserted ⊢
    omega

/-- A step of the validator that learns no hash and adds no pending statement. -/
structure Validator.Shifted (validator after : Validator) : Prop where
  statements : after.statements = validator.statements
  pending : ∀ stmt, after.pending stmt ≤ validator.pending stmt

theorem Validator.Shifted.refl (validator : Validator) : validator.Shifted validator :=
  ⟨rfl, fun _ => le_refl _⟩

theorem Validator.Shifted.trans {first second third : Validator} (early : first.Shifted second)
    (late : second.Shifted third) : first.Shifted third :=
  ⟨late.statements.trans early.statements,
    fun stmt => (late.pending stmt).trans (early.pending stmt)⟩

theorem ValidatorQueues.Ordered.shifted (ordered : v.Ordered sha256Hash)
    (shifted : v.toValidator.Shifted validator) :
    ValidatorQueues.Ordered sha256Hash { v with toValidator := validator } := by
  refine ordered.moved shifted.statements (fun stmt => ?_) ordered.sorted
  have less := shifted.pending stmt
  change validator.pending stmt + (v.cached stmt.seqNum).count stmt + v.readyChan.count stmt ≤ _
  rw [ValidatorQueues.copies]
  omega

theorem Validator.shifted_completed (found : validator.downloads.lookup hash = some stmt) :
    validator.Shifted { validator with
      dispatchChan := validator.dispatchChan ++ [stmt]
      downloads := validator.downloads.erase hash } := by
  refine ⟨rfl, fun other => ?_⟩
  have erased := FinmapTotals.total_erase (fun waiting => [waiting].count other)
    validator.downloads hash
  rw [FinmapTotals.held, found, Option.elim_some] at erased
  unfold Validator.pending
  dsimp only at erased ⊢
  rw [List.count_append]
  omega

theorem Validator.shifted_monitor (ctx : DecreeContext) (vctx : ValidatorContext) (world : World)
    (order : List String) : Steps Validator.Shifted (Validator.monitor ctx vctx world order) := by
  induction order with
  | nil => exact .pure Shifted.refl ()
  | cons hash rest ih =>
    intro validator
    rw [Validator.monitor, holds_bind, holds_get]
    cases found : validator.downloads.lookup hash with
    | none => exact ih validator
    | some stmt =>
      rw [holds_bind]
      refine holds_lift (fun verdict _ => ?_) (fun _ _ => Shifted.refl validator)
      split
      · have completed := shifted_completed found
        exact (ih _).mono (fun _ _ shifted => completed.trans shifted)
          (fun _ _ shifted => completed.trans shifted)
      · exact ih validator

theorem Validator.shifted_download (ctx : DecreeContext) (vctx : ValidatorContext)
    (world : World) : Steps Validator.Shifted (Validator.download ctx vctx world) := by
  intro validator
  rw [Validator.download, holds_bind, holds_get]
  cases validator.downloadChan with
  | nil => exact Shifted.refl validator
  | cons stmt rest =>
    rw [holds_bind, holds_modify]
    have taken : validator.Shifted { validator with downloadChan := rest } :=
      ⟨rfl, fun _ => le_refl _⟩
    rw [holds_bind]
    refine holds_lift (fun quorumHash _ => ?_) (fun _ _ => taken)
    rw [holds_bind]
    exact holds_lift (fun txsetHashes _ => taken) (fun _ _ => taken)

namespace ValidatorQueues

theorem copies_handOn (v : ValidatorQueues) (stmt other : Statement) :
    (v.handOn stmt).copies other = v.copies other + [stmt].count other := by
  change v.pending other + (v.cached other.seqNum).count other +
    (v.readyChan ++ [stmt]).count other = _
  rw [List.count_append, copies]
  omega

theorem cached_store (v : ValidatorQueues) (stmt : Statement) (seqNum : UInt64) :
    (v.store stmt).cached seqNum =
      if seqNum = stmt.seqNum then v.cached stmt.seqNum ++ [stmt] else v.cached seqNum :=
  v.cached_insert stmt.seqNum (v.cached stmt.seqNum ++ [stmt]) seqNum

theorem copies_store (v : ValidatorQueues) (stmt other : Statement) :
    (v.store stmt).copies other = v.copies other + [stmt].count other := by
  change v.pending other + ((v.store stmt).cached other.seqNum).count other +
    v.readyChan.count other = _
  rw [cached_store, copies]
  split_ifs with same
  · rw [List.count_append, same]
    omega
  · have differs : other ∉ [stmt] := fun member => same (by rw [List.mem_singleton.mp member])
    rw [List.count_eq_zero.mpr differs, Nat.add_zero]

theorem Sorted.store (sorted : v.Sorted) (stmt : Statement) : (v.store stmt).Sorted := by
  have higher : v.maxSeqNum ≤ (v.store stmt).maxSeqNum ∧
      stmt.seqNum ≤ (v.store stmt).maxSeqNum := by
    unfold ValidatorQueues.store
    split_ifs with above
    · exact ⟨UInt64.le_of_lt above, UInt64.le_refl _⟩
    · exact ⟨UInt64.le_refl _, UInt64.not_lt.mp above⟩
  intro seqNum other found
  rw [cached_store] at found
  split_ifs at found with same
  · rcases List.mem_append.mp found with before | new
    · obtain ⟨own, below⟩ := sorted stmt.seqNum other before
      exact ⟨own.trans same.symm, same ▸ UInt64.le_trans below higher.1⟩
    · rw [List.mem_singleton.mp new]
      exact ⟨same.symm, same ▸ higher.2⟩
  · obtain ⟨own, below⟩ := sorted seqNum other found
    exact ⟨own, UInt64.le_trans below higher.1⟩

theorem Ordered.dispatch (ordered : v.Ordered sha256Hash) (nextSeqNum : UInt64) :
    (v.dispatch nextSeqNum).Ordered sha256Hash := by
  unfold ValidatorQueues.dispatch
  cases queue : v.dispatchChan with
  | nil => exact ordered
  | cons stmt rest =>
    have taken : ∀ other, copies { v with dispatchChan := rest } other + [stmt].count other =
        v.copies other := by
      intro other
      have first : (stmt :: rest).count other = [stmt].count other + rest.count other := by
        rw [← List.count_append, List.singleton_append]
      rw [copies, copies, Validator.pending, Validator.pending, queue]
      change _ + rest.count other + (v.cached other.seqNum).count other +
        v.readyChan.count other + _ = _
      dsimp only
      omega
    dsimp only
    split_ifs with next
    · refine ordered.moved rfl (fun other => ?_) ordered.sorted
      rw [copies_handOn, taken]
    · refine ordered.moved rfl (fun other => ?_) (Sorted.store ordered.sorted stmt)
      rw [copies_store, taken]

theorem Sorted.count_flatMap (sorted : v.Sorted) {seqNums : List UInt64} (nodup : seqNums.Nodup)
    (stmt : Statement) :
    (seqNums.flatMap v.cached).count stmt =
      if stmt.seqNum ∈ seqNums then (v.cached stmt.seqNum).count stmt else 0 := by
  induction seqNums with
  | nil => rfl
  | cons seqNum rest ih =>
    obtain ⟨apart, restNodup⟩ := List.nodup_cons.mp nodup
    rw [List.flatMap_cons, List.count_append, ih restNodup]
    by_cases first : stmt.seqNum = seqNum
    · rw [first, if_neg apart, if_pos (.head _), Nat.add_zero]
    · have elsewhere : stmt ∉ v.cached seqNum := fun found => first (sorted seqNum stmt found).1
      rw [List.count_eq_zero.mpr elsewhere]
      simp [first]

theorem Ordered.tick (ordered : v.Ordered sha256Hash) (maxDecrees nextSeqNum : UInt64) :
    (v.ticked maxDecrees nextSeqNum).Ordered sha256Hash := by
  obtain ⟨validator, maxSeqNum, ready, caches⟩ := v.ticked_spec maxDecrees nextSeqNum
  refine ordered.moved (congrArg Validator.statements validator) (fun stmt => ?_)
    (fun seqNum stmt found => ?_)
  · have sent := ordered.sorted.count_flatMap (CountedLoop.nodup_span nextSeqNum v.maxSeqNum) stmt
    rw [copies, copies, validator, ready, List.count_append, caches, sent]
    split_ifs <;> simp <;> omega
  · rw [caches] at found
    split_ifs at found
    · cases found
    · cases found
    · rw [maxSeqNum]
      exact ordered.sorted seqNum stmt found

end ValidatorQueues

variable {maxDecrees : UInt64}

theorem ordered_step (ordered : v.Ordered sha256Hash)
    (step : ValidatorStep sha256Hash maxDecrees v after) : after.Ordered sha256Hash := by
  cases step with
  | recv ctx vctx world stmt hashes ended =>
    exact ordered.recv (hashes ▸ received_of_recv ended)
  | monitor ctx vctx world order ended =>
    exact ordered.shifted ((holds_of_done ended).mp
      (Validator.shifted_monitor ctx vctx world order v.toValidator))
  | download ctx vctx world ended =>
    exact ordered.shifted ((holds_of_done ended).mp
      (Validator.shifted_download ctx vctx world v.toValidator))
  | dispatch nextSeqNum => exact ordered.dispatch nextSeqNum
  | tick fuel nextSeqNum ended =>
    rw [ValidatorQueues.eq_ticked_of_tick ended]
    exact ordered.tick maxDecrees nextSeqNum

theorem ordered_run
    (run : Relation.ReflTransGen (ValidatorStep sha256Hash maxDecrees) newValidatorQueues v) :
    v.Ordered sha256Hash := by
  induction run with
  | refl => exact ordered_newValidatorQueues
  | tail _ step ih => exact ordered_step ih step

end Places

end Ultiledger
