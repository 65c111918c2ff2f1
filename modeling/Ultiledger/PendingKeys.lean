import Ultiledger.PeerRequests
import Ultiledger.PoolCalls

/-! # The keys of pending transactions -/

namespace Ultiledger

open FinmapTotals

variable {changedID : String} {th : TxHistory} {guarded : GuardedServer}

def getTxKey (b58 : TextCodec) (sha256HashBytes : Tx → Except String (List UInt8)) (tx : Tx) :
    Except String String :=
  match sha256HashBytes tx with
  | .error err => .error err
  | .ok hash => .ok (encodeKey b58 ⟨.tx, hash⟩)

def keyedContext (b58 : TextCodec) (ctx : ServerContext) : ServerContext :=
  { ctx with decodeKey := decodeKey b58, getTxKey := getTxKey b58 ctx.sha256HashBytes }

section Offers

variable (ctx : ServerContext)

def Request.offered (server : NodeServer) : Request → Option (String × Tx)
  | .hello _ _ => none
  | .submitTx req => do
    guard (ctx.networkID = req.networkID)
    let tx ← ctx.decodeTx req.data
    let accKey ← ctx.decodeKey tx.accountID
    guard (accKey.code = .accountID)
    guard (ctx.verifyByKey accKey req.signature req.data = true)
    let txKey ← ctx.decodeKey req.txKey
    let txHash ← (ctx.sha256HashBytes tx).toOption
    guard (txHash = txKey.hash)
    pure (req.txKey, tx)
  | .notify md req => do
    let _ ← (validate ctx server md req.data req.signature req.networkID).toOption
    guard (req.msgType = .tx)
    let tx ← ctx.decodeTx req.data
    let txKey ← (ctx.getTxKey tx).toOption
    pure (txKey, tx)

variable {ctx} {view : ServerView} {server : NodeServer}

theorem pool_hello (md : Option Metadata) (networkID : String) :
    (hello ctx md networkID server).1.pool = server.pool := by
  unfold hello
  split_ifs
  · rfl
  rcases md with _ | ⟨_ | ⟨addr, addrs⟩, _ | ⟨nodeID, nodeIDs⟩⟩
  · rfl
  · rfl
  · rfl
  · rfl
  · dsimp only
    cases ctx.decodeKey nodeID with
    | none => rfl
    | some k =>
      dsimp only
      split_ifs <;> rfl

theorem pool_submitTx (req : SubmitTxRequest) :
    (submitTx ctx view req server).1.pool =
      ((Request.submitTx req).offered ctx server).elim server.pool fun offered =>
        (addTx ctx.baseReserve view.toPoolView offered.1 offered.2 server.pool).1 := by
  unfold submitTx
  by_cases network : ctx.networkID = req.networkID
  swap
  · simp [Request.offered, network]
  cases decoded : ctx.decodeTx req.data with
  | none => simp [Request.offered, network, decoded]
  | some tx =>
    cases named : ctx.decodeKey tx.accountID with
    | none => simp [Request.offered, network, decoded, named]
    | some accKey =>
      by_cases isAccount : accKey.code = .accountID
      swap
      · simp [Request.offered, network, decoded, named, isAccount]
      by_cases verified : ctx.verifyByKey accKey req.signature req.data = true
      swap
      · simp [Request.offered, network, decoded, named, isAccount, verified]
      cases keyed : ctx.decodeKey req.txKey with
      | none => simp [Request.offered, network, decoded, named, isAccount, verified, keyed]
      | some txKey =>
        cases hashed : ctx.sha256HashBytes tx with
        | error err =>
          simp [Request.offered, network, decoded, named, isAccount, verified, keyed,
            hashed, Except.toOption]
        | ok txHash =>
          by_cases same : txHash = txKey.hash
          · simp [Request.offered, network, decoded, named, isAccount, verified, keyed,
              hashed, Except.toOption, same, sendToPool]
          · simp [Request.offered, network, decoded, named, isAccount, verified, keyed,
              hashed, Except.toOption, same]

theorem pool_notify (md : Option Metadata) (req : NotifyRequest) :
    (notify ctx view md req server).1.pool =
      ((Request.notify md req).offered ctx server).elim server.pool fun offered =>
        (addTx ctx.baseReserve view.toPoolView offered.1 offered.2 server.pool).1 := by
  unfold notify
  cases accepted : validate ctx server md req.data req.signature req.networkID with
  | error err => simp [Request.offered, accepted, Except.toOption]
  | ok done =>
    cases msgType : req.msgType with
    | other => simp [Request.offered, accepted, Except.toOption, msgType]
    | statement =>
      cases ctx.decodeStatement req.data with
      | none => simp [Request.offered, accepted, Except.toOption, msgType]
      | some stmt => simp [Request.offered, accepted, Except.toOption, msgType]
    | tx =>
      cases decoded : ctx.decodeTx req.data with
      | none => simp [Request.offered, accepted, Except.toOption, msgType, decoded]
      | some tx =>
        cases keyed : ctx.getTxKey tx with
        | error err => simp [Request.offered, accepted, Except.toOption, msgType, decoded, keyed]
        | ok txKey =>
          simp [Request.offered, accepted, Except.toOption, msgType, decoded, keyed,
            sendToPool]

theorem pool_handle (request : Request) :
    (handle ctx view request server).1.pool =
      (request.offered ctx server).elim server.pool fun offered =>
        (addTx ctx.baseReserve view.toPoolView offered.1 offered.2 server.pool).1 := by
  cases request with
  | hello md networkID => exact pool_hello md networkID
  | submitTx req => exact pool_submitTx req
  | notify md req => exact pool_notify md req

end Offers

section Filed

def Pool.Files (pool : Pool) (accountID txKey : String) (tx : Tx) : Prop :=
  ∃ history, pool.accTxMap.lookup accountID = some history ∧ history.txMap.lookup txKey = some tx

variable {pool after : Pool} {accountID txKey : String} {tx : Tx}

theorem Pool.holds_iff : pool.Holds tx ↔ ∃ accountID txKey, pool.Files accountID txKey tx := by
  constructor
  · rintro ⟨accountID, history, txKey, found, listed⟩
    exact ⟨accountID, txKey, history, found, listed⟩
  · rintro ⟨accountID, txKey, history, found, listed⟩
    exact ⟨accountID, history, txKey, found, listed⟩

theorem Pool.files_of_history (listed : (pool.history accountID).txMap.lookup txKey = some tx) :
    pool.Files accountID txKey tx := by
  unfold Pool.history at listed
  cases found : pool.accTxMap.lookup accountID with
  | none =>
    rw [found, newTxHistory] at listed
    simp at listed
  | some history =>
    rw [found] at listed
    exact ⟨history, found, listed⟩

theorem Pool.files_of_insert {txSet : Finset String} {history : TxHistory}
    (filed : Pool.Files ⟨txSet, pool.accTxMap.insert changedID history⟩ accountID txKey tx) :
    (accountID = changedID ∧ history.txMap.lookup txKey = some tx) ∨
      (accountID ≠ changedID ∧ pool.Files accountID txKey tx) := by
  obtain ⟨other, found, listed⟩ := filed
  by_cases same : accountID = changedID
  · subst same
    rw [Finmap.lookup_insert] at found
    cases found
    exact .inl ⟨rfl, listed⟩
  · rw [Finmap.lookup_insert_of_ne _ same] at found
    exact .inr ⟨same, other, found, listed⟩

theorem Pool.files_of_admission {baseReserve : Int64} {bucket : Bucket} {newKey : String} {new : Tx}
    (admission : Admission baseReserve bucket newKey new pool after)
    (filed : after.Files accountID txKey tx) :
    pool.Files accountID txKey tx ∨ (accountID = new.accountID ∧ txKey = newKey ∧ tx = new) := by
  cases admission with
  | ignored => exact .inl filed
  | opened =>
    rcases files_of_insert filed with ⟨rfl, listed⟩ | ⟨-, before⟩
    · exact .inl (files_of_history listed)
    · exact .inl before
  | filed acc fresh admissible =>
    rcases files_of_insert filed with ⟨rfl, listed⟩ | ⟨-, before⟩
    · by_cases same : txKey = newKey
      · subst same
        rw [Finmap.lookup_insert] at listed
        exact .inr ⟨rfl, rfl, (Option.some.inj listed).symm⟩
      · rw [Finmap.lookup_insert_of_ne _ same] at listed
        exact .inl (files_of_history listed)
    · exact .inl before

theorem Pool.lookup_drop_ne (th : TxHistory) (txKeys : List String)
    (other : accountID ≠ changedID) :
    (pool.drop changedID th txKeys).accTxMap.lookup accountID = pool.accTxMap.lookup accountID := by
  unfold Pool.drop
  dsimp only
  split_ifs
  · exact Finmap.lookup_erase_ne other
  · exact Finmap.lookup_insert_of_ne _ other

theorem Pool.mem_drop_ne (th : TxHistory) (txKeys : List String) (other : accountID ≠ changedID) :
    accountID ∈ (pool.drop changedID th txKeys).accTxMap ↔ accountID ∈ pool.accTxMap := by
  rw [Finmap.mem_iff, Finmap.mem_iff, lookup_drop_ne th txKeys other]

theorem TxHistory.lookup_deleteTxList (th : TxHistory) (txKeys : List String) (txKey : String) :
    (th.deleteTxList txKeys).txMap.lookup txKey =
      if txKey ∈ txKeys then none else th.txMap.lookup txKey :=
  lookup_eraseAll txKeys th.txMap txKey

theorem TxHistory.size_eq_zero_iff : th.size = 0 ↔ ∀ txKey, th.txMap.lookup txKey = none := by
  rw [TxHistory.size, Finset.card_eq_zero, Finset.eq_empty_iff_forall_notMem]
  refine forall_congr' fun txKey => ?_
  rw [Finmap.mem_keys, Finmap.lookup_eq_none]

theorem Pool.lookup_drop (th : TxHistory) (txKeys : List String) :
    (pool.drop accountID th txKeys).accTxMap.lookup accountID =
      if (th.deleteTxList txKeys).size = 0 then none else some (th.deleteTxList txKeys) := by
  unfold Pool.drop
  dsimp only
  split_ifs
  · exact Finmap.lookup_erase accountID pool.accTxMap
  · exact Finmap.lookup_insert pool.accTxMap

theorem Pool.files_drop_iff {txKeys : List String}
    (found : pool.accTxMap.lookup changedID = some th) :
    (pool.drop changedID th txKeys).Files accountID txKey tx ↔
      pool.Files accountID txKey tx ∧ (accountID = changedID → txKey ∉ txKeys) := by
  by_cases same : accountID = changedID
  · subst same
    constructor
    · rintro ⟨history, foundAfter, listed⟩
      rw [lookup_drop] at foundAfter
      split_ifs at foundAfter
      cases foundAfter
      rw [TxHistory.lookup_deleteTxList] at listed
      split_ifs at listed with deleted
      exact ⟨⟨th, found, listed⟩, fun _ => deleted⟩
    · rintro ⟨⟨history, foundBefore, listed⟩, spared⟩
      cases found.symm.trans foundBefore
      have left : (th.deleteTxList txKeys).txMap.lookup txKey = some tx := by
        rw [TxHistory.lookup_deleteTxList, if_neg (spared rfl), listed]
      have filled : ¬ (th.deleteTxList txKeys).size = 0 := by
        intro empty
        rw [TxHistory.size_eq_zero_iff.mp empty txKey] at left
        cases left
      exact ⟨th.deleteTxList txKeys, by rw [lookup_drop, if_neg filled], left⟩
  · unfold Pool.Files
    rw [lookup_drop_ne th txKeys same]
    exact ⟨fun filed => ⟨filed, fun equal => absurd equal same⟩, And.left⟩

theorem Pool.mem_drop_iff {txKeys : List String}
    (found : pool.accTxMap.lookup changedID = some th) :
    accountID ∈ (pool.drop changedID th txKeys).accTxMap ↔
      accountID ∈ pool.accTxMap ∧ (accountID = changedID →
        ∃ txKey tx, (pool.drop changedID th txKeys).Files accountID txKey tx) := by
  by_cases same : accountID = changedID
  · subst same
    constructor
    · intro stays
      refine ⟨Finmap.mem_iff.mpr ⟨th, found⟩, fun _ => ?_⟩
      obtain ⟨history, foundAfter⟩ := Finmap.mem_iff.mp stays
      have left := foundAfter
      rw [lookup_drop] at left
      split_ifs at left with empty
      cases left
      rw [TxHistory.size_eq_zero_iff, not_forall] at empty
      obtain ⟨txKey, listed⟩ := empty
      obtain ⟨tx, listed⟩ := Option.ne_none_iff_exists'.mp listed
      exact ⟨txKey, tx, _, foundAfter, listed⟩
    · rintro ⟨-, left⟩
      obtain ⟨txKey, tx, history, foundAfter, -⟩ := left rfl
      exact Finmap.mem_iff.mpr ⟨history, foundAfter⟩
  · rw [mem_drop_ne th txKeys same]
    exact ⟨fun present => ⟨present, fun equal => absurd equal same⟩, And.left⟩

/-- The keys of some accounts are gone, and so are those accounts that have nothing else. -/
structure Pool.Cleared (keysOf : String → List String) (accounts : List String)
    (before after : Pool) : Prop where
  files : ∀ accountID txKey tx, after.Files accountID txKey tx ↔
    before.Files accountID txKey tx ∧ (accountID ∈ accounts → txKey ∉ keysOf accountID)
  stays : ∀ accountID, accountID ∈ after.accTxMap ↔
    accountID ∈ before.accTxMap ∧
      (accountID ∈ accounts → ∃ txKey tx, after.Files accountID txKey tx)

theorem Pool.Cleared.cons {keysOf : String → List String} {first : String} {rest : List String}
    (found : pool.accTxMap.lookup first = some th) (apart : first ∉ rest)
    (cleared : Pool.Cleared keysOf rest (pool.drop first th (keysOf first)) after) :
    Pool.Cleared keysOf (first :: rest) pool after where
  files accountID txKey tx := by
    rw [cleared.files, files_drop_iff found, and_assoc, List.mem_cons, or_imp]
    refine and_congr_right fun _ => and_congr_left fun _ => ?_
    exact forall_congr' fun same => by rw [same]
  stays accountID := by
    rw [cleared.stays, mem_drop_iff found, and_assoc, List.mem_cons, or_imp]
    refine and_congr_right fun _ => and_congr_left fun _ => ?_
    refine forall_congr' fun same => exists_congr fun txKey => exists_congr fun tx => ?_
    rw [cleared.files]
    exact (and_iff_left fun later => absurd (same ▸ later) apart).symm

theorem deleteAccounts_of_present {keysOf : String → List String} {accounts : List String}
    (nodup : accounts.Nodup) (present : ∀ accountID ∈ accounts, accountID ∈ pool.accTxMap) :
    ∃ after, deleteAccounts keysOf accounts ⟨pool, false⟩ = (⟨after, false⟩, true) ∧
      pool.Cleared keysOf accounts after := by
  induction accounts generalizing pool with
  | nil => exact ⟨pool, rfl, fun accountID txKey tx => by simp, fun accountID => by simp⟩
  | cons first rest ih =>
    obtain ⟨apart, restNodup⟩ := List.nodup_cons.mp nodup
    obtain ⟨th, found⟩ := Finmap.mem_iff.mp (present first (.head _))
    have stillPresent : ∀ accountID ∈ rest,
        accountID ∈ (pool.drop first th (keysOf first)).accTxMap := by
      intro accountID later
      have other : accountID ≠ first := fun equal => apart (equal ▸ later)
      rw [Pool.mem_drop_ne th _ other]
      exact present accountID (.tail _ later)
    obtain ⟨after, ended, cleared⟩ := ih restNodup stillPresent
    refine ⟨after, ?_, cleared.cons found apart⟩
    rw [deleteAccounts]
    simp only [found]
    exact ended

def Pool.Keyed (getTxKey : Tx → Except String String) (pool : Pool) : Prop :=
  ∀ accountID txKey tx, pool.Files accountID txKey tx →
    tx.accountID = accountID ∧ getTxKey tx = .ok txKey

variable {getTxKey : Tx → Except String String}

theorem Pool.files_of_mem {entry : Sigma fun _ : String => TxHistory}
    (entryMem : entry ∈ pool.accTxMap.entries) {filed : Sigma fun _ : String => Tx}
    (filedMem : filed ∈ entry.2.txMap.entries) : pool.Files entry.1 filed.1 filed.2 :=
  ⟨entry.2, Finmap.mem_lookup_iff.mpr entryMem, Finmap.mem_lookup_iff.mpr filedMem⟩

theorem Pool.Keyed.nodup_getTxList (keyed : pool.Keyed getTxKey) : pool.getTxList.Nodup := by
  unfold Pool.getTxList
  rw [Multiset.nodup_bind]
  constructor
  · intro entry entryMem
    refine Multiset.Nodup.map_on ?_ entry.2.txMap.nodupKeys.nodup
    intro first firstMem second secondMem same
    have firstKey := (keyed _ _ _ (files_of_mem entryMem firstMem)).2
    have secondKey := (keyed _ _ _ (files_of_mem entryMem secondMem)).2
    rw [same, secondKey] at firstKey
    exact Sigma.ext (Except.ok.inj firstKey).symm (heq_of_eq same)
  · refine pool.accTxMap.nodupKeys.nodup.pairwise ?_
    intro entry entryMem other otherMem apart
    refine Multiset.disjoint_left.mpr ?_
    intro tx inEntry inOther
    obtain ⟨filed, filedMem, rfl⟩ := Multiset.mem_map.mp inEntry
    obtain ⟨twin, twinMem, same⟩ := Multiset.mem_map.mp inOther
    have entryID := (keyed _ _ _ (files_of_mem entryMem filedMem)).1
    have otherID := (keyed _ _ _ (files_of_mem otherMem twinMem)).1
    rw [same, entryID] at otherID
    have entryFound := Finmap.mem_lookup_iff.mpr entryMem
    have otherFound := Finmap.mem_lookup_iff.mpr otherMem
    rw [otherID] at entryFound
    exact apart (Sigma.ext otherID (heq_of_eq (Option.some.inj (entryFound.symm.trans otherFound))))

theorem Pool.Keyed.deleteTxList (keyed : pool.Keyed getTxKey)
    {order : List String → List String} (permuted : ∀ accounts, (order accounts).Perm accounts)
    {txList : List Tx} (present : ∀ tx ∈ txList, tx.accountID ∈ pool.accTxMap) :
    ∃ after : Pool, GuardedPool.deleteTxList getTxKey order txList ⟨pool, false⟩ =
        (⟨after, false⟩, true) ∧
      after.Keyed getTxKey ∧ ∀ tx ∈ txList, ¬ after.Holds tx := by
  have visited := permuted (txList.map Tx.accountID).dedup
  have presentIDs : ∀ accountID ∈ order (txList.map Tx.accountID).dedup,
      accountID ∈ pool.accTxMap := by
    intro accountID accountMem
    obtain ⟨tx, txMem, rfl⟩ := List.mem_map.mp (List.mem_dedup.mp (visited.mem_iff.mp accountMem))
    exact present tx txMem
  obtain ⟨after, ended, cleared⟩ := @deleteAccounts_of_present pool (keysOfList getTxKey txList) _
    (visited.nodup_iff.mpr (List.nodup_dedup _)) presentIDs
  refine ⟨after, ended, fun accountID txKey tx filed =>
    keyed accountID txKey tx ((cleared.files accountID txKey tx).mp filed).1, ?_⟩
  intro tx txMem held
  obtain ⟨accountID, txKey, filed⟩ := Pool.holds_iff.mp held
  obtain ⟨filedBefore, spared⟩ := (cleared.files accountID txKey tx).mp filed
  obtain ⟨rfl, keyIs⟩ := keyed accountID txKey tx filedBefore
  apply spared
  · exact visited.mem_iff.mpr (List.mem_dedup.mpr (List.mem_map_of_mem txMem))
  · refine List.mem_map.mpr ⟨tx, List.mem_filter.mpr ⟨txMem, by simp⟩, ?_⟩
    rw [keyIs]
    rfl

end Filed

/-- An order in which a map with the accounts as its keys may be traversed. -/
structure Traversal where
  order : List String → List String
  permuted : ∀ accounts, (order accounts).Perm accounts

structure GuardedServer where
  server : NodeServer
  rwmHeld : Bool

def GuardedServer.new : GuardedServer := ⟨newNodeServer, false⟩

/-- A call of the node, with what it sees of the rest or the order of the accounts. -/
inductive NodeCall where
  | request (view : ServerView) (request : Request)
  | deleteTxList (txList : List Tx) (traversal : Traversal)

section Calls

variable (ctx : ServerContext)

/-- A request to the server, which waits for the lock when it has a transaction to file,
and whether it is answered. -/
def GuardedServer.handle (view : ServerView) (request : Request) (guarded : GuardedServer) :
    GuardedServer × Bool :=
  let next := (Ultiledger.handle ctx view request guarded.server).1
  match request.offered ctx guarded.server with
  | none => (⟨next, guarded.rwmHeld⟩, true)
  | some (txKey, tx) =>
    let added := GuardedPool.addTx ctx.baseReserve view.toPoolView txKey tx
      ⟨guarded.server.pool, guarded.rwmHeld⟩
    (⟨{ next with pool := added.1.pool }, added.1.rwmHeld⟩, added.2.isSome)

def NodeCall.run : NodeCall → GuardedServer → GuardedServer × Bool
  | .request view asked, guarded => guarded.handle ctx view asked
  | .deleteTxList txList traversal, guarded =>
    let deleted := GuardedPool.deleteTxList ctx.getTxKey traversal.order txList
      ⟨guarded.server.pool, guarded.rwmHeld⟩
    (⟨{ guarded.server with pool := deleted.1.pool }, deleted.1.rwmHeld⟩, deleted.2)

variable {ctx}

theorem GuardedServer.handle_of_free (view : ServerView) (request : Request) (server : NodeServer) :
    GuardedServer.handle ctx view request ⟨server, false⟩ =
      (⟨(Ultiledger.handle ctx view request server).1, false⟩, true) := by
  have pools := @pool_handle ctx view server request
  unfold GuardedServer.handle
  cases offered : request.offered ctx server with
  | none => rfl
  | some offer =>
    rw [offered, Option.elim_some] at pools
    dsimp only
    rw [GuardedPool.addTx_of_free, ← pools]
    rfl

end Calls

section Runs

variable (b58 : TextCodec) (ctx : ServerContext)

/-- A client names a key of the type for transactions by the text of its 33 bytes, and
every account of a deletion has a history. -/
def NodeCall.Canonical (guarded : GuardedServer) : NodeCall → Prop
  | .request _ (.submitTx req) => ∀ ultKey, decodeKey b58 req.txKey = some ultKey →
      ultKey.code = .tx ∧ (b58.decode req.txKey).map List.length = some 33
  | .request _ _ => True
  | .deleteTxList txList _ => ∀ tx ∈ txList, tx.accountID ∈ guarded.server.pool.accTxMap

def CanonicalCall (guarded after : GuardedServer) : Prop :=
  ∃ call : NodeCall, call.Canonical b58 guarded ∧
    after = (NodeCall.run (keyedContext b58 ctx) call guarded).1

structure GuardedServer.Sound (guarded : GuardedServer) : Prop where
  free : guarded.rwmHeld = false
  keyed : guarded.server.pool.Keyed (getTxKey b58 ctx.sha256HashBytes)

variable {b58 ctx}

theorem getTxKey_of_offered {view : ServerView} {request : Request}
    (canonical : (NodeCall.request view request).Canonical b58 guarded) {txKey : String} {tx : Tx}
    (offered : request.offered (keyedContext b58 ctx) guarded.server = some (txKey, tx)) :
    getTxKey b58 ctx.sha256HashBytes tx = .ok txKey := by
  cases request with
  | hello md networkID => simp [Request.offered] at offered
  | submitTx req =>
    simp only [Request.offered, Option.bind_eq_bind, Option.bind_eq_some_iff,
      Option.guard_eq_some', Option.pure_def, Option.some.injEq, Prod.mk.injEq] at offered
    obtain ⟨-, -, offeredTx, -, -, -, -, -, -, -, ultKey, read, hash, hashed, -, same, rfl, rfl⟩ :=
      offered
    obtain ⟨isTx, exact33⟩ := canonical ultKey read
    obtain ⟨code, keyHash⟩ := ultKey
    subst same isTx
    cases computed : ctx.sha256HashBytes offeredTx with
    | error err => simp [keyedContext, computed, Except.toOption] at hashed
    | ok digest =>
      simp only [keyedContext, computed, Except.toOption, Option.some.injEq] at hashed
      subst hashed
      rw [getTxKey, computed]
      exact congrArg Except.ok ((encodeKey_eq_iff b58 read).mpr exact33)
  | notify md req =>
    simp only [Request.offered, Option.bind_eq_bind, Option.bind_eq_some_iff,
      Option.guard_eq_some', Option.pure_def, Option.some.injEq, Prod.mk.injEq] at offered
    obtain ⟨-, -, -, -, offeredTx, -, key, keyed, rfl, rfl⟩ := offered
    change (getTxKey b58 ctx.sha256HashBytes offeredTx).toOption = some key at keyed
    cases computed : getTxKey b58 ctx.sha256HashBytes offeredTx with
    | error err => simp [computed, Except.toOption] at keyed
    | ok txKey =>
      rw [computed] at keyed
      exact congrArg Except.ok (Option.some.inj keyed)

theorem sound_request {view : ServerView} {request : Request} (sound : guarded.Sound b58 ctx)
    (canonical : (NodeCall.request view request).Canonical b58 guarded) :
    (guarded.handle (keyedContext b58 ctx) view request).1.Sound b58 ctx := by
  obtain ⟨server, rwmHeld⟩ := guarded
  obtain rfl : rwmHeld = false := sound.free
  rw [GuardedServer.handle_of_free]
  refine ⟨rfl, ?_⟩
  intro accountID txKey tx filed
  rw [pool_handle] at filed
  cases offered : request.offered (keyedContext b58 ctx) server with
  | none =>
    rw [offered] at filed
    exact sound.keyed accountID txKey tx filed
  | some offer =>
    rw [offered] at filed
    have admission := admission_addTx (keyedContext b58 ctx).baseReserve view.toPoolView
      offer.1 offer.2 ⟨server.pool, false⟩
    rw [GuardedPool.addTx_of_free] at admission
    rcases Pool.files_of_admission admission filed with before | ⟨rfl, rfl, rfl⟩
    · exact sound.keyed accountID txKey tx before
    · exact ⟨rfl, getTxKey_of_offered canonical offered⟩

theorem run_deleteTxList (sound : guarded.Sound b58 ctx) {txList : List Tx} {traversal : Traversal}
    (canonical : (NodeCall.deleteTxList txList traversal).Canonical b58 guarded) :
    ∃ after : Pool, (NodeCall.deleteTxList txList traversal).run (keyedContext b58 ctx) guarded =
        (⟨{ guarded.server with pool := after }, false⟩, true) ∧
      after.Keyed (getTxKey b58 ctx.sha256HashBytes) ∧ ∀ tx ∈ txList, ¬ after.Holds tx := by
  obtain ⟨server, rwmHeld⟩ := guarded
  obtain rfl : rwmHeld = false := sound.free
  obtain ⟨after, deleted, keyed, gone⟩ := sound.keyed.deleteTxList traversal.permuted canonical
  have run : GuardedPool.deleteTxList (keyedContext b58 ctx).getTxKey traversal.order txList
      ⟨server.pool, false⟩ = (⟨after, false⟩, true) := deleted
  refine ⟨after, ?_, keyed, gone⟩
  unfold NodeCall.run
  dsimp only
  rw [run]

theorem sound_call {after : GuardedServer} (call : CanonicalCall b58 ctx guarded after)
    (sound : guarded.Sound b58 ctx) : after.Sound b58 ctx := by
  obtain ⟨call, canonical, rfl⟩ := call
  cases call with
  | request view asked => exact sound_request sound canonical
  | deleteTxList txList traversal =>
    obtain ⟨after, run, keyed, -⟩ := run_deleteTxList sound canonical
    rw [run]
    exact ⟨rfl, keyed⟩

theorem sound_run (run : Relation.ReflTransGen (CanonicalCall b58 ctx) .new guarded) :
    guarded.Sound b58 ctx := by
  induction run with
  | refl =>
    refine ⟨rfl, ?_⟩
    rintro accountID txKey tx ⟨history, found, -⟩
    simp [GuardedServer.new, newNodeServer, Pool.empty] at found
  | tail _ call ih => exact sound_call call ih

/-- Along canonical calls nothing is listed twice, and a deletion of transactions whose
accounts have a history returns and leaves none of them. -/
theorem pending_unique_of_calls {guarded : GuardedServer}
    (run : Relation.ReflTransGen (CanonicalCall b58 ctx) .new guarded) :
    (∀ accountID history txKey tx, guarded.server.pool.accTxMap.lookup accountID = some history →
      history.txMap.lookup txKey = some tx →
        getTxKey b58 ctx.sha256HashBytes tx = .ok txKey) ∧
    guarded.server.pool.getTxList.Nodup ∧
    ∀ txList traversal, (NodeCall.deleteTxList txList traversal).Canonical b58 guarded →
      ((NodeCall.deleteTxList txList traversal).run (keyedContext b58 ctx) guarded).2 = true ∧
        ∀ tx ∈ txList, ¬ ((NodeCall.deleteTxList txList traversal).run (keyedContext b58 ctx)
          guarded).1.server.pool.Holds tx := by
  have sound := sound_run run
  refine ⟨?_, sound.keyed.nodup_getTxList, ?_⟩
  · intro accountID history txKey tx found listed
    exact (sound.keyed accountID txKey tx ⟨history, found, listed⟩).2
  · intro txList traversal canonical
    obtain ⟨after, returned, -, gone⟩ := run_deleteTxList sound canonical
    rw [returned]
    exact ⟨rfl, gone⟩

end Runs

section Sample

private def zeros : List UInt8 := List.replicate 32 0

private def zeroPays : Tx := ⟨"JEKNVnkbo3jma5nREBBJCDoXFVeKkD56V3xKrvRmWxFH", 10, "", 6, []⟩

private def strangerPays : Tx := ⟨"stranger", 10, "", 6, []⟩

private def trusting : ServerContext where
  networkID := "net"
  decodeKey _ := none
  verify _ _ _ := true
  decodeTx _ := some zeroPays
  decodeStatement _ := none
  sha256HashBytes _ := .ok zeros
  getTxKey _ := .error ""
  baseReserve := 0

private def zeroView : ServerView where
  bucket := Bucket.empty.insert (.account ⟨zeroPays.accountID, 1000, "", 5, 0, none⟩)
  saveTx _ _ := .ok ()
  recvStatement _ := .ok ()

private def inOrder : Traversal := ⟨Schedule.insertion.order, Schedule.insertion.order_perm⟩

private def submits (txKey : String) : NodeCall := .request zeroView (.submitTx ⟨"net", [], txKey, ""⟩)

private def afterNodeCalls (calls : List NodeCall) : GuardedServer :=
  calls.foldl (fun guarded call => (call.run (keyedContext .base58 trusting) guarded).1) .new

private def zeroTxKey : String := "tgx7VNFoP9DJiFMFgXXtafQZkUvyEdDHT9ryamHJYrjq"

private theorem submits_canonical (guarded : GuardedServer) :
    (submits zeroTxKey).Canonical .base58 guarded := by
  change ∀ ultKey ∈ decodeKey .base58 zeroTxKey,
    ultKey.code = .tx ∧ (TextCodec.base58.decode zeroTxKey).map List.length = some 33
  decide +kernel

end Sample

/-- One transaction submitted twice under its key is pending once, and can be deleted. -/
theorem pending_unique_zero :
    (afterNodeCalls [submits zeroTxKey, submits zeroTxKey]).server.pool.getTxList = {zeroPays} ∧
      (afterNodeCalls [submits zeroTxKey, submits zeroTxKey]).server.pool.getTxList.Nodup ∧
      ¬ (afterNodeCalls [submits zeroTxKey, submits zeroTxKey,
        .deleteTxList [zeroPays] inOrder]).server.pool.Holds zeroPays := by
  obtain ⟨-, nodup, deleted⟩ := @pending_unique_of_calls .base58 trusting
    (afterNodeCalls [submits zeroTxKey, submits zeroTxKey])
    (.tail (.tail .refl ⟨submits zeroTxKey, submits_canonical _, rfl⟩)
      ⟨submits zeroTxKey, submits_canonical _, rfl⟩)
  have present : (NodeCall.deleteTxList [zeroPays] inOrder).Canonical .base58
      (afterNodeCalls [submits zeroTxKey, submits zeroTxKey]) := by
    change ∀ tx ∈ [zeroPays], tx.accountID ∈
      (afterNodeCalls [submits zeroTxKey, submits zeroTxKey]).server.pool.accTxMap
    decide +kernel
  exact ⟨by decide +kernel, nodup,
    (deleted [zeroPays] inOrder present).2 zeroPays (.head _)⟩

/-- One transaction is pending under three keys with its hash, and two copies survive the
deletion; and a deletion that comes to an account without a history does not return. -/
theorem pending_thrice :
    (afterNodeCalls [submits zeroTxKey, submits "2BvGUzA1QBBx5HL8fuhiBmtD5zyaHyqHNwCpJSgi54oz7",
        submits "4w9LFeCpKijFKB4LPoTmLfaX1YvHDD8qDcS7ak2SxTcY2z"]).server.pool.getTxList =
      {zeroPays, zeroPays, zeroPays} ∧
    (afterNodeCalls [submits zeroTxKey, submits "2BvGUzA1QBBx5HL8fuhiBmtD5zyaHyqHNwCpJSgi54oz7",
        submits "4w9LFeCpKijFKB4LPoTmLfaX1YvHDD8qDcS7ak2SxTcY2z",
        .deleteTxList [zeroPays] inOrder]).server.pool.getTxList = {zeroPays, zeroPays} ∧
    ((NodeCall.deleteTxList [strangerPays, zeroPays] inOrder).run (keyedContext .base58 trusting)
      (afterNodeCalls [submits zeroTxKey])).2 = false ∧
    (afterNodeCalls [submits zeroTxKey,
      .deleteTxList [strangerPays, zeroPays] inOrder]).server.pool.getTxList = {zeroPays} := by
  decide +kernel

end Ultiledger
