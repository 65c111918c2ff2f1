import Ultiledger.CryptoKeys
import Ultiledger.PendingPool
import Ultiledger.Statement

/-!
# Requests of peers and clients

`Hello`, `SubmitTx` and `Notify` of `rpc/server.go`.  `Hello` files whatever node key
the sender names under the address it names.  `Notify` checks signatures against that
key, and never compares it with the node of the statement or the account of the
transaction it carries.
-/

namespace Ultiledger

inductive RpcCode where
  | invalidArgument
  | notFound
  | internal
  deriving DecidableEq, Repr

structure RpcError where
  code : RpcCode
  message : String
  deriving DecidableEq, Repr

/-- The values under the two keys that the handlers read from the metadata. -/
structure Metadata where
  addr : List String
  nodeID : List String

structure SubmitTxRequest where
  networkID : String
  data : List UInt8
  txKey : String
  signature : String

inductive NotifyMsgType where
  | tx
  | statement
  | other
  deriving DecidableEq, Repr

structure NotifyRequest where
  networkID : String
  msgType : NotifyMsgType
  data : List UInt8
  signature : String

inductive Request where
  | hello (md : Option Metadata) (networkID : String)
  | submitTx (req : SubmitTxRequest)
  | notify (md : Option Metadata) (req : NotifyRequest)

/-- What the handlers call.  A signature is checked against the bytes of a public
key. -/
structure ServerContext where
  networkID : String
  decodeKey : String → Option ULTKey
  verify : List UInt8 → String → List UInt8 → Bool
  decodeTx : List UInt8 → Option Tx
  decodeStatement : List UInt8 → Option Statement
  sha256HashBytes : Tx → Except String (List UInt8)
  getTxKey : Tx → Except String String
  baseReserve : Int64

structure ServerView extends PoolView where
  recvStatement : Statement → Except String Unit

structure NodeServer where
  nodeKey : Finmap fun _ : String => ULTKey
  pool : Pool
  forwarded : List Statement

def newNodeServer : NodeServer := ⟨∅, Pool.empty, []⟩

section Handlers

variable (ctx : ServerContext) (view : ServerView)

def ServerContext.verifyByKey (pk : ULTKey) (signature : String) (data : List UInt8) : Bool :=
  ctx.verify pk.hash signature data

def validate (server : NodeServer) (md : Option Metadata) (data : List UInt8)
    (signature networkID : String) : Except String Unit :=
  if ctx.networkID ≠ networkID then .error "incompatible network id."
  else
    match md with
    | none => .error "retrieve incoming context failed"
    | some md =>
      match md.addr, md.nodeID with
      | addr :: _, _ :: _ =>
        match server.nodeKey.lookup addr with
        | none => .error ("unknown network address " ++ addr ++ ", forgot to say hello?")
        | some key =>
          if ctx.verifyByKey key signature data then .ok ()
          else .error "signature verification failed"
      | _, _ => .error "network address or nodeID is absent"

/-- `Hello`, which ends with the registration of the peer. -/
def hello (md : Option Metadata) (networkID : String) (server : NodeServer) :
    NodeServer × Except RpcError Unit :=
  if ctx.networkID ≠ networkID then
    (server, .error ⟨.invalidArgument, "incompatible network id."⟩)
  else
    match md with
    | none => (server, .error ⟨.notFound, "retrieve incoming context failed"⟩)
    | some md =>
      match md.addr, md.nodeID with
      | addr :: _, nodeID :: _ =>
        match ctx.decodeKey nodeID with
        | none => (server, .error ⟨.invalidArgument, "decode nodeid to crypto key failed"⟩)
        | some k =>
          if k.code ≠ .nodeID then
            (server, .error ⟨.invalidArgument, "invalid nodeid key type"⟩)
          else
            ({ server with nodeKey := server.nodeKey.insert addr k }, .ok ())
      | _, _ => (server, .error ⟨.notFound, "network address or nodeid is missing"⟩)

def sendToPool (failure txKey : String) (tx : Tx) (server : NodeServer) :
    NodeServer × Except RpcError Unit :=
  let added := addTx ctx.baseReserve view.toPoolView txKey tx server.pool
  ({ server with pool := added.1 },
    match added.2 with
    | .error err => .error ⟨.internal, failure ++ err⟩
    | .ok () => .ok ())

def submitTx (req : SubmitTxRequest) (server : NodeServer) :
    NodeServer × Except RpcError Unit :=
  if ctx.networkID ≠ req.networkID then
    (server, .error ⟨.invalidArgument, "incompatible network id."⟩)
  else
    match ctx.decodeTx req.data with
    | none => (server, .error ⟨.invalidArgument, "decode tx failed"⟩)
    | some tx =>
      match ctx.decodeKey tx.accountID with
      | none => (server, .error ⟨.invalidArgument, "decode account key failed"⟩)
      | some accKey =>
        if accKey.code ≠ .accountID then
          (server, .error ⟨.invalidArgument, "invalid account key type"⟩)
        else if ctx.verifyByKey accKey req.signature req.data = false then
          (server, .error ⟨.invalidArgument, "signature verification failed"⟩)
        else
          match ctx.decodeKey req.txKey with
          | none => (server, .error ⟨.invalidArgument, "decode tx key failed"⟩)
          | some txKey =>
            match ctx.sha256HashBytes tx with
            | .error _ => (server, .error ⟨.internal, "compute tx hash failed"⟩)
            | .ok txHash =>
              if txHash ≠ txKey.hash then
                (server, .error ⟨.internal, "tx key hash mismatch"⟩)
              else
                sendToPool ctx view "submit tx failed: " req.txKey tx server

def notify (md : Option Metadata) (req : NotifyRequest) (server : NodeServer) :
    NodeServer × Except RpcError Unit :=
  match validate ctx server md req.data req.signature req.networkID with
  | .error err => (server, .error ⟨.invalidArgument, "input validation failed: " ++ err⟩)
  | .ok () =>
    match req.msgType with
    | .tx =>
      match ctx.decodeTx req.data with
      | none => (server, .error ⟨.invalidArgument, "decode tx failed"⟩)
      | some tx =>
        match ctx.getTxKey tx with
        | .error err => (server, .error ⟨.internal, "get tx key failed: " ++ err⟩)
        | .ok txKey => sendToPool ctx view "add tx failed: " txKey tx server
    | .statement =>
      match ctx.decodeStatement req.data with
      | none => (server, .error ⟨.invalidArgument, "decode statement failed"⟩)
      | some stmt =>
        ({ server with forwarded := server.forwarded ++ [stmt] },
          match view.recvStatement stmt with
          | .error err => .error ⟨.internal, "add statement failed: " ++ err⟩
          | .ok () => .ok ())
    | .other => (server, .ok ())

def handle (request : Request) (server : NodeServer) : NodeServer × Except RpcError Unit :=
  match request with
  | .hello md networkID => hello ctx md networkID server
  | .submitTx req => submitTx ctx view req server
  | .notify md req => notify ctx view md req server

end Handlers

section Runs

variable (ctx : ServerContext)

def runRequests : List (ServerView × Request) → NodeServer → NodeServer
  | [], server => server
  | (view, request) :: rest, server => runRequests rest (handle ctx view request server).1

def visits : List (ServerView × Request) → NodeServer → List (NodeServer × Request)
  | [], _ => []
  | (view, request) :: rest, server =>
    (server, request) :: visits rest (handle ctx view request server).1

end Runs

section Senders

def NodeServer.senderKey (server : NodeServer) (md : Option Metadata) : Option ULTKey :=
  md.bind fun md => md.addr.head?.bind server.nodeKey.lookup

variable {ctx : ServerContext} {view : ServerView} {server : NodeServer}

theorem of_validate {md : Option Metadata} {data : List UInt8} {signature networkID : String}
    (accepted : validate ctx server md data signature networkID = .ok ()) :
    ∃ key, server.senderKey md = some key ∧ ctx.verifyByKey key signature data = true := by
  unfold validate at accepted
  split_ifs at accepted
  rcases md with _ | ⟨_ | ⟨addr, addrs⟩, _ | ⟨nodeID, nodeIDs⟩⟩
  · simp at accepted
  · simp at accepted
  · simp at accepted
  · simp at accepted
  · cases found : server.nodeKey.lookup addr with
    | none => simp [found] at accepted
    | some key =>
      simp only [found] at accepted
      split_ifs at accepted with verified
      exact ⟨key, found, verified⟩

/-- All that a request can do to the statements and the pool. -/
inductive Effect (ctx : ServerContext) (view : ServerView) (server : NodeServer) :
    Request → NodeServer → Prop where
  | refused (request : Request) : Effect ctx view server request server
  | greeted (md : Option Metadata) (networkID addr : String) (k : ULTKey) :
      Effect ctx view server (.hello md networkID)
        { server with nodeKey := server.nodeKey.insert addr k }
  | submitted (req : SubmitTxRequest) (tx : Tx) (accKey : ULTKey)
      (decoded : ctx.decodeTx req.data = some tx)
      (named : ctx.decodeKey tx.accountID = some accKey) (isAccount : accKey.code = .accountID)
      (verified : ctx.verifyByKey accKey req.signature req.data = true) :
      Effect ctx view server (.submitTx req)
        { server with pool :=
            (addTx ctx.baseReserve view.toPoolView req.txKey tx server.pool).1 }
  | relayed (md : Option Metadata) (req : NotifyRequest) (tx : Tx) (key : ULTKey) (txKey : String)
      (isTx : req.msgType = .tx) (decoded : ctx.decodeTx req.data = some tx)
      (sender : server.senderKey md = some key)
      (verified : ctx.verifyByKey key req.signature req.data = true) :
      Effect ctx view server (.notify md req)
        { server with pool := (addTx ctx.baseReserve view.toPoolView txKey tx server.pool).1 }
  | forwarded (md : Option Metadata) (req : NotifyRequest) (stmt : Statement) (key : ULTKey)
      (isStatement : req.msgType = .statement)
      (decoded : ctx.decodeStatement req.data = some stmt)
      (sender : server.senderKey md = some key)
      (verified : ctx.verifyByKey key req.signature req.data = true) :
      Effect ctx view server (.notify md req)
        { server with forwarded := server.forwarded ++ [stmt] }

theorem effect_hello (md : Option Metadata) (networkID : String) :
    Effect ctx view server (.hello md networkID) (hello ctx md networkID server).1 := by
  unfold hello
  split_ifs
  · exact .refused _
  rcases md with _ | ⟨_ | ⟨addr, addrs⟩, _ | ⟨nodeID, nodeIDs⟩⟩
  · exact .refused _
  · exact .refused _
  · exact .refused _
  · exact .refused _
  · dsimp only
    cases ctx.decodeKey nodeID with
    | none => exact .refused _
    | some k =>
      dsimp only
      split_ifs
      · exact .refused _
      · exact .greeted _ networkID addr k

theorem effect_submitTx (req : SubmitTxRequest) :
    Effect ctx view server (.submitTx req) (submitTx ctx view req server).1 := by
  unfold submitTx
  split_ifs
  · exact .refused _
  cases decoded : ctx.decodeTx req.data with
  | none => exact .refused _
  | some tx =>
    dsimp only
    cases named : ctx.decodeKey tx.accountID with
    | none => exact .refused _
    | some accKey =>
      dsimp only
      by_cases isAccount : accKey.code = .accountID
      · by_cases verified : ctx.verifyByKey accKey req.signature req.data = true
        · rw [if_neg (not_not.mpr isAccount), if_neg (by simp [verified])]
          cases ctx.decodeKey req.txKey with
          | none => exact .refused _
          | some txKey =>
            cases ctx.sha256HashBytes tx with
            | error err => exact .refused _
            | ok txHash =>
              dsimp only
              split_ifs
              · exact .refused _
              · exact .submitted req tx accKey decoded named isAccount verified
        · rw [if_neg (not_not.mpr isAccount), if_pos (by simpa using verified)]
          exact .refused _
      · rw [if_pos isAccount]
        exact .refused _

theorem effect_notify (md : Option Metadata) (req : NotifyRequest) :
    Effect ctx view server (.notify md req) (notify ctx view md req server).1 := by
  unfold notify
  cases accepted : validate ctx server md req.data req.signature req.networkID with
  | error err => exact .refused _
  | ok done =>
    obtain ⟨key, sender, verified⟩ := of_validate accepted
    cases msgType : req.msgType with
    | other => exact .refused _
    | tx =>
      cases decoded : ctx.decodeTx req.data with
      | none => exact .refused _
      | some tx =>
        dsimp only
        cases ctx.getTxKey tx with
        | error err => exact .refused _
        | ok txKey => exact .relayed md req tx key txKey msgType decoded sender verified
    | statement =>
      cases decoded : ctx.decodeStatement req.data with
      | none => exact .refused _
      | some stmt => exact .forwarded md req stmt key msgType decoded sender verified

theorem effect_handle (request : Request) :
    Effect ctx view server request (handle ctx view request server).1 := by
  cases request with
  | hello md networkID => exact effect_hello md networkID
  | submitTx req => exact effect_submitTx req
  | notify md req => exact effect_notify md req

/-- What the effect of every request keeps, given what holds of the server it
meets, a run keeps. -/
theorem runRequests_induction {property : NodeServer → Prop}
    {sound : NodeServer → Request → Prop} {requests : List (ServerView × Request)}
    (kept : ∀ view request, (view, request) ∈ requests → ∀ server next, sound server request →
      Effect ctx view server request next → property server → property next)
    (start : property server)
    (allSound : ∀ visit ∈ visits ctx requests server, sound visit.1 visit.2) :
    property (runRequests ctx requests server) := by
  induction requests generalizing server with
  | nil => exact start
  | cons first rest ih =>
    obtain ⟨view, request⟩ := first
    apply ih
    · exact fun laterView later laterMem => kept laterView later (.tail _ laterMem)
    · exact kept view request (.head _) server _
        (allSound (server, request) (.head _)) (effect_handle request) start
    · exact (List.forall_mem_cons.mp allSound).2

end Senders

section Authenticity

variable (ctx : ServerContext)

inductive Request.Carries : Request → List UInt8 → String → Prop where
  | submitTx (req : SubmitTxRequest) : Carries (.submitTx req) req.data req.signature
  | notify (md : Option Metadata) (req : NotifyRequest) :
      Carries (.notify md req) req.data req.signature

def SignedByNode (requests : List (ServerView × Request)) (stmt : Statement) : Prop :=
  ∃ view request data signature, (view, request) ∈ requests ∧ request.Carries data signature ∧
    ctx.decodeStatement data = some stmt ∧
      ∃ node, ctx.decodeKey stmt.nodeID = some node ∧ ctx.verifyByKey node signature data = true

def SignedByAccount (requests : List (ServerView × Request)) (tx : Tx) : Prop :=
  ∃ view request data signature, (view, request) ∈ requests ∧ request.Carries data signature ∧
    ctx.decodeTx data = some tx ∧
      ∃ account, ctx.decodeKey tx.accountID = some account ∧ account.code = .accountID ∧
        ctx.verifyByKey account signature data = true

/-- A statement comes from an address under which the key of its own node is
filed. -/
def SpeaksForItself (server : NodeServer) (request : Request) : Prop :=
  ∀ md req stmt key, request = .notify md req → req.msgType = .statement →
    ctx.decodeStatement req.data = some stmt → server.senderKey md = some key →
      ∃ node, ctx.decodeKey stmt.nodeID = some node ∧ node.hash = key.hash

/-- A transaction is relayed from an address under which the key of its own account
is filed. -/
def RelaysItsOwn (server : NodeServer) (request : Request) : Prop :=
  ∀ md req tx key, request = .notify md req → req.msgType = .tx →
    ctx.decodeTx req.data = some tx → server.senderKey md = some key →
      ∃ account, ctx.decodeKey tx.accountID = some account ∧ account.code = .accountID ∧
        account.hash = key.hash

end Authenticity

/-- If every statement comes from the address of its own node, every statement
that reaches the engine was signed by its node. -/
theorem forwarded_signed (ctx : ServerContext) (requests : List (ServerView × Request))
    (tied : ∀ visit ∈ visits ctx requests newNodeServer, SpeaksForItself ctx visit.1 visit.2) :
    ∀ stmt ∈ (runRequests ctx requests newNodeServer).forwarded,
      SignedByNode ctx requests stmt := by
  refine @runRequests_induction ctx newNodeServer
    (fun server => ∀ stmt ∈ server.forwarded, SignedByNode ctx requests stmt)
    (SpeaksForItself ctx) requests ?_ (by simp [newNodeServer]) tied
  intro view request requestMem server next speaks effect signed
  cases effect with
  | refused => exact signed
  | greeted md networkID addr k => exact signed
  | submitted req tx accKey decoded named isAccount verified => exact signed
  | relayed md req tx key txKey isTx decoded sender verified => exact signed
  | forwarded md req stmt key isStatement decoded sender verified =>
    intro other otherMem
    rcases List.mem_append.mp otherMem with before | new
    · exact signed other before
    · obtain rfl := List.mem_singleton.mp new
      obtain ⟨node, named, sameKey⟩ := speaks md req other key rfl isStatement decoded sender
      refine ⟨view, _, _, _, requestMem, .notify md req, decoded, node, named, ?_⟩
      rw [ServerContext.verifyByKey, sameKey]
      exact verified

section Village

/-- Alice has an account and a node with the same key, mallory has another key. -/
private def village : ServerContext where
  networkID := "village"
  decodeKey text :=
    if text = "alice" then some ⟨.accountID, [1]⟩
    else if text = "node of alice" then some ⟨.nodeID, [1]⟩
    else if text = "node of mallory" then some ⟨.nodeID, [2]⟩
    else none
  verify publicKey signature _ :=
    publicKey == [1] && signature == "alice" || publicKey == [2] && signature == "mallory"
  decodeTx _ := some ⟨"alice", 10, "", 6, []⟩
  decodeStatement _ := some ⟨.nominate, "node of alice", 1, none⟩
  sha256HashBytes _ := .ok []
  getTxKey tx := .ok tx.note
  baseReserve := 1

private def villageView : ServerView where
  bucket := Bucket.empty.insert (.account ⟨"alice", 1000, "alice", 5, 0, some ⟨0, 0⟩⟩)
  saveTx _ _ := .ok ()
  recvStatement _ := .ok ()

private def greetAndNotify (nodeID : String) (msgType : NotifyMsgType) (signature : String) :
    List (ServerView × Request) :=
  [(villageView, .hello (some ⟨["address"], [nodeID]⟩) "village"),
    (villageView, .notify (some ⟨["address"], [nodeID]⟩) ⟨"village", msgType, [], signature⟩)]

private theorem carried_of_greetAndNotify {nodeID : String} {msgType : NotifyMsgType}
    {sign : String} {view : ServerView} {request : Request} {data : List UInt8}
    {signature : String} (requestMem : (view, request) ∈ greetAndNotify nodeID msgType sign)
    (carries : request.Carries data signature) : signature = sign := by
  simp only [greetAndNotify, List.mem_cons, Prod.mk.injEq, List.not_mem_nil, or_false] at requestMem
  rcases requestMem with ⟨-, rfl⟩ | ⟨-, rfl⟩
  · cases carries
  · cases carries
    rfl

private theorem sender_of_greetAndNotify {msgType : NotifyMsgType} {server : NodeServer}
    {md : Option Metadata} {req : NotifyRequest} {key : ULTKey}
    (visited : (server, .notify md req) ∈
      visits village (greetAndNotify "node of alice" msgType "alice") newNodeServer)
    (sender : server.senderKey md = some key) : key = ⟨.nodeID, [1]⟩ := by
  simp only [greetAndNotify, visits, List.mem_cons, Prod.mk.injEq, reduceCtorEq, and_false,
    List.not_mem_nil, or_false, false_or, Request.notify.injEq] at visited
  obtain ⟨rfl, rfl, -⟩ := visited
  have filed : NodeServer.senderKey (handle village villageView
      (.hello (some ⟨["address"], ["node of alice"]⟩) "village") newNodeServer).1
        (some ⟨["address"], ["node of alice"]⟩) = some ⟨.nodeID, [1]⟩ := by
    decide +kernel
  exact Option.some.inj (sender.symm.trans filed)

end Village

/-- Alice votes from her own node. -/
theorem forwarded_signed_alice :
    (runRequests village (greetAndNotify "node of alice" .statement "alice")
        newNodeServer).forwarded = [⟨.nominate, "node of alice", 1, none⟩] ∧
      SignedByNode village (greetAndNotify "node of alice" .statement "alice")
        ⟨.nominate, "node of alice", 1, none⟩ := by
  have reached : (runRequests village (greetAndNotify "node of alice" .statement "alice")
      newNodeServer).forwarded = [⟨.nominate, "node of alice", 1, none⟩] := by
    decide +kernel
  refine ⟨reached, ?_⟩
  apply forwarded_signed village (greetAndNotify "node of alice" .statement "alice")
  · rintro ⟨server, request⟩ visited md req stmt key rfl isStatement decoded sender
    cases decoded
    refine ⟨⟨.nodeID, [1]⟩, by decide +kernel, ?_⟩
    rw [sender_of_greetAndNotify visited sender]
  · rw [reached]
    exact List.mem_singleton_self _

/-- Mallory says hello as mallory and votes as alice. -/
theorem forwarded_unsigned :
    (runRequests village (greetAndNotify "node of mallory" .statement "mallory")
        newNodeServer).forwarded = [⟨.nominate, "node of alice", 1, none⟩] ∧
      ¬ SignedByNode village (greetAndNotify "node of mallory" .statement "mallory")
        ⟨.nominate, "node of alice", 1, none⟩ := by
  refine ⟨by decide +kernel, ?_⟩
  rintro ⟨view, request, data, signature, requestMem, carries, -, node, named, verified⟩
  obtain rfl := carried_of_greetAndNotify requestMem carries
  have alice : village.decodeKey "node of alice" = some ⟨.nodeID, [1]⟩ := by decide +kernel
  cases alice.symm.trans named
  simp [ServerContext.verifyByKey, village] at verified

/-- If every relayed transaction comes from the address of its own account, every
pending transaction was signed by its account. -/
theorem pending_signed (ctx : ServerContext) (requests : List (ServerView × Request))
    (tied : ∀ visit ∈ visits ctx requests newNodeServer, RelaysItsOwn ctx visit.1 visit.2) :
    ∀ tx, (runRequests ctx requests newNodeServer).pool.Holds tx →
      SignedByAccount ctx requests tx := by
  refine @runRequests_induction ctx newNodeServer
    (fun server => ∀ tx, server.pool.Holds tx → SignedByAccount ctx requests tx)
    (RelaysItsOwn ctx) requests ?_ ?_ tied
  · intro view request requestMem server next relays effect signed
    cases effect with
    | refused => exact signed
    | greeted md networkID addr k => exact signed
    | forwarded md req stmt key isStatement decoded sender verified => exact signed
    | submitted req tx accKey decoded named isAccount verified =>
      intro other held
      rcases holds_of_addTx held with before | rfl
      · exact signed other before
      · exact ⟨view, _, _, _, requestMem, .submitTx req, decoded, accKey, named, isAccount,
          verified⟩
    | relayed md req tx key txKey isTx decoded sender verified =>
      intro other held
      rcases holds_of_addTx held with before | rfl
      · exact signed other before
      · obtain ⟨account, named, isAccount, sameKey⟩ :=
          relays md req other key rfl isTx decoded sender
        refine ⟨view, _, _, _, requestMem, .notify md req, decoded, account, named, isAccount, ?_⟩
        rw [ServerContext.verifyByKey, sameKey]
        exact verified
  · rintro tx ⟨accountID, history, txKey, found, -⟩
    simp [newNodeServer, Pool.empty] at found

/-- Alice relays a transaction of her own account. -/
theorem pending_signed_alice :
    (runRequests village (greetAndNotify "node of alice" .tx "alice") newNodeServer).pool.Holds
        ⟨"alice", 10, "", 6, []⟩ ∧
      SignedByAccount village (greetAndNotify "node of alice" .tx "alice")
        ⟨"alice", 10, "", 6, []⟩ := by
  have held : (runRequests village (greetAndNotify "node of alice" .tx "alice")
      newNodeServer).pool.Holds ⟨"alice", 10, "", 6, []⟩ :=
    ⟨"alice", ⟨6, 10, Finmap.insert "" ⟨"alice", 10, "", 6, []⟩ ∅⟩, "", by rfl, by rfl⟩
  refine ⟨held, pending_signed village _ ?_ _ held⟩
  rintro ⟨server, request⟩ visited md req tx key rfl isTx decoded sender
  cases decoded
  refine ⟨⟨.accountID, [1]⟩, by decide +kernel, rfl, ?_⟩
  rw [sender_of_greetAndNotify visited sender]

/-- Mallory relays a transaction of alice that alice has not signed. -/
theorem pending_unsigned :
    (runRequests village (greetAndNotify "node of mallory" .tx "mallory") newNodeServer).pool.Holds
        ⟨"alice", 10, "", 6, []⟩ ∧
      ¬ SignedByAccount village (greetAndNotify "node of mallory" .tx "mallory")
        ⟨"alice", 10, "", 6, []⟩ := by
  constructor
  · exact ⟨"alice", ⟨6, 10, Finmap.insert "" ⟨"alice", 10, "", 6, []⟩ ∅⟩, "", by rfl, by rfl⟩
  · rintro ⟨view, request, data, signature, requestMem, carries, -, account, named, -, verified⟩
    obtain rfl := carried_of_greetAndNotify requestMem carries
    have alice : village.decodeKey "alice" = some ⟨.accountID, [1]⟩ := by decide +kernel
    cases alice.symm.trans named
    simp [ServerContext.verifyByKey, village] at verified

end Ultiledger
