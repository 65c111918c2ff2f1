import Ultiledger.Agreement
import Ultiledger.CatchingUp

/-!
# The consensus engine

The goroutines of `consensus/engine.go` that run the decrees: ready statements,
`Propose`, the timers and `Externalize`.  An event runs as a whole, although nothing is
locked.  What is stored and what the pool holds is given to each event from outside.

A deleted decree lives on as long as its timer runs.  As long as no value is
externalized before its ledger is due, an index never gets a second decree.
-/

namespace Ultiledger

open AbortingProgram Program

structure EngineContext extends DecreeContext where
  role : String
  maxDecrees : Nat
  ledger : LedgerContext

def EngineContext.decree (ctx : EngineContext) (idx : Nat) : DecreeContext :=
  { ctx.toDecreeContext with index := idx }

/-- `Engine`: the quorum that all decrees have by reference, and the decrees of each index,
the newest one first, and whether the map has it.  The channel holds what was sent and is
not yet taken. -/
structure Engine (tm : TxManager) where
  quorum : Quorum
  decrees : Nat → List DecreeState
  loaded : Nat → Bool
  lm : LedgerManager tm
  externalizeChan : List ExternalizeValue

abbrev EngineM (tm : TxManager) := Program (Engine tm) Fault

namespace Engine

variable {tm : TxManager}

/-- What a decree sees of the ledger manager at this moment. -/
def world (e : Engine tm) (view : World) : World :=
  { view with
    ledgerSynced := e.lm.ledgerState = .synced
    nextLedgerHeaderSeq := e.lm.nextLedgerHeaderSeq
    currHeaderConsensusValue := (e.lm.currLedgerHeader.map (·.consensusValue)).getD ""
    currLedgerHeaderHash := e.lm.currLedgerHeaderHash }

def putDecree (idx place : Nat) (d d' : DecreeState) (e : Engine tm) : Engine tm :=
  { e with
    quorum := d'.quorum
    decrees := Function.update e.decrees idx ((e.decrees idx).set place d')
    externalizeChan := e.externalizeChan ++ d'.externalizeChan.drop d.externalizeChan.length }

def onLedger {Value : Type} (program : LedgerM tm Value) : EngineM tm Value :=
  program.zoom (·.lm) fun e lm => { e with lm := lm }

/-- The end of `Externalize`. -/
def removeOld (maxDecrees idx : Nat) (e : Engine tm) : Engine tm :=
  if idx > maxDecrees then
    { e with loaded := fun key => if key ≤ idx - maxDecrees then false else e.loaded key }
  else e

variable (ctx : EngineContext)

/-- `getDecree`, after which the decree is the newest of its index. -/
def getDecree (idx : Nat) (create : Bool) : EngineM tm (Except String Unit) := do
  let e ← get
  if e.loaded idx then pure (.ok ())
  else if !create then pure (.error "decree not exist")
  else do
    modify fun e => { e with
      decrees := Function.update e.decrees idx
        ((newDecree (ctx.decree idx)).withQuorum e.quorum :: e.decrees idx)
      loaded := Function.update e.loaded idx true }
    pure (.ok ())

/-- A call of a decree, which may find its quorum sorted by a call of another one. -/
def callDecree (idx place : Nat) (call : DecreeCall) (view : World) (fuel : Nat) :
    EngineM tm Unit := fun e =>
  match (e.decrees idx)[place]? with
  | none => .done () e
  | some d => (runTurn (ctx.decree idx) ⟨call, e.world view, fuel⟩).zoom
      (fun _ => d.withQuorum e.quorum)
      (fun e d' => e.putDecree idx place d d') e

/-- The goroutine of internal events with a statement that is ready.  The sum of the
index and the limit is a `uint64`. -/
def recvReady (stmt : Statement) (view : World) (fuel : Nat) : EngineM tm Unit := do
  let e ← get
  if (stmt.index + ctx.maxDecrees) % 2 ^ 64 < e.lm.nextLedgerHeaderSeq then pure ()
  else
    match ← getDecree ctx stmt.index true with
    | .error _ => pure ()
    | .ok () => callDecree ctx stmt.index 0 (.recv (some stmt)) view fuel

def nominate (idx : Nat) (prevValue currValue : String) (view : World) (fuel : Nat) :
    EngineM tm (Except String Unit) := do
  match ← getDecree ctx idx true with
  | .error err => pure (.error ("get decree failed: " ++ err))
  | .ok () => do
    callDecree ctx idx 0 (.nominate prevValue currValue false) view fuel
    pure (.ok ())

/-- `Propose` with the list of `GetTxList` and the result of `RecvQuorum`. -/
def propose (txList : List Tx) (recvQuorum : Except String Unit) (now : Int) (view : World)
    (fuel : Nat) : EngineM tm (Except String Unit) := do
  let e ← get
  if ctx.role ≠ "validator" then pure (.error "the node is not a validator")
  else if e.lm.ledgerState ≠ .synced then pure (.ok ())
  else do
    let prevLedgerHash ← onLedger currHeaderHash
    match ctx.getTxSetKey ⟨prevLedgerHash, txList⟩ with
    | .error err => pure (.error ("get tx set hash failed: " ++ err))
    | .ok hash =>
      match view.addTxSet hash ⟨prevLedgerHash, txList⟩, recvQuorum,
        ctx.encodeConsensusValue ⟨hash, now⟩ with
      | .error err, _, _ => pure (.error ("sync txset with validator failed: " ++ err))
      | _, .error err, _ => pure (.error ("sync quorum with validator failed: " ++ err))
      | _, _, .error err => pure (.error ("encode consensus value failed: " ++ err))
      | .ok (), .ok (), .ok cvStr =>
        match e.lm.currLedgerHeader with
        | none => abort (.fatal "current ledger header is nil")
        | some currHeader =>
          match ← nominate ctx e.lm.nextLedgerHeaderSeq currHeader.consensusValue cvStr view
            fuel with
          | .error err => pure (.error ("nominate value failed: " ++ err))
          | .ok () => pure (.ok ())

/-- `Externalize`, whose call of `DeleteTxList` may not return. -/
def externalize (moment : LedgerMoment) (view : World) (deletes : Bool)
    (ext : ExternalizeValue) : EngineM tm (Except String Unit) := do
  let e ← get
  if ext.index < e.lm.nextLedgerHeaderSeq then pure (.ok ())
  else
    match ctx.ledger.closeValue ext.value with
    | .error err => pure (.error err)
    | .ok cv =>
      match view.getTxSet cv.txSetHash with
      | .error err => pure (.error ("get txset failed: " ++ err))
      | .ok none => pure (.error "txset not exist")
      | .ok (some txset) => do
        match ← onLedger (recvExtVal ctx.ledger moment ⟨ext.index, ext.value, txset⟩) with
        | .error err =>
          pure (.error ("externalize value in ledger manager failed: " ++ err))
        | .ok () =>
          match ← getDecree ctx ext.index false with
          | .error err => pure (.error ("get decree failed: " ++ err))
          | .ok () => do
            callDecree ctx ext.index 0 .stopNomination view 0
            modify fun e => if deletes then e.removeOld ctx.maxDecrees ext.index else e
            pure (.ok ())

end Engine

inductive EngineEvent where
  | ready (stmt : Statement) (view : World) (fuel : Nat)
  | propose (txList : List Tx) (recvQuorum : Except String Unit) (now : Int) (view : World)
      (fuel : Nat)
  | renominate (idx place : Nat) (prevHash currHash : String) (view : World) (fuel : Nat)
  | externalize (moment : LedgerMoment) (view : World) (deletes : Bool)

section Events

variable {tm : TxManager} (ctx : EngineContext)

def EngineEvent.perform : EngineEvent → EngineM tm Unit
  | .ready stmt view fuel => Engine.recvReady ctx stmt view fuel
  | .propose txList recvQuorum now view fuel => do
    let _ ← Engine.propose ctx txList recvQuorum now view fuel
    pure ()
  | .renominate idx place prevHash currHash view fuel =>
    Engine.callDecree ctx idx place (.nominate prevHash currHash true) view fuel
  | .externalize moment view deletes => do
    let e ← get
    match e.externalizeChan with
    | [] => pure ()
    | ext :: rest => do
      modify fun e => { e with externalizeChan := rest }
      let _ ← Engine.externalize ctx moment view deletes ext
      pure ()

/-- No value is taken from the channel before its ledger is due. -/
def EngineEvent.InStep (e : Engine tm) : EngineEvent → Prop
  | .externalize _ _ _ => ∀ ext ∈ e.externalizeChan.head?, ext.index ≤ e.lm.nextLedgerHeaderSeq
  | _ => True

/-- An engine over the genesis ledger. -/
structure Engine.Started (e : Engine tm) : Prop where
  quorum : e.quorum = ctx.quorum
  decrees : ∀ idx, e.decrees idx = []
  loaded : ∀ idx, e.loaded idx = false
  externalizeChan : e.externalizeChan = []
  genesis : ∃ moment accounts,
    createGenesisLedger ctx.ledger moment (newManager ∅ accounts []) = .done (.ok ()) e.lm

/-- An index has one decree at most, which is deleted from the map only long after its
ledger, and what is externalized and closed has come from it. -/
structure Engine.Sound (e : Engine tm) : Prop where
  single : ∀ idx, (e.decrees idx).length ≤ 1
  held : ∀ idx, e.loaded idx = true → e.decrees idx ≠ []
  past : ∀ idx, e.loaded idx = false → e.decrees idx ≠ [] →
    idx + ctx.maxDecrees < e.lm.nextLedgerHeaderSeq
  decree : ∀ idx, ∀ d ∈ e.decrees idx, SoundDecree (ctx.decree idx) d
  sent : ∀ ext ∈ e.externalizeChan, ∃ d ∈ e.decrees ext.index, ext ∈ d.externalizeChan
  closed : ∀ info ∈ e.lm.closed, ∃ d ∈ e.decrees info.index,
    ⟨info.index, info.value⟩ ∈ d.externalizeChan
  chain : LedgerSound ctx.ledger False e.lm.toLedgerCore
  synced : e.lm.ledgerState ≠ .syncing

/-- The decree of an index, which may still have to be created. -/
def EngineContext.current (e : Engine tm) (idx : Nat) : DecreeState :=
  ((e.decrees idx).headD (newDecree (ctx.decree idx))).withQuorum e.quorum

/-- All that an event does to the decrees: nothing, or one call of the decree of an
index. -/
inductive EngineEvent.Acts (event : EngineEvent) (returned : Bool) (before after : Engine tm) : Prop
  | idle (same : after.decrees = before.decrees) (quorum : after.quorum = before.quorum)
  | call (idx : Nat) (turn : Turn)
      (received : ∀ stmt, turn.call = .recv (some stmt) → idx = stmt.index ∧
        ∃ view fuel, event = .ready stmt view fuel)
      (changed : after.decrees = Function.update before.decrees idx
        [(runTurn (ctx.decree idx) turn (ctx.current before idx)).state])
      (quorum : after.quorum =
        (runTurn (ctx.decree idx) turn (ctx.current before idx)).state.quorum)
      (ended : returned = (runTurn (ctx.decree idx) turn (ctx.current before idx)).isDone)

/-- The program keeps the engine sound, and does to the decrees what the event may do. -/
def EngineEvent.Keeps (event : EngineEvent) (e : Engine tm) {Value : Type}
    (program : EngineM tm Value) : Prop :=
  program.Holds e (fun _ e' => e'.Sound ctx ∧ event.Acts ctx true e e')
    (fun _ e' => event.Acts ctx false e e')

end Events

section Calls

variable {tm : TxManager} {ctx : EngineContext} {e opened : Engine tm} {idx : Nat}
  {d : DecreeState} {event : EngineEvent}

theorem Engine.Sound.eq_singleton (sound : e.Sound ctx) (member : d ∈ e.decrees idx) :
    e.decrees idx = [d] := by
  have single := sound.single idx
  match listed : e.decrees idx with
  | [] => simp [listed] at member
  | [first] =>
    rw [listed, List.mem_singleton] at member
    rw [member]
  | _ :: _ :: _ => simp [listed] at single

/-- The decree of one index is created or moves on. -/
theorem Engine.Sound.replace (sound : e.Sound ctx) (quorum : Quorum) (loaded : Nat → Bool)
    (sends : List ExternalizeValue) (others : ∀ other, other ≠ idx → loaded other = e.loaded other)
    (past : loaded idx = false → idx + ctx.maxDecrees < e.lm.nextLedgerHeaderSeq)
    (decree : SoundDecree (ctx.decree idx) d)
    (keeps : ∀ before ∈ e.decrees idx, before.externalizeChan ⊆ d.externalizeChan)
    (sent : ∀ ext ∈ sends, ext ∈ d.externalizeChan) :
    Engine.Sound ctx { e with
      quorum := quorum
      decrees := Function.update e.decrees idx [d]
      loaded := loaded
      externalizeChan := e.externalizeChan ++ sends } := by
  have kept : ∀ ext : ExternalizeValue, (∃ before ∈ e.decrees ext.index,
      ext ∈ before.externalizeChan) → ∃ after ∈ Function.update e.decrees idx [d] ext.index,
        ext ∈ after.externalizeChan := by
    rintro ext ⟨before, member, onChannel⟩
    by_cases here : ext.index = idx
    · subst here
      exact ⟨d, by simp, keeps before member onChannel⟩
    · exact ⟨before, by rwa [Function.update_of_ne here], onChannel⟩
  refine ⟨?_, ?_, ?_, ?_, ?_, fun info closed => kept ⟨_, _⟩ (sound.closed info closed),
    sound.chain, sound.synced⟩
  · rw [Function.forall_update_iff _ fun _ (listed : List DecreeState) => listed.length ≤ 1]
    exact ⟨le_rfl, fun other _ => sound.single other⟩
  · rw [Function.forall_update_iff _ fun other (listed : List DecreeState) =>
      loaded other = true → listed ≠ []]
    exact ⟨by simp, fun other elsewhere => others other elsewhere ▸ sound.held other⟩
  · rw [Function.forall_update_iff _ fun other (listed : List DecreeState) =>
      loaded other = false → listed ≠ [] → other + ctx.maxDecrees < e.lm.nextLedgerHeaderSeq]
    exact ⟨fun unloaded _ => past unloaded,
      fun other elsewhere => others other elsewhere ▸ sound.past other⟩
  · rw [Function.forall_update_iff _ fun other (listed : List DecreeState) =>
      ∀ d ∈ listed, SoundDecree (ctx.decree other) d]
    exact ⟨by simpa using decree, fun other _ => sound.decree other⟩
  · intro ext onChannel
    rcases List.mem_append.mp onChannel with earlier | new
    · exact kept ext (sound.sent ext earlier)
    · have index : ext.index = idx := by
        obtain ⟨-, value, -, only⟩ := decree.externalized (List.ne_nil_of_mem (sent ext new))
        have same := sent ext new
        rw [only, List.mem_singleton] at same
        rw [same]
        rfl
      exact ⟨d, by simp [index], sent ext new⟩

/-- The decree of the index is there, and the event has done nothing else to decrees. -/
structure Engine.Opened (ctx : EngineContext) (idx : Nat) (e opened : Engine tm) : Prop where
  sound : opened.Sound ctx
  quorum : opened.quorum = e.quorum
  decrees : ∃ d, opened.decrees = Function.update e.decrees idx [d] ∧
    d.withQuorum e.quorum = ctx.current e idx

theorem Engine.Sound.opens (sound : e.Sound ctx) (member : d ∈ e.decrees idx) :
    e.Opened ctx idx e where
  sound := sound
  quorum := rfl
  decrees := by
    have only := sound.eq_singleton member
    exact ⟨d, by rw [← only, Function.update_eq_self], by rw [EngineContext.current, only]; rfl⟩

theorem SoundDecree.withQuorum {ctx : DecreeContext} (sound : SoundDecree ctx d)
    (quorum : Quorum) : SoundDecree ctx (d.withQuorum quorum) :=
  ⟨sound.inOrder, sound.externalized⟩

theorem Engine.Sound.current (sound : e.Sound ctx) (idx : Nat) :
    SoundDecree (ctx.decree idx) (ctx.current e idx) := by
  rw [EngineContext.current]
  cases listed : e.decrees idx with
  | nil => exact (soundDecree_newDecree (ctx.decree idx)).withQuorum e.quorum
  | cons d rest => exact (sound.decree idx d (by simp [listed])).withQuorum e.quorum

theorem Engine.getDecree_holds (sound : e.Sound ctx)
    (new : e.loaded idx = false → e.decrees idx = []) :
    (getDecree ctx idx true).Holds e (fun result opened => result = .ok () ∧
      e.Opened ctx idx opened) (fun _ _ => False) := by
  unfold getDecree
  rw [holds_bind, holds_get]
  cases loaded : e.loaded idx with
  | true =>
    obtain ⟨d, member⟩ := List.exists_mem_of_ne_nil _ (sound.held idx loaded)
    exact ⟨rfl, sound.opens member⟩
  | false =>
    have none := new loaded
    have fresh : SoundDecree (ctx.decree idx)
        ((newDecree (ctx.decree idx)).withQuorum e.quorum) :=
      (soundDecree_newDecree (ctx.decree idx)).withQuorum e.quorum
    have created := sound.replace e.quorum (Function.update e.loaded idx true) []
      (fun other elsewhere => Function.update_of_ne elsewhere _ _) (by simp) fresh
      (by simp [none]) (by simp)
    refine ⟨rfl, ?_, rfl, (newDecree (ctx.decree idx)).withQuorum e.quorum, by simp [none], ?_⟩
    · simpa [none] using created
    · rw [EngineContext.current, none]
      rfl

theorem Engine.callDecree_holds (opens : e.Opened ctx idx opened) (call : DecreeCall)
    (view : World) (fuel : Nat)
    (received : ∀ stmt, call = .recv (some stmt) → idx = stmt.index ∧
      ∃ view fuel, event = .ready stmt view fuel) :
    (callDecree ctx idx 0 call view fuel).Holds opened
      (fun _ e' => (e'.Sound ctx ∧ event.Acts ctx true e e') ∧ e'.lm = opened.lm)
      (fun _ e' => event.Acts ctx false e e') := by
  obtain ⟨d, decrees, current⟩ := opens.decrees
  have here : opened.decrees idx = [d] := by rw [decrees, Function.update_self]
  unfold callDecree Holds
  simp only [here, List.getElem?_cons_zero, zoom, opens.quorum, current]
  have acts : ∀ outcome, runTurn (ctx.decree idx) ⟨call, opened.world view, fuel⟩
      (ctx.current e idx) = outcome → event.Acts ctx outcome.isDone e
        (opened.putDecree idx 0 d outcome.state) := by
    rintro _ rfl
    refine .call idx ⟨call, opened.world view, fuel⟩ received ?_ rfl rfl
    simp [putDecree, decrees]
  cases ended : runTurn (ctx.decree idx) ⟨call, opened.world view, fuel⟩
      (ctx.current e idx) with
  | abort fault after => exact acts _ ended
  | done _ after =>
    have member : d ∈ opened.decrees idx := by simp [here]
    have before : SoundDecree (ctx.decree idx) (ctx.current e idx) :=
      current ▸ (opens.sound.decree idx d member).withQuorum e.quorum
    have hears : Turn.Hears (fun _ _ => True) ⟨call, opened.world view, fuel⟩ :=
      fun _ _ _ _ => trivial
    have run := (holds_of_done ended).mp (runTurn_leads hears _ before)
    refine ⟨⟨?_, acts _ ended⟩, rfl⟩
    have moved := opens.sound.replace after.quorum opened.loaded
      (after.externalizeChan.drop d.externalizeChan.length)
      (fun _ _ => rfl) (fun unloaded => opens.sound.past idx unloaded (List.ne_nil_of_mem member))
      (before.progress run) ?_ fun ext sent => List.mem_of_mem_drop sent
    · simpa [putDecree, here] using moved
    · intro earlier earlierMem ext sent
      rw [here, List.mem_singleton] at earlierMem
      subst earlierMem
      have sentBefore : ext ∈ (ctx.current e idx).externalizeChan := current ▸ sent
      rwa [run.externalizeChan (List.ne_nil_of_mem sentBefore)]

end Calls

section Steps

variable {tm : TxManager} {ctx : EngineContext} {e : Engine tm} {event : EngineEvent}

/-- An info whose ledger is due is closed or refused, unless ledgers are being
downloaded. -/
theorem recvExtVal_due (ctx : LedgerContext) (moment : LedgerMoment) (info : CloseInfo)
    {lm : LedgerManager tm} (resting : lm.ledgerState ≠ .syncing)
    (due : lm.nextLedgerHeaderSeq = info.index) :
    (recvExtVal ctx moment info).Holds lm
      (fun result after => after.ledgerState ≠ .syncing ∧ CloseEffect info lm result after)
      (fun _ _ => True) := by
  have next : (recvNext ctx moment info).Holds lm
      (fun result after => after.ledgerState ≠ .syncing ∧ CloseEffect info lm result after)
      (fun _ _ => True) := by
    unfold recvNext currHeaderHash
    simp only [holds_bind, holds_get]
    split
    · trivial
    · rw [holds_pure]
      split
      · rw [holds_bind]
        refine (closeLedger_effect info lm).imp ?_
        rintro (err | _) after ⟨same, effect⟩
        · exact ⟨same.ledgerState ▸ resting, effect⟩
        · exact ⟨by simp, effect⟩
      · trivial
  unfold recvExtVal
  rw [holds_bind, holds_get]
  cases state : lm.ledgerState with
  | syncing => exact absurd state resting
  | synced => exact if_pos due ▸ next
  | notSynced => exact if_pos due ▸ next

namespace Engine

theorem recvReady_keeps (sound : e.Sound ctx) (stmt : Statement) (view : World) (fuel : Nat) :
    (EngineEvent.ready stmt view fuel).Keeps ctx e (recvReady ctx stmt view fuel) := by
  unfold EngineEvent.Keeps recvReady
  rw [holds_bind, holds_get]
  split
  · exact ⟨sound, .idle rfl rfl⟩
  · rw [holds_bind]
    refine (getDecree_holds sound ?_).mono ?_ fun _ _ => False.elim
    · intro unloaded
      by_contra used
      have old := sound.past _ unloaded used
      omega
    · rintro result opened ⟨rfl, opens⟩
      refine (callDecree_holds opens _ view fuel ?_).mono (fun _ _ => And.left) fun _ _ acts => acts
      intro other received
      cases DecreeCall.recv.inj received
      exact ⟨rfl, view, fuel, rfl⟩

theorem nominate_keeps (sound : e.Sound ctx) (prevValue currValue : String) (view : World)
    (fuel : Nat) :
    event.Keeps ctx e (nominate ctx e.lm.nextLedgerHeaderSeq prevValue currValue view fuel) := by
  unfold EngineEvent.Keeps nominate
  rw [holds_bind]
  refine (getDecree_holds sound ?_).mono ?_ fun _ _ => False.elim
  · intro unloaded
    by_contra used
    have old := sound.past _ unloaded used
    omega
  · rintro result opened ⟨rfl, opens⟩
    rw [holds_bind]
    exact (callDecree_holds opens _ view fuel (by simp)).mono (fun _ _ => And.left)
      fun _ _ acts => acts

theorem propose_keeps (sound : e.Sound ctx) (txList : List Tx) (recvQuorum : Except String Unit)
    (now : Int) (view : World) (fuel : Nat) :
    event.Keeps ctx e (propose ctx txList recvQuorum now view fuel) := by
  have still : e.Sound ctx ∧ event.Acts ctx true e e := ⟨sound, .idle rfl rfl⟩
  unfold EngineEvent.Keeps propose
  rw [holds_bind, holds_get]
  split
  · exact still
  split
  · exact still
  simp only [onLedger, currHeaderHash, holds_bind, holds_zoom, holds_get]
  split
  · exact .idle rfl rfl
  rw [holds_pure]
  split
  · exact still
  split
  · exact still
  · exact still
  · exact still
  · split
    · exact .idle rfl rfl
    · rw [holds_bind]
      refine (nominate_keeps sound _ _ view fuel).mono ?_ fun _ _ acts => acts
      rintro (err | _) e' kept <;> exact kept

theorem Sound.removeOld {idx : Nat} (sound : e.Sound ctx)
    (closed : idx < e.lm.nextLedgerHeaderSeq) : (e.removeOld ctx.maxDecrees idx).Sound ctx := by
  unfold Engine.removeOld
  split
  · refine ⟨sound.single, ?_, ?_, sound.decree, sound.sent, sound.closed, sound.chain,
      sound.synced⟩
    · intro key loaded
      exact sound.held key (by grind)
    · intro key unloaded used
      simp only at unloaded
      split_ifs at unloaded
      · change key + ctx.maxDecrees < e.lm.nextLedgerHeaderSeq
        omega
      · exact sound.past key unloaded used
  · exact sound

theorem decrees_removeOld (maxDecrees idx : Nat) (e : Engine tm) :
    (e.removeOld maxDecrees idx).decrees = e.decrees := by
  unfold Engine.removeOld
  split <;> rfl

theorem quorum_removeOld (maxDecrees idx : Nat) (e : Engine tm) :
    (e.removeOld maxDecrees idx).quorum = e.quorum := by
  unfold Engine.removeOld
  split <;> rfl

theorem acts_congr {returned : Bool} {e' start final : Engine tm}
    (acts : event.Acts ctx returned e e') (startDecrees : start.decrees = e.decrees)
    (startQuorum : start.quorum = e.quorum) (finalDecrees : final.decrees = e'.decrees)
    (finalQuorum : final.quorum = e'.quorum) : event.Acts ctx returned start final := by
  have current : ctx.current start = ctx.current e := by
    funext idx
    rw [EngineContext.current, EngineContext.current, startDecrees, startQuorum]
  cases acts with
  | idle same quorum =>
    exact .idle (by rw [finalDecrees, same, startDecrees]) (by rw [finalQuorum, quorum, startQuorum])
  | call idx turn received changed quorum ended =>
    rw [← startDecrees, ← finalDecrees, ← current] at changed
    rw [← finalQuorum, ← current] at quorum
    rw [← current] at ended
    exact .call idx turn received changed quorum ended

/-- The value of the next ledger is closed before old decrees are deleted. -/
theorem externalize_keeps (sound : e.Sound ctx) {ext : ExternalizeValue}
    (sent : ∃ d ∈ e.decrees ext.index, ext ∈ d.externalizeChan)
    (inStep : ext.index ≤ e.lm.nextLedgerHeaderSeq) (moment : LedgerMoment) (view : World)
    (deletes : Bool) : event.Keeps ctx e (externalize ctx moment view deletes ext) := by
  have still : e.Sound ctx ∧ event.Acts ctx true e e := ⟨sound, .idle rfl rfl⟩
  unfold EngineEvent.Keeps externalize
  rw [holds_bind, holds_get]
  split
  · exact still
  rename_i due
  split
  · exact still
  split
  · exact still
  · exact still
  rename_i cv _ txset _
  rw [holds_bind, onLedger, holds_zoom]
  have closes := recvExtVal_due ctx.ledger moment ⟨ext.index, ext.value, txset⟩ sound.synced
    (le_antisymm (not_lt.mp due) inStep)
  have chains : KeepsChain tm ctx.ledger False
      (recvExtVal ctx.ledger moment ⟨ext.index, ext.value, txset⟩) :=
    recvExtVal_sound False.elim _
  refine (closes.and (chains e.lm sound.chain)).mono ?_ (fun _ _ _ => .idle rfl rfl)
  rintro (err | _) lm ⟨⟨resting, effect⟩, chain⟩
  · obtain ⟨closed, current⟩ := effect
    refine ⟨⟨sound.single, sound.held, ?_, sound.decree, sound.sent, ?_, chain, resting⟩,
      .idle rfl rfl⟩
    · simpa [LedgerCore.nextLedgerHeaderSeq, current] using sound.past
    · simpa [closed] using sound.closed
  · obtain ⟨-, closed, -, next : lm.nextLedgerHeaderSeq = ext.index + 1⟩ := effect
    have advanced : Sound ctx { e with lm := lm } := by
      refine ⟨sound.single, sound.held, ?_, sound.decree, sound.sent, ?_, chain, resting⟩
      · intro idx unloaded used
        have old := sound.past idx unloaded used
        change idx + ctx.maxDecrees < lm.nextLedgerHeaderSeq
        omega
      · intro info logged
        rcases List.mem_append.mp (closed ▸ logged) with earlier | last
        · exact sound.closed info earlier
        · rw [List.mem_singleton.mp last]
          exact sent
    obtain ⟨d, member, -⟩ := sent
    simp only [getDecree, holds_bind, holds_get]
    split
    · rw [holds_pure, holds_bind]
      have opens : e.Opened ctx ext.index { e with lm := lm } :=
        ⟨advanced, rfl, (sound.opens member).decrees⟩
      refine (callDecree_holds opens .stopNomination view 0 (by simp)).mono ?_
        fun _ _ acts => acts
      rintro _ e' ⟨⟨sound', acts⟩, sameLedger⟩
      have seq : e'.lm.nextLedgerHeaderSeq = ext.index + 1 := by rw [sameLedger, next]
      split
      · exact ⟨sound'.removeOld (by omega), acts_congr acts rfl rfl (decrees_removeOld _ _ _) (quorum_removeOld _ _ _)⟩
      · exact ⟨sound', acts⟩
    · exact ⟨advanced, .idle rfl rfl⟩

end Engine

theorem EngineEvent.perform_keeps (sound : e.Sound ctx) (inStep : event.InStep e) :
    event.Keeps ctx e (event.perform ctx) := by
  cases event with
  | ready stmt view fuel => exact Engine.recvReady_keeps sound stmt view fuel
  | propose txList recvQuorum now view fuel =>
    exact (holds_bind _ _).mpr (Engine.propose_keeps sound txList recvQuorum now view fuel)
  | renominate idx place prevHash currHash view fuel =>
    cases found : (e.decrees idx)[place]? with
    | none =>
      simp only [Keeps, perform, Engine.callDecree, Holds, found]
      exact ⟨sound, .idle rfl rfl⟩
    | some d =>
      have only := sound.eq_singleton (List.mem_of_getElem? found)
      obtain rfl : place = 0 := by
        rw [only, List.getElem?_eq_some_iff] at found
        simpa using found.1
      have opens := sound.opens (List.mem_of_getElem? found)
      exact (Engine.callDecree_holds opens _ view fuel (by simp)).mono (fun _ _ => And.left)
        fun _ _ acts => acts
  | externalize moment view deletes =>
    unfold Keeps perform
    rw [holds_bind, holds_get]
    cases channel : e.externalizeChan with
    | nil => exact ⟨sound, .idle rfl rfl⟩
    | cons ext rest =>
      have taken : Engine.Sound ctx { e with externalizeChan := rest } := by
        refine ⟨sound.single, sound.held, sound.past, sound.decree, ?_, sound.closed,
          sound.chain, sound.synced⟩
        intro other waiting
        exact sound.sent other (channel ▸ .tail _ waiting)
      rw [holds_bind, holds_modify, holds_bind]
      have kept : (EngineEvent.externalize moment view deletes).Keeps ctx
          { e with externalizeChan := rest } (Engine.externalize ctx moment view deletes ext) :=
        Engine.externalize_keeps taken (sound.sent ext (by simp [channel]))
          (inStep ext (by simp [channel])) moment view deletes
      refine Holds.mono kept ?_ ?_
      · exact fun _ _ ⟨sound', acts⟩ => ⟨sound', Engine.acts_congr acts rfl rfl rfl rfl⟩
      · exact fun _ _ acts => Engine.acts_congr acts rfl rfl rfl rfl

end Steps

section Runs

variable {tm : TxManager} {ctx : EngineContext} {e : Engine tm}

theorem Engine.Started.sound (started : e.Started ctx) : e.Sound ctx := by
  obtain ⟨moment, accounts, created⟩ := started.genesis
  have genesis : (createGenesisLedger ctx.ledger moment).Holds (newManager ∅ accounts [])
      (fun _ after => after.closed = [] ∧ after.ledgerState ≠ .syncing) (fun _ _ => True) := by
    refine (createGenesisLedger_holds _).imp ?_
    rintro - after ⟨same, h, -, grown⟩
    refine ⟨?_, by simp [same.ledgerState]⟩
    rw [grown, closed_extended]
    rfl
  obtain ⟨closed, resting⟩ := (holds_of_done created).mp genesis
  have chain := (holds_of_done created).mp
    (createGenesisLedger_sound (False.elim : False → _) accounts)
  exact ⟨by simp [started.decrees], by simp [started.loaded], by simp [started.decrees],
    by simp [started.decrees], by simp [started.externalizeChan], by simp [closed], chain,
    resting⟩

variable (ctx) in
/-- The states of an engine that is in step with its ledger, whatever statements and
transactions it is given. -/
inductive Engine.Reached : Engine tm → Prop
  | start (e : Engine tm) (started : e.Started ctx) : Reached e
  | step (e e' : Engine tm) (event : EngineEvent) (reached : Reached e) (inStep : event.InStep e)
      (performed : event.perform ctx e = .done () e') : Reached e'

theorem Engine.Reached.sound (reached : e.Reached ctx) : e.Sound ctx := by
  induction reached with
  | start e started => exact started.sound
  | step e e' event reached inStep performed ih =>
    exact ((holds_of_done performed).mp (event.perform_keeps ih inStep)).1

/-- An engine in step with its ledger never creates a second decree for an index, a decree
externalizes one value at most, and a closed ledger holds that value. -/
theorem engine_single_value (reached : e.Reached ctx) :
    (∀ idx, (e.decrees idx).length ≤ 1 ∧
      ∀ d ∈ e.decrees idx, d.externalizeChan.length ≤ 1) ∧
    ∀ info ∈ e.lm.closed, ∃ d, e.decrees info.index = [d] ∧
      d.externalizeChan = [⟨info.index, info.value⟩] := by
  have sound := reached.sound
  refine ⟨fun idx => ⟨sound.single idx, fun d member => ?_⟩, fun info closed => ?_⟩
  · by_cases sent : d.externalizeChan = []
    · simp [sent]
    · obtain ⟨-, value, -, only⟩ := (sound.decree idx d member).externalized sent
      simp [only]
  · obtain ⟨d, member, sent⟩ := sound.closed info closed
    obtain ⟨-, value, -, only⟩ :=
      (sound.decree _ d member).externalized (List.ne_nil_of_mem sent)
    rw [only, List.mem_singleton] at sent
    exact ⟨d, sound.eq_singleton member, only.trans (by rw [sent])⟩

def soloQuorum : Quorum := .mk 1 ["A"] []

def soloContext (node : String) : EngineContext :=
  ⟨.plain 0 node soloQuorum (fun _ => some soloQuorum) (fun _ => 0), "validator", 5,
    numberedHeaders⟩

def soloView : World :=
  { World.plain with
    getTxSet := fun hash =>
      .ok (some ⟨"header [1]", if hash = "txs" then [] else [⟨"", 0, hash, 0, []⟩]⟩) }

def newEngine : Engine TxManager.plain :=
  ⟨soloQuorum, fun _ => [], fun _ => false, oneLedger, []⟩

theorem newEngine_started (node : String) : newEngine.Started (soloContext node) :=
  ⟨rfl, fun _ => rfl, fun _ => rfl, rfl, momentAt 5 (.ok ()), _, rfl⟩

def soloPropose : EngineEvent := .propose [⟨"", 0, "x", 0, []⟩] (.ok ()) 0 soloView 12

def soloExternalize : EngineEvent := .externalize (momentAt 9 (.ok ())) soloView true

def proposed : Engine TxManager.plain := (soloPropose.perform (soloContext "A") newEngine).state

def secondClosed : Engine TxManager.plain :=
  (soloExternalize.perform (soloContext "A") proposed).state

theorem proposed_due : soloExternalize.InStep proposed := by
  have channel : proposed.externalizeChan = [⟨2, "x"⟩] := by decide +kernel
  intro ext waiting
  rw [channel, List.head?_cons, Option.mem_some_iff] at waiting
  subst waiting
  decide +kernel

/-- The node proposes, externalizes and closes a second ledger alone. -/
theorem engine_single_value_second :
    secondClosed.lm.closed.map (·.value) = ["x"] ∧
      ∀ info ∈ secondClosed.lm.closed, ∃ d, secondClosed.decrees info.index = [d] ∧
        d.externalizeChan = [⟨info.index, info.value⟩] := by
  have early : proposed.Reached (soloContext "A") :=
    .step _ _ soloPropose (.start _ (newEngine_started "A")) trivial
      (Outcome.eq_done (by decide +kernel))
  have late : secondClosed.Reached (soloContext "A") :=
    .step _ _ soloExternalize early proposed_due (Outcome.eq_done (by decide +kernel))
  exact ⟨by decide +kernel, (engine_single_value late).2⟩

end Runs

end Ultiledger
