import Ultiledger.BallotProtocol

/-!
# The nomination protocol and the calls of a decree

`Nominate`, `StopNomination` and `Recv` of `consensus/decree.go` and the nomination
protocol behind them, with a bound on the depth of the delivery.  The call of the timer
is a call of its own; `renominate` only counts.
-/

namespace Ultiledger

open AbortingProgram Program

section TxSets

def genesisBaseFee : Int64 := 1000

def totalFees (txList : List Tx) : Int64 :=
  (txList.map fun tx =>
    min tx.fee (genesisBaseFee * Int64.ofNat (max 1 tx.opList.length))).sum

variable (ctx : DecreeContext)

/-- `b58.Decode` where its error is dropped. -/
def DecreeContext.bytesOf (text : String) : List UInt8 :=
  (ctx.decodeBase58 text).toOption.getD []

/-- The loop over the first bytes, which takes the byte of the same index on the other
side. -/
def xorBytes : List UInt8 → List UInt8 → Except Fault (List UInt8)
  | [], _ => .ok []
  | _ :: _, [] => .error .indexOutOfRange
  | byte :: rest, other :: others => (xorBytes rest others).map ((byte ^^^ other) :: ·)

/-- The bytes of a buffer as a text, with one character for each. -/
def bufferText (buf : List UInt8) : String :=
  String.ofList (buf.map fun byte => Char.ofNat byte.toNat)

def bytesOr (l r : String) : Except Fault String :=
  (xorBytes (ctx.bytesOf l) (ctx.bytesOf r)).map bufferText

def lessBytesOr (l r h : String) : Except Fault Bool := do
  let lbuf ← xorBytes (ctx.bytesOf h) (ctx.bytesOf l)
  let rbuf ← xorBytes (ctx.bytesOf h) (ctx.bytesOf r)
  pure (bufferText lbuf < bufferText rbuf)

def compareTxSet (ltsHash : String) (lts : TxSet) (rtsHash : String) (rts : TxSet)
    (hash : String) : Except Fault Bool :=
  if lts.txList.length < rts.txList.length then .ok true
  else if lts.txList.length > rts.txList.length then .ok false
  else if totalFees lts.txList < totalFees rts.txList then .ok true
  else if totalFees lts.txList > totalFees rts.txList then .ok false
  else lessBytesOr ctx ltsHash rtsHash hash

variable (getTxSet : String → Except String (Option TxSet)) (headerHash hash : String)

/-- One round of the second loop of `combineCandidates`, over the consensus values, with
the set that is chosen so far and its hash. -/
def considerTxSet (chosen : Option (String × TxSet)) (cv : ConsensusValue) :
    Except Fault (Option (String × TxSet)) :=
  match getTxSet cv.txSetHash with
  | .ok (some ts) =>
    if ts.prevLedgerHash ≠ headerHash then .ok chosen
    else
      match chosen with
      | none => .ok (some (cv.txSetHash, ts))
      | some (txsetHash, txset) => do
        let heavier ← compareTxSet ctx txsetHash txset cv.txSetHash ts hash
        pure (if heavier then some (cv.txSetHash, ts) else chosen)
  | _ => .ok chosen

def chooseTxSet (vals : List ConsensusValue) : Except Fault (Option (String × TxSet)) :=
  vals.foldlM (considerTxSet ctx getTxSet headerHash hash) none

/-- The first loop of `combineCandidates`, with the mask that `bytesOr` makes of the
hashes of the candidates. -/
def decodeCandidates : String → List String →
    Except Fault (Except String (String × List ConsensusValue))
  | hash, [] => .ok (.ok (hash, []))
  | hash, cand :: rest =>
    match ctx.decodeBase58 cand with
    | .error err => .ok (.error ("decode candidate failed: " ++ err))
    | .ok canb => do
      let mask ← bytesOr ctx hash (ctx.sha256Hash canb)
      match ctx.decodeConsensusValue canb with
      | .error err => .ok (.error ("decode consensus value failed: " ++ err))
      | .ok cv => do
        match ← decodeCandidates mask rest with
        | .error err => .ok (.error err)
        | .ok (mask, vals) => .ok (.ok (mask, cv :: vals))

section EmptyMask

variable {ctx getTxSet headerHash}

theorem bytesOf_empty : ctx.bytesOf "" = [] := by
  have refused := ctx.decodeBase58_empty
  unfold DecreeContext.bytesOf
  cases decoded : ctx.decodeBase58 "" with
  | error err => rfl
  | ok bytes => simp [decoded, Except.isOk, Except.toBool] at refused

/-- `bytesOr` keeps the length of its first argument, so a mask that starts empty stays
empty. -/
theorem bytesOr_empty (r : String) : bytesOr ctx "" r = .ok "" := by
  rw [bytesOr, bytesOf_empty]
  rfl

theorem lessBytesOr_empty (l r : String) : lessBytesOr ctx l r "" = .ok false := by
  rw [lessBytesOr, bytesOf_empty]
  rfl

theorem compareTxSet_empty (ltsHash : String) (lts : TxSet) (rtsHash : String) (rts : TxSet) :
    ∃ heavier, compareTxSet ctx ltsHash lts rtsHash rts "" = .ok heavier := by
  unfold compareTxSet
  rw [lessBytesOr_empty]
  split_ifs <;> exact ⟨_, rfl⟩

theorem decodeCandidates_empty (cands : List String) :
    ∃ read, decodeCandidates ctx "" cands = .ok read ∧
      ∀ hash vals, read = .ok (hash, vals) → hash = "" := by
  induction cands with
  | nil => exact ⟨_, rfl, by simp⟩
  | cons cand rest ih =>
    obtain ⟨read, decoded, unmasked⟩ := ih
    unfold decodeCandidates
    cases ctx.decodeBase58 cand with
    | error err => exact ⟨_, rfl, by simp⟩
    | ok canb =>
      dsimp only
      rw [bytesOr_empty]
      simp only [Bind.bind, Except.bind]
      cases ctx.decodeConsensusValue canb with
      | error err => exact ⟨_, rfl, by simp⟩
      | ok cv =>
        rw [decoded]
        rcases read with err | ⟨mask, vals⟩
        · exact ⟨_, rfl, by simp⟩
        · exact ⟨_, rfl, by simpa using (unmasked mask vals rfl).symm⟩

theorem chooseTxSet_empty (vals : List ConsensusValue) :
    ∃ chosen, chooseTxSet ctx getTxSet headerHash "" vals = .ok chosen := by
  have considers : ∀ chosen cv, ∃ next,
      considerTxSet ctx getTxSet headerHash "" chosen cv = .ok next := by
    intro chosen cv
    unfold considerTxSet
    rcases getTxSet cv.txSetHash with err | _ | ts
    · exact ⟨_, rfl⟩
    · exact ⟨_, rfl⟩
    · dsimp only
      split_ifs
      · exact ⟨_, rfl⟩
      rcases chosen with _ | ⟨txsetHash, txset⟩
      · exact ⟨_, rfl⟩
      · have compares : ∃ heavier, compareTxSet ctx txsetHash txset cv.txSetHash ts "" = .ok heavier :=
          compareTxSet_empty txsetHash txset cv.txSetHash ts
        obtain ⟨heavier, compared⟩ := compares
        dsimp only
        rw [compared]
        exact ⟨_, rfl⟩
  unfold chooseTxSet
  generalize (none : Option (String × TxSet)) = chosen
  induction vals generalizing chosen with
  | nil => exact ⟨chosen, rfl⟩
  | cons cv rest ih =>
    obtain ⟨next, considered⟩ := considers chosen cv
    rw [List.foldlM_cons, considered]
    exact ih next

end EmptyMask

end TxSets

section Nomination

variable (ctx : DecreeContext) (world : World)

/-- What the hashes of the present round are computed from. -/
def DecreeState.seed (d : DecreeState) : RoundSeed :=
  ⟨ctx.index, d.prevConsensusValue, d.nominationRound, ctx.sha256HashUint64⟩

/-- `getConsensusValue`: the valid vote of highest hash that is not yet voted
for, or the empty text. -/
def getConsensusValue (d : DecreeState) (nom : Nominate) : String :=
  (nom.voteList.foldl (fun best vote =>
    if (validateConsensusValue ctx world d vote).isOk = false ∨ vote ∈ d.votes then best
    else
      let hashVal := getConsensusValueHash (d.seed ctx) vote
      if hashVal > best.1 then (hashVal, vote) else best) (0, "")).2

def updateRoundLeaders : DecreeM Unit :=
  modify fun d => { d with
    quorum := settleQuorum world.arrange d.quorum
    nominationLeaders := d.nominationLeaders ∪
      roundLeaders (d.seed ctx) ctx.nodeID world.arrange d.quorum }

/-- A value enters a set, and the record. -/
def DecreeState.addValue (d : DecreeState) (target : ValueSet) (value : String) : DecreeState :=
  let noted : DecreeState := { d with
    additions := d.additions ++
      [⟨target, value, (validateConsensusValue ctx world d value).isOk⟩] }
  match target with
  | .votes => { noted with votes := d.votes.insert value }
  | .accepts => { noted with accepts := d.accepts.insert value }
  | .candidates => { noted with candidates := d.candidates.insert value }

/-- The first loop of `promoteVotes`. -/
def promoteToAccepts : List String → DecreeM Bool
  | [] => pure false
  | vote :: rest => do
    let d ← get
    if vote ∈ d.accepts then
      promoteToAccepts rest
    else
      let accepted ← lift (federatedAccept (d.voting ctx) Nominate.quorumSource
        (voteFilter vote) (acceptFilter vote) d.nominations)
      if accepted ∧ (validateConsensusValue ctx world d vote).isOk then do
        modify fun d => (d.addValue ctx world .votes vote).addValue ctx world .accepts vote
        let _ ← promoteToAccepts rest
        pure true
      else
        promoteToAccepts rest

/-- The second loop of `promoteVotes`. -/
def promoteToCandidates : List String → DecreeM Bool
  | [] => pure false
  | accept :: rest => do
    let d ← get
    if accept ∈ d.candidates then
      promoteToCandidates rest
    else
      let ratified ← lift (federatedRatify (d.voting ctx) Nominate.quorumSource
        (acceptFilter accept) d.nominations)
      if ratified then do
        modify fun d => d.addValue ctx world .candidates accept
        let _ ← promoteToCandidates rest
        pure true
      else
        promoteToCandidates rest

/-- The last lines of `combineCandidates`. -/
def encodeComposite (proposeTime : Int) (txset : TxSet) : DecreeM (Except String String) :=
  match ctx.getTxSetKey txset with
  | .error err => pure (.error ("compute tx set hash failed: " ++ err))
  | .ok newTxSetHash =>
    match world.addTxSet newTxSetHash txset with
    | .error err => pure (.error ("sync quorum to validator failed: " ++ err))
    | .ok () => do
      modify fun d => { d with txSets := (newTxSetHash, txset) :: d.txSets }
      match ctx.encodeConsensusValue ⟨newTxSetHash, proposeTime⟩ with
      | .error err => pure (.error ("encode combine consensus value failed: " ++ err))
      | .ok candStr => pure (.ok candStr)

def combineCandidates : DecreeM (Except String String) := do
  let d ← get
  match ← lift (decodeCandidates ctx "" (world.iterate d.candidates)) with
  | .error err => pure (.error err)
  | .ok (hash, vals) =>
    match ← lift (chooseTxSet ctx (d.getTxSet world) world.currLedgerHeaderHash hash vals) with
    | none => pure (.error "txset is nil after candidate combination.")
    | some (_, txset) =>
      encodeComposite ctx world ((vals.map (·.proposeTime)).foldl max 0) txset

/-- `sendNomination` with a given delivery of the decree's own nomination. -/
def sendNomination (deliver : Statement → DecreeM (Except String Unit)) :
    DecreeM (Except String Unit) := do
  let d ← get
  let nom : Nominate := ⟨world.iterate d.votes, world.iterate d.accepts, ctx.quorumHash⟩
  let stmt : Statement := ⟨.nominate, ctx.nodeID, ctx.index, some (.nominate nom)⟩
  match ← deliver stmt with
  | .error err => pure (.error ("receive local nomination failed: " ++ err))
  | .ok () => do
    let d ← get
    if isNewerNomination d.latestNomination nom then
      modify fun d => { d with
        latestNomination := some nom
        statementChan := d.statementChan ++ [stmt] }
    else
      pure ()
    pure (.ok ())

def startBallot (fuel : Nat) : DecreeM (Except String Unit) := do
  match ← combineCandidates ctx world with
  | .error err => pure (.error ("combine candidates failed: " ++ err))
  | .ok compValue => do
    modify fun d => { d with latestComposite := compValue }
    let _ ← updateBallotPhase ctx (recvBallot ctx world fuel) compValue false
    pure (.ok ())

def DecreeState.reception (d : DecreeState) (nodeID : String) (nom : Nominate) : Reception :=
  ⟨nodeID, nom, nom.acceptList.filter fun accept =>
    !(validateConsensusValue ctx world d accept).isOk⟩

/-- The nominations that are stored when one more has been received. -/
def storedAfter (nominations : StatementMap Nominate) (nodeID : String) (nom : Nominate) :
    StatementMap Nominate :=
  match nominations.lookup nodeID with
  | none => nominations.insert nodeID nom
  | some known =>
    if isNewerNomination (some known) nom then nominations.insert nodeID nom else nominations

def DecreeState.storeNomination (d : DecreeState) (nodeID : String) (nom : Nominate) :
    DecreeState :=
  { d with
    nominations := storedAfter d.nominations nodeID nom
    receptions := d.receptions ++ [d.reception ctx world nodeID nom] }

/-- `recvNomination` with a given delivery of the decree's own nomination. -/
def receiveNomination (deliver : Statement → DecreeM (Except String Unit)) (fuel : Nat)
    (stmt : Statement) : DecreeM (Except String Unit) :=
  match stmt.getNominate with
  | none => abort (.nilDereference "nominate")
  | some nom =>
    if nom.voteList.length + nom.acceptList.length = 0 then
      pure (.error "vote and accept list is empty")
    else do
      modify fun d => d.storeNomination ctx world stmt.nodeID nom
      let d ← get
      if d.nominationStart = false then
        pure (.ok ())
      else do
        let acceptUpdated ← promoteToAccepts ctx world nom.voteList
        let candidateUpdated ← promoteToCandidates ctx world nom.acceptList
        if acceptUpdated then do
          let _ ← sendNomination ctx world deliver
          if candidateUpdated then startBallot ctx world fuel else pure (.ok ())
        else if candidateUpdated then
          startBallot ctx world fuel
        else
          pure (.ok ())

def recvNomination : Nat → Statement → DecreeM (Except String Unit)
  | 0 => fun _ => abort .outOfFuel
  | fuel + 1 => receiveNomination ctx world (recvNomination fuel) fuel

/-- The loop of `Nominate` over the leaders. -/
def followLeaders (currHash : String) : List String → DecreeM Bool
  | [] => pure false
  | leader :: rest => do
    let d ← get
    let nomination :=
      if leader = ctx.nodeID then
        if currHash ∈ d.votes then none else some currHash
      else
        match d.nominations.lookup leader with
        | none => none
        | some nom =>
          let vote := getConsensusValue ctx world d nom
          if vote ≠ "" then some vote else none
    match nomination with
    | none => followLeaders currHash rest
    | some vote => do
      modify fun d => d.addValue ctx world .votes vote
      let _ ← followLeaders currHash rest
      pure true

/-- `renominate`, without the timer it starts. -/
def renominate : DecreeM Unit :=
  modify fun d =>
    if d.nominationStart = false ∨ d.renomCount > maxRenomCount then d
    else { d with renomCount := d.renomCount + 1 }

def nominate (fuel : Nat) (prevHash currHash : String) (isRenominate : Bool) :
    DecreeM (Except String Unit) := do
  let d ← get
  if isRenominate ∧ d.nominationStart = false then
    pure (.ok ())
  else do
    modify fun d => { d with
      nominationStart := true
      nominationRound := d.nominationRound + 1
      prevConsensusValue := prevHash }
    updateRoundLeaders ctx world
    let d ← get
    let updated ← followLeaders ctx world currHash (world.iterate d.nominationLeaders)
    renominate
    if updated then
      match ← sendNomination ctx world (recvNomination ctx world fuel) with
      | .error err => pure (.error ("send nomination failed: " ++ err))
      | .ok () => pure (.ok ())
    else
      pure (.ok ())

def stopNomination : DecreeM Unit :=
  modify fun d => { d with nominationStart := false }

def recv (fuel : Nat) (stmt : Option Statement) : DecreeM (Except String Unit) :=
  match stmt with
  | none => pure (.error "statement is nil")
  | some stmt =>
    match stmt.statementType with
    | .nominate => do
      match ← recvNomination ctx world fuel stmt with
      | .error err => pure (.error ("recv nomination failed: " ++ err))
      | .ok () => pure (.ok ())
    | .other => pure (.ok ())
    | _ => do
      match ← recvBallot ctx world fuel stmt false with
      | .error err => pure (.error ("recv ballot failed: " ++ err))
      | .ok () => pure (.ok ())

end Nomination

inductive DecreeCall where
  | nominate (prevHash currHash : String) (isRenominate : Bool)
  | stopNomination
  | recv (stmt : Option Statement)
  deriving DecidableEq, Repr

structure Turn where
  call : DecreeCall
  world : World
  fuel : Nat

def runTurn (ctx : DecreeContext) (turn : Turn) : DecreeM Unit :=
  match turn.call with
  | .nominate prevHash currHash isRenominate => do
    let _ ← nominate ctx turn.world turn.fuel prevHash currHash isRenominate
    pure ()
  | .stopNomination => stopNomination
  | .recv stmt => do
    let _ ← recv ctx turn.world turn.fuel stmt
    pure ()

def runTurns (ctx : DecreeContext) : List Turn → DecreeM Unit
  | [] => pure ()
  | turn :: rest => do
    runTurn ctx turn
    runTurns ctx rest

end Ultiledger
