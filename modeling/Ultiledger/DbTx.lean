import Ultiledger.BufferedWrites
import Ultiledger.TxManager

/-!
# Operations inside a database transaction

`ApplyTxList` with the database transactions it opens.  An operation is a sequence of
`Get`, `Put` and `Delete` of `db.Tx` with failing checks in between, so a failed one
leaves writes behind until `Rollback`.  Each performs the function of the same name on
whole buckets.
-/

namespace Ultiledger

open AbortingProgram BufferedWrites

namespace DbTx

inductive Write where
  | put (record : Record)
  | delete (key : List UInt8)

def Write.play : Write → Bucket → Bucket
  | .put record, bucket => bucket.insert record
  | .delete key, bucket => bucket.delete key

/-- Programs that use a `db.Tx`. -/
abbrev DbProgram (Value : Type) := SessionProgram Bucket Write OpError Value

def get (key : List UInt8) : DbProgram (Option Record) := do
  let view ← readView Write.play
  pure (view.get key)

def put (record : Record) : DbProgram Unit :=
  if record.key = [] then
    Program.abort (.failed "key required")
  else if record.key.length > 32768 then
    Program.abort (.failed "key too large")
  else
    write (.put record)

def delete (key : List UInt8) : DbProgram Unit := write (.delete key)

def wrapError (context : String) (program : DbProgram Unit) : DbProgram Unit :=
  program.mapFault (OpError.wrap context)

def getAccount (accountID : String) : DbProgram (Option Account) := do
  let record ← get (accountKey accountID)
  pure (record.map Record.decodeAccount)

def saveAccount (acc : Account) : DbProgram Unit :=
  wrapError "save account in db failed: " (put (.account acc))

def createAccount (am : AccountManager) (accountID : String) (balance : Int64)
    (signer : String) (seqNum : UInt64) : DbProgram Unit :=
  if balance < am.baseReserve then
    Program.abort (.failed "init balance lower than base reserve")
  else
    wrapError "save account in db failed: "
      (put (.account ⟨accountID, balance, signer, seqNum, 0, some ⟨0, 0⟩⟩))

def createTrust (accountID : String) (asset : Asset) (limit : Int64) : DbProgram Unit :=
  if accountID = asset.issuer then
    pure ()
  else
    wrapError "save trust in db failed: "
      (put (.trust ⟨accountID, some asset, 0, limit, some ⟨0, 0⟩, 1⟩))

def getTrust (accountID : String) (asset : Asset) : DbProgram (Option Trust) :=
  if accountID = asset.issuer then
    pure (some ⟨accountID, some asset, Int64.maxValue, Int64.maxValue, none, 1⟩)
  else do
    let record ← get (trustKey accountID asset)
    pure (record.map Record.decodeTrust)

def saveTrust (line : Trust) : DbProgram Unit :=
  if line.asset = none then
    Program.abort (.failed "encode asset failed: proto: Marshal called with nil")
  else
    wrapError "save account in db failed: " (put (.trust line))

def deleteTrust (accountID : String) (asset : Asset) : DbProgram Unit :=
  delete (trustKey accountID asset)

/-- `FillOrder` inside the transaction, returning the amount sold. -/
abbrev FillOrder := Order → DbProgram Int64

def applyCreateAccount (am : AccountManager) (c : Op.CreateAccount) : DbProgram Unit :=
  if c.srcAccountID = c.dstAccountID then
    Program.abort (.failed "src and dst account is the same")
  else if c.balance = 0 then
    Program.abort (.failed "init balance for dst account is zero")
  else do
    let dstAcc ← getAccount c.dstAccountID
    if dstAcc ≠ none then
      Program.abort (.failed "dst account already exists")
    else do
      match ← getAccount c.srcAccountID with
      | none => Program.abort errAccountNotExist
      | some srcAcc =>
        if srcAcc.balance < c.balance then
          Program.abort (.failed "src account is underfund")
        else if c.balance < c.baseReserve then
          Program.abort (.failed "init balance is smaller than base reserve")
        else do
          wrapError ("update account " ++ c.srcAccountID ++ " failed: ")
            (saveAccount { srcAcc with balance := srcAcc.balance - c.balance })
          wrapError ("create account " ++ c.dstAccountID ++ " failed: ")
            (createAccount am c.dstAccountID c.balance c.srcAccountID c.ledgerSeqNum)

def moveNative (onUpdate onSave : String) (accountID : String) (amount : Int64) :
    DbProgram Unit := do
  match ← getAccount accountID with
  | none => Program.abort errAccountNotExist
  | some acc => do
    let acc ← Program.lift (Ultiledger.wrapError onUpdate (updateBalance acc amount))
    wrapError onSave (saveAccount acc)

def moveTrust (accountID : String) (asset : Asset) (amount : Int64) : DbProgram Unit := do
  let issuer ← getAccount asset.issuer
  if issuer = none then
    Program.abort errAccountNotExist
  else do
    match ← getTrust accountID asset with
    | none => Program.abort (.nilDereference "trust")
    | some line =>
      if line.authorized = 0 then
        Program.abort errPaymentNotAuthorized
      else do
        let line ← Program.lift
          (Ultiledger.wrapError "add trust balance failed: " (updateTrustBalance line amount))
        wrapError "save trust failed: " (saveTrust line)

def creditDst (dstAccountID : String) (asset : Asset) (amount : Int64) : DbProgram Unit := do
  let dstAcc ← getAccount dstAccountID
  if dstAcc = none then
    Program.abort errAccountNotExist
  else if asset.assetType = .native then
    moveNative "add balance failed: " "save account failed: " dstAccountID amount
  else
    moveTrust dstAccountID asset amount

def debitSrc (srcAccountID : String) (asset : Asset) (amount : Int64) : DbProgram Unit :=
  if asset.assetType = .native then
    moveNative "" "" srcAccountID (-amount)
  else
    moveTrust srcAccountID asset (-amount)

def exchangePath (fillOrder : FillOrder) :
    List Asset → Asset × Int64 → DbProgram (Asset × Int64)
  | [], state => pure state
  | hop :: rest, (asset, amount) =>
    if hop = asset then
      exchangePath fillOrder rest (asset, amount)
    else do
      let issuer ← getAccount hop.issuer
      if hop.assetType ≠ .native ∧ issuer = none then
        Program.abort errAccountNotExist
      else do
        let sold ← (fillOrder ⟨hop, Int64.maxValue, asset, amount⟩).mapFault
          (OpError.wrap "exchange assets failed: ")
        exchangePath fillOrder rest (hop, sold)

def applyPathPayment (fillOrder : FillOrder) (pp : Op.PathPayment) : DbProgram Unit := do
  let srcAsset ← Program.lift
    (Ultiledger.wrapError "validate src payment asset failed: " (validateAsset pp.srcAsset))
  let dstAsset ← Program.lift
    (Ultiledger.wrapError "validate dst payment asset failed: " (validateAsset pp.dstAsset))
  let path ← Program.lift (pp.path.mapM fun asset =>
    Ultiledger.wrapError "validate path payment asset failed: " (validateAsset asset))
  if pp.srcAccountID = "" ∨ pp.dstAccountID = "" then
    Program.abort errInvalidAccountID
  else if pp.srcAmount = 0 ∨ pp.dstAmount = 0 then
    Program.abort errInvalidPaymentAmount
  else do
    creditDst pp.dstAccountID dstAsset pp.dstAmount
    let (asset, amount) ←
      exchangePath fillOrder (srcAsset :: path).reverse (dstAsset, pp.dstAmount)
    if amount > pp.srcAmount then
      Program.abort (.failed "deduced src payment amount is over the limit")
    else
      debitSrc pp.srcAccountID asset amount

def applyPayment (fillOrder : FillOrder) (p : Op.Payment) : DbProgram Unit := do
  let _ ← Program.lift
    (Ultiledger.wrapError "validate payment asset failed: " (validateAsset p.asset))
  if p.amount = 0 then
    Program.abort errInvalidPaymentAmount
  else if p.srcAccountID = "" ∨ p.dstAccountID = "" then
    Program.abort errInvalidAccountID
  else
    applyPathPayment fillOrder
      ⟨p.srcAccountID, p.asset, p.amount, p.dstAccountID, p.asset, p.amount, []⟩

def openTrust (am : AccountManager) (srcAcc : Account) (srcAccountID : String) (asset : Asset)
    (limit : Int64) : DbProgram Unit :=
  if limit = 0 then
    Program.abort (.failed "trust limit cannot be zero")
  else do
    let issuer ← getAccount asset.issuer
    if issuer = none then
      Program.abort errAccountNotExist
    else do
      let srcAcc ← Program.lift
        (Ultiledger.wrapError ("add src account " ++ srcAccountID ++ " entry failed: ")
          (am.updateEntryCount srcAcc 1))
      wrapError ("save src account " ++ srcAccountID ++ " failed: ") (saveAccount srcAcc)
      wrapError "create trust failed: " (createTrust srcAccountID asset limit)

def modifyTrust (am : AccountManager) (srcAcc : Account) (srcAccountID : String) (asset : Asset)
    (limit : Int64) (line : Trust) : DbProgram Unit :=
  if limit = 0 then do
    deleteTrust srcAccountID asset
    let srcAcc ← Program.lift
      (Ultiledger.wrapError ("subtract src account " ++ srcAccountID ++ " entry failed: ")
        (am.updateEntryCount srcAcc (-1)))
    wrapError ("save src account " ++ srcAccountID ++ " failed: ") (saveAccount srcAcc)
  else
    match line.liability with
    | none => Program.abort (.nilDereference "trust.Liability")
    | some liability =>
      if limit < line.balance + liability.buying then
        Program.abort (.failed "cannot lower the trust limit below minimum list.")
      else
        wrapError "save trust failed: " (saveTrust { line with limit := limit })

def applyTrust (am : AccountManager) (t : Op.Trust) : DbProgram Unit :=
  match t.asset with
  | none => Program.abort (.nilDereference "t.Asset")
  | some asset =>
    if t.srcAccountID = asset.issuer then
      Program.abort (.failed "cannot change trustline of self")
    else do
      match ← getAccount t.srcAccountID with
      | none => Program.abort errAccountNotExist
      | some srcAcc =>
        match ← getTrust t.srcAccountID asset with
        | none => openTrust am srcAcc t.srcAccountID asset t.limit
        | some line => modifyTrust am srcAcc t.srcAccountID asset t.limit line

def apply (am : AccountManager) (fillOrder : FillOrder) : Operation → DbProgram Unit
  | .createAccount op => applyCreateAccount am op
  | .payment op => applyPayment fillOrder op
  | .trust op => applyTrust am op

def applyOps (am : AccountManager) (fillOrder : FillOrder) : List Operation → DbProgram Unit
  | [] => pure ()
  | operation :: rest => do
    apply am fillOrder operation
    applyOps am fillOrder rest

section Execution

variable (tm : TxManager) (fillOrder : FillOrder)

/-- The operations of a transaction.  When the list cannot be built the
transaction is marked failed and goes on without operations. -/
def txOps (ledgerSeqNum : UInt64) (tx : Tx) : LedgerProgram tm (List Operation) :=
  match getTxOpList tm tx.opList tx.accountID ledgerSeqNum with
  | .ok ops => pure ops
  | .error (.failed message) => do
    updateTxStatus tm tx ⟨.failed, message⟩
    pure []
  | .error (.nilDereference what) => Program.abort (.panicked what)

/-- One round of the execution phase: `Begin`, the operations, and `Commit` or
`Rollback`.  A transaction that is open when the process dies is lost. -/
def executeTx (ledgerSeqNum : UInt64) (tx : Tx) : LedgerProgram tm Unit := do
  let ops ← txOps tm ledgerSeqNum tx
  let state ← Program.get
  match applyOps tm.am fillOrder ops (Session.opened state.bucket) with
  | .done _ dt => do
    Program.modify fun state => { state with bucket := dt.commit Write.play }
    updateTxStatus tm tx ⟨.confirmed, ""⟩
  | .abort (.failed message) dt => do
    Program.modify fun state => { state with bucket := dt.rollback }
    updateTxStatus tm tx ⟨.failed, message⟩
  | .abort (.nilDereference what) _ => Program.abort (.panicked what)

def executeTxs (ledgerSeqNum : UInt64) : List Tx → LedgerProgram tm Unit
  | [] => pure ()
  | tx :: rest => do
    executeTx tm fillOrder ledgerSeqNum tx
    executeTxs ledgerSeqNum rest

def applyTxList (schedule : Schedule) (txList : List Tx) (ledgerSeqNum : UInt64) :
    LedgerProgram tm Unit := do
  let sorted := schedule.sort txList
  let accountIDs := schedule.order (sorted.map Tx.accountID).dedup
  let restTxList ← chargeAccounts tm sorted accountIDs
  executeTxs tm fillOrder ledgerSeqNum (schedule.sort restTxList)

end Execution

section Reads

variable {session : Session Bucket Write} {result : Except OpError Bucket}

theorem performs_getAccount {accountID : String} {next : Option Account → DbProgram Unit}
    (performs : Performs Write.play
      (next (Ultiledger.getAccount (session.view Write.play) accountID)) session result) :
    Performs Write.play (getAccount accountID >>= next) session result :=
  performs

theorem performs_getTrust {accountID : String} {asset : Asset}
    {next : Option Trust → DbProgram Unit}
    (performs : Performs Write.play
      (next (Ultiledger.getTrust (session.view Write.play) accountID asset)) session result) :
    Performs Write.play (getTrust accountID asset >>= next) session result := by
  unfold getTrust
  unfold Ultiledger.getTrust at performs
  split_ifs at performs ⊢ <;> exact performs

end Reads

section Performs

variable (session : Session Bucket Write)

theorem performs_put (record : Record) :
    Performs Write.play (put record) session ((session.view Write.play).put record) := by
  unfold put Bucket.put
  split_ifs
  · exact .abort _
  · exact .abort _
  · exact Performs.write _

variable {session}

theorem performs_wrapError {context : String} {program : DbProgram Unit}
    {result : Except OpError Bucket} (performs : Performs Write.play program session result) :
    Performs Write.play (wrapError context program) session
      (Ultiledger.wrapError context result) := by
  have mapped := performs.mapFault (OpError.wrap context)
  cases result with
  | ok bucket => exact mapped
  | error error => exact mapped

variable (session)

theorem performs_saveAccount (acc : Account) :
    Performs Write.play (saveAccount acc) session
      (Ultiledger.saveAccount (session.view Write.play) acc) :=
  performs_wrapError (performs_put session _)

variable (am : AccountManager) (accountID : String) (srcAcc : Account) (srcAccountID : String)
  (asset : Asset) (amount limit : Int64)

theorem performs_createAccount (balance : Int64) (signer : String) (seqNum : UInt64) :
    Performs Write.play (createAccount am accountID balance signer seqNum) session
      (am.createAccount (session.view Write.play) accountID balance signer seqNum) := by
  unfold createAccount AccountManager.createAccount
  split_ifs
  · exact .abort _
  · exact performs_wrapError (performs_put session _)

theorem performs_createTrust :
    Performs Write.play (createTrust accountID asset limit) session
      (Ultiledger.createTrust (session.view Write.play) accountID asset limit) := by
  unfold createTrust Ultiledger.createTrust
  split_ifs
  · exact .pure
  · exact performs_wrapError (performs_put session _)

theorem performs_saveTrust (line : Trust) :
    Performs Write.play (saveTrust line) session
      (Ultiledger.saveTrust (session.view Write.play) line) := by
  unfold saveTrust Ultiledger.saveTrust
  split_ifs
  · exact .abort _
  · exact performs_wrapError (performs_put session _)

theorem performs_applyCreateAccount (c : Op.CreateAccount) :
    Performs Write.play (applyCreateAccount am c) session
      (c.apply am (session.view Write.play)) := by
  unfold applyCreateAccount Op.CreateAccount.apply
  split
  · exact .abort _
  · split
    · exact .abort _
    · apply performs_getAccount
      split
      · exact .abort _
      · apply performs_getAccount
        cases Ultiledger.getAccount (session.view Write.play) c.srcAccountID with
        | none => exact .abort _
        | some srcAcc =>
          dsimp only
          split
          · exact .abort _
          · split
            · exact .abort _
            · apply Performs.andThen (performs_wrapError (performs_saveAccount session _))
              intro later
              exact performs_wrapError (performs_createAccount later am _ _ _ _)

theorem performs_moveNative (onUpdate onSave accountID : String) (amount : Int64) :
    Performs Write.play (moveNative onUpdate onSave accountID amount) session
      (Ultiledger.moveNative onUpdate onSave (session.view Write.play) accountID amount) := by
  unfold Ultiledger.moveNative
  apply performs_getAccount
  cases Ultiledger.getAccount (session.view Write.play) accountID with
  | none => exact .abort _
  | some acc =>
    apply Performs.lift
    intro updated _
    exact performs_wrapError (performs_saveAccount session updated)

theorem performs_moveTrust :
    Performs Write.play (moveTrust accountID asset amount) session
      (Ultiledger.moveTrust (session.view Write.play) accountID asset amount) := by
  unfold Ultiledger.moveTrust
  apply performs_getAccount
  split
  · exact .abort _
  · apply performs_getTrust
    cases Ultiledger.getTrust (session.view Write.play) accountID asset with
    | none => exact .abort _
    | some line =>
      dsimp only
      split
      · exact .abort _
      · apply Performs.lift
        intro updated _
        exact performs_wrapError (performs_saveTrust session updated)

theorem performs_creditDst (dstAccountID : String) (asset : Asset) (amount : Int64) :
    Performs Write.play (creditDst dstAccountID asset amount) session
      (Ultiledger.creditDst (session.view Write.play) dstAccountID asset amount) := by
  unfold Ultiledger.creditDst
  apply performs_getAccount
  split
  · exact .abort _
  · split
    · exact performs_moveNative session _ _ _ _
    · exact performs_moveTrust session _ _ _

theorem performs_debitSrc :
    Performs Write.play (debitSrc srcAccountID asset amount) session
      (Ultiledger.debitSrc (session.view Write.play) srcAccountID asset amount) := by
  unfold debitSrc Ultiledger.debitSrc
  split
  · exact performs_moveNative session _ _ _ _
  · exact performs_moveTrust session _ _ _

theorem performs_applyPathPayment (fillOrder : FillOrder) (em : Exchange) {pp : Op.PathPayment}
    (sameAsset : pp.srcAsset = pp.dstAsset) (direct : pp.path = []) :
    Performs Write.play (applyPathPayment fillOrder pp) session
      (pp.apply em (session.view Write.play)) := by
  apply Performs.lift
  intro srcAsset srcValid
  apply Performs.lift
  intro dstAsset dstValid
  apply Performs.lift
  intro path pathValid
  have noPath : path = [] := by
    rw [direct] at pathValid
    exact (Except.ok.inj pathValid).symm
  subst noPath
  have same : srcAsset = dstAsset := by
    rw [wrapError_eq_ok, sameAsset] at srcValid
    rw [wrapError_eq_ok] at dstValid
    exact Except.ok.inj (srcValid.symm.trans dstValid)
  subst same
  split
  · exact .abort _
  · split
    · exact .abort _
    · apply Performs.andThen (performs_creditDst session _ _ _)
      intro later
      have stays : exchangePath fillOrder [srcAsset] (srcAsset, pp.dstAmount) =
          pure (srcAsset, pp.dstAmount) := by
        simp [exchangePath]
      have staysThere : Ultiledger.exchangePath em [srcAsset]
          (later.view Write.play, srcAsset, pp.dstAmount) =
            .ok (later.view Write.play, srcAsset, pp.dstAmount) := by
        simp [Ultiledger.exchangePath]
      rw [List.reverse_singleton, stays, staysThere]
      change Performs Write.play (if _ then _ else _) later (if _ then _ else _)
      split
      · exact .abort _
      · exact performs_debitSrc later _ _ _

theorem performs_applyPayment (fillOrder : FillOrder) (em : Exchange) (p : Op.Payment) :
    Performs Write.play (applyPayment fillOrder p) session
      (p.apply em (session.view Write.play)) := by
  apply Performs.lift
  intro asset _
  split
  · exact .abort _
  · split
    · exact .abort _
    · exact performs_applyPathPayment session fillOrder em rfl rfl

theorem performs_openTrust :
    Performs Write.play (openTrust am srcAcc srcAccountID asset limit) session
      (Ultiledger.openTrust am (session.view Write.play) srcAcc srcAccountID asset limit) := by
  unfold openTrust Ultiledger.openTrust
  split
  · exact .abort _
  · apply performs_getAccount
    split
    · exact .abort _
    · apply Performs.lift
      intro counted _
      apply Performs.andThen (performs_wrapError (performs_saveAccount session counted))
      intro later
      exact performs_wrapError (performs_createTrust later _ _ _)

theorem performs_modifyTrust (line : Trust) :
    Performs Write.play (modifyTrust am srcAcc srcAccountID asset limit line) session
      (Ultiledger.modifyTrust am (session.view Write.play) srcAcc srcAccountID asset limit
        line) := by
  unfold modifyTrust Ultiledger.modifyTrust
  split
  · apply Performs.afterWrite
    intro later shown
    apply Performs.lift
    intro counted _
    have saves := performs_saveAccount later counted
    rw [shown] at saves
    exact performs_wrapError saves
  · cases line.liability with
    | none => exact .abort _
    | some liability =>
      dsimp only
      split
      · exact .abort _
      · exact performs_wrapError (performs_saveTrust session _)

theorem performs_applyTrust (t : Op.Trust) :
    Performs Write.play (applyTrust am t) session (t.apply am (session.view Write.play)) := by
  unfold applyTrust Op.Trust.apply
  cases t.asset with
  | none => exact .abort _
  | some asset =>
    dsimp only
    split
    · exact .abort _
    · apply performs_getAccount
      cases Ultiledger.getAccount (session.view Write.play) t.srcAccountID with
      | none => exact .abort _
      | some srcAcc =>
        apply performs_getTrust
        cases Ultiledger.getTrust (session.view Write.play) t.srcAccountID asset with
        | none => exact performs_openTrust session am _ _ _ _
        | some line => exact performs_modifyTrust session am _ _ _ _ _

/-- Inside a transaction an operation does to what the transaction shows what it
does to a bucket. -/
theorem performs_apply (fillOrder : FillOrder) (em : Exchange) (operation : Operation) :
    Performs Write.play (apply am fillOrder operation) session
      (operation.apply am em (session.view Write.play)) := by
  cases operation with
  | createAccount c => exact performs_applyCreateAccount session am c
  | payment p => exact performs_applyPayment session fillOrder em p
  | trust t => exact performs_applyTrust session am t

/-- So do the operations of a transaction in sequence, each on what the ones
before it have left. -/
theorem performs_applyOps (fillOrder : FillOrder) (em : Exchange) (ops : List Operation) :
    Performs Write.play (applyOps am fillOrder ops) session
      (ops.foldlM (fun bucket operation => operation.apply am em bucket)
        (session.view Write.play)) := by
  induction ops generalizing session with
  | nil => exact .pure
  | cons operation rest ih =>
    exact Performs.andThen (performs_apply session am fillOrder em operation) ih

end Performs

end DbTx

end Ultiledger
