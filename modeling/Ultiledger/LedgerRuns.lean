import Ultiledger.TxManager

/-! # Runs of the transaction manager -/

namespace Ultiledger

open AbortingProgram Program Relation

section Runs

variable (tm : TxManager)

inductive LedgerStep : LedgerState tm → LedgerState tm → Prop where
  | status (state : LedgerState tm) (tx : Tx) (status : TxStatus) :
      LedgerStep state
        { state with statuses := state.statuses.insert (tm.txKey tx) status }
  | charge (state : LedgerState tm) (round : FeeRound) (bucket : Bucket)
      (current : round.bucket = state.bucket)
      (saved : saveAccount state.bucket round.after = .ok bucket) :
      LedgerStep state
        { state with bucket := bucket, events := state.events ++ [.charged round] }
  | execute (state : LedgerState tm) (tx : Tx) :
      LedgerStep state { state with events := state.events ++ [.executed tx] }
  | commit (state : LedgerState tm) (ops : List Operation) (bucket : Bucket)
      (succeeded : (applyOps tm ops state.bucket).1 = .ok bucket) :
      LedgerStep state
        { state with
          bucket := bucket
          events := state.events ++ (applyOps tm ops state.bucket).2.map .applied }
  | rollback (state : LedgerState tm) (ops : List Operation) :
      LedgerStep state
        { state with
          events := state.events ++ (applyOps tm ops state.bucket).2.map .applied }

def Reaches : LedgerState tm → LedgerState tm → Prop :=
  ReflTransGen (LedgerStep tm)

variable (results : List (Charge ⊕ Tx × String)) (sorted : List Tx) (ledgerSeqNum : UInt64)
  (state : LedgerState tm) {charge : Charge} {final : LedgerState tm}

theorem reaches_refl : Reaches tm state state :=
  .refl

theorem reaches_trans (first second third : LedgerState tm)
    (firstReaches : Reaches tm first second) (secondReaches : Reaches tm second third) :
    Reaches tm first third :=
  .trans firstReaches secondReaches

theorem updateTxStatus_steps (tx : Tx) (status : TxStatus) :
    Steps (Reaches tm) (updateTxStatus tm tx status) :=
  fun state => .single (.status state tx status)

theorem rejectTxs_steps : Steps (Reaches tm) (rejectTxs tm results) := by
  induction results with
  | nil => exact .pure (reaches_refl tm) ()
  | cons result rest ih =>
    cases result with
    | inl charge => exact ih
    | inr rejected =>
      exact Steps.bind (reaches_trans tm)
        (updateTxStatus_steps tm rejected.1 _) (fun _ => ih)

def failedStatuses : List (Charge ⊕ Tx × String) → (Finmap fun _ : String => TxStatus) →
    Finmap fun _ : String => TxStatus
  | [], statuses => statuses
  | .inl _ :: rest, statuses => failedStatuses rest statuses
  | .inr (tx, message) :: rest, statuses =>
    failedStatuses rest (statuses.insert (tm.txKey tx) ⟨.failed, message⟩)

theorem rejectTxs_eq :
    rejectTxs tm results state =
      .done () { state with statuses := failedStatuses tm results state.statuses } := by
  induction results generalizing state with
  | nil => rfl
  | cons result rest ih =>
    cases result with
    | inl charge => exact ih state
    | inr rejected =>
      exact ih { state with
        statuses := state.statuses.insert (tm.txKey rejected.1) ⟨.failed, rejected.2⟩ }

theorem chargeAccount_steps (accountID : String) :
    Steps (Reaches tm) (chargeAccount tm sorted accountID) := by
  intro state
  rw [chargeAccount, holds_bind, holds_get]
  split
  · exact reaches_refl tm state
  · rename_i acc read
    simp only [holds_bind]
    have rejected := rejectTxs_steps tm
      (chargeTxs acc (sorted.filter fun tx => tx.accountID = accountID)).2 state
    rw [holds_of_done (rejectTxs_eq tm _ state)] at rejected ⊢
    split
    · exact rejected
    · exact rejected
    · rename_i bucket saved
      exact ReflTransGen.tail rejected
        (LedgerStep.charge { state with statuses := failedStatuses tm _ state.statuses } _
          bucket rfl saved)

theorem chargeAccounts_steps (accountIDs : List String) :
    Steps (Reaches tm) (chargeAccounts tm sorted accountIDs) := by
  induction accountIDs with
  | nil => exact .pure (reaches_refl tm) []
  | cons accountID rest ih =>
    refine Steps.bind (reaches_trans tm) (chargeAccount_steps tm sorted accountID) ?_
    intro charged
    exact Steps.bind (reaches_trans tm) ih
      (fun others => .pure (reaches_refl tm) _)

theorem executeOps_steps (tx : Tx) (ops : List Operation) :
    Steps (Reaches tm) (executeOps tm tx ops) := by
  intro state
  simp only [executeOps, holds_bind, holds_get, holds_modify]
  rcases result : (applyOps tm ops state.bucket).1 with error | bucket
  · have rolled := ReflTransGen.single (LedgerStep.rollback state ops)
    cases error with
    | failed message =>
      exact ReflTransGen.tail rolled (LedgerStep.status _ tx ⟨.failed, message⟩)
    | nilDereference what => exact rolled
  · have committed := ReflTransGen.single
      (LedgerStep.commit state ops bucket result)
    exact ReflTransGen.tail committed (LedgerStep.status _ tx ⟨.confirmed, ""⟩)

theorem executeTx_steps (tx : Tx) : Steps (Reaches tm) (executeTx tm ledgerSeqNum tx) := by
  refine Steps.bind (reaches_trans tm)
    (fun state => .single (LedgerStep.execute state tx)) (fun _ => ?_)
  rcases getTxOpList tm tx.opList tx.accountID ledgerSeqNum with error | ops
  · cases error with
    | failed message =>
      exact Steps.bind (reaches_trans tm) (updateTxStatus_steps tm tx _)
        (fun _ => executeOps_steps tm tx [])
    | nilDereference what => exact .abort (reaches_refl tm) _
  · exact executeOps_steps tm tx ops

theorem executeTxs_steps (txs : List Tx) : Steps (Reaches tm) (executeTxs tm ledgerSeqNum txs) := by
  induction txs with
  | nil => exact .pure (reaches_refl tm) ()
  | cons tx rest ih =>
    exact Steps.bind (reaches_trans tm) (executeTx_steps tm ledgerSeqNum tx)
      (fun _ => ih)

theorem applyTxList_steps (schedule : Schedule) (txList : List Tx) (ledgerSeqNum : UInt64) :
    Steps (Reaches tm) (applyTxList tm schedule txList ledgerSeqNum) :=
  Steps.bind (reaches_trans tm) (chargeAccounts_steps tm _ _)
    (fun restTxList => executeTxs_steps tm ledgerSeqNum (schedule.sort restTxList))

theorem runCalls_reaches (calls : List Call) (state : LedgerState tm) :
    Reaches tm state (runCalls tm calls state) := by
  induction calls generalizing state with
  | nil => exact reaches_refl tm state
  | cons call rest ih =>
    refine reaches_trans tm _ _ _ ?_ (ih _)
    exact (applyTxList_steps tm call.schedule call.txList call.ledgerSeqNum state).atEnd

variable {tm}

theorem LedgerStep.events_initial {state : LedgerState tm} (step : LedgerStep tm state final) :
    state.events <+: final.events := by
  cases step <;> simp

theorem Reaches.events_initial {state : LedgerState tm} (reaches : Reaches tm state final) :
    state.events <+: final.events := by
  induction reaches with
  | refl => exact List.prefix_refl _
  | tail _ step ih => exact ih.trans step.events_initial

/-- An invariant kept by the steps whose events meet a condition is kept along a
run whose events all meet it. -/
theorem Reaches.invariant {invariant : LedgerState tm → Prop} {condition : Event tm → Prop}
    (kept : ∀ state final, LedgerStep tm state final →
      (∀ event ∈ final.events, condition event) → invariant state → invariant final)
    {state final : LedgerState tm} (reaches : Reaches tm state final)
    (conditions : ∀ event ∈ final.events, condition event) (initial : invariant state) :
    invariant final := by
  induction reaches with
  | refl => exact initial
  | tail _ step ih =>
    exact kept _ _ step conditions
      (ih fun event eventMem => conditions event (step.events_initial.subset eventMem))

def chargesIn (events : List (Event tm)) : List Charge :=
  events.flatMap fun event =>
    match event with
    | .charged round => round.charges
    | _ => []

def applicationsIn (events : List (Event tm)) : List (Application tm) :=
  events.flatMap fun event =>
    match event with
    | .applied application => [application]
    | _ => []

def executedIn (events : List (Event tm)) : List Tx :=
  events.flatMap fun event =>
    match event with
    | .executed tx => [tx]
    | _ => []

section

variable (events : List (Event tm))

variable (applications : List (Application tm)) (round : FeeRound)

@[simp]
theorem chargesIn_charged :
    chargesIn (events ++ [.charged round]) = chargesIn events ++ round.charges := by
  simp [chargesIn]

@[simp]
theorem chargesIn_applied : chargesIn (events ++ applications.map .applied) = chargesIn events := by
  simp [chargesIn]

@[simp]
theorem chargesIn_executed (tx : Tx) : chargesIn (events ++ [.executed tx]) = chargesIn events := by
  simp [chargesIn]

@[simp]
theorem executedIn_charged : executedIn (events ++ [.charged round]) = executedIn events := by
  simp [executedIn]

@[simp]
theorem executedIn_applied :
    executedIn (events ++ applications.map .applied) = executedIn events := by
  simp [executedIn]

@[simp]
theorem executedIn_executed (tx : Tx) :
    executedIn (events ++ [.executed tx]) = executedIn events ++ [tx] := by
  simp [executedIn]

end

theorem mem_chargesIn {events : List (Event tm)} :
    charge ∈ chargesIn events ↔ ∃ round, .charged round ∈ events ∧ charge ∈ round.charges := by
  simp only [chargesIn, List.mem_flatMap]
  constructor
  · rintro ⟨event, eventMem, chargeMem⟩
    cases event with
    | charged round => exact ⟨round, eventMem, chargeMem⟩
    | executed tx => simp at chargeMem
    | applied application => simp at chargeMem
  · rintro ⟨round, eventMem, chargeMem⟩
    exact ⟨_, eventMem, chargeMem⟩

@[simp]
theorem mem_applicationsIn {events : List (Event tm)} {application : Application tm} :
    application ∈ applicationsIn events ↔ .applied application ∈ events := by
  simp only [applicationsIn, List.mem_flatMap]
  constructor
  · rintro ⟨event, eventMem, applicationMem⟩
    cases event with
    | charged round => simp at applicationMem
    | executed tx => simp at applicationMem
    | applied other =>
      obtain rfl := List.mem_singleton.mp applicationMem
      exact eventMem
  · intro eventMem
    exact ⟨_, eventMem, List.mem_singleton_self _⟩

/-- The round of an account is a chain of charges from the account read to the
account saved. -/
theorem chargeTxs_induction {motive : Account → Account → List Charge → Prop} {txs : List Tx}
    (empty : ∀ acc, motive acc acc [])
    (charged : ∀ (charge : Charge) (last : Account) (later : List Charge), charge.tx ∈ txs →
      motive charge.after last later → motive charge.acc last (charge :: later))
    (acc : Account) :
    motive acc (chargeTxs acc txs).1 ((chargeTxs acc txs).2.filterMap Sum.getLeft?) := by
  induction txs generalizing acc with
  | nil => exact empty acc
  | cons tx rest ih =>
    have later : ∀ acc, motive acc (chargeTxs acc rest).1
        ((chargeTxs acc rest).2.filterMap Sum.getLeft?) :=
      ih fun charge last later txMem =>
        charged charge last later (.tail tx txMem)
    unfold chargeTxs
    split_ifs with old poor
    · exact later acc
    · exact later acc
    · exact charged ⟨acc, tx, old, poor⟩ _ _ (.head _) (later _)

theorem accountID_of_chargeTxs (acc : Account) (txs : List Tx) :
    (chargeTxs acc txs).1.accountID = acc.accountID :=
  chargeTxs_induction (motive := fun acc last _ => last.accountID = acc.accountID)
    (fun _ => rfl) (fun _ _ _ _ same => same) acc

theorem FeeRound.own_of_mem_charges {round : FeeRound} (chargeMem : charge ∈ round.charges) :
    charge.tx.accountID = round.accountID := by
  apply round.own
  refine chargeTxs_induction
    (motive := fun _ _ charges => charge ∈ charges → charge.tx ∈ round.txs)
    ?_ ?_ round.acc chargeMem
  · simp
  · rintro first last later txMem laterMem (_ | ⟨_, chargeLater⟩)
    · exact txMem
    · exact laterMem chargeLater

/-- What every logged operation carries over from the bucket before to the
bucket after, the operations of a transaction carry over. -/
theorem applyOps_induction {property : Bucket → Prop} {ops : List Operation}
    {dt bucket : Bucket} (succeeded : (applyOps tm ops dt).1 = .ok bucket)
    (kept : ∀ application ∈ (applyOps tm ops dt).2,
      property application.before → property application.after)
    (initial : property dt) : property bucket := by
  induction ops generalizing dt with
  | nil =>
    cases succeeded
    exact initial
  | cons operation rest ih =>
    unfold applyOps at succeeded kept
    split at succeeded
    · simp at succeeded
    · rename_i next applied
      split at kept
      · rename_i error failed
        rw [applied] at failed
        simp at failed
      · rename_i next' applied'
        cases applied.symm.trans applied'
        refine ih succeeded ?_ ?_
        · intro application applicationMem
          exact kept application (.tail _ applicationMem)
        · exact kept _ (.head _) initial

end Runs

end Ultiledger
