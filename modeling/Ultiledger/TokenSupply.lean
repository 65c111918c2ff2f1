import Ultiledger.TypedAccess
import Ultiledger.FinmapTotals
import Mathlib.Tactic.Ring

/-! # Token supply -/

namespace Ultiledger

open MachineIntegers FinmapTotals

variable {bucket before after : Bucket} {p : Op.Payment} {em : Exchange} {am : AccountManager}

def Record.nativeBalance : Record → Int
  | .account acc => acc.balance.toInt
  | .trust _ => 0

def supply (bucket : Bucket) : Int := total Record.nativeBalance bucket.records

theorem supply_insert (bucket : Bucket) (record : Record) :
    supply (bucket.insert record) + held Record.nativeBalance bucket.records record.key =
      supply bucket + record.nativeBalance :=
  total_insert _ _ _ _

theorem supply_insert_account {acc stored : Account}
    (found : bucket.get (accountKey acc.accountID) = some (.account stored)) :
    supply (bucket.insert (.account acc)) =
      supply bucket - stored.balance.toInt + acc.balance.toInt := by
  have balance : held Record.nativeBalance bucket.records (Record.account acc).key =
      stored.balance.toInt := by
    change (bucket.get (accountKey acc.accountID)).elim 0 Record.nativeBalance = _
    rw [found]
    rfl
  have change := supply_insert bucket (.account acc)
  simp only [Record.nativeBalance] at change
  omega

theorem supply_insert_new {acc : Account} (fresh : bucket.get (accountKey acc.accountID) = none) :
    supply (bucket.insert (.account acc)) = supply bucket + acc.balance.toInt := by
  have balance : held Record.nativeBalance bucket.records (Record.account acc).key = 0 := by
    change (bucket.get (accountKey acc.accountID)).elim 0 Record.nativeBalance = _
    rw [fresh]
    rfl
  have change := supply_insert bucket (.account acc)
  simp only [Record.nativeBalance] at change
  omega

private theorem held_eq_zero {key : List UInt8} (typed : bucket.NoAccountAt key) :
    held Record.nativeBalance bucket.records key = 0 := by
  change (bucket.get key).elim 0 Record.nativeBalance = 0
  rcases found : bucket.get key with _ | record
  · rfl
  · cases record with
    | account acc => exact absurd found (typed acc)
    | trust line => rfl

theorem supply_insert_trust {line : Trust} (typed : bucket.NoAccountAt (Record.trust line).key) :
    supply (bucket.insert (.trust line)) = supply bucket := by
  have change := supply_insert bucket (.trust line)
  rw [held_eq_zero typed] at change
  simpa [Record.nativeBalance] using change

theorem supply_delete {key : List UInt8} (typed : bucket.NoAccountAt key) :
    supply (bucket.delete key) = supply bucket := by
  have change := total_erase Record.nativeBalance bucket.records key
  rw [held_eq_zero typed, add_zero] at change
  exact change

/-- What the payer of a native payment is found to hold once the receiver has
been credited. -/
def payerBalance (before : Bucket) (p : Op.Payment) : Int64 :=
  if p.srcAccountID = p.dstAccountID then
    balanceOf before p.dstAccountID + p.amount
  else
    balanceOf before p.srcAccountID

/-- The credit and the debit of a native payment cancel.  The smallest integer is
its own negation: credit and debit then both subtract `2 ^ 63`, and exactly one
of them has to wrap. -/
def PaymentBalances (before : Bucket) (p : Op.Payment) : Prop :=
  if p.amount.toInt = minInt64 then
    ((balanceOf before p.dstAccountID).toInt < 0 ↔ 0 ≤ (payerBalance before p).toInt)
  else
    (0 < p.amount.toInt → minInt64 ≤ (payerBalance before p).toInt - p.amount.toInt) ∧
      (p.amount.toInt < 0 →
        minInt64 ≤ (balanceOf before p.dstAccountID).toInt + p.amount.toInt)

instance (before : Bucket) (p : Op.Payment) : Decidable (PaymentBalances before p) := by
  unfold PaymentBalances
  infer_instance

/-- No step of the operation wraps in a way that changes the supply. -/
def Operation.KeepsSupply (before : Bucket) : Operation → Prop
  | .createAccount c =>
    (balanceOf before c.srcAccountID).toInt - c.balance.toInt ≤ maxInt64
  | .payment p => ∀ asset ∈ p.asset, asset.assetType = .native →
      PaymentBalances before p
  | .trust _ => True

instance (before : Bucket) : (operation : Operation) → Decidable (operation.KeepsSupply before)
  | .createAccount _ | .payment _ | .trust _ => by unfold Operation.KeepsSupply; infer_instance

theorem credit_debit_cancel_iff {receiver payer amount : Int64} (nonzero : amount ≠ 0)
    (overflow : 0 < amount.toInt → receiver.toInt + amount.toInt ≤ maxInt64)
    (debitOverflow : 0 < (-amount).toInt → payer.toInt + (-amount).toInt ≤ maxInt64) :
    (receiver + amount).toInt - receiver.toInt + ((payer + -amount).toInt - payer.toInt) = 0 ↔
      if amount.toInt = minInt64 then (receiver.toInt < 0 ↔ 0 ≤ payer.toInt)
      else (0 < amount.toInt → minInt64 ≤ payer.toInt - amount.toInt) ∧
        (amount.toInt < 0 → minInt64 ≤ receiver.toInt + amount.toInt) := by
  have receiverLow := minInt64_le receiver
  have receiverHigh := le_maxInt64 receiver
  have payerLow := minInt64_le payer
  have payerHigh := le_maxInt64 payer
  have apart : amount.toInt ≠ 0 := by
    intro zero
    exact nonzero (Int64.toInt_inj.mp (by simpa using zero))
  split_ifs with smallest
  · have negated := toInt_neg_of_eq smallest
    have credit : (receiver + amount).toInt =
        receiver.toInt + minInt64 + if receiver.toInt < 0 then 2 ^ 64 else 0 := by
      split_ifs with negative
      · rw [toInt_add_of_below (by omega), smallest]
      · rw [toInt_add_of_fits (by omega) (by omega), smallest, add_zero]
    have debit : (payer + -amount).toInt =
        payer.toInt + minInt64 + if payer.toInt < 0 then 2 ^ 64 else 0 := by
      split_ifs with negative
      · rw [toInt_add_of_below (by omega), negated]
      · rw [toInt_add_of_fits (by omega) (by omega), negated, add_zero]
    rw [credit, debit]
    unfold minInt64
    split_ifs <;> omega
  · have negated := toInt_neg_of_ne smallest
    rcases lt_or_gt_of_ne apart with negative | positive
    · have debit : (payer + -amount).toInt = payer.toInt - amount.toInt := by
        rw [toInt_add_of_fits] <;> rw [negated] <;> unfold minInt64 maxInt64 at * <;> omega
      by_cases fits : minInt64 ≤ receiver.toInt + amount.toInt
      · rw [toInt_add_of_fits fits (by omega)]
        constructor
        · intro _
          exact ⟨fun positive => by omega, fun _ => fits⟩
        · omega
      · rw [toInt_add_of_below (by omega)]
        constructor
        · omega
        · rintro ⟨_, below⟩
          exact absurd (below negative) fits
    · have credit : (receiver + amount).toInt = receiver.toInt + amount.toInt :=
        toInt_add_of_fits (by omega) (overflow positive)
      rw [credit]
      by_cases fits : minInt64 ≤ payer.toInt - amount.toInt
      · rw [toInt_add_of_fits (by omega) (by omega)]
        constructor
        · intro _
          exact ⟨fun _ => fits, fun negative => by omega⟩
        · omega
      · rw [toInt_add_of_below (by omega)]
        constructor
        · omega
        · rintro ⟨above, _⟩
          exact absurd (above positive) fits

theorem payerBalance_eq {dstAcc srcAcc : Account}
    (dstHeld : before.get (accountKey p.dstAccountID) = some (.account dstAcc))
    (dstOwn : dstAcc.accountID = p.dstAccountID) (srcHeld : (before.insert
      (.account { dstAcc with balance := dstAcc.balance + p.amount })).get
        (accountKey p.srcAccountID) = some (.account srcAcc)) :
    payerBalance before p = srcAcc.balance := by
  unfold payerBalance
  rw [Bucket.get_insert, Record.key_account, dstOwn] at srcHeld
  split_ifs with self
  · rw [self, if_pos rfl] at srcHeld
    cases srcHeld
    simp [balanceOf, getAccount, dstHeld, Record.decodeAccount]
  · rw [if_neg (accountKey_ne self)] at srcHeld
    simp [balanceOf, getAccount, srcHeld, Record.decodeAccount]

theorem native_payment_supply_iff {asset : Asset} (given : p.asset = some asset)
    (native : asset.assetType = .native) (typed : (Operation.payment p).Typed before)
    (done : p.apply em before = .ok after) :
    supply after = supply before ↔ PaymentBalances before p := by
  obtain ⟨dstAcc, srcAcc, dstHeld, dstOwn, srcHeld, srcOwn, credit, debit, nonzero, rfl⟩ :=
    of_native_payment given native typed done
  have receiver : balanceOf before p.dstAccountID = dstAcc.balance := by
    simp [balanceOf, getAccount, dstHeld, Record.decodeAccount]
  have payer := payerBalance_eq dstHeld dstOwn srcHeld
  have credited := @supply_insert_account before
    { dstAcc with balance := dstAcc.balance + p.amount } dstAcc (by simpa [dstOwn] using dstHeld)
  have debited := @supply_insert_account _
    { srcAcc with balance := srcAcc.balance + -p.amount } srcAcc (by simpa [srcOwn] using srcHeld)
  have cancel := credit_debit_cancel_iff nonzero credit debit
  rw [PaymentBalances, receiver, payer, ← cancel, debited, credited]
  dsimp only
  constructor <;> intro balanced <;> omega

theorem createAccount_supply_iff {c : Op.CreateAccount}
    (typed : (Operation.createAccount c).Typed before) (done : c.apply am before = .ok after) :
    supply after = supply before ↔ (Operation.createAccount c).KeepsSupply before := by
  obtain ⟨srcAcc, apart, fresh, read, funded, rfl⟩ := of_createAccount done
  obtain ⟨srcHeld, srcOwn⟩ := get_of_getAccount typed read
  have debited := @supply_insert_account before
    { srcAcc with balance := srcAcc.balance - c.balance } srcAcc (by simpa [srcOwn] using srcHeld)
  have stillFresh : (before.insert
      (.account { srcAcc with balance := srcAcc.balance - c.balance })).get
        (accountKey c.dstAccountID) = none := by
    rw [Bucket.get_insert, Record.key_account, srcOwn, if_neg (accountKey_ne apart.symm)]
    exact getAccount_eq_none.mp fresh
  have created := @supply_insert_new _
    ⟨c.dstAccountID, c.balance, c.srcAccountID, c.ledgerSeqNum, 0, some ⟨0, 0⟩⟩ stillFresh
  simp only [Operation.KeepsSupply, balanceOf_eq read, created, debited]
  by_cases fits : srcAcc.balance.toInt - c.balance.toInt ≤ maxInt64
  · rw [toInt_sub_of_fits (by unfold minInt64; omega) fits]
    constructor
    · exact fun _ => fits
    · omega
  · rw [toInt_sub_of_above (by omega)]
    constructor
    · omega
    · exact fun small => absurd small fits

theorem custom_payment_supply {asset : Asset} (given : p.asset = some asset)
    (custom : asset.assetType ≠ .native) (typed : (Operation.payment p).Typed before)
    (done : p.apply em before = .ok after) : supply after = supply before := by
  obtain ⟨dstLine, srcLine, _, dstKey, _, _, _, srcKey, rfl⟩ :=
    of_custom_payment given custom typed done
  have lineTyped : before.NoAccountAt (trustKey p.dstAccountID asset) ∧
      before.NoAccountAt (trustKey p.srcAccountID asset) := by
    simpa [custom] using typed asset given
  rw [supply_insert_trust, supply_insert_trust]
  · change before.NoAccountAt (Record.trust dstLine).key
    rw [dstKey]
    exact lineTyped.1
  · change Bucket.NoAccountAt _ (Record.trust srcLine).key
    rw [srcKey]
    exact noAccountAt_insert_trust lineTyped.2

theorem trust_supply {t : Op.Trust} (typed : (Operation.trust t).Typed before)
    (done : t.apply am before = .ok after) : supply after = supply before := by
  obtain ⟨asset, srcAcc, given, srcHeld, srcOwn, lineTyped, effect⟩ :=
    of_typed_trust typed done
  have apart : trustKey t.srcAccountID asset ≠ accountKey t.srcAccountID := by
    intro same
    rw [same] at lineTyped
    exact lineTyped srcAcc srcHeld
  rcases effect with ⟨entries, rfl⟩ | ⟨entries, rfl⟩ | ⟨line, lineKey, _, rfl⟩
  · have counted := @supply_insert_account before { srcAcc with entryCount := entries }
      srcAcc (by simpa [srcOwn] using srcHeld)
    rw [supply_insert_trust, counted]
    · dsimp only
      omega
    · intro acc found
      change Bucket.get _ (trustKey t.srcAccountID asset) = _ at found
      rw [Bucket.get_insert, Record.key_account, srcOwn, if_neg apart] at found
      exact lineTyped acc found
  · have counted := @supply_insert_account
      (before.delete (trustKey t.srcAccountID asset)) { srcAcc with entryCount := entries }
      srcAcc (by rw [Bucket.get_delete, srcOwn, if_neg apart.symm]; exact srcHeld)
    rw [counted, supply_delete lineTyped]
    dsimp only
    omega
  · rw [supply_insert_trust]
    change before.NoAccountAt (Record.trust line).key
    rw [lineKey]
    exact lineTyped

theorem Operation.supply_iff {operation : Operation} (typed : operation.Typed before)
    (done : operation.apply am em before = .ok after) :
    supply after = supply before ↔ operation.KeepsSupply before := by
  cases operation with
  | createAccount c => exact createAccount_supply_iff typed done
  | payment p =>
    obtain ⟨asset, middle, given, _⟩ := of_payment done
    by_cases native : asset.assetType = .native
    · rw [native_payment_supply_iff given native typed done]
      constructor
      · intro balances _ _ _
        exact balances
      · intro keeps
        exact keeps asset given native
    · refine ⟨fun _ other otherGiven otherNative => ?_, fun _ => ?_⟩
      · cases given.symm.trans otherGiven
        exact absurd otherNative native
      · exact custom_payment_supply given native typed done
  | trust t => exact ⟨fun _ => trivial, fun _ => trust_supply typed done⟩

def feesOf (charges : List Charge) : Int := (charges.map fun charge => charge.tx.fee.toInt).sum

/-- The charge of a negative fee carries the balance above the 64-bit range. -/
def Charge.Wraps (charge : Charge) : Prop :=
  maxInt64 < charge.acc.balance.toInt - charge.tx.fee.toInt

instance (charge : Charge) : Decidable charge.Wraps :=
  inferInstanceAs (Decidable (_ < _))

def wrapsOf (charges : List Charge) : Nat := charges.countP fun charge => charge.Wraps

def taken (charges : List Charge) : Int := feesOf charges + 2 ^ 64 * wrapsOf charges

theorem taken_append (first second : List Charge) :
    taken (first ++ second) = taken first + taken second := by
  simp only [taken, feesOf, wrapsOf, List.map_append, List.sum_append, List.countP_append]
  push_cast
  ring

theorem Charge.after_balance (charge : Charge) :
    charge.after.balance.toInt = charge.acc.balance.toInt - taken [charge] := by
  have covered : charge.tx.fee.toInt ≤ charge.acc.balance.toInt :=
    Int64.le_iff_toInt_le.mp (Int64.not_lt.mp charge.feeCovered)
  change (charge.acc.balance - charge.tx.fee).toInt = _
  by_cases wraps : charge.Wraps
  · rw [toInt_sub_of_above wraps]
    simp only [taken, feesOf, wrapsOf, List.map_cons, List.map_nil, List.sum_cons,
      List.sum_nil, List.countP_cons, List.countP_nil, wraps, decide_true, if_true]
    omega
  · rw [toInt_sub_of_fits (by unfold minInt64; omega) (not_lt.mp wraps)]
    simp only [taken, feesOf, wrapsOf, List.map_cons, List.map_nil, List.sum_cons,
      List.sum_nil, List.countP_cons, List.countP_nil, wraps, decide_false,
      Bool.false_eq_true, if_false]
    omega

theorem FeeRound.after_balance (round : FeeRound) :
    round.after.balance.toInt = round.acc.balance.toInt - taken round.charges := by
  refine chargeTxs_induction (motive := fun acc last charges =>
    last.balance.toInt = acc.balance.toInt - taken charges) ?_ ?_ round.acc
  · simp [taken, feesOf, wrapsOf]
  · intro charge last later _ balance
    have split : taken (charge :: later) = taken [charge] + taken later :=
      taken_append [charge] later
    rw [balance, charge.after_balance, split]
    ring

theorem Reaches.supply_eq {tm : TxManager} {state final : LedgerState tm}
    (reaches : Reaches tm state final) (started : state.events = [])
    (typed : ∀ event ∈ final.events, event.Typed)
    (kept : ∀ application ∈ applicationsIn final.events,
      supply application.after = supply application.before) :
    supply final.bucket = supply state.bucket - taken (chargesIn final.events) := by
  have run := @Reaches.invariant tm
    (fun current =>
      supply current.bucket = supply state.bucket - taken (chargesIn current.events))
    (fun event => event.Typed ∧ ∀ application, event = .applied application →
      supply application.after = supply application.before)
  refine run ?_ reaches ?_ ?_
  · intro current next step conditions balance
    cases step with
    | status tx status => exact balance
    | charge round bucket fresh saved =>
      have roundTyped := (conditions (.charged round) (by simp)).1
      obtain ⟨found, own⟩ := FeeRound.stored roundTyped
      have changed := @supply_insert_account current.bucket round.after round.acc (by
        rw [own, ← fresh]
        exact found)
      simp only [chargesIn_charged, taken_append]
      rw [eq_of_saveAccount saved, changed, balance, round.after_balance]
      ring
    | execute tx =>
      simp only [chargesIn_executed]
      exact balance
    | commit ops bucket succeeded =>
      have sameSupply : supply bucket = supply current.bucket := by
        have chain := @applyOps_induction tm (fun b => supply b = supply current.bucket)
        refine chain succeeded ?_ rfl
        intro application applicationMem before
        have keeps := (conditions (.applied application) (by simp [applicationMem])).2
        rw [keeps application rfl]
        exact before
      simp only [chargesIn_applied]
      rw [sameSupply, balance]
    | rollback ops =>
      simp only [chargesIn_applied]
      exact balance
  · intro event eventMem
    refine ⟨typed event eventMem, ?_⟩
    rintro application rfl
    exact kept application (mem_applicationsIn.mpr eventMem)
  · simp [started, chargesIn, taken, feesOf, wrapsOf]

theorem wrapsOf_eq_zero_iff (charges : List Charge) :
    wrapsOf charges = 0 ↔ ∀ charge ∈ charges, ¬ charge.Wraps := by
  simp [wrapsOf, List.countP_eq_zero]

/-- A call that returns lowers the supply by the fees it charges exactly when no charge
wraps, the fees do not add up to a negative number, and no operation wraps. -/
theorem applyTxList_supply_iff (tm : TxManager) (schedule : Schedule) (txList : List Tx)
    (ledgerSeqNum : UInt64) (bucket : Bucket) (statuses : Finmap fun _ : String => TxStatus)
    (final : LedgerState tm)
    (returned : applyTxList tm schedule txList ledgerSeqNum ⟨bucket, statuses, []⟩ = .done () final)
    (typed : ∀ event ∈ final.events, event.Typed) :
    (supply final.bucket = supply bucket - feesOf (chargesIn final.events) ∧
      supply final.bucket ≤ supply bucket ∧
      ∀ application ∈ applicationsIn final.events,
        supply application.after = supply application.before) ↔
    ((∀ charge ∈ chargesIn final.events, ¬ charge.Wraps) ∧
      0 ≤ feesOf (chargesIn final.events) ∧
      ∀ application ∈ applicationsIn final.events,
        application.operation.KeepsSupply application.before) := by
  have reaches : Reaches tm ⟨bucket, statuses, []⟩ final := by
    have steps := applyTxList_steps tm schedule txList ledgerSeqNum ⟨bucket, statuses, []⟩
    exact (AbortingProgram.Program.holds_of_done returned).mp steps
  have opIff : (∀ application ∈ applicationsIn final.events,
        supply application.after = supply application.before) ↔
      ∀ application ∈ applicationsIn final.events,
        application.operation.KeepsSupply application.before :=
    forall₂_congr fun application applicationMem =>
      Operation.supply_iff (typed _ (mem_applicationsIn.mp applicationMem))
        application.succeeded
  rw [← opIff, ← wrapsOf_eq_zero_iff]
  constructor
  · rintro ⟨exactFall, falls, kept⟩
    have balance := reaches.supply_eq rfl typed kept
    unfold taken at balance
    refine ⟨?_, ?_, kept⟩
    · dsimp only at balance
      omega
    · omega
  · rintro ⟨noWrap, nonneg, kept⟩
    have balance := reaches.supply_eq rfl typed kept
    rw [taken] at balance
    dsimp only at balance
    refine ⟨?_, ?_, kept⟩
    · omega
    · omega

private def payBob (fee amount : Int64) : Tx :=
  ⟨"alice", fee, "", 2,
    [⟨.payment, some (.payment ⟨"bob", some ⟨.native, "", ""⟩, amount⟩)⟩]⟩

private def payBobRun (fee amount : Int64) :
    AbortingProgram.Outcome (LedgerState .plain) Halt Unit :=
  applyTxList .plain .insertion [payBob fee amount] 9 ⟨aliceAndBob, ∅, []⟩

theorem applyTxList_supply_of_small_payment :
    supply (payBobRun 10 5).state.bucket = supply aliceAndBob - 10 := by
  have exactFall := (applyTxList_supply_iff .plain .insertion [payBob 10 5] 9
    aliceAndBob ∅ (payBobRun 10 5).state (AbortingProgram.Outcome.eq_done (by decide +kernel))
    (by decide +kernel)).mpr (by decide +kernel)
  have fees : feesOf (chargesIn (payBobRun 10 5).state.events) = 10 := by decide +kernel
  rw [exactFall.1, fees]

/-- A negative fee mints tokens, and a payment of the smallest 64-bit integer
takes it from both accounts. -/
theorem applyTxList_changes_supply :
    ((payBobRun (-10) 5).isDone = true ∧
      supply (payBobRun (-10) 5).state.bucket = supply aliceAndBob + 10) ∧
    ((payBobRun 0 Int64.minValue).isDone = true ∧
      feesOf (chargesIn (payBobRun 0 Int64.minValue).state.events) = 0 ∧
      supply (payBobRun 0 Int64.minValue).state.bucket = supply aliceAndBob - 2 ^ 64) := by
  decide +kernel

end Ultiledger
