import Ultiledger.TokenSupply

/-! # Solvency

`UpdateBalance` lets every debit of a solvent account pass.
-/

namespace Ultiledger

open MachineIntegers

/-- Every stored native balance lies between zero and the largest 64-bit integer. -/
def Solvent (bucket : Bucket) : Prop :=
  ∀ key acc, bucket.get key = some (.account acc) →
    0 ≤ acc.balance.toInt ∧ acc.balance.toInt ≤ maxInt64

instance : DecidablePred Solvent := fun bucket =>
  inferInstanceAs (Decidable (∀ key acc, bucket.get key = some (.account acc) → _))

/-- The accounts an operation takes from hold what it takes.  A payment of an
account to itself needs no cover. -/
def Operation.Covered (before : Bucket) : Operation → Prop
  | .createAccount c => 0 ≤ c.balance.toInt
  | .payment p => ∀ asset ∈ p.asset, asset.assetType = .native →
      (p.srcAccountID = p.dstAccountID ∧ before.NoTrustAt (accountKey p.dstAccountID)) ∨
        ((0 < p.amount.toInt → p.amount.toInt ≤ (balanceOf before p.srcAccountID).toInt) ∧
          (p.amount.toInt < 0 → -p.amount.toInt ≤ (balanceOf before p.dstAccountID).toInt))
  | .trust _ => True

def Event.Covered {tm : TxManager} : Event tm → Prop
  | .charged round => ∀ charge ∈ round.charges, ¬ charge.Wraps
  | .executed _ => True
  | .applied application => application.operation.Covered application.before

instance (before : Bucket) : (operation : Operation) → Decidable (operation.Covered before)
  | .createAccount _ | .payment _ | .trust _ => by unfold Operation.Covered; infer_instance

instance {tm : TxManager} : (event : Event tm) → Decidable event.Covered
  | .charged _ | .executed _ | .applied _ => by unfold Event.Covered; infer_instance

namespace Solvent

variable {bucket : Bucket}

theorem of_getAccount (solvent : Solvent bucket) {accountID : String} {acc : Account}
    (read : getAccount bucket accountID = some acc) : 0 ≤ acc.balance.toInt := by
  obtain ⟨record, found, rfl⟩ := Option.map_eq_some_iff.mp read
  cases record with
  | account stored => exact (solvent _ stored found).1
  | trust line => exact Int.le_refl 0

theorem insert_account (solvent : Solvent bucket) {acc : Account}
    (covered : 0 ≤ acc.balance.toInt) : Solvent (bucket.insert (.account acc)) := by
  intro key stored found
  rw [Bucket.get_insert] at found
  split_ifs at found
  · cases found
    exact ⟨covered, le_maxInt64 _⟩
  · exact solvent key stored found

theorem insert_trust (solvent : Solvent bucket) (line : Trust) :
    Solvent (bucket.insert (.trust line)) := by
  intro key stored found
  rw [Bucket.get_insert] at found
  split_ifs at found
  · simp at found
  · exact solvent key stored found

theorem delete (solvent : Solvent bucket) (removed : List UInt8) :
    Solvent (bucket.delete removed) := by
  intro key stored found
  rw [Bucket.get_delete] at found
  split_ifs at found
  exact solvent key stored found

theorem moveNative (solvent : Solvent bucket) {onUpdate onSave : String} {accountID : String}
    {amount : Int64} {moved : Bucket}
    (done : moveNative onUpdate onSave bucket accountID amount = .ok moved)
    (covered : amount.toInt < 0 → -amount.toInt ≤ (balanceOf bucket accountID).toInt) :
    Solvent moved := by
  obtain ⟨acc, read, noOverflow, _, rfl⟩ := of_moveNative done
  rw [balanceOf_eq read] at covered
  have held := solvent.of_getAccount read
  have below := le_maxInt64 acc.balance
  have sum : (acc.balance + amount).toInt = acc.balance.toInt + amount.toInt := by
    apply toInt_add_of_fits
    · unfold minInt64
      omega
    · omega
  apply solvent.insert_account
  dsimp only
  omega

end Solvent

variable {am : AccountManager} {em : Exchange} {p : Op.Payment} {before after : Bucket}

theorem createAccount_solvent {c : Op.CreateAccount} (solvent : Solvent before)
    (covered : (Operation.createAccount c).Covered before) (done : c.apply am before = .ok after) :
    Solvent after := by
  obtain ⟨srcAcc, _, _, read, funded, rfl⟩ := of_createAccount done
  change 0 ≤ c.balance.toInt at covered
  have below := le_maxInt64 srcAcc.balance
  have rest : (srcAcc.balance - c.balance).toInt = srcAcc.balance.toInt - c.balance.toInt := by
    apply toInt_sub_of_fits
    · unfold minInt64
      omega
    · omega
  refine (solvent.insert_account ?_).insert_account covered
  dsimp only
  omega

theorem debit_covered {middle : Bucket} {onUpdate onSave : String} (solvent : Solvent before)
    (credited : moveNative onUpdate onSave before p.dstAccountID p.amount = .ok middle)
    (fromPayer : 0 < p.amount.toInt → p.amount.toInt ≤ (balanceOf before p.srcAccountID).toInt)
    (fromReceiver : p.amount.toInt < 0 → -p.amount.toInt ≤ (balanceOf before p.dstAccountID).toInt)
    (negative : (-p.amount).toInt < 0) :
    -(-p.amount).toInt ≤ (balanceOf middle p.srcAccountID).toInt := by
  obtain ⟨dstAcc, read, noOverflow, _, rfl⟩ := of_moveNative credited
  have held := solvent.of_getAccount read
  have receiverBelow := le_maxInt64 (balanceOf before p.dstAccountID)
  have apart : p.amount.toInt ≠ minInt64 := by
    intro smallest
    rw [smallest] at fromReceiver
    have cover := fromReceiver (by decide)
    unfold minInt64 at cover
    unfold maxInt64 at receiverBelow
    omega
  rw [toInt_neg_of_ne apart] at negative ⊢
  have payer := fromPayer (by omega)
  have sum : (dstAcc.balance + p.amount).toInt = dstAcc.balance.toInt + p.amount.toInt := by
    apply toInt_add_of_fits
    · unfold minInt64
      omega
    · exact noOverflow (by omega)
  unfold balanceOf
  rw [getAccount_insert_account]
  split_ifs
  · dsimp only [Option.elim]
    omega
  · unfold balanceOf at payer
    omega

theorem payment_solvent (solvent : Solvent before) (covered : (Operation.payment p).Covered before)
    (done : p.apply em before = .ok after) : Solvent after := by
  obtain ⟨asset, middle, given, _, credited, debited⟩ := of_payment done
  unfold creditDst at credited
  unfold debitSrc at debited
  by_cases native : asset.assetType = .native
  · simp only [native, if_true] at credited debited
    split_ifs at credited
    rcases covered asset given native with ⟨self, typed⟩ | ⟨fromPayer, fromReceiver⟩
    · obtain ⟨acc, read, _, _, rfl⟩ := of_moveNative credited
      obtain ⟨_, own⟩ := get_of_getAccount typed read
      obtain ⟨paid, paidRead, _, _, rfl⟩ := of_moveNative debited
      rw [self, getAccount_insert_account] at paidRead
      simp only [own, if_true, Option.some.injEq] at paidRead
      have restored : paid.balance + -p.amount = acc.balance := by
        grind
      rw [Bucket.insert_insert _ (by rw [← paidRead, ← own]; rfl)]
      apply solvent.insert_account
      dsimp only
      rw [restored]
      exact solvent.of_getAccount read
    · refine (solvent.moveNative credited fromReceiver).moveNative debited ?_
      exact debit_covered solvent credited fromPayer fromReceiver
  · simp only [native, if_false] at credited debited
    split_ifs at credited
    obtain ⟨dstLine, _, _, _, rfl⟩ := of_moveTrust credited
    obtain ⟨srcLine, _, _, _, rfl⟩ := of_moveTrust debited
    exact (solvent.insert_trust _).insert_trust _

theorem trust_solvent {t : Op.Trust} (solvent : Solvent before)
    (done : t.apply am before = .ok after) : Solvent after := by
  obtain ⟨asset, srcAcc, _, _, read, effect⟩ := trust_cases done
  have held := solvent.of_getAccount read
  rcases effect with ⟨_, _, counted, counts, rfl⟩ |
    ⟨line, _, ⟨_, counted, counts, rfl⟩ | ⟨_, _, rfl⟩⟩
  · obtain rfl := eq_add_of_updateEntryCount counts
    apply Solvent.insert_trust
    exact solvent.insert_account held
  · obtain rfl := eq_add_of_updateEntryCount counts
    exact (solvent.delete _).insert_account held
  · exact solvent.insert_trust _

theorem Operation.solvent {operation : Operation} (solvent : Solvent before)
    (covered : operation.Covered before) (done : operation.apply am em before = .ok after) :
    Solvent after := by
  cases operation with
  | createAccount c => exact createAccount_solvent solvent covered done
  | payment p => exact payment_solvent solvent covered done
  | trust t => exact trust_solvent solvent done

theorem FeeRound.solvent {round : FeeRound} (held : 0 ≤ round.acc.balance.toInt)
    (fits : ∀ charge ∈ round.charges, ¬ charge.Wraps) : 0 ≤ round.after.balance.toInt := by
  refine chargeTxs_induction (motive := fun acc last charges =>
    0 ≤ acc.balance.toInt → (∀ charge ∈ charges, ¬ charge.Wraps) → 0 ≤ last.balance.toInt)
    ?_ ?_ round.acc held fits
  · exact fun _ held _ => held
  · intro charge last later _ ih _ fits
    have notWraps := fits charge (.head _)
    apply ih
    · have paid := Int64.le_iff_toInt_le.mp (Int64.not_lt.mp charge.feeCovered)
      change 0 ≤ (charge.acc.balance - charge.tx.fee).toInt
      rw [toInt_sub_of_fits (by unfold minInt64; omega) (not_lt.mp notWraps)]
      omega
    · exact (List.forall_mem_cons.mp fits).2

/-- After any calls all of whose charges fit and whose operations are covered,
every native balance lies between zero and the largest 64-bit integer. -/
theorem runCalls_solvent (tm : TxManager) (calls : List Call) (bucket : Bucket)
    (statuses : Finmap fun _ : String => TxStatus) (solvent : Solvent bucket)
    (covered : ∀ event ∈ (runCalls tm calls ⟨bucket, statuses, []⟩).events, event.Covered) :
    Solvent (runCalls tm calls ⟨bucket, statuses, []⟩).bucket := by
  have run := @Reaches.invariant tm (fun state => Solvent state.bucket) Event.Covered
  refine run ?_ (runCalls_reaches tm calls ⟨bucket, statuses, []⟩) covered solvent
  intro state final step conditions solvent
  cases step with
  | status tx status => exact solvent
  | charge round bucket fresh saved =>
    have fits : ∀ charge ∈ round.charges, ¬ charge.Wraps :=
      conditions (.charged round) (by simp)
    have held : 0 ≤ round.acc.balance.toInt := by
      apply Solvent.of_getAccount solvent
      exact fresh ▸ round.read
    rw [eq_of_saveAccount saved]
    exact Solvent.insert_account solvent (FeeRound.solvent held fits)
  | execute tx => exact solvent
  | commit ops bucket succeeded =>
    have chain := @applyOps_induction tm Solvent
    refine chain succeeded ?_ solvent
    intro application applicationMem solventBefore
    have opCovered : application.operation.Covered application.before :=
      conditions (.applied application) (by simp [applicationMem])
    exact Operation.solvent solventBefore opCovered application.succeeded
  | rollback ops => exact solvent

private def afterPayment (amount : Int64) : LedgerState TxManager.plain :=
  runCalls .plain
    [⟨.insertion,
      [⟨"alice", 10, "", 2,
        [⟨.payment, some (.payment ⟨"bob", some ⟨.native, "", ""⟩, amount⟩)⟩]⟩], 9⟩]
    ⟨aliceAndBob, ∅, []⟩

theorem runCalls_solvent_of_covered_payment :
    Solvent (afterPayment 990).bucket ∧ balanceOf (afterPayment 990).bucket "alice" = 0 :=
  ⟨runCalls_solvent .plain _ _ ∅ (by decide +kernel)
    (show ∀ event ∈ (afterPayment 990).events, event.Covered by decide +kernel),
    by decide +kernel⟩

/-- A payment of more than the payer holds goes through, and a negative payment
overdraws its receiver. -/
theorem runCalls_overdraws :
    Solvent aliceAndBob ∧
      (balanceOf (afterPayment 2000).bucket "alice" = -1010 ∧
        ¬ Solvent (afterPayment 2000).bucket) ∧
      (balanceOf (afterPayment (-2000)).bucket "bob" = -1500 ∧
        ¬ Solvent (afterPayment (-2000)).bucket) := by
  decide +kernel

end Ultiledger
