import Ultiledger.LedgerRuns

/-! # Operations that find records of the kind they expect -/

namespace Ultiledger

open MachineIntegers

def Operation.Typed (before : Bucket) : Operation → Prop
  | .createAccount c => before.NoTrustAt (accountKey c.srcAccountID)
  | .payment p => ∀ asset ∈ p.asset,
      if asset.assetType = .native then
        before.NoTrustAt (accountKey p.dstAccountID) ∧
          before.NoTrustAt (accountKey p.srcAccountID)
      else
        before.NoAccountAt (trustKey p.dstAccountID asset) ∧
          before.NoAccountAt (trustKey p.srcAccountID asset)
  | .trust t => ∀ asset ∈ t.asset,
      before.NoTrustAt (accountKey t.srcAccountID) ∧
        before.NoAccountAt (trustKey t.srcAccountID asset)

/-- The fee phase and the operations find the records they expect. -/
def Event.Typed {tm : TxManager} : Event tm → Prop
  | .charged round => round.bucket.NoTrustAt (accountKey round.accountID)
  | .executed _ => True
  | .applied application => application.operation.Typed application.before

instance (before : Bucket) (operation : Operation) : Decidable (operation.Typed before) := by
  cases operation <;> unfold Operation.Typed <;> infer_instance

instance {tm : TxManager} (event : Event tm) : Decidable event.Typed := by
  cases event <;> unfold Event.Typed <;> infer_instance

def balanceOf (bucket : Bucket) (accountID : String) : Int64 :=
  (getAccount bucket accountID).elim 0 Account.balance

variable {bucket : Bucket} {em : Exchange} {accountID : String} {p : Op.Payment} {acc : Account}
  {asset : Asset} {key : List UInt8} {line : Trust} {before after : Bucket}

theorem balanceOf_eq (read : getAccount bucket accountID = some acc) :
    balanceOf bucket accountID = acc.balance := by
  simp [balanceOf, read]

theorem getAccount_insert_account (bucket : Bucket) (acc : Account) (accountID : String) :
    getAccount (bucket.insert (.account acc)) accountID =
      if accountID = acc.accountID then some acc else getAccount bucket accountID := by
  unfold getAccount
  rw [Bucket.get_insert, Record.key_account]
  by_cases same : accountID = acc.accountID
  · rw [if_pos same, if_pos (congrArg accountKey same)]
    rfl
  · rw [if_neg same, if_neg (accountKey_ne same)]

theorem noTrustAt_insert_account (typed : bucket.NoTrustAt key) :
    (bucket.insert (.account acc)).NoTrustAt key := by
  intro line found
  rw [Bucket.get_insert] at found
  split_ifs at found
  · simp at found
  · exact typed line found

theorem noAccountAt_insert_trust (typed : bucket.NoAccountAt key) :
    (bucket.insert (.trust line)).NoAccountAt key := by
  intro acc found
  rw [Bucket.get_insert] at found
  split_ifs at found
  · simp at found
  · exact typed acc found

theorem FeeRound.stored {round : FeeRound}
    (typed : round.bucket.NoTrustAt (accountKey round.accountID)) :
    round.bucket.get (accountKey round.accountID) = some (.account round.acc) ∧
      round.after.accountID = round.accountID := by
  obtain ⟨found, own⟩ := get_of_getAccount typed round.read
  exact ⟨found, (accountID_of_chargeTxs round.acc round.txs).trans own⟩

/-- A typed native payment moves the amount between two stored accounts; the
second is read after the first has been saved. -/
theorem of_native_payment (given : p.asset = some asset) (native : asset.assetType = .native)
    (typed : (Operation.payment p).Typed before) (done : p.apply em before = .ok after) :
    ∃ dstAcc srcAcc,
      before.get (accountKey p.dstAccountID) = some (.account dstAcc) ∧
      dstAcc.accountID = p.dstAccountID ∧
      (before.insert (.account { dstAcc with balance := dstAcc.balance + p.amount })).get
        (accountKey p.srcAccountID) = some (.account srcAcc) ∧
      srcAcc.accountID = p.srcAccountID ∧
      (0 < p.amount.toInt → dstAcc.balance.toInt + p.amount.toInt ≤ maxInt64) ∧
      (0 < (-p.amount).toInt → srcAcc.balance.toInt + (-p.amount).toInt ≤ maxInt64) ∧
      p.amount ≠ 0 ∧
      after = (before.insert
        (.account { dstAcc with balance := dstAcc.balance + p.amount })).insert
          (.account { srcAcc with balance := srcAcc.balance + -p.amount }) := by
  obtain ⟨paid, middle, given', nonzero, credited, debited⟩ := of_payment done
  cases given.symm.trans given'
  have dstTyped : before.NoTrustAt (accountKey p.dstAccountID) ∧
      before.NoTrustAt (accountKey p.srcAccountID) := by
    simpa [native] using typed asset given
  simp only [creditDst, native, if_true] at credited
  split_ifs at credited
  obtain ⟨dstAcc, dstRead, credit, _, rfl⟩ := of_moveNative credited
  obtain ⟨dstHeld, dstOwn⟩ := get_of_getAccount dstTyped.1 dstRead
  simp only [debitSrc, native, if_true] at debited
  obtain ⟨srcAcc, srcRead, debit, _, rfl⟩ := of_moveNative debited
  obtain ⟨srcHeld, srcOwn⟩ :=
    get_of_getAccount (noTrustAt_insert_account dstTyped.2) srcRead
  exact ⟨dstAcc, srcAcc, dstHeld, dstOwn, srcHeld, srcOwn, credit, debit, nonzero, rfl⟩

theorem key_of_getTrust (typed : bucket.NoAccountAt (trustKey accountID asset))
    (read : getTrust bucket accountID asset = some line) :
    (Record.trust line).key = trustKey accountID asset := by
  by_cases issued : accountID = asset.issuer
  · unfold getTrust at read
    rw [if_pos issued] at read
    cases read
    rfl
  · exact bucket.ownKey _ _ (get_of_getTrust typed issued read)

/-- A typed payment of an issued asset moves the amount between two trust
lines; the second is read after the first has been saved. -/
theorem of_custom_payment (given : p.asset = some asset) (custom : asset.assetType ≠ .native)
    (typed : (Operation.payment p).Typed before) (done : p.apply em before = .ok after) :
    ∃ dstLine srcLine,
      getTrust before p.dstAccountID asset = some dstLine ∧
      (Record.trust dstLine).key = trustKey p.dstAccountID asset ∧
      (0 < p.amount → ¬ dstLine.balance + p.amount > dstLine.limit) ∧
      (p.amount < 0 → ¬ dstLine.balance < p.amount) ∧
      getTrust (before.insert
        (.trust { dstLine with balance := dstLine.balance + p.amount }))
          p.srcAccountID asset = some srcLine ∧
      (Record.trust srcLine).key = trustKey p.srcAccountID asset ∧
      after = (before.insert
        (.trust { dstLine with balance := dstLine.balance + p.amount })).insert
          (.trust { srcLine with balance := srcLine.balance + -p.amount }) := by
  obtain ⟨paid, middle, given', _, credited, debited⟩ := of_payment done
  cases given.symm.trans given'
  have lineTyped : before.NoAccountAt (trustKey p.dstAccountID asset) ∧
      before.NoAccountAt (trustKey p.srcAccountID asset) := by
    simpa [custom] using typed asset given
  simp only [creditDst, custom, if_false] at credited
  split_ifs at credited
  obtain ⟨dstLine, dstRead, limit, enough, rfl⟩ := of_moveTrust credited
  simp only [debitSrc, custom, if_false] at debited
  obtain ⟨srcLine, srcRead, _, _, rfl⟩ := of_moveTrust debited
  have srcTyped : (before.insert
      (.trust { dstLine with balance := dstLine.balance + p.amount })).NoAccountAt
        (trustKey p.srcAccountID asset) := noAccountAt_insert_trust lineTyped.2
  exact ⟨dstLine, srcLine, dstRead, key_of_getTrust lineTyped.1 dstRead, limit, enough,
    srcRead, key_of_getTrust srcTyped srcRead, rfl⟩

/-- A typed trust operation rewrites the entry count of the source account and
one of its trust lines, or that line only. -/
theorem of_typed_trust {am : AccountManager} {t : Op.Trust}
    (typed : (Operation.trust t).Typed before) (done : t.apply am before = .ok after) :
    ∃ asset srcAcc, t.asset = some asset ∧
      before.get (accountKey t.srcAccountID) = some (.account srcAcc) ∧
      srcAcc.accountID = t.srcAccountID ∧
      before.NoAccountAt (trustKey t.srcAccountID asset) ∧
      ((∃ entries, after =
          (before.insert (.account { srcAcc with entryCount := entries })).insert
            (.trust ⟨t.srcAccountID, some asset, 0, t.limit, some ⟨0, 0⟩, 1⟩)) ∨
        (∃ entries, after = (before.delete (trustKey t.srcAccountID asset)).insert
            (.account { srcAcc with entryCount := entries })) ∨
        ∃ line, (Record.trust line).key = trustKey t.srcAccountID asset ∧
          before.get (trustKey t.srcAccountID asset) = some (.trust line) ∧
          after = before.insert (.trust { line with limit := t.limit })) := by
  obtain ⟨asset, srcAcc, given, apart, read, effect⟩ := trust_cases done
  obtain ⟨accountTyped, lineTyped⟩ := typed asset given
  obtain ⟨held, own⟩ := get_of_getAccount accountTyped read
  refine ⟨asset, srcAcc, given, held, own, lineTyped, ?_⟩
  rcases effect with ⟨_, _, counted, counts, opened⟩ |
    ⟨line, lineRead, ⟨_, counted, counts, closed⟩ | ⟨_, _, relimited⟩⟩
  · exact .inl ⟨_, eq_add_of_updateEntryCount counts ▸ opened⟩
  · exact .inr (.inl ⟨_, eq_add_of_updateEntryCount counts ▸ closed⟩)
  · exact .inr (.inr ⟨line, key_of_getTrust lineTyped lineRead,
      get_of_getTrust lineTyped apart lineRead, relimited⟩)

end Ultiledger
