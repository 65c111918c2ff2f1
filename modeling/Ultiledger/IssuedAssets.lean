import Ultiledger.SpendingAuthority
import Ultiledger.FinmapTotals
import Mathlib.Algebra.Ring.Int.Defs

/-! # Issued assets

The units of an issued asset are the balances of the trust lines to it, the issuer's
own aside.
-/

namespace Ultiledger

open MachineIntegers FinmapTotals

variable {asset traded : Asset} {bucket before after : Bucket} {accountID : String} {line : Trust}
  {em : Exchange} {am : AccountManager}

def Record.issuedUnits (asset : Asset) : Record → Int
  | .account _ => 0
  | .trust line =>
    if line.asset = some asset ∧ line.accountID ≠ asset.issuer then line.balance.toInt else 0

def issuedTotal (asset : Asset) (bucket : Bucket) : Int :=
  total (Record.issuedUnits asset) bucket.records

def unitsOn (asset : Asset) (bucket : Bucket) (accountID : String) (traded : Asset) : Int :=
  if traded = asset ∧ accountID ≠ asset.issuer then
    (storedLine bucket accountID traded).elim 0 Int64.toInt
  else 0

theorem held_eq_unitsOn (only : bucket.OnlyLineAt accountID traded) :
    held (Record.issuedUnits asset) bucket.records (trustKey accountID traded) =
      unitsOn asset bucket accountID traded := by
  change (bucket.get (trustKey accountID traded)).elim 0 (Record.issuedUnits asset) = _
  unfold unitsOn storedLine
  rcases found : bucket.get (trustKey accountID traded) with _ | record
  · simp
  · have isLine := only record found
    cases record with
    | account acc => exact isLine.elim
    | trust line =>
      obtain ⟨owner, lineAsset⟩ := isLine
      simp [Record.issuedUnits, owner, lineAsset]

theorem issuedTotal_insert_line (only : bucket.OnlyLineAt accountID traded)
    (own : line.accountID = accountID ∧ line.asset = some traded) :
    issuedTotal asset (bucket.insert (.trust line)) + unitsOn asset bucket accountID traded =
      issuedTotal asset bucket +
        if traded = asset ∧ accountID ≠ asset.issuer then line.balance.toInt else 0 := by
  have change := total_insert (Record.issuedUnits asset) bucket.records
    (trustKey accountID traded) (.trust line)
  have key : (Record.trust line).key = trustKey accountID traded := by
    simp [Record.key, own]
  have weight : Record.issuedUnits asset (.trust line) =
      if traded = asset ∧ accountID ≠ asset.issuer then line.balance.toInt else 0 := by
    simp [Record.issuedUnits, own]
  rw [held_eq_unitsOn only, weight, ← key] at change
  exact change

theorem issuedTotal_delete_line (only : bucket.OnlyLineAt accountID traded) :
    issuedTotal asset (bucket.delete (trustKey accountID traded)) +
      unitsOn asset bucket accountID traded = issuedTotal asset bucket := by
  have change := total_erase (Record.issuedUnits asset) bucket.records
    (trustKey accountID traded)
  rw [held_eq_unitsOn only] at change
  exact change

theorem issuedTotal_insert_account {acc : Account}
    (typed : bucket.NoTrustAt (accountKey acc.accountID)) :
    issuedTotal asset (bucket.insert (.account acc)) = issuedTotal asset bucket := by
  have change := total_insert (Record.issuedUnits asset) bucket.records
    (accountKey acc.accountID) (.account acc)
  have nothing : held (Record.issuedUnits asset) bucket.records (accountKey acc.accountID) = 0 := by
    change (bucket.get (accountKey acc.accountID)).elim 0 (Record.issuedUnits asset) = 0
    rcases found : bucket.get (accountKey acc.accountID) with _ | record
    · rfl
    · cases record with
      | account stored => rfl
      | trust line => exact absurd found (typed line)
  rw [nothing, add_zero] at change
  exact change.trans (add_zero _)

def Fits (exact : Int) : Prop := minInt64 ≤ exact ∧ exact ≤ maxInt64

instance (exact : Int) : Decidable (Fits exact) := by
  unfold Fits
  infer_instance

def LineFits (bucket : Bucket) (accountID : String) (asset : Asset) (change : Int) : Prop :=
  ∀ balance ∈ storedLine bucket accountID asset, Fits (balance.toInt + change)

instance (bucket : Bucket) (accountID : String) (asset : Asset) (change : Int) :
    Decidable (LineFits bucket accountID asset change) :=
  Option.decidableForallMem _

/-- Neither side of a payment wraps, and a line is closed only when it is empty.
A payment of an account to itself needs nothing, nor does the issuer's side. -/
def Operation.MovesUnits (before : Bucket) : Operation → Prop
  | .createAccount _ => True
  | .payment p => p.srcAccountID = p.dstAccountID ∨ ∀ asset ∈ p.asset,
      asset.assetType ≠ .native →
        (p.dstAccountID ≠ asset.issuer →
          LineFits before p.dstAccountID asset p.amount.toInt) ∧
        (p.srcAccountID ≠ asset.issuer →
          LineFits before p.srcAccountID asset (-p.amount.toInt))
  | .trust t => t.limit = 0 → ∀ asset ∈ t.asset,
      (storedLine before t.srcAccountID asset).getD 0 = 0

instance (before : Bucket) : (operation : Operation) → Decidable (operation.MovesUnits before)
  | .createAccount _ | .payment _ | .trust _ => by unfold Operation.MovesUnits; infer_instance

def Operation.issuance (asset : Asset) : Operation → Int
  | .payment p =>
    if p.asset = some asset then
      (if p.srcAccountID = asset.issuer then p.amount.toInt else 0) -
        if p.dstAccountID = asset.issuer then p.amount.toInt else 0
    else 0
  | _ => 0

theorem storedLine_of_getTrust (only : bucket.OnlyLineAt accountID asset)
    (apart : accountID ≠ asset.issuer) (read : getTrust bucket accountID asset = some line) :
    storedLine bucket accountID asset = some line.balance := by
  rw [storedLine, get_of_getTrust only.noAccountAt apart read]

theorem storedLine_insert_line {writer reader : String}
    (key : (Record.trust line).key = trustKey writer asset) :
    storedLine (bucket.insert (.trust line)) reader asset =
      if reader = writer then some line.balance else storedLine bucket reader asset := by
  unfold storedLine
  rw [Bucket.get_insert, key]
  by_cases same : reader = writer
  · rw [if_pos same, if_pos (congrArg (trustKey · asset) same)]
  · rw [if_neg same, if_neg fun keys => same (trustKey_inj keys)]

theorem toInt_add_neg_of_fits {balance amount : Int64}
    (fits : Fits (balance.toInt + -amount.toInt)) :
    (balance + -amount).toInt = balance.toInt - amount.toInt := by
  rw [← Int64.sub_eq_add_neg]
  exact toInt_sub_of_fits fits.1 fits.2

theorem issuedTotal_rewrite_line (only : bucket.OnlyLineAt accountID traded)
    (read : getTrust bucket accountID traded = some line) (written : Trust)
    (sameOwner : written.accountID = line.accountID) (sameAsset : written.asset = line.asset) :
    issuedTotal asset (bucket.insert (.trust written)) =
      issuedTotal asset bucket +
        if traded = asset ∧ accountID ≠ asset.issuer then
          written.balance.toInt - line.balance.toInt
        else 0 := by
  have own := line_of_getTrust only read
  have change := @issuedTotal_insert_line asset traded bucket accountID written only
    ⟨sameOwner.trans own.1, sameAsset.trans own.2⟩
  unfold unitsOn at change
  split_ifs at change ⊢ with counted
  · obtain ⟨rfl, apart⟩ := counted
    rw [storedLine_of_getTrust only apart read, Option.elim_some] at change
    omega
  · exact (add_zero _).symm.trans change

/-- A payment of an issued asset changes its total by what the issuer pays or
receives, and no other total. -/
theorem custom_payment_issuedTotal {p : Op.Payment} (given : p.asset = some traded)
    (custom : traded.assetType ≠ .native) (findsOwn : (Operation.payment p).FindsOwn before)
    (moves : (Operation.payment p).MovesUnits before) (done : p.apply em before = .ok after)
    (asset : Asset) :
    issuedTotal asset after =
      issuedTotal asset before + (Operation.payment p).issuance asset := by
  obtain ⟨dstLine, srcLine, dstRead, dstKey, _, _, srcRead, _, rfl⟩ :=
    of_custom_payment given custom findsOwn.typed done
  have only := findsOwn traded given
  rw [if_neg custom] at only
  have dstOwn := line_of_getTrust only.1 dstRead
  have srcOnly : (before.insert
      (.trust { dstLine with balance := dstLine.balance + p.amount })).OnlyLineAt
        p.srcAccountID traded := onlyLineAt_insert only.2 dstKey dstOwn
  rw [issuedTotal_rewrite_line srcOnly srcRead
      { srcLine with balance := srcLine.balance + -p.amount } rfl rfl,
    issuedTotal_rewrite_line only.1 dstRead
      { dstLine with balance := dstLine.balance + p.amount } rfl rfl]
  simp only [Operation.issuance, given, Option.some.injEq]
  by_cases same : traded = asset
  · subst same
    have reread := @storedLine_insert_line traded before
      { dstLine with balance := dstLine.balance + p.amount } p.dstAccountID p.srcAccountID dstKey
    have srcHeld : p.srcAccountID ≠ traded.issuer → _ = some srcLine.balance :=
      fun apart => reread.symm.trans (storedLine_of_getTrust srcOnly apart srcRead)
    by_cases self : p.srcAccountID = p.dstAccountID
    · rw [self] at srcHeld ⊢
      rw [if_pos rfl] at srcHeld
      by_cases issued : p.dstAccountID = traded.issuer
      · simp [issued]
      · have found : dstLine.balance + p.amount = srcLine.balance :=
          Option.some.inj (srcHeld issued)
        rw [← found]
        simp [issued]
        omega
    · rw [if_neg self] at srcHeld
      obtain ⟨dstFits, srcFits⟩ := (moves.resolve_left self) traded given custom
      have credit : p.dstAccountID ≠ traded.issuer →
          (dstLine.balance + p.amount).toInt = dstLine.balance.toInt + p.amount.toInt := by
        intro apart
        have fits := dstFits apart dstLine.balance (storedLine_of_getTrust only.1 apart dstRead)
        exact toInt_add_of_fits fits.1 fits.2
      have debit : p.srcAccountID ≠ traded.issuer →
          (srcLine.balance + -p.amount).toInt = srcLine.balance.toInt - p.amount.toInt :=
        fun apart => toInt_add_neg_of_fits (srcFits apart srcLine.balance (srcHeld apart))
      by_cases dstIssued : p.dstAccountID = traded.issuer
      · by_cases srcIssued : p.srcAccountID = traded.issuer
        · exact absurd (srcIssued.trans dstIssued.symm) self
        · simp [dstIssued, srcIssued, debit srcIssued]
      · by_cases srcIssued : p.srcAccountID = traded.issuer
        · simp [dstIssued, srcIssued, credit dstIssued]
        · simp [dstIssued, srcIssued, credit dstIssued, debit srcIssued]
  · simp [same]

theorem native_payment_issuedTotal {p : Op.Payment} (given : p.asset = some traded)
    (native : traded.assetType = .native) (findsOwn : (Operation.payment p).FindsOwn before)
    (done : p.apply em before = .ok after) (asset : Asset) :
    issuedTotal asset after = issuedTotal asset before := by
  obtain ⟨dstAcc, srcAcc, dstFound, dstOwn, srcFound, srcOwn, _, _, _, rfl⟩ :=
    of_native_payment given native findsOwn.typed done
  have typed := findsOwn traded given
  rw [if_pos native] at typed
  rw [issuedTotal_insert_account, issuedTotal_insert_account]
  · exact dstOwn ▸ typed.1
  · exact noTrustAt_insert_account (srcOwn ▸ typed.2)

theorem createAccount_issuedTotal {c : Op.CreateAccount}
    (findsOwn : (Operation.createAccount c).FindsOwn before)
    (done : c.apply am before = .ok after) (asset : Asset) :
    issuedTotal asset after = issuedTotal asset before := by
  obtain ⟨srcAcc, apart, fresh, read, _, rfl⟩ := of_createAccount done
  obtain ⟨_, own⟩ := get_of_getAccount findsOwn read
  rw [issuedTotal_insert_account, issuedTotal_insert_account]
  · exact own ▸ findsOwn
  · apply noTrustAt_insert_account
    intro line found
    rw [getAccount_eq_none.mp fresh] at found
    simp at found

/-- Trust operations move no units: a line is opened and closed without any. -/
theorem trust_issuedTotal {t : Op.Trust} (findsOwn : (Operation.trust t).FindsOwn before)
    (moves : (Operation.trust t).MovesUnits before) (done : t.apply am before = .ok after)
    (asset : Asset) : issuedTotal asset after = issuedTotal asset before := by
  obtain ⟨traded, srcAcc, given, apart, read, effect⟩ := trust_cases done
  obtain ⟨typed, only⟩ := findsOwn traded given
  obtain ⟨found, own⟩ := get_of_getAccount typed read
  rcases effect with ⟨missing, _, counted, counts, rfl⟩ |
    ⟨line, lineRead, ⟨zero, counted, counts, rfl⟩ | ⟨_, _, rfl⟩⟩
  · have vacant : before.get (trustKey t.srcAccountID traded) = none := by
      simpa [getTrust, apart] using missing
    have keysApart : trustKey t.srcAccountID traded ≠ accountKey t.srcAccountID := by
      intro same
      rw [same, found] at vacant
      simp at vacant
    obtain ⟨entries, rfl⟩ := eq_of_updateEntryCount counts
    have stillVacant : (before.insert (.account { srcAcc with entryCount := entries })).get
        (trustKey t.srcAccountID traded) = none := by
      rw [Bucket.get_insert, Record.key_account, own, if_neg keysApart, vacant]
    have opened := @issuedTotal_insert_line asset traded
      (before.insert (.account { srcAcc with entryCount := entries })) t.srcAccountID
      ⟨t.srcAccountID, some traded, 0, t.limit, some ⟨0, 0⟩, 1⟩
      (by simp [Bucket.OnlyLineAt, stillVacant]) ⟨rfl, rfl⟩
    have counted : issuedTotal asset
        (before.insert (.account { srcAcc with entryCount := entries })) =
          issuedTotal asset before :=
      issuedTotal_insert_account (own ▸ typed)
    simpa [unitsOn, storedLine, stillVacant, counted] using opened
  · obtain ⟨entries, rfl⟩ := eq_of_updateEntryCount counts
    have empty := moves zero traded given
    rw [storedLine_of_getTrust only apart lineRead, Option.getD_some] at empty
    have closed := @issuedTotal_delete_line asset traded before t.srcAccountID only
    rw [issuedTotal_insert_account]
    · simpa [unitsOn, storedLine_of_getTrust only apart lineRead, empty] using closed
    · intro other otherFound
      rw [Bucket.get_delete] at otherFound
      split_ifs at otherFound
      exact typed other (own ▸ otherFound)
  · rw [issuedTotal_rewrite_line only lineRead { line with limit := t.limit } rfl rfl]
    simp

theorem Operation.issuedTotal_eq {operation : Operation} (findsOwn : operation.FindsOwn before)
    (moves : operation.MovesUnits before) (done : operation.apply am em before = .ok after)
    (issued : asset.assetType ≠ .native) :
    issuedTotal asset after = issuedTotal asset before + operation.issuance asset := by
  cases operation with
  | createAccount c =>
    rw [createAccount_issuedTotal findsOwn done asset]
    exact (add_zero _).symm
  | trust t =>
    rw [trust_issuedTotal findsOwn moves done asset]
    exact (add_zero _).symm
  | payment p =>
    obtain ⟨traded, middle, given, _⟩ := of_payment done
    by_cases native : traded.assetType = .native
    · have other : traded ≠ asset := by
        rintro rfl
        exact issued native
      rw [native_payment_issuedTotal given native findsOwn done asset]
      simp [Operation.issuance, given, other]
    · exact custom_payment_issuedTotal given native findsOwn moves done asset

/-- Along every sequence of successful operations that find their own records and
move units exactly, the total of an issued asset changes by the payments of and to
the issuer only. -/
theorem applyOps_issuedTotal (tm : TxManager) (ops : List Operation) (before after : Bucket)
    (applied : (applyOps tm ops before).1 = .ok after)
    (moves : ∀ application ∈ (applyOps tm ops before).2,
      application.operation.FindsOwn application.before ∧
        application.operation.MovesUnits application.before)
    (asset : Asset) (issued : asset.assetType ≠ .native) :
    issuedTotal asset after =
      issuedTotal asset before + (ops.map (Operation.issuance asset)).sum := by
  induction ops generalizing before with
  | nil =>
    cases applied
    simp
  | cons operation rest ih =>
    unfold applyOps at applied moves
    split at applied
    · simp at applied
    · rename_i next succeeded
      split at moves
      · rename_i error failed
        rw [succeeded] at failed
        simp at failed
      · rename_i next' succeeded'
        cases succeeded.symm.trans succeeded'
        obtain ⟨findsOwn, exact⟩ := moves _ (.head _)
        have step := Operation.issuedTotal_eq findsOwn exact succeeded issued
        have later := ih next applied fun application applicationMem =>
          moves application (.tail _ applicationMem)
        rw [later, step, List.map_cons, List.sum_cons, add_assoc]

private def usd : Asset := ⟨.custom, "USD", "carol"⟩

private def usdLine (accountID : String) (balance : Int64) : Record :=
  .trust ⟨accountID, some usd, balance, Int64.maxValue, some ⟨0, 0⟩, 1⟩

private def usdLines (alice bob : Int64) : Bucket :=
  .ofRecords [.account ⟨"alice", 1000, "alice", 1, 1, some ⟨0, 0⟩⟩,
    .account ⟨"bob", 1000, "bob", 1, 1, some ⟨0, 0⟩⟩,
    .account ⟨"carol", 1000, "carol", 1, 0, some ⟨0, 0⟩⟩, usdLine "alice" alice, usdLine "bob" bob]

private def closeLine : Operation := .trust ⟨"alice", some usd, 0⟩

private def payUsd (src dst : String) (amount : Int64) : Operation :=
  .payment ⟨src, dst, some usd, amount⟩

private def afterOps (ops : List Operation) (before : Bucket) : Bucket :=
  match (applyOps .plain ops before).1 with
  | .ok after => after
  | .error _ => before

private def succeeds (ops : List Operation) (before : Bucket) : Bool :=
  (applyOps .plain ops before).1.isOk

private theorem applied_of_succeeds {ops : List Operation} (ok : succeeds ops before = true) :
    (applyOps .plain ops before).1 = .ok (afterOps ops before) := by
  unfold succeeds at ok
  unfold afterOps
  cases result : (applyOps .plain ops before).1 with
  | ok after => rfl
  | error error => simp [result, Except.isOk, Except.toBool] at ok

/-- The issuer pays alice, who passes the units on and closes the empty line. -/
theorem applyOps_issuedTotal_of_issue :
    issuedTotal usd
      (afterOps [payUsd "carol" "alice" 7, payUsd "alice" "bob" 7, closeLine] (usdLines 0 5)) =
        12 := by
  have conserved := applyOps_issuedTotal .plain
    [payUsd "carol" "alice" 7, payUsd "alice" "bob" 7, closeLine] (usdLines 0 5) _
    (applied_of_succeeds (by decide +kernel)) (by decide +kernel) usd (by decide)
  rw [conserved]
  decide +kernel

/-- Closing a line destroys the five units on it, and a payment of six units to a
line that is nearly full destroys `2 ^ 64`. -/
theorem applyOps_destroys_units :
    (succeeds [closeLine] (usdLines 5 0) = true ∧
      issuedTotal usd (afterOps [closeLine] (usdLines 5 0)) =
        issuedTotal usd (usdLines 5 0) - 5) ∧
    (succeeds [payUsd "alice" "bob" 6] (usdLines 6 (Int64.maxValue - 5)) = true ∧
      issuedTotal usd (afterOps [payUsd "alice" "bob" 6] (usdLines 6 (Int64.maxValue - 5))) =
        issuedTotal usd (usdLines 6 (Int64.maxValue - 5)) - 2 ^ 64) := by
  decide +kernel

end Ultiledger
