import Ultiledger.OfferOperation
import Ultiledger.RewrittenMaps
import Ultiledger.SpendingAuthority

/-! # What the exchange writes

The exchange loads records and saves them again, some from copies that are older than
what it has written in between.
-/

namespace Ultiledger

open MachineIntegers RewrittenMaps AbortingProgram Program Exchange

variable {acc : Option Account} {line : Option Trust} {old record new : Record} {asset : Asset}
  {offer : Exchange.Offer}

namespace Record

def liability : Record → Option Liability
  | .account acc => acc.liability
  | .trust line => line.liability

def withLiability (liability : Option Liability) : Record → Record
  | .account acc => .account { acc with liability := liability }
  | .trust line => .trust { line with liability := liability }

def unburdened (record : Record) : Record := record.withLiability none

end Record

def Liability.side (buying : Bool) : Option Liability → Int64
  | none => 0
  | some liability => if buying then liability.buying else liability.selling

def Record.burden (record : Record) (buying : Bool) : Int64 :=
  Liability.side buying record.liability

/-- One side of the liability has changed by the amount, exactly if it was not
negative, and the other side is the same. -/
def Liability.Adds (amount : Int) (buy : Bool) (old new : Option Liability) : Prop :=
  ∀ side, 0 ≤ (Liability.side side old).toInt →
    (Liability.side side new).toInt =
        (Liability.side side old).toInt + (if side = buy then amount else 0) ∧
      0 ≤ (Liability.side side new).toInt

theorem Liability.Adds.zero (buy : Bool) (liability : Option Liability) :
    Liability.Adds 0 buy liability liability := by
  intro side notNegative
  exact ⟨by simp, notNegative⟩

theorem toInt_add_of_guards {liability amount : Int64} (notNegative : 0 ≤ liability.toInt)
    (guards : ¬ (amount > Int64.maxValue - liability ∨ amount < -liability)) :
    (liability + amount).toInt = liability.toInt + amount.toInt ∧
      0 ≤ (liability + amount).toInt := by
  rw [not_or, Int64.not_lt, Int64.not_lt, Int64.le_iff_toInt_le,
    Int64.le_iff_toInt_le] at guards
  have below := le_maxInt64 liability
  have room : (Int64.maxValue - liability).toInt = maxInt64 - liability.toInt := by
    rw [toInt_sub_of_fits] <;> rw [show Int64.maxValue.toInt = maxInt64 from rfl] <;>
      unfold minInt64 maxInt64 at * <;> omega
  have negated : (-liability).toInt = -liability.toInt := by
    apply toInt_neg_of_ne
    unfold minInt64
    omega
  have exact : (liability + amount).toInt = liability.toInt + amount.toInt := by
    apply toInt_add_of_fits <;> unfold minInt64 maxInt64 at * <;> omega
  exact ⟨exact, by omega⟩

variable {amount : Int64} {buy : Bool}

theorem Liability.update_adds {liability updated : Liability}
    (done : liability.update amount buy = .ok updated) :
    Liability.Adds amount.toInt buy (some liability) (some updated) := by
  unfold Liability.update at done
  intro side notNegative
  cases buy with
  | true =>
    rw [if_pos rfl] at done
    split_ifs at done with guards
    cases done
    cases side with
    | true => simpa [Liability.side] using toInt_add_of_guards notNegative guards
    | false => simpa [Liability.side] using notNegative
  | false =>
    rw [if_neg (by simp)] at done
    split_ifs at done with guards
    cases done
    cases side with
    | true => simpa [Liability.side] using notNegative
    | false => simpa [Liability.side] using toInt_add_of_guards notNegative guards

theorem updateLiability_adds {updated : Account}
    (done : updateLiability acc amount buy = .ok (some updated)) :
    ∃ old, acc = some old ∧ updated = { old with liability := updated.liability } ∧
      Liability.Adds amount.toInt buy old.liability updated.liability := by
  unfold updateLiability at done
  split_ifs at done with nothing
  · cases done
    exact ⟨updated, rfl, rfl, by simpa [nothing] using Liability.Adds.zero buy updated.liability⟩
  · rcases acc with _ | old
    · simp at done
    · rcases held : old.liability with _ | liability
      · simp [held] at done
      · simp only [held, bind_eq_ok] at done
        obtain ⟨changed, changes, done⟩ := done
        cases done
        exact ⟨old, rfl, rfl, held ▸ Liability.update_adds changes⟩

theorem updateTrustLiability_adds {updated : Trust}
    (done : updateTrustLiability line amount buy = .ok (some updated)) :
    ∃ old, line = some old ∧ updated = { old with liability := updated.liability } ∧
      Liability.Adds amount.toInt buy old.liability updated.liability := by
  unfold updateTrustLiability at done
  split_ifs at done with nothing
  · cases done
    exact ⟨updated, rfl, rfl, by simpa [nothing] using Liability.Adds.zero buy updated.liability⟩
  · rcases line with _ | old
    · simp at done
    · rcases held : old.liability with _ | liability
      · simp [held] at done
      · simp only [held, bind_eq_ok] at done
        obtain ⟨changed, changes, done⟩ := done
        cases done
        exact ⟨old, rfl, rfl, held ▸ Liability.update_adds changes⟩

section Writes

theorem Bucket.get_insert_eq_update (bucket : Bucket) (record : Record) :
    (bucket.insert record).get = Function.update bucket.get record.key (some record) := by
  funext key
  rw [Bucket.get_insert, Function.update_apply]

theorem Bucket.rewritten_insert {change : Record → Record → Prop} {bucket : Bucket}
    (stored : bucket.get record.key = some old) (changed : change old record)
    (others : ∀ other, other.key ≠ record.key → change other other) :
    Rewritten change bucket.get (bucket.insert record).get := by
  rw [Bucket.get_insert_eq_update]
  refine .update stored changed fun key other apart found => others other ?_
  rwa [bucket.ownKey key other found]

def Bucket.SameUpTo {View : Type} (view : Record → View) (before after : Bucket) : Prop :=
  Rewritten (fun old new => view new = view old) before.get after.get

namespace Bucket.SameUpTo

variable {View : Type} {view : Record → View} {before middle after : Bucket}

theorem refl (view : Record → View) (bucket : Bucket) : bucket.SameUpTo view bucket := by
  exact Rewritten.refl (fun record => Eq.refl (view record)) _

theorem trans (early : before.SameUpTo view middle) (late : middle.SameUpTo view after) :
    before.SameUpTo view after :=
  Rewritten.trans (fun _ _ _ first second => second.trans first) early late

theorem insert (same : before.SameUpTo view middle) (stored : before.get record.key = some old)
    (alike : view record = view old) : before.SameUpTo view (middle.insert record) := by
  obtain ⟨current, stands, changed⟩ := same.new_of_old stored
  exact same.trans (Bucket.rewritten_insert stands (alike.trans changed.symm) fun _ _ => rfl)

end Bucket.SameUpTo

theorem writeAccounts_holds {write : Bucket → Except OpError Bucket} {market : Market}
    {post : Unit → Market → Prop} {onAbort : OpError → Market → Prop}
    (written : ∀ accounts, write market.accounts = .ok accounts →
      post () { market with accounts := accounts })
    (refused : ∀ fault, onAbort fault market) :
    (writeAccounts write).Holds market post onAbort := by
  unfold writeAccounts
  rw [holds_bind, holds_get, holds_bind]
  exact holds_lift written fun fault _ => refused fault

theorem saveAccount_holds (acc : Account) (market : Market) :
    (Exchange.saveAccount (some acc)).Holds market
      (fun _ after => after = { market with accounts := market.accounts.insert (.account acc) })
      (fun _ after => after = market) := by
  unfold Exchange.saveAccount
  refine writeAccounts_holds (fun accounts saved => ?_) (fun _ => rfl)
  rw [eq_of_saveAccount saved]

theorem saveTrust_holds (line : Trust) (market : Market) :
    (Exchange.saveTrust (some line)).Holds market
      (fun _ after => after = { market with accounts := market.accounts.insert (.trust line) })
      (fun _ after => after = market) := by
  unfold Exchange.saveTrust
  refine writeAccounts_holds (fun accounts saved => ?_) (fun _ => rfl)
  rw [eq_of_saveTrust saved]

end Writes

def Record.IsAccountOf (accountID : String) : Record → Prop
  | .account acc => acc.accountID = accountID
  | .trust _ => False

instance (accountID : String) : (record : Record) → Decidable (record.IsAccountOf accountID)
  | .account _ | .trust _ => by unfold Record.IsAccountOf; infer_instance

def Record.Charged (kind : Record → Prop) [DecidablePred kind] (amount : Int) (buy : Bool)
    (old new : Record) : Prop :=
  new.unburdened = old.unburdened ∧
    Liability.Adds (if kind old then amount else 0) buy old.liability new.liability

theorem Record.Charged.of_not {kind : Record → Prop} [DecidablePred kind] {amount : Int}
    (other : ¬ kind record) : record.Charged kind amount buy record := by
  refine ⟨rfl, ?_⟩
  rw [if_neg other]
  exact .zero buy record.liability

section Liabilities

variable {market : Market} {accountID : String} {amount : Int64} {buy : Bool}

theorem changeAccountLiability_holds {context : String}
    (typed : market.accounts.NoTrustAt (accountKey accountID)) :
    (changeAccountLiability context accountID amount buy).Holds market
      (fun _ after => after.exchange = market.exchange ∧ after.offers = market.offers ∧
        Rewritten (Record.Charged (Record.IsAccountOf accountID) amount.toInt buy)
          market.accounts.get after.accounts.get)
      (fun _ after => after = market) := by
  unfold changeAccountLiability wrapFault
  simp only [holds_bind, holds_mapFault]
  refine holds_lift (fun updated updates => ?_) (fun _ _ => rfl)
  cases updated with
  | none => rfl
  | some updated =>
    obtain ⟨old, read, kept, adds⟩ := updateLiability_adds updates
    obtain ⟨stored, own⟩ := get_of_getAccount typed read
    refine (saveAccount_holds updated market).imp ?_
    rintro - after rfl
    refine ⟨rfl, rfl, ?_⟩
    have key : (Record.account updated).key = accountKey accountID := by
      rw [kept]
      exact congrArg accountKey own
    have isAccount : (Record.account old).IsAccountOf accountID := own
    refine Bucket.rewritten_insert (key ▸ stored) ⟨?_, ?_⟩ fun other apart => .of_not ?_
    · rw [kept]
      rfl
    · rw [if_pos isAccount]
      exact adds
    · rw [key] at apart
      intro same
      cases other with
      | account acc => exact apart (congrArg accountKey same)
      | trust line => exact same

theorem changeTrustLiability_holds (only : market.accounts.OnlyLineAt accountID asset)
    (apart : accountID ≠ asset.issuer) :
    (changeTrustLiability accountID asset amount buy).Holds market
      (fun _ after => after.exchange = market.exchange ∧ after.offers = market.offers ∧
        Rewritten (Record.Charged (Record.IsLineOf accountID asset) amount.toInt buy)
          market.accounts.get after.accounts.get)
      (fun _ after => after = market) := by
  unfold changeTrustLiability wrapFault
  simp only [holds_bind, holds_mapFault]
  refine holds_lift (fun updated updates => ?_) (fun _ _ => rfl)
  cases updated with
  | none => rfl
  | some updated =>
    obtain ⟨old, read, kept, adds⟩ := updateTrustLiability_adds updates
    have stored := get_of_getTrust only.noAccountAt apart read
    have isLine : (Record.trust old).IsLineOf accountID asset := line_of_getTrust only read
    refine (saveTrust_holds updated market).imp ?_
    rintro - after rfl
    refine ⟨rfl, rfl, ?_⟩
    have key : (Record.trust updated).key = trustKey accountID asset := by
      rw [kept]
      exact market.accounts.ownKey _ (.trust old) stored
    refine Bucket.rewritten_insert (key ▸ stored) ⟨?_, ?_⟩ fun other apart => .of_not ?_
    · rw [kept]
      rfl
    · rw [if_pos isLine]
      exact adds
    · rw [key] at apart
      intro same
      cases other with
      | account acc => exact same
      | trust line =>
        apply apart
        simp [Record.key, same.1, same.2]

end Liabilities

def Exchange.Offer.traded (offer : Exchange.Offer) (buying : Bool) : Asset :=
  if buying then offer.buyAsset else offer.sellAsset

/-- `GetLiability` as an integer, zero if it panics. -/
def Exchange.Offer.liabilityOf (offer : Exchange.Offer) (buying : Bool) : Int :=
  match getLiability offer buying with
  | .ok amount => amount.toInt
  | .error _ => 0

/-- The record that `UpdateLiability` charges with one side of an offer: for an issued
asset always the line of the asset that is bought. -/
def Record.Bears (offer : Exchange.Offer) (buying : Bool) (record : Record) : Prop :=
  if (offer.traded buying).assetType = .native then record.IsAccountOf offer.accountID
  else record.IsLineOf offer.accountID offer.buyAsset

instance (offer : Exchange.Offer) (buying : Bool) (record : Record) :
    Decidable (record.Bears offer buying) := by
  unfold Record.Bears
  infer_instance

/-- The records that bear the liability of an offer are where the exchange looks for them,
and none is the issuer's line. -/
@[mk_iff]
structure Exchange.Offer.BearersOwn (offer : Exchange.Offer) (accounts : Bucket) : Prop where
  account : accounts.NoTrustAt (accountKey offer.accountID)
  line : offer.buyAsset.assetType ≠ .native ∨ offer.sellAsset.assetType ≠ .native →
    accounts.OnlyLineAt offer.accountID offer.buyAsset ∧ offer.accountID ≠ offer.buyAsset.issuer

instance decidableBearersOwn (offer : Exchange.Offer) (accounts : Bucket) :
    Decidable (offer.BearersOwn accounts) :=
  decidable_of_iff' _ (Exchange.Offer.bearersOwn_iff offer accounts)

def Record.ChargedFor (offer : Exchange.Offer) (acquire : Bool) (old new : Record) : Prop :=
  new.unburdened = old.unburdened ∧
    ∀ side, 0 ≤ (old.burden side).toInt →
      (new.burden side).toInt = (old.burden side).toInt +
          (if old.Bears offer side then
            (if acquire then offer.liabilityOf side else -offer.liabilityOf side) else 0) ∧
        0 ≤ (new.burden side).toInt

def chargeSide (onRead onUpdate : String) (offer : Exchange.Offer) (acquire side : Bool) :
    MarketM Unit := do
  let amount ← wrapFault onRead (lift (getLiability offer side))
  if (offer.traded side).assetType = .native then
    changeAccountLiability onUpdate offer.accountID (if acquire then amount else -amount) side
  else
    changeTrustLiability offer.accountID offer.buyAsset (if acquire then amount else -amount) side

theorem updateOfferLiability_eq (offer : Exchange.Offer) (acquire : Bool) :
    updateOfferLiability offer acquire =
      chargeSide "get buying liability failed: " "update account buying liability failed: "
          offer acquire true >>= fun _ =>
        chargeSide "get selling liability failed: " "update account selling liability failed: "
          offer acquire false := by
  unfold chargeSide
  rw [bind_assoc]
  unfold updateOfferLiability
  by_cases native : offer.buyAsset.assetType = .native
  · simp only [native, if_true, Exchange.Offer.traded]
    rfl
  · simp only [native, if_false, Exchange.Offer.traded, if_true]
    rfl

theorem toInt_signed {amount liability : Int64} {acquire : Bool} {total : Int}
    (changed : total = liability.toInt + (if acquire then amount else -amount).toInt)
    (notNegative : 0 ≤ total) :
    (if acquire then amount else -amount).toInt =
      if acquire then amount.toInt else -amount.toInt := by
  cases acquire with
  | true => simp
  | false =>
    simp only [Bool.false_eq_true, if_false] at changed ⊢
    by_cases smallest : amount.toInt = minInt64
    · have below := le_maxInt64 liability
      rw [toInt_neg_of_eq smallest] at changed
      unfold minInt64 maxInt64 at *
      omega
    · exact toInt_neg_of_ne smallest

/-- What one half of `UpdateLiability` does to a record. -/
def Record.ChargedOn (offer : Exchange.Offer) (acquire side : Bool) (old new : Record) : Prop :=
  new.unburdened = old.unburdened ∧
    Liability.Adds
      (if old.Bears offer side then
        (if acquire then offer.liabilityOf side else -offer.liabilityOf side) else 0)
      side old.liability new.liability

theorem Record.ChargedOn.of_charged {acquire side : Bool}
    (known : getLiability offer side = .ok amount) (charged : old.Charged (Record.Bears offer side)
      (if acquire then amount else -amount).toInt side new) :
    old.ChargedOn offer acquire side new := by
  refine ⟨charged.1, fun other notNegative => ?_⟩
  obtain ⟨changed, stays⟩ := charged.2 other notNegative
  refine ⟨?_, stays⟩
  rw [changed]
  by_cases same : other = side
  · subst same
    by_cases bears : old.Bears offer other
    · simp only [bears, if_true] at changed ⊢
      rw [toInt_signed changed stays]
      simp [Exchange.Offer.liabilityOf, known]
    · simp [bears]
  · simp [same]

variable {market : Market}

theorem chargeSide_holds (own : offer.BearersOwn market.accounts)
    (onRead onUpdate : String) (acquire side : Bool) :
    (chargeSide onRead onUpdate offer acquire side).Holds market
      (fun _ after => after.exchange = market.exchange ∧ after.offers = market.offers ∧
        Rewritten (Record.ChargedOn offer acquire side) market.accounts.get after.accounts.get)
      (fun _ after => after = market) := by
  unfold chargeSide
  rw [holds_bind, wrapFault, holds_mapFault]
  refine holds_lift (fun amount known => ?_) (fun _ _ => rfl)
  by_cases native : (offer.traded side).assetType = .native
  · rw [if_pos native]
    refine (changeAccountLiability_holds own.account).imp ?_
    rintro - after ⟨exchange, offers, rewritten⟩
    refine ⟨exchange, offers, rewritten.mono fun old new charged => .of_charged known ?_⟩
    simpa only [Record.Charged, Record.Bears, if_pos native] using charged
  · rw [if_neg native]
    have issued : offer.buyAsset.assetType ≠ .native ∨ offer.sellAsset.assetType ≠ .native := by
      cases side with
      | true => exact .inl native
      | false => exact .inr native
    obtain ⟨only, apart⟩ := own.line issued
    refine (changeTrustLiability_holds only apart).imp ?_
    rintro - after ⟨exchange, offers, rewritten⟩
    refine ⟨exchange, offers, rewritten.mono fun old new charged => .of_charged known ?_⟩
    simpa only [Record.Charged, Record.Bears, if_neg native] using charged

section Identity

def Record.identity : Record → Record
  | .account acc => .account { acc with balance := 0, entryCount := 0, liability := none }
  | .trust line => .trust { line with balance := 0, liability := none }

variable {accountID : String}

theorem Record.isAccountOf_of_identity (same : new.identity = old.identity) :
    new.IsAccountOf accountID ↔ old.IsAccountOf accountID := by
  cases old <;> cases new <;> simp_all [Record.identity, Record.IsAccountOf]

theorem Record.isLineOf_of_identity (same : new.identity = old.identity) :
    new.IsLineOf accountID asset ↔ old.IsLineOf accountID asset := by
  cases old <;> cases new <;> simp_all [Record.identity, Record.IsLineOf]

theorem Record.bears_of_identity {side : Bool} (same : new.identity = old.identity) :
    new.Bears offer side ↔ old.Bears offer side := by
  unfold Record.Bears
  split_ifs
  · exact Record.isAccountOf_of_identity same
  · exact Record.isLineOf_of_identity same

theorem Record.identity_of_unburdened (same : new.unburdened = old.unburdened) :
    new.identity = old.identity := by
  cases old <;> cases new <;> simp_all [Record.identity, Record.unburdened, Record.withLiability]

variable {before after : Bucket}

theorem Bucket.SameUpTo.identity_of_unburdened (same : before.SameUpTo Record.unburdened after) :
    before.SameUpTo Record.identity after :=
  same.mono fun _ _ => Record.identity_of_unburdened

theorem Bucket.NoTrustAt.of_identity {key : List UInt8} (typed : before.NoTrustAt key)
    (same : before.SameUpTo Record.identity after) : after.NoTrustAt key := by
  intro line found
  obtain ⟨old, stood, alike⟩ := same.old_of_new found
  cases old with
  | account acc => simp [Record.identity] at alike
  | trust other => exact typed other stood

theorem Bucket.OnlyLineAt.of_identity
    (only : before.OnlyLineAt accountID asset) (same : before.SameUpTo Record.identity after) :
    after.OnlyLineAt accountID asset := by
  intro record found
  obtain ⟨old, stood, alike⟩ := same.old_of_new found
  exact (Record.isLineOf_of_identity alike).mpr (only old stood)

theorem Exchange.Offer.BearersOwn.of_identity (own : offer.BearersOwn before)
    (same : before.SameUpTo Record.identity after) : offer.BearersOwn after :=
  ⟨own.account.of_identity same,
    fun issued => ⟨(own.line issued).1.of_identity same, (own.line issued).2⟩⟩

end Identity

/-- `UpdateLiability` adds the liability of an offer to the records that bear it, or
takes it away; if it fails, nothing but liabilities has changed. -/
theorem updateOfferLiability_holds (own : offer.BearersOwn market.accounts) (acquire : Bool) :
    (updateOfferLiability offer acquire).Holds market
      (fun _ after => after.exchange = market.exchange ∧ after.offers = market.offers ∧
        Rewritten (Record.ChargedFor offer acquire) market.accounts.get after.accounts.get)
      (fun _ after => after.exchange = market.exchange ∧ after.offers = market.offers ∧
        market.accounts.SameUpTo Record.unburdened after.accounts) := by
  rw [updateOfferLiability_eq, holds_bind]
  refine (chargeSide_holds own _ _ acquire true).mono ?_ ?_
  · rintro - middle ⟨exchange, offers, buying⟩
    have kept : market.accounts.SameUpTo Record.unburdened middle.accounts :=
      buying.mono fun old new charged => charged.1
    refine (chargeSide_holds (own.of_identity kept.identity_of_unburdened) _ _ acquire false).mono ?_ ?_
    · rintro - after ⟨exchangeLate, offersLate, selling⟩
      refine ⟨exchangeLate.trans exchange, offersLate.trans offers,
        (buying.comp selling).mono ?_⟩
      rintro old new ⟨between, first, second⟩
      refine ⟨second.1.trans first.1, fun side notNegative => ?_⟩
      obtain ⟨early, earlyStays⟩ := first.2 side notNegative
      obtain ⟨late, stays⟩ := second.2 side earlyStays
      refine ⟨?_, stays⟩
      simp only [Record.bears_of_identity (Record.identity_of_unburdened first.1)] at late
      change (Liability.side side new.liability).toInt = _
      rw [late, early]
      cases side <;> simp [Record.burden]
    · rintro - after rfl
      exact ⟨exchange, offers, kept⟩
  · rintro - after rfl
    exact ⟨rfl, rfl, .refl _ _⟩

theorem release_holds (own : offer.BearersOwn market.accounts) :
    (updateOfferLiability offer false).Holds market
      (fun _ after => (updateOfferLiability offer false market).isDone = true ∧
        market.accounts.SameUpTo Record.unburdened after.accounts)
      (fun _ after => (updateOfferLiability offer false market).isDone = false ∧
        market.accounts.SameUpTo Record.unburdened after.accounts) := by
  have changes := updateOfferLiability_holds own false
  unfold Holds at *
  cases ended : updateOfferLiability offer false market with
  | done value after =>
    rw [ended] at changes
    exact ⟨rfl, changes.2.2.mono fun old new charged => charged.1⟩
  | abort fault after =>
    rw [ended] at changes
    exact ⟨rfl, changes.2.2⟩

namespace Exchange

section Fill

variable {am : AccountManager} {start : Filling}

/-- The order after `Exchange` with the offer. -/
def tradeOf (am : AccountManager) (filling : Filling) : Except OpError Amounts := do
  let accounts := filling.market.accounts
  let offer := filling.offer
  let acc := getAccount accounts offer.accountID
  let maxBuyAsset ← getMaxToSell am acc (tradedLine accounts offer.accountID offer.sellAsset)
  let maxSellAsset ← getMaxToBuy acc (tradedLine accounts offer.accountID offer.buyAsset)
  let price ← deref "order.Price" filling.order.price
  exchange price filling.order.toAmounts maxBuyAsset maxSellAsset offer.price

def Filling.traded (filling : Filling) (market : Market) (amounts : Amounts) : Filling :=
  { filling with
    market := market
    order := { filling.order with toAmounts := amounts } }

/-- `Fill` releases the liability of the offer, trades, and settles the trade. -/
theorem holds_fill (released : Market → Prop) {post : Unit → Filling → Prop}
    {onAbort : OpError → Filling → Prop}
    (release : (updateOfferLiability start.offer false).Holds start.market
      (fun _ => released)
      (fun fault market => onAbort (fault.wrap "release liability failed: ")
        { start with market := market }))
    (panics : ∀ fault market, released market → (∀ amounts, tradeOf am start ≠ .ok amounts) →
      onAbort fault { start with market := market })
    (settles : ∀ market amounts, released market → tradeOf am start = .ok amounts →
      (settleOffer am (getAccount start.market.accounts start.offer.accountID)
        (tradedLine start.market.accounts start.offer.accountID start.offer.sellAsset)
        (tradedLine start.market.accounts start.offer.accountID start.offer.buyAsset)
        start.offer).Holds (start.traded market amounts) post onAbort) :
    (fill am).Holds start post onAbort := by
  rw [fill, holds_bind, holds_get, holds_bind, wrapFault, holds_mapFault, onMarket, holds_zoom]
  refine release.imp ?_
  intro _ market done
  have trades : ∀ amounts, tradeOf am start = .ok amounts ↔ ∃ maxBuyAsset,
      getMaxToSell am (getAccount start.market.accounts start.offer.accountID)
        (tradedLine start.market.accounts start.offer.accountID start.offer.sellAsset) =
          .ok maxBuyAsset ∧
      ∃ maxSellAsset,
        getMaxToBuy (getAccount start.market.accounts start.offer.accountID)
          (tradedLine start.market.accounts start.offer.accountID start.offer.buyAsset) =
            .ok maxSellAsset ∧
        ∃ price, deref "order.Price" start.order.price = .ok price ∧
          exchange price start.order.toAmounts maxBuyAsset maxSellAsset start.offer.price =
            .ok amounts := by
    intro amounts
    simp only [tradeOf, bind_eq_ok]
  have panic := fun fault => panics fault market done
  rw [holds_bind]
  refine holds_lift (fun maxBuyAsset selling => ?_) (fun fault stuck => panic fault ?_)
  · rw [holds_bind]
    refine holds_lift (fun maxSellAsset buying => ?_) (fun fault stuck => panic fault ?_)
    · rw [holds_bind, exchangeOrder, holds_bind, holds_get, holds_bind]
      refine holds_lift (fun price priced => ?_) (fun fault stuck => panic fault ?_)
      · rw [holds_bind]
        refine holds_lift (fun amounts exchanged => ?_) (fun fault stuck => panic fault ?_)
        · exact settles market amounts done ((trades amounts).mpr
            ⟨maxBuyAsset, selling, maxSellAsset, buying, price, priced, exchanged⟩)
        · intro amounts traded
          obtain ⟨_, sellingToo, _, buyingToo, _, pricedToo, exchanged⟩ := (trades amounts).mp traded
          cases selling.symm.trans sellingToo
          cases buying.symm.trans buyingToo
          cases priced.symm.trans pricedToo
          exact absurd (stuck.symm.trans exchanged) (by simp)
      · intro amounts traded
        obtain ⟨_, _, _, _, _, pricedToo, _⟩ := (trades amounts).mp traded
        exact absurd (stuck.symm.trans pricedToo) (by simp)
    · intro amounts traded
      obtain ⟨_, _, _, buyingToo, _⟩ := (trades amounts).mp traded
      exact absurd (stuck.symm.trans buyingToo) (by simp)
  · intro amounts traded
    obtain ⟨_, sellingToo, _⟩ := (trades amounts).mp traded
    exact absurd (stuck.symm.trans sellingToo) (by simp)

end Fill

section Settlement

variable {market : Market}

def Market.write (market : Market) (record : Record) : Market :=
  { market with accounts := market.accounts.insert record }

inductive BuySettled (market : Market) (bought : Int64) :
    Option Account → Option Trust → Option Account × Option Trust → Market → Prop
  | nothing (acc : Option Account) (line : Option Trust) (zero : bought = 0) :
      BuySettled market bought acc line (acc, line) market
  | line (acc : Option Account) (line updated : Trust) (nonzero : bought ≠ 0)
      (updates : updateTrustBalance line bought = .ok updated) :
      BuySettled market bought acc (some line) (acc, some updated) (market.write (.trust updated))
  | account (acc updated : Account) (nonzero : bought ≠ 0)
      (updates : updateBalance acc bought = .ok updated) :
      BuySettled market bought (some acc) none (some updated, none)
        (market.write (.account updated))

inductive SellSettled (market : Market) (sold : Int64) (buyAssetTrust : Option Trust) :
    Option Account → Option Trust → Option Account → Market → Prop
  | nothing (acc : Option Account) (line : Option Trust) (zero : sold = 0) :
      SellSettled market sold buyAssetTrust acc line acc market
  | line (acc : Option Account) (line updated saved : Trust) (nonzero : sold ≠ 0)
      (updates : updateTrustBalance line (-sold) = .ok updated)
      (other : buyAssetTrust = some saved) :
      SellSettled market sold buyAssetTrust acc (some line) acc (market.write (.trust saved))
  | account (acc updated : Account) (nonzero : sold ≠ 0)
      (updates : updateBalance acc (-sold) = .ok updated) :
      SellSettled market sold buyAssetTrust (some acc) none (some updated)
        (market.write (.account updated))

inductive OfferFinished (am : AccountManager) (market : Market) (offer : Offer) :
    Option Account → Market → Prop
  | deleted (acc updated : Account) (empty : offer.amount = 0)
      (counts : am.updateEntryCount acc (-1) = .ok updated) :
      OfferFinished am market offer (some acc)
        { accounts := market.accounts.insert (.account updated)
          exchange := market.exchange.delete offer.exchangeKey
          offers := market.offers.delete offer.offerKey }
  | saved (acc : Option Account) (after : Market) (open_ : offer.amount ≠ 0)
      (exchange : after.exchange = market.exchange.put offer)
      (offers : after.offers = market.offers.put offer)
      (charged : Rewritten (Record.ChargedFor offer true)
        market.accounts.get after.accounts.get) :
      OfferFinished am market offer acc after

theorem BuySettled.of_zero {bought : Int64} {settled : Option Account × Option Trust}
    {after : Market} (settles : BuySettled market bought acc line settled after)
    (zero : bought = 0) : settled = (acc, line) ∧ after = market := by
  cases settles with
  | nothing acc line _ => exact ⟨rfl, rfl⟩
  | line acc line updated nonzero updates => exact absurd zero nonzero
  | account acc updated nonzero updates => exact absurd zero nonzero

theorem SellSettled.of_zero {sold : Int64} {held : Option Account} {buyAssetTrust : Option Trust}
    {after : Market} (settles : SellSettled market sold buyAssetTrust acc line held after)
    (zero : sold = 0) : held = acc ∧ after = market := by
  cases settles with
  | nothing acc line _ => exact ⟨rfl, rfl⟩
  | line acc line updated saved nonzero updates other => exact absurd zero nonzero
  | account acc updated nonzero updates => exact absurd zero nonzero

theorem settleBuyAsset_holds (acc : Option Account) (line : Option Trust) (bought : Int64) :
    (settleBuyAsset acc line bought).Holds market (BuySettled market bought acc line)
      (fun _ after => bought ≠ 0 ∧ after = market) := by
  unfold settleBuyAsset wrapFault
  split_ifs with nothing
  · exact .nothing acc line nothing
  · cases line with
    | some line =>
      simp only [holds_bind, holds_mapFault]
      refine holds_lift (fun updated updates => ?_) (fun _ _ => ⟨nothing, rfl⟩)
      refine (saveTrust_holds updated market).mono ?_ (fun _ _ same => ⟨nothing, same⟩)
      rintro - after rfl
      exact .line acc line updated nothing updates
    | none =>
      simp only [holds_bind, holds_mapFault]
      refine holds_lift (fun held loaded => ?_) (fun _ _ => ⟨nothing, rfl⟩)
      refine holds_lift (fun updated updates => ?_) (fun _ _ => ⟨nothing, rfl⟩)
      refine (saveAccount_holds updated market).mono ?_ (fun _ _ same => ⟨nothing, same⟩)
      rintro - after rfl
      obtain rfl := eq_some_of_deref loaded
      exact .account held updated nothing updates

theorem settleSellAsset_holds (acc : Option Account) (buyAssetTrust line : Option Trust)
    (sold : Int64) :
    (settleSellAsset acc buyAssetTrust line sold).Holds market
      (SellSettled market sold buyAssetTrust acc line)
      (fun _ after => sold ≠ 0 ∧ after = market) := by
  unfold settleSellAsset wrapFault
  split_ifs with nothing
  · exact .nothing acc line nothing
  · cases line with
    | some line =>
      simp only [holds_bind, holds_mapFault]
      refine holds_lift (fun updated updates => ?_) (fun _ _ => ⟨nothing, rfl⟩)
      cases buyAssetTrust with
      | none => exact ⟨nothing, rfl⟩
      | some saved =>
        refine (saveTrust_holds saved market).mono ?_ (fun _ _ same => ⟨nothing, same⟩)
        rintro - after rfl
        exact .line acc line updated saved nothing updates rfl
    | none =>
      simp only [holds_bind, holds_mapFault]
      refine holds_lift (fun held loaded => ?_) (fun _ _ => ⟨nothing, rfl⟩)
      refine holds_lift (fun updated updates => ?_) (fun _ _ => ⟨nothing, rfl⟩)
      refine (saveAccount_holds updated market).mono ?_ (fun _ _ same => ⟨nothing, same⟩)
      rintro - after rfl
      obtain rfl := eq_some_of_deref loaded
      exact .account held updated nothing updates

/-- If it fails, nothing but liabilities has changed in the accounts. -/
theorem finishOffer_holds {offer : Offer} (own : offer.BearersOwn market.accounts)
    (am : AccountManager) (acc : Option Account) :
    (finishOffer am acc offer).Holds market (fun _ => OfferFinished am market offer acc)
      (fun _ after => market.accounts.SameUpTo Record.unburdened after.accounts) := by
  unfold finishOffer wrapFault
  split_ifs with empty
  · simp only [holds_bind, holds_mapFault]
    refine holds_lift (fun held loaded => ?_) (fun _ _ => .refl _ _)
    refine holds_lift (fun updated counts => ?_) (fun _ _ => .refl _ _)
    refine (saveAccount_holds updated _).mono ?_ ?_
    · rintro - after rfl
      obtain rfl := eq_some_of_deref loaded
      exact .deleted held updated empty counts
    · rintro - after rfl
      exact .refl _ _
  · rw [holds_bind, holds_mapFault]
    refine (saveOffer_holds offer market).mono ?_ ?_
    · rintro - saved ⟨accounts, exchange, offers⟩
      rw [holds_mapFault]
      refine (updateOfferLiability_holds (accounts ▸ own) true).mono ?_ ?_
      · rintro - after ⟨exchangeLate, offersLate, charged⟩
        exact .saved acc after empty (exchangeLate.trans exchange) (offersLate.trans offers)
          (accounts ▸ charged)
      · rintro - after ⟨-, -, same⟩
        exact accounts ▸ same
    · intro _ after accounts
      exact accounts ▸ .refl _ _

theorem holds_settleOffer {am : AccountManager} {buyAssetTrust sellAssetTrust : Option Trust}
    {offer : Offer} {filling : Filling} {post : Unit → Filling → Prop}
    {onAbort : OpError → Filling → Prop}
    (unsettled : ∀ fault, filling.order.buyAssetBought ≠ 0 → onAbort fault filling)
    (halfSettled : ∀ fault settled market, filling.order.sellAssetSold ≠ 0 →
      BuySettled filling.market filling.order.buyAssetBought acc buyAssetTrust settled market →
      onAbort fault { filling with market := market })
    (finishes : ∀ settled boughtMarket held soldMarket,
      BuySettled filling.market filling.order.buyAssetBought acc buyAssetTrust settled
        boughtMarket →
      SellSettled boughtMarket filling.order.sellAssetSold settled.2 settled.1 sellAssetTrust held
        soldMarket →
      (finishOffer am held (offer.filledBy filling.order)).Holds soldMarket
        (fun _ market => post ()
          { filling with market := market, offer := offer.filledBy filling.order })
        (fun fault market => onAbort fault
          { filling with market := market, offer := offer.filledBy filling.order })) :
    (settleOffer am acc buyAssetTrust sellAssetTrust offer).Holds filling post onAbort := by
  rw [settleOffer, holds_bind, holds_get, holds_bind, onMarket, holds_zoom]
  refine (settleBuyAsset_holds acc buyAssetTrust _).mono ?_ ?_
  · intro settled boughtMarket bought
    rw [holds_bind, onMarket, holds_zoom]
    refine (settleSellAsset_holds settled.1 settled.2 sellAssetTrust _).mono ?_ ?_
    · intro held soldMarket sold
      rw [holds_bind, holds_modify, onMarket, holds_zoom]
      exact finishes settled boughtMarket held soldMarket bought sold
    · rintro fault market ⟨nonzero, rfl⟩
      exact halfSettled fault settled market nonzero bought
  · rintro fault market ⟨nonzero, rfl⟩
    exact unsettled fault nonzero

end Settlement

theorem Offer.BearersOwn.filledBy {offer : Offer} {accounts : Bucket}
    (own : offer.BearersOwn accounts) (order : Order) :
    (offer.filledBy order).BearersOwn accounts :=
  ⟨own.account, own.line⟩

end Exchange

end Ultiledger
