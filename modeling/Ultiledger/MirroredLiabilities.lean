import Ultiledger.OfferSteps

/-! # Liabilities and the book

An offer that is cancelled or filled has its account saved from a copy that is older than
the release of the liability.
-/

namespace Ultiledger

open AbortingProgram Program Exchange KeyedStore RewrittenMaps

/-- The record of what the account of an offer owes on one side of it. -/
def Record.Owes (offer : Exchange.Offer) (buying : Bool) : Record → Prop
  | .account acc =>
    acc.accountID = offer.accountID ∧ (offer.traded buying).assetType = .native
  | .trust line =>
    line.accountID = offer.accountID ∧ (offer.traded buying).assetType ≠ .native ∧
      line.asset = some (offer.traded buying)

instance (offer : Exchange.Offer) (buying : Bool) :
    (record : Record) → Decidable (record.Owes offer buying)
  | .account _ | .trust _ => by unfold Record.Owes; infer_instance

def Record.dueFor (record : Record) (buying : Bool) (offer : Exchange.Offer) : Int :=
  if record.Owes offer buying then offer.liabilityOf buying else 0

theorem Record.dueFor_of_identity {old new : Record} (same : new.identity = old.identity)
    (buying : Bool) : new.dueFor buying = old.dueFor buying := by
  funext offer
  refine if_congr ?_ rfl rfl
  cases old <;> cases new <;> simp_all [Record.identity, Record.Owes]

theorem Record.bears_iff_owes {offer : Exchange.Offer} (native : offer.sellAsset.assetType = .native)
    (record : Record) (buying : Bool) : record.Bears offer buying ↔ record.Owes offer buying := by
  unfold Record.Bears
  split_ifs with traded
  · cases record <;> simp [Record.IsAccountOf, Record.Owes, traded]
  · cases buying with
    | true =>
      cases record with
      | account acc => simp [Record.IsLineOf, Record.Owes, traded]
      | trust line =>
        change _ ↔ _ ∧ (offer.traded true).assetType ≠ .native ∧ _
        simp only [traded, ne_eq, not_false_eq_true, true_and]
        rfl
    | false => exact absurd native traded

namespace Exchange.Market

def owed (market : Market) (record : Record) (buying : Bool) : Int :=
  market.exchange.total (record.dueFor buying)

def Mirrored (market : Market) : Prop :=
  ∀ key record, market.accounts.get key = some record → ∀ buying,
    (record.burden buying).toInt = market.owed record buying

instance : DecidablePred Mirrored := fun market =>
  inferInstanceAs (Decidable (∀ key record, market.accounts.get key = some record → _))

structure Kept (market : Market) : Prop where
  mirrored : market.Mirrored
  notNegative : ∀ key record, market.accounts.get key = some record → ∀ buying,
    0 ≤ (record.burden buying).toInt
  agree : ∀ offer, offer ∈ market.offers.values ↔ offer ∈ market.exchange.values

end Exchange.Market

/-- The record has the liability of one offer in place of that of another one, if there
was one. -/
def Record.Recharged (found : Option Exchange.Offer) (offer : Exchange.Offer)
    (old new : Record) : Prop :=
  new.identity = old.identity ∧
    ∀ buying, 0 ≤ (old.burden buying).toInt →
      (new.burden buying).toInt + found.elim 0 (old.dueFor buying) =
          (old.burden buying).toInt + old.dueFor buying offer ∧
        0 ≤ (new.burden buying).toInt

section Recharging

variable {old between new : Record} {before offer : Exchange.Offer}

theorem Record.ChargedFor.due {acquire : Bool} (charged : old.ChargedFor offer acquire new)
    (native : offer.sellAsset.assetType = .native) {buying : Bool}
    (notNegative : 0 ≤ (old.burden buying).toInt) :
    (new.burden buying).toInt = (old.burden buying).toInt +
        (if acquire then old.dueFor buying offer else -old.dueFor buying offer) ∧
      0 ≤ (new.burden buying).toInt := by
  obtain ⟨changed, stays⟩ := charged.2 buying notNegative
  refine ⟨?_, stays⟩
  rw [changed]
  simp only [Record.bears_iff_owes native, Record.dueFor]
  split_ifs <;> simp

theorem Record.Recharged.of_acquired (charged : old.ChargedFor offer true new)
    (native : offer.sellAsset.assetType = .native) : old.Recharged none offer new := by
  refine ⟨Record.identity_of_unburdened charged.1, fun buying notNegative => ?_⟩
  obtain ⟨changed, stays⟩ := charged.due native notNegative
  exact ⟨by simpa using changed, stays⟩

theorem Record.Recharged.of_changed (released : old.ChargedFor before false between)
    (acquired : between.ChargedFor offer true new)
    (nativeBefore : before.sellAsset.assetType = .native)
    (native : offer.sellAsset.assetType = .native) : old.Recharged (some before) offer new := by
  have kept := Record.identity_of_unburdened released.1
  refine ⟨(Record.identity_of_unburdened acquired.1).trans kept, fun buying notNegative => ?_⟩
  obtain ⟨lowered, staysBetween⟩ := released.due nativeBefore notNegative
  obtain ⟨raised, stays⟩ := acquired.due native staysBetween
  refine ⟨?_, stays⟩
  rw [raised, lowered, Record.dueFor_of_identity kept]
  simp only [Bool.false_eq_true, if_false, if_true, Option.elim_some]
  omega

end Recharging

namespace Exchange.Market

variable {before after : Market}

theorem Kept.replace {offer : Offer} {found : Option Offer} (kept : before.Kept)
    (exchange : after.exchange = before.exchange.put offer)
    (offers : after.offers = before.offers.put offer)
    (inExchange : before.exchange.get offer.exchangeKey = found)
    (inOffers : before.offers.get offer.offerKey = found)
    (recharged : Rewritten (Record.Recharged found offer) before.accounts.get after.accounts.get) :
    after.Kept := by
  constructor
  · intro key new stands buying
    obtain ⟨old, stood, changed⟩ := recharged.old_of_new stands
    obtain ⟨change, -⟩ := changed.2 buying (kept.notNegative key old stood buying)
    have mirrored := kept.mirrored key old stood buying
    have total := before.exchange.total_put (old.dueFor buying) offer
    rw [inExchange] at total
    unfold owed at mirrored ⊢
    rw [exchange, Record.dueFor_of_identity changed.1]
    omega
  · intro key new stands buying
    obtain ⟨old, stood, changed⟩ := recharged.old_of_new stands
    exact (changed.2 buying (kept.notNegative key old stood buying)).2
  · intro other
    rw [exchange, offers, Store.mem_put_iff, Store.mem_put_iff, inExchange, inOffers,
      kept.agree]

end Exchange.Market

/-- The offer sells native tokens and crosses nothing, a new one gets an id that is not in
use, and an old one is not cancelled and leaves a part in the book. -/
structure Exchange.Offer.Mirrors (m : Manager) (createID : Except String String)
    (offer : Exchange.Offer) (market : Market) : Prop where
  sellsNative : offer.sellAsset.assetType = .native
  crossesNothing : offer.CrossesNothing m market
  own : offer.BearersOwn market.accounts
  fresh : offer.offerID = "" → ∀ offerID, createID = .ok offerID →
    market.exchange.get { offer with offerID := offerID }.exchangeKey = none ∧
      market.offers.get { offer with offerID := offerID }.offerKey = none
  changes : offer.offerID ≠ "" → offer.amount ≠ 0 ∧
    (∀ old ∈ market.offers.get offer.offerKey,
      old.sellAsset.assetType = .native ∧ old.BearersOwn market.accounts) ∧
    (offer.matched m).Holds market (fun result _ => 0 < result.2) (fun _ _ => True)

def MirroringStep (m : Manager) (before after : Market) : Prop :=
  ∃ createID of offer, Op.Offer.validate of = .ok offer ∧ offer.Mirrors m createID before ∧
    of.apply m createID before = .done () after

section Steps

variable {m : Manager} {createID : Except String String} {offer : Exchange.Offer}
  {held : Holdings} {before after : Market}

theorem Placement.kept_of_new (placement : Placement m createID true held offer before after)
    (mirrors : offer.Mirrors m createID before) (new : offer.offerID = "")
    (read : getAccount before.accounts offer.accountID = some held.acc)
    (kept : before.Kept) : after.Kept := by
  obtain ⟨stored, own⟩ := get_of_getAccount mirrors.own.account read
  have inPlace : before.accounts.get (Record.account held.acc).key = some (.account held.acc) := by
    rwa [Record.key_account, own]
  obtain ⟨-, ⟨-, rfl⟩ | ⟨offerID, saved, -, created, -, saves, charges⟩⟩ :=
    placement.quiet (fun _ => inPlace) mirrors.crossesNothing
  · exact kept
  · obtain ⟨accounts, exchange, offers⟩ := (holds_of_done saves).mp (saveOffer_holds _ before)
    obtain ⟨exchangeLate, offersLate, charged⟩ := (holds_of_done charges).mp
      (updateOfferLiability_holds (accounts ▸ mirrors.own.resized _ _) true)
    obtain ⟨freeExchange, freeOffers⟩ := mirrors.fresh new offerID (created rfl)
    refine kept.replace (exchangeLate.trans exchange) (offersLate.trans offers)
      freeExchange freeOffers ?_
    rw [accounts] at charged
    exact charged.mono fun old new charged => .of_acquired charged mirrors.sellsNative

theorem Placement.kept_of_old {released : Market} {old : Exchange.Offer}
    (placement : Placement m createID false held offer released after)
    (mirrors : offer.Mirrors m createID before) (known : offer.offerID ≠ "")
    (loads : loadHoldings offer before = .done held before)
    (found : getOffer offer.accountID offer.sellAsset.assetName offer.buyAsset.assetName
      offer.offerID before = .done (some old) before)
    (release : updateOfferLiability old false before = .done () released)
    (kept : before.Kept) : after.Kept := by
  obtain ⟨-, oldOwn, leaves⟩ := mirrors.changes known
  obtain ⟨inOffers, -, sameKey⟩ := keys_of_getOffer found
  obtain ⟨oldNative, oldBearers⟩ := oldOwn old inOffers
  obtain ⟨exchangeEarly, offersEarly, lowered⟩ := (holds_of_done release).mp
    (updateOfferLiability_holds oldBearers false)
  have quiet := mirrors.crossesNothing.of_exchange_eq exchangeEarly
  have positive : 0 < placement.amount :=
    (holds_of_done (placement.matched_eq known loads found release)).mp leaves
  obtain ⟨-, ⟨nothing, -⟩ | ⟨offerID, saved, -, -, sameID, saves, charges⟩⟩ :=
    placement.quiet (by simp) quiet
  · exact absurd positive nothing
  · obtain rfl := sameID rfl
    obtain ⟨accounts, exchange, offers⟩ := (holds_of_done saves).mp (saveOffer_holds _ released)
    have bearers : offer.BearersOwn released.accounts :=
      mirrors.own.of_identity (lowered.mono fun _ _ charged => Record.identity_of_unburdened charged.1)
    obtain ⟨exchangeLate, offersLate, raised⟩ := (holds_of_done charges).mp
      (updateOfferLiability_holds (accounts ▸ bearers.resized _ _) true)
    rw [exchangeEarly] at exchange
    rw [offersEarly] at offers
    rw [accounts] at raised
    have inExchange : before.exchange.get offer.exchangeKey = some old :=
      Store.get_eq_some_iff.mpr
        ⟨(kept.agree old).mp (Store.get_eq_some_iff.mp inOffers).1, sameKey⟩
    refine kept.replace (exchangeLate.trans exchange) (offersLate.trans offers)
      inExchange inOffers ?_
    refine (lowered.comp raised).mono ?_
    rintro first last ⟨between, releases, acquires⟩
    exact .of_changed releases acquires oldNative mirrors.sellsNative

theorem MirroringStep.kept (step : MirroringStep m before after) (kept : before.Kept) :
    after.Kept := by
  obtain ⟨createID, of, offer, valid, mirrors, done⟩ := step
  obtain ⟨found, held, validToo, loads, effect⟩ := OfferStep.of_done done
  cases valid.symm.trans validToo
  cases effect with
  | idle new empty => exact kept
  | placed _ new nonempty placement =>
    exact placement.kept_of_new mirrors new (of_loadHoldings loads).2.1 kept
  | cancelled old released _ known empty found release cancels =>
    exact absurd empty (mirrors.changes known).1
  | changed old released _ known nonempty found release placement =>
    exact placement.kept_of_old mirrors known loads found release kept

end Steps

/-- Along operations that keep the liabilities in line they mirror the book. -/
theorem mirrored_of_steps (m : Manager) {start final : Market} (kept : start.Kept)
    (run : Relation.ReflTransGen (MirroringStep m) start final) : final.Mirrored := by
  have stays : final.Kept := by
    induction run with
    | refl => exact kept
    | tail _ step ih => exact step.kept ih
  exact stays.mirrored

section Samples

private def nativeToken : Asset := ⟨.native, "ULU", ""⟩
private def lead : Asset := ⟨.custom, "PB", "mint"⟩
private def tin : Asset := ⟨.custom, "SN", "mint"⟩

private def clerk : Manager := .unsorted ⟨100⟩

private def emptyBook : Market where
  accounts :=
    .ofRecords [.trader "alice" 2, .holding "alice" lead, .holding "alice" tin]
  exchange := .empty _
  offers := .empty _

private def aliceOffers (sellAsset buyAsset : Asset) (offerID : String) (amount : Int64) :
    Op.Offer :=
  ⟨"alice", some buyAsset, some sellAsset, amount, some ⟨1, 1⟩, offerID, 0⟩

private theorem emptyBook_kept : emptyBook.Kept := by
  exact ⟨by decide +kernel, by decide +kernel, fun offer => Iff.rfl⟩

private def oneOffer : Market :=
  ((aliceOffers nativeToken lead "" 100).apply clerk (.ok "first") emptyBook).state

/-- Alice offers 100 tokens and then lowers the offer to 50. -/
theorem mirrored_of_offer_and_change :
    ∃ middle final,
      (aliceOffers nativeToken lead "" 100).apply clerk (.ok "first") emptyBook =
        .done () middle ∧
      (aliceOffers nativeToken lead "first" 50).apply clerk (.ok "") middle = .done () final ∧
      (getAccount final.accounts "alice").map (fun acc => acc.liability) =
        some (some ⟨0, 50⟩) ∧
      final.Mirrored := by
  have places : (aliceOffers nativeToken lead "" 100).apply clerk (.ok "first") emptyBook =
      .done () oneOffer := Outcome.eq_done (by decide +kernel)
  have changes : (aliceOffers nativeToken lead "first" 50).apply clerk (.ok "") oneOffer =
      .done () ((aliceOffers nativeToken lead "first" 50).apply clerk (.ok "") oneOffer).state :=
    Outcome.eq_done (by decide +kernel)
  have first : MirroringStep clerk emptyBook oneOffer := by
    refine ⟨_, _, ⟨"", "alice", nativeToken, lead, 100, ⟨1, 1⟩, 0⟩, by rfl, ?_, places⟩
    refine ⟨rfl, by decide +kernel, by decide +kernel, ?_, by simp⟩
    rintro - offerID ⟨⟩
    decide +kernel
  have second : MirroringStep clerk oneOffer
      ((aliceOffers nativeToken lead "first" 50).apply clerk (.ok "") oneOffer).state := by
    refine ⟨_, _, ⟨"first", "alice", nativeToken, lead, 50, ⟨1, 1⟩, 0⟩, by rfl, ?_, changes⟩
    refine ⟨rfl, by decide +kernel, by decide +kernel, by simp, fun _ => ?_⟩
    decide +kernel
  refine ⟨_, _, places, changes, by decide +kernel, ?_⟩
  exact mirrored_of_steps clerk emptyBook_kept (.tail (.single first) second)

/-- Alice cancels the only offer and still owes 100 tokens for it.  If Alice offers lead
for tin, the line for tin owes the lead. -/
theorem liability_outlives_offer :
    emptyBook.Kept ∧
    (∃ middle final,
      (aliceOffers nativeToken lead "" 100).apply clerk (.ok "first") emptyBook =
        .done () middle ∧
      (aliceOffers nativeToken lead "first" 0).apply clerk (.ok "") middle = .done () final ∧
      final.exchange.values = [] ∧
      (getAccount final.accounts "alice").map (fun acc => acc.liability) =
        some (some ⟨0, 100⟩) ∧
      ¬ final.Mirrored) ∧
    ∃ final,
      (aliceOffers lead tin "" 100).apply clerk (.ok "first") emptyBook = .done () final ∧
      (getTrust final.accounts "alice" tin).map (fun line => line.liability) =
        some (some ⟨100, 100⟩) ∧
      ¬ final.Mirrored := by
  exact ⟨emptyBook_kept,
    ⟨oneOffer, _, Outcome.eq_done (by decide +kernel), Outcome.eq_done (by decide +kernel),
      by decide +kernel⟩,
    _, Outcome.eq_done (by decide +kernel), by decide +kernel⟩

end Samples

end Ultiledger
