import Ultiledger.ExchangeEffects
import Ultiledger.MatchingOffers

/-! # What a successful offer operation has done -/

namespace Ultiledger

open AbortingProgram Program Exchange

section Stages

variable {am : AccountManager} {newOffer : Bool} {offer : Exchange.Offer} {acc : Account}
  {market after : Market}

theorem of_saveAccount (done : Exchange.saveAccount (some acc) market = .done () after) :
    after = market.write (.account acc) :=
  (holds_of_done done).mp (saveAccount_holds acc market)

theorem of_bumpEntryCount {updated : Account} {count : Int32}
    (done : bumpEntryCount am acc count true market = .done updated after) :
    am.updateEntryCount acc count = .ok updated ∧ after = market.write (.account updated) := by
  unfold bumpEntryCount wrapFault at done
  simp only [if_true, bind_eq_done, mapFault_eq_done, lift_eq_done, pure_eq_done] at done
  obtain ⟨_, _, ⟨counts, rfl⟩, _, _, saves, rfl, rfl⟩ := done
  exact ⟨counts, of_saveAccount saves⟩

theorem Bucket.insert_stored {bucket : Bucket} {record : Record}
    (stored : bucket.get record.key = some record) : bucket.insert record = bucket := by
  apply Bucket.ext_get
  intro key
  rw [Bucket.get_insert]
  split_ifs with same
  · rw [same, stored]
  · rfl

theorem of_getOfferLimits {held : Holdings} {sellLimit buyLimit : Int64} (stored : newOffer = true →
      market.accounts.get (Record.account held.acc).key = some (.account held.acc))
    (done : getOfferLimits am held offer newOffer market = .done (acc, sellLimit, buyLimit) after) :
    acc = held.acc ∧ after = market := by
  unfold getOfferLimits at done
  simp only [bind_eq_done, lift_eq_done, pure_eq_done, Prod.mk.injEq] at done
  obtain ⟨raised, _, raises, buyLimit, _, ⟨-, rfl⟩, sellLimit, _, ⟨-, rfl⟩, lowered, _, lowers,
    ⟨rfl, -, -⟩, rfl⟩ := done
  cases newOffer with
  | false =>
    obtain ⟨rfl, rfl⟩ := pure_eq_done.mp raises
    obtain ⟨rfl, rfl⟩ := pure_eq_done.mp lowers
    exact ⟨rfl, rfl⟩
  | true =>
    obtain ⟨raise, rfl⟩ := of_bumpEntryCount raises
    obtain ⟨lower, rfl⟩ := of_bumpEntryCount lowers
    obtain rfl := eq_add_of_updateEntryCount raise
    obtain rfl := eq_add_of_updateEntryCount lower
    have same : held.acc.entryCount + 1 + -1 = held.acc.entryCount := by
      rw [Int32.add_assoc]
      exact Int32.add_zero _
    rw [same]
    refine ⟨rfl, ?_⟩
    unfold Market.write
    rw [Bucket.insert_insert, Bucket.insert_stored (stored rfl)]
    rfl

theorem of_restOffer {createID : Except String String}
    (done : restOffer createID newOffer offer market = .done () after) :
    ∃ offerID saved,
      (newOffer = true → createID = .ok offerID) ∧ (newOffer = false → offerID = offer.offerID) ∧
      saveOffer { offer with offerID := offerID } market = .done () saved ∧
      updateOfferLiability { offer with offerID := offerID } true saved = .done () after := by
  unfold restOffer wrapFault at done
  simp only [bind_eq_done, lift_eq_done, mapFault_eq_done] at done
  obtain ⟨offerID, _, ⟨names, rfl⟩, _, saved, saves, charges⟩ := done
  refine ⟨offerID, saved, ?_, ?_, saves, charges⟩
  · intro new
    simp only [restingID, new, if_true] at names
    cases createID with
    | error err => simp at names
    | ok created => simpa using names
  · intro old
    simp only [restingID, old, Bool.false_eq_true, if_false] at names
    exact (Except.ok.inj names).symm

end Stages

structure Placement (m : Manager) (createID : Except String String) (newOffer : Bool)
    (held : Holdings) (offer : Exchange.Offer) (before after : Market) where
  acc : Account
  sellLimit : Int64
  buyLimit : Int64
  limited : Market
  order : Exchange.Order
  crossings : List Crossing
  filled : Market
  settled : Holdings
  booked : Market
  amount : Int64
  limits : getOfferLimits m.am held offer newOffer before = .done (acc, sellLimit, buyLimit) limited
  fills : fillOrder m (orderOf offer sellLimit buyLimit) limited = .done (order, crossings) filled
  settles : updateBalances { held with acc := acc } offer order filled = .done settled booked
  matched : matchOffer m newOffer held offer before = .done (crossings, amount) booked
  rests : 0 < amount →
    restOffer createID newOffer { offer with amount := amount } booked = .done () after
  ends : ¬ 0 < amount → booked = after

theorem Placement.of_done {m : Manager} {createID : Except String String} {newOffer : Bool}
    {held : Holdings} {offer : Exchange.Offer} {before after : Market}
    (done : placeOffer m createID newOffer held offer before = .done () after) :
    Nonempty (Placement m createID newOffer held offer before after) := by
  unfold placeOffer at done
  rw [bind_eq_done] at done
  obtain ⟨⟨crossings, amount⟩, booked, matched, done⟩ := done
  have stages := matched
  unfold matchOffer wrapFault at stages
  rw [bind_eq_done] at stages
  obtain ⟨⟨acc, sellLimit, buyLimit⟩, limited, limits, stages⟩ := stages
  rw [mapFault_eq_done] at limits
  dsimp only at stages
  split_ifs at stages with zero
  · exact (abort_eq_done.mp stages).elim
  · rw [bind_eq_done] at stages
    obtain ⟨⟨order, calls⟩, filled, fills, stages⟩ := stages
    rw [mapFault_eq_done] at fills
    rw [bind_eq_done] at stages
    obtain ⟨settled, same, settles, stages⟩ := stages
    simp only [bind_eq_done, lift_eq_done, pure_eq_done, Prod.mk.injEq] at stages
    obtain ⟨_, _, ⟨-, rfl⟩, ⟨rfl, rfl⟩, rfl⟩ := stages
    dsimp only at done
    split_ifs at done with positive
    · exact ⟨⟨acc, sellLimit, buyLimit, limited, order, calls, filled, settled, same, _,
        limits, fills, settles, matched, fun _ => done, fun none => absurd positive none⟩⟩
    · exact ⟨⟨acc, sellLimit, buyLimit, limited, order, calls, filled, settled, same, _,
        limits, fills, settles, matched, fun some => absurd some positive,
        fun _ => (pure_eq_done.mp done).2⟩⟩

inductive OfferStep (m : Manager) (createID : Except String String) (offer : Exchange.Offer)
    (held : Holdings) (before : Market) : Market → Prop
  | idle (new : offer.offerID = "") (empty : offer.amount = 0) :
      OfferStep m createID offer held before before
  | placed (after : Market) (new : offer.offerID = "") (nonempty : offer.amount ≠ 0)
      (placement : Placement m createID true held offer before after) :
      OfferStep m createID offer held before after
  | cancelled (old : Exchange.Offer) (released after : Market) (known : offer.offerID ≠ "")
      (empty : offer.amount = 0)
      (found : getOffer offer.accountID offer.sellAsset.assetName offer.buyAsset.assetName
        offer.offerID before = .done (some old) before)
      (release : updateOfferLiability old false before = .done () released)
      (cancels : cancelOffer m.am held.acc old released = .done () after) :
      OfferStep m createID offer held before after
  | changed (old : Exchange.Offer) (released after : Market) (known : offer.offerID ≠ "")
      (nonempty : offer.amount ≠ 0)
      (found : getOffer offer.accountID offer.sellAsset.assetName offer.buyAsset.assetName
        offer.offerID before = .done (some old) before)
      (release : updateOfferLiability old false before = .done () released)
      (placement : Placement m createID false held offer released after) :
      OfferStep m createID offer held before after

def Exchange.Offer.matched (m : Manager) (offer : Exchange.Offer) :
    MarketM (List Crossing × Int64) := do
  let held ← loadHoldings offer
  if offer.offerID = "" then
    matchOffer m true held offer
  else do
    let known ← getOffer offer.accountID offer.sellAsset.assetName offer.buyAsset.assetName
      offer.offerID
    let old ← lift (deref "offer" known)
    updateOfferLiability old false
    matchOffer m false held offer

section Matched

variable {m : Manager} {createID : Except String String} {offer : Exchange.Offer}
  {held : Holdings} {before after : Market} {post : List Crossing × Int64 → Market → Prop}
  {onAbort : OpError → Market → Prop}

theorem Placement.of_matched (placement : Placement m createID true held offer before after)
    (new : offer.offerID = "") (loads : loadHoldings offer before = .done held before)
    (holds : (offer.matched m).Holds before post onAbort) :
    post (placement.crossings, placement.amount) placement.booked := by
  rw [Exchange.Offer.matched, holds_bind, holds_of_done loads, if_pos new,
    holds_of_done placement.matched] at holds
  exact holds

theorem Placement.matched_eq {old : Exchange.Offer} {released : Market}
    (placement : Placement m createID false held offer released after)
    (known : offer.offerID ≠ "") (loads : loadHoldings offer before = .done held before)
    (found : getOffer offer.accountID offer.sellAsset.assetName offer.buyAsset.assetName
      offer.offerID before = .done (some old) before)
    (release : updateOfferLiability old false before = .done () released) :
    offer.matched m before = .done (placement.crossings, placement.amount) placement.booked := by
  have derefs : (lift (deref "offer" (some old)) : MarketM Exchange.Offer) before =
      .done old before := rfl
  rw [Exchange.Offer.matched, bind_of_done loads, if_neg known, bind_of_done found,
    bind_of_done derefs, bind_of_done release]
  exact placement.matched

end Matched

variable {market after : Market}

theorem of_getOffer {accountID sellAsset buyAsset offerID : String} {old : Exchange.Offer}
    (done : getOffer accountID sellAsset buyAsset offerID market = .done (some old) after) :
    market = after ∧ market.offers.get (getOfferKey [accountID, offerID]) = some old ∧
      old.offerID = offerID ∧ old.sellAsset.assetName = sellAsset ∧
      old.buyAsset.assetName = buyAsset := by
  unfold getOffer at done
  rw [bind_eq_done] at done
  obtain ⟨found, same, read, done⟩ := done
  obtain ⟨rfl, rfl⟩ := get_eq_done.mp read
  cases stored : market.offers.get (getOfferKey [accountID, offerID]) with
  | none =>
    simp only [stored, pure_eq_done] at done
    simp at done
  | some offer =>
    simp only [stored] at done
    split_ifs at done with otherID otherSell otherBuy
    · exact (abort_eq_done.mp done).elim
    · exact (abort_eq_done.mp done).elim
    · exact (abort_eq_done.mp done).elim
    · obtain ⟨same, rfl⟩ := pure_eq_done.mp done
      cases same
      exact ⟨rfl, rfl, not_not.mp otherID, not_not.mp otherSell, not_not.mp otherBuy⟩

/-- An offer that `GetOffer` finds stands under the keys of the one that is asked for. -/
theorem keys_of_getOffer {offer old : Exchange.Offer}
    (done : getOffer offer.accountID offer.sellAsset.assetName offer.buyAsset.assetName
      offer.offerID market = .done (some old) after) :
    market.offers.get offer.offerKey = some old ∧ old.accountID = offer.accountID ∧
      old.exchangeKey = offer.exchangeKey := by
  obtain ⟨-, found, sameID, sells, buys⟩ := of_getOffer done
  refine ⟨found, ?_, by rw [Offer.exchangeKey, sells, buys, sameID, Offer.exchangeKey]⟩
  have sameKey := (KeyedStore.Store.get_eq_some_iff.mp found).2
  rw [Offer.offerKey, sameID] at sameKey
  change utf8 (old.accountID ++ "_" ++ offer.offerID) =
    utf8 (offer.accountID ++ "_" ++ offer.offerID) at sameKey
  rw [pairPrefix_eq, pairPrefix_eq] at sameKey
  exact utf8_injective (List.append_cancel_right sameKey)

theorem of_loadHoldings {offer : Exchange.Offer} {held : Holdings}
    (done : loadHoldings offer market = .done held after) :
    market = after ∧ getAccount market.accounts offer.accountID = some held.acc ∧
      loadSellTrust market.accounts offer = .ok held.sellTrust ∧
      loadBuyTrust market.accounts offer = .ok held.buyTrust := by
  unfold loadHoldings wrapFault at done
  rw [bind_eq_done] at done
  obtain ⟨found, same, read, done⟩ := done
  obtain ⟨rfl, rfl⟩ := get_eq_done.mp read
  cases stored : getAccount market.accounts offer.accountID with
  | none =>
    simp only [stored] at done
    exact (abort_eq_done.mp done).elim
  | some acc =>
    simp only [stored, mapFault_eq_done, bind_eq_done, lift_eq_done, pure_eq_done] at done
    obtain ⟨sellTrust, _, ⟨sells, rfl⟩, buyTrust, _, ⟨buys, rfl⟩, rfl, rfl⟩ := done
    exact ⟨rfl, rfl, sells, buys⟩

theorem OfferStep.of_done {m : Manager} {createID : Except String String} {of : Op.Offer}
    {before after : Market} (done : of.apply m createID before = .done () after) :
    ∃ offer held, of.validate = .ok offer ∧ loadHoldings offer before = .done held before ∧
      OfferStep m createID offer held before after := by
  unfold Op.Offer.apply wrapFault at done
  rw [bind_eq_done] at done
  obtain ⟨offer, _, validates, done⟩ := done
  obtain ⟨valid, rfl⟩ := lift_eq_done.mp (mapFault_eq_done.mp validates)
  rw [bind_eq_done] at done
  obtain ⟨held, loaded, loads, done⟩ := done
  obtain ⟨rfl, -⟩ := of_loadHoldings loads
  refine ⟨offer, held, valid, loads, ?_⟩
  by_cases new : offer.offerID = ""
  · rw [if_pos new] at done
    by_cases empty : offer.amount = 0
    · rw [if_pos empty] at done
      obtain ⟨-, rfl⟩ := pure_eq_done.mp done
      exact .idle new empty
    · rw [if_neg empty] at done
      obtain ⟨placement⟩ := Placement.of_done done
      exact .placed after new empty placement
  · rw [if_neg new, bind_eq_done] at done
    obtain ⟨known, found, finds, done⟩ := done
    rw [mapFault_eq_done] at finds
    cases known with
    | none => exact (abort_eq_done.mp done).elim
    | some old =>
      obtain ⟨rfl, -⟩ := of_getOffer finds
      rw [bind_eq_done] at done
      obtain ⟨_, released, release, done⟩ := done
      rw [mapFault_eq_done] at release
      by_cases empty : offer.amount = 0
      · rw [if_pos empty] at done
        exact .cancelled old released after new empty finds release done
      · rw [if_neg empty] at done
        obtain ⟨placement⟩ := Placement.of_done done
        exact .changed old released after new empty finds release placement

section Quiet

/-- The first offer on the other side, if there is one, is too expensive or one's own. -/
def Exchange.Offer.CrossesNothing (m : Manager) (offer : Exchange.Offer) (market : Market) : Prop :=
  ∀ first ∈ (m.sort
      (offersUnder market offer.buyAsset.assetName offer.sellAsset.assetName)).head?,
    stopsAt (orderOf offer 0 0) offer.price.reciprocal first = .ok true

instance (m : Manager) (offer : Exchange.Offer) (market : Market) :
    Decidable (offer.CrossesNothing m market) := by
  unfold Exchange.Offer.CrossesNothing
  infer_instance

variable {m : Manager} {offer : Exchange.Offer} {market : Market}

theorem fillOrder_of_quiet (quiet : offer.CrossesNothing m market) (sellLimit buyLimit : Int64) :
    (fillOrder m (orderOf offer sellLimit buyLimit)).Holds market
      (fun result after => result = (orderOf offer sellLimit buyLimit, []) ∧ after = market)
      (fun _ _ => True) := by
  refine holds_fillOrder (fun _ _ => trivial) fun price priced => ?_
  obtain rfl : offer.price = price := Option.some.inj priced
  change (fillOffers m.am offer.price.reciprocal
    (m.sort (offersUnder market offer.buyAsset.assetName offer.sellAsset.assetName))).Holds _ _ _
  unfold Exchange.Offer.CrossesNothing at quiet
  cases arranged : m.sort
      (offersUnder market offer.buyAsset.assetName offer.sellAsset.assetName) with
  | nil => exact ⟨rfl, rfl⟩
  | cons first rest =>
    rw [arranged] at quiet
    have stops : stopsAt (orderOf offer sellLimit buyLimit) offer.price.reciprocal first =
        .ok true := quiet first rfl
    rw [fillOffers, holds_bind, holds_get, stops]
    exact ⟨rfl, rfl⟩

variable {createID : Except String String} {newOffer : Bool} {held : Holdings}
  {before after : Market}

/-- A placement that crosses nothing puts the rest of the offer into the book, if
there is a rest, and writes nothing else. -/
theorem Placement.quiet (placement : Placement m createID newOffer held offer before after)
    (stored : newOffer = true →
      before.accounts.get (Record.account held.acc).key = some (.account held.acc))
    (quiet : offer.CrossesNothing m before) :
    placement.booked = before ∧
    ((¬ 0 < placement.amount ∧ after = before) ∨
      ∃ offerID saved, 0 < placement.amount ∧
        (newOffer = true → createID = .ok offerID) ∧ (newOffer = false → offerID = offer.offerID) ∧
        saveOffer { offer with amount := placement.amount, offerID := offerID } before =
          .done () saved ∧
        updateOfferLiability { offer with amount := placement.amount, offerID := offerID } true
          saved = .done () after) := by
  obtain ⟨acc, sellLimit, buyLimit, limited, order, crossings, filled, settled, booked, amount,
    limits, fills, settles, -, rests, ends⟩ := placement
  obtain ⟨rfl, rfl⟩ := of_getOfferLimits stored limits
  obtain ⟨result, rfl⟩ := (holds_of_done fills).mp (fillOrder_of_quiet quiet sellLimit buyLimit)
  cases result
  obtain ⟨rfl, rfl⟩ : held = settled ∧ filled = booked := by
    exact pure_eq_done.mp settles
  refine ⟨rfl, ?_⟩
  by_cases positive : 0 < amount
  · obtain ⟨offerID, saved, new, old, saves, charges⟩ := of_restOffer (rests positive)
    exact .inr ⟨offerID, saved, positive, new, old, saves, charges⟩
  · exact .inl ⟨positive, (ends positive).symm⟩

theorem Exchange.Offer.BearersOwn.resized {accounts : Bucket} (own : offer.BearersOwn accounts)
    (amount : Int64) (offerID : String) :
    { offer with amount := amount, offerID := offerID }.BearersOwn accounts :=
  ⟨own.account, own.line⟩

theorem Exchange.Offer.CrossesNothing.of_exchange_eq (quiet : offer.CrossesNothing m before)
    (same : after.exchange = before.exchange) : offer.CrossesNothing m after := by
  unfold Exchange.Offer.CrossesNothing offersUnder at *
  rwa [same]

end Quiet

end Ultiledger
