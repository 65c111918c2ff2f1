import Ultiledger.OfferBook

/-! # Changing an offer

If the order of a changed offer is completely filled there is nothing to save, and
nothing deletes the old version.
-/

namespace Ultiledger

open AbortingProgram Program KeyedStore Exchange

def Exchange.Market.HoldsUnder (market : Market) (offerID : String)
    (stored : Option Exchange.Offer) : Prop :=
  ∀ offer : Exchange.Offer, offer.offerID = offerID →
    (offer ∈ market.exchange.values ↔ offer ∈ stored) ∧
      (offer ∈ market.offers.values ↔ offer ∈ stored)

section Holding

variable {before after : Market} {offerID : String} {old : Exchange.Offer}

theorem Exchange.Market.HoldsUnder.of_sameBook {stored : Option Exchange.Offer}
    (holds : before.HoldsUnder offerID stored) (same : before.SameBook after) :
    after.HoldsUnder offerID stored := by
  intro offer named
  rw [same.exchange, same.offers]
  exact holds offer named

theorem Exchange.Market.HoldsUnder.moved (holds : before.HoldsUnder offerID (some old))
    (agrees : after.Agrees) (moved : before.Moved old.accountID after) :
    after.HoldsUnder offerID (some old) := by
  have inExchange : ∀ offer : Exchange.Offer, offer.offerID = offerID →
      (offer ∈ after.exchange.values ↔ offer ∈ some old) := by
    intro offer named
    by_cases own : offer.accountID = old.accountID
    · rw [moved.own offer own]
      exact (holds offer named).1
    · constructor
      · intro member
        obtain ⟨former, formerMem, fromFormer⟩ := moved.stems offer member
        have namedFormer : former.offerID = offerID := by
          rw [fromFormer] at named
          exact named
        have same := Option.some.inj ((holds former namedFormer).1.mp formerMem)
        rw [fromFormer, same] at own
        exact absurd rfl own
      · intro same
        exact absurd (congrArg Offer.accountID (Option.some.inj same)).symm own
  intro offer named
  exact ⟨inExchange offer named, (agrees.same offer).symm.trans (inExchange offer named)⟩

theorem Exchange.Market.HoldsUnder.delete (holds : before.HoldsUnder offerID (some old))
    (exchange : after.exchange = before.exchange.delete old.exchangeKey)
    (offers : after.offers = before.offers.delete old.offerKey) :
    after.HoldsUnder offerID none := by
  intro offer named
  rw [exchange, offers, Store.mem_delete, Store.mem_delete, (holds offer named).1,
    (holds offer named).2]
  simp only [Option.mem_def, Option.some.injEq, reduceCtorEq, iff_false, not_and, not_not]
  constructor
  · rintro rfl
    rfl
  · rintro rfl
    rfl

theorem Exchange.Market.HoldsUnder.put {new : Exchange.Offer}
    (holds : before.HoldsUnder offerID (some old)) (sameExchangeKey : old.exchangeKey = new.exchangeKey)
    (sameOfferKey : old.offerKey = new.offerKey)
    (exchange : after.exchange = before.exchange.put new)
    (offers : after.offers = before.offers.put new) : after.HoldsUnder offerID (some new) := by
  intro offer named
  rw [exchange, offers, Store.mem_put, Store.mem_put, (holds offer named).1, (holds offer named).2]
  simp only [Option.mem_def, Option.some.injEq]
  constructor
  · constructor
    · rintro (rfl | ⟨rfl, apart⟩)
      · rfl
      · exact absurd sameExchangeKey apart
    · rintro rfl
      exact .inl rfl
  · constructor
    · rintro (rfl | ⟨rfl, apart⟩)
      · rfl
      · exact absurd sameOfferKey apart
    · rintro rfl
      exact .inl rfl

end Holding

section Samples

end Samples

end Ultiledger
