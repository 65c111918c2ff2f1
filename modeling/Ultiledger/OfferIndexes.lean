import Ultiledger.OfferBook

/-! # The two indexes of the offers -/

namespace Ultiledger

namespace Exchange

open AbortingProgram Program KeyedStore

/-- The offers in the bucket `OFFER` whose key begins with the account. -/
def accountOffers (market : Market) (accountID : String) : List Offer :=
  market.offers.values.filter fun offer => utf8 accountID <+: offer.offerKey

/-- `GetAccountOffers`, up to the order of the keys. -/
def getAccountOffers (accountID : String) : MarketM (List Offer) := do
  let market ← get
  pure (accountOffers market accountID)

section Identities

def Offer.place (offer : Offer) : String × String × String :=
  (offer.accountID, offer.sellAsset.assetName, offer.buyAsset.assetName)

/-- The id stands for the account and the names of the offer, and has no separator. -/
structure Offer.Identified (registry : String → String × String × String) (offer : Offer) :
    Prop where
  place : registry offer.offerID = offer.place
  plain : separator ∉ utf8 offer.offerID

theorem eq_of_append_separator {front back tail rest : List UInt8} (plain : separator ∉ tail)
    (plainRest : separator ∉ rest) (same : front ++ separator :: tail = back ++ separator :: rest) :
    tail = rest := by
  rcases List.append_eq_append_iff.mp same with ⟨between, -, split⟩ | ⟨between, -, split⟩
  · cases between with
    | nil => exact (List.cons.inj split).2
    | cons first others =>
      have later : tail = others ++ separator :: rest := (List.cons.inj split).2
      exact absurd (by simp [later]) plain
  · cases between with
    | nil => exact (List.cons.inj split).2.symm
    | cons first others =>
      have later : rest = others ++ separator :: tail := (List.cons.inj split).2
      exact absurd (by simp [later]) plainRest

variable {registry : String → String × String × String} {first second : Offer}

theorem offerKey_eq (offer : Offer) :
    offer.offerKey = utf8 offer.accountID ++ separator :: utf8 offer.offerID :=
  pairPrefix_eq offer.accountID offer.offerID

variable (identified : first.Identified registry) (identifiedToo : second.Identified registry)

include identified identifiedToo

theorem Offer.Identified.place_eq (same : first.offerID = second.offerID) :
    first.place = second.place := by
  rw [← identified.place, same, identifiedToo.place]

theorem Offer.Identified.exchangeKey_eq_iff :
    first.exchangeKey = second.exchangeKey ↔ first.offerID = second.offerID := by
  constructor
  · intro same
    rw [exchangeKey_eq, exchangeKey_eq, ← List.cons_append, ← List.cons_append,
      ← List.append_assoc, ← List.append_assoc] at same
    exact utf8_injective (eq_of_append_separator identified.plain identifiedToo.plain same)
  · intro same
    have places := identified.place_eq identifiedToo same
    simp only [Offer.place, Prod.mk.injEq] at places
    rw [exchangeKey_eq, exchangeKey_eq, same, places.2.1, places.2.2]

theorem Offer.Identified.offerKey_eq_iff :
    first.offerKey = second.offerKey ↔ first.offerID = second.offerID := by
  constructor
  · intro same
    rw [offerKey_eq, offerKey_eq] at same
    exact utf8_injective (eq_of_append_separator identified.plain identifiedToo.plain same)
  · intro same
    have places := identified.place_eq identifiedToo same
    simp only [Offer.place, Prod.mk.injEq] at places
    rw [offerKey_eq, offerKey_eq, same, places.1]

end Identities

structure Market.Indexed (registry : String → String × String × String) (market : Market) :
    Prop extends market.Agrees where
  identified : ∀ offer ∈ market.exchange.values, offer.Identified registry

inductive BookCall where
  | save (offer : Offer)
  | delete (offer : Option Offer)
  | fillOrder (order : Order)
  | apply (createID : Except String String) (of : Op.Offer)

/-- The offers that a call is given, and the offer that it creates, have ids of their
own. -/
def BookCall.Identified (registry : String → String × String × String) : BookCall → Prop
  | .save offer => offer.Identified registry
  | .delete offer => ∀ given ∈ offer, given.Identified registry
  | .fillOrder _ => True
  | .apply createID of => ∀ offer offerID, of.validate = .ok offer → offer.offerID = "" →
      createID = .ok offerID → { offer with offerID := offerID }.Identified registry

def BookCall.run (m : Manager) : BookCall → MarketM Unit
  | .save offer => saveOffer offer
  | .delete none => pure ()
  | .delete (some offer) => deleteOffer offer
  | .fillOrder order => do
    let _ ← Exchange.fillOrder m order
    pure ()
  | .apply createID of => of.apply m createID

/-- The market after a call; the changes of a call that fails are rolled back. -/
def BookCall.commit (m : Manager) (call : BookCall) (market : Market) : Market :=
  match call.run m market with
  | .done () after => after
  | .abort _ _ => market

inductive BookStep (m : Manager) (registry : String → String × String × String)
    (before : Market) : Market → Prop
  | call (call : BookCall) (identified : call.Identified registry) :
      BookStep m registry before (call.commit m before)
  | accounts (accounts : Bucket) : BookStep m registry before { before with accounts := accounts }

end Exchange

open AbortingProgram Program KeyedStore Exchange

section Steps

variable {m : Manager} {registry : String → String × String × String} {before after : Market}
  {offer : Exchange.Offer}

section

variable (indexed : before.Indexed registry)

include indexed

theorem Exchange.Market.Indexed.of_sameBook (same : before.SameBook after) :
    after.Indexed registry := by
  refine ⟨indexed.toAgrees.of_sameBook same, ?_⟩
  rw [same.exchange]
  exact indexed.identified

theorem Exchange.Market.Indexed.aligned (identified : offer.Identified registry) :
    before.exchange.Aligned Offer.offerKey offer := by
  intro stored member
  rw [(indexed.identified stored member).exchangeKey_eq_iff identified,
    (indexed.identified stored member).offerKey_eq_iff identified]

theorem Exchange.Market.Indexed.put (identified : offer.Identified registry)
    (fits : offer.offerKey.length ≤ 32768) (exchange : after.exchange = before.exchange.put offer)
    (offers : after.offers = before.offers.put offer) : after.Indexed registry := by
  refine ⟨indexed.toAgrees.put fits (indexed.aligned identified) exchange offers, ?_⟩
  intro other otherMem
  rw [exchange, Store.mem_put] at otherMem
  rcases otherMem with rfl | ⟨earlier, -⟩
  · exact identified
  · exact indexed.identified other earlier

theorem Exchange.Market.Indexed.delete (identified : offer.Identified registry)
    (exchange : after.exchange = before.exchange.delete offer.exchangeKey)
    (offers : after.offers = before.offers.delete offer.offerKey) : after.Indexed registry := by
  refine ⟨indexed.toAgrees.delete (indexed.aligned identified) exchange offers, ?_⟩
  intro other otherMem
  rw [exchange, Store.mem_delete] at otherMem
  exact indexed.identified other otherMem.1

theorem Exchange.Market.Indexed.moved {accountID : String} (agrees : after.Agrees)
    (moved : before.Moved accountID after) : after.Indexed registry := by
  refine ⟨agrees, ?_⟩
  intro other otherMem
  obtain ⟨former, formerMem, fromFormer⟩ := moved.stems other otherMem
  obtain ⟨place, plain⟩ := indexed.identified former formerMem
  rw [fromFormer]
  exact ⟨place, plain⟩

theorem indexed_of_saveOffer (identified : offer.Identified registry)
    (saves : saveOffer offer before = .done () after) : after.Indexed registry := by
  obtain ⟨fits, exchange, offers⟩ := book_of_saveOffer saves
  exact indexed.put identified fits exchange offers

end

theorem Placement.indexed {createID : Except String String} {newOffer : Bool} {held : Holdings}
    (placement : Placement m createID newOffer held offer before after)
    (indexed : before.Indexed registry)
    (identified : ∀ offerID, (newOffer = true → createID = .ok offerID) →
      (newOffer = false → offerID = offer.offerID) →
      { offer with offerID := offerID }.Identified registry) :
    after.Indexed registry := by
  obtain ⟨agrees, moved⟩ := placement.booked_book indexed.toAgrees
  have booked := indexed.moved agrees moved
  by_cases positive : 0 < placement.amount
  · obtain ⟨offerID, new, old, fits, exchange, offers⟩ :=
      book_of_restOffer (placement.rests positive)
    obtain ⟨place, plain⟩ := identified offerID new old
    have resized : { offer with
        amount := placement.amount
        offerID := offerID }.Identified registry := ⟨place, plain⟩
    exact booked.put resized fits exchange offers
  · rw [← placement.ends positive]
    exact booked

theorem identified_of_getOffer {old : Exchange.Offer} (indexed : before.Indexed registry)
    (found : getOffer offer.accountID offer.sellAsset.assetName offer.buyAsset.assetName
      offer.offerID before = .done (some old) before) :
    old.Identified registry ∧ offer.Identified registry := by
  obtain ⟨stored, sameAccount, -⟩ := keys_of_getOffer found
  obtain ⟨-, -, sameID, sells, buys⟩ := of_getOffer found
  have member := (indexed.same old).mpr (Store.get_eq_some_iff.mp stored).1
  obtain ⟨place, plain⟩ := indexed.identified old member
  refine ⟨⟨place, plain⟩, ?_, ?_⟩
  · rw [← sameID, place]
    simp only [Offer.place, sameAccount, sells, buys]
  · rw [← sameID]
    exact plain

theorem OfferStep.indexed {createID : Except String String} {held : Holdings}
    (effect : OfferStep m createID offer held before after) (indexed : before.Indexed registry)
    (created : ∀ offerID, offer.offerID = "" → createID = .ok offerID →
      { offer with offerID := offerID }.Identified registry) :
    after.Indexed registry := by
  cases effect with
  | idle new empty => exact indexed
  | placed after new nonempty placement =>
    exact placement.indexed indexed fun offerID names _ => created offerID new (names rfl)
  | cancelled old released after known empty found release cancels =>
    have same := (holds_of_done release).mp (leavesBook_updateOfferLiability old false before)
    obtain ⟨exchange, offers⟩ := book_of_cancelOffer cancels
    have identified := (identified_of_getOffer indexed found).1
    exact (indexed.of_sameBook same).delete identified exchange offers
  | changed old released after known nonempty found release placement =>
    have same := (holds_of_done release).mp (leavesBook_updateOfferLiability old false before)
    refine placement.indexed (indexed.of_sameBook same) fun offerID _ keeps => ?_
    rw [keeps rfl]
    exact (identified_of_getOffer indexed found).2

theorem Exchange.BookCall.indexed {call : BookCall} (identified : call.Identified registry)
    (indexed : before.Indexed registry) (done : call.run m before = .done () after) :
    after.Indexed registry := by
  cases call with
  | save offer => exact indexed_of_saveOffer indexed identified done
  | delete given =>
    cases given with
    | none =>
      obtain ⟨-, rfl⟩ := pure_eq_done.mp done
      exact indexed
    | some offer =>
      obtain rfl := (Outcome.done.inj done).2
      exact indexed.delete (identified offer rfl) rfl rfl
  | fillOrder order =>
    obtain ⟨result, filled, fills, ends⟩ := bind_eq_done.mp done
    obtain ⟨-, rfl⟩ := pure_eq_done.mp ends
    obtain ⟨agrees, moved⟩ := (holds_of_done fills).mp (fillOrder_book m order indexed.toAgrees)
    exact indexed.moved agrees moved
  | apply createID of =>
    obtain ⟨offer, held, valid, -, effect⟩ := OfferStep.of_done done
    exact effect.indexed indexed fun offerID new creates =>
      identified offer offerID valid new creates

theorem Exchange.BookStep.indexed (step : BookStep m registry before after)
    (indexed : before.Indexed registry) : after.Indexed registry := by
  cases step with
  | call call identified =>
    unfold BookCall.commit
    cases ended : call.run m before with
    | done value after => exact BookCall.indexed identified indexed ended
    | abort fault after => exact indexed
  | accounts accounts => exact indexed.of_sameBook ⟨rfl, rfl⟩

theorem indexed_of_steps {accounts : Bucket} {market : Market}
    (run : Relation.ReflTransGen (BookStep m registry) ⟨accounts, .empty _, .empty _⟩ market) :
    market.Indexed registry := by
  induction run with
  | refl => exact ⟨⟨fun offer => Iff.rfl, by simp [Store.empty]⟩, by simp [Store.empty]⟩
  | tail _ step ih => exact step.indexed ih

end Steps

/-- After every sequence of calls on an empty book both buckets hold the same offers, and
what the queries by account and by assets find of an offer is the same. -/
theorem indexes_agree (m : Manager) (registry : String → String × String × String)
    {accounts : Bucket} {market : Market}
    (run : Relation.ReflTransGen (BookStep m registry) ⟨accounts, .empty _, .empty _⟩ market) :
    (∀ offer, offer ∈ market.exchange.values ↔ offer ∈ market.offers.values) ∧
      ∀ offer listed loaded, getAccountOffers offer.accountID market = .done listed market →
        loadOffers m offer.sellAsset.assetName offer.buyAsset.assetName market =
          .done loaded market →
        (offer ∈ listed ↔ offer ∈ loaded) := by
  have agree := (indexed_of_steps run).same
  refine ⟨agree, ?_⟩
  intro offer listed loaded lists loads
  obtain rfl : accountOffers market offer.accountID = listed := (Outcome.done.inj lists).1
  have byAccount : utf8 offer.accountID <+: offer.offerKey := by
    rw [offerKey_eq]
    exact List.prefix_append _ _
  have byAssets : utf8 (offer.sellAsset.assetName ++ "_" ++ offer.buyAsset.assetName) <+:
      offer.exchangeKey := by
    rw [pairPrefix_eq, exchangeKey_eq, ← List.cons_append, ← List.append_assoc]
    exact List.prefix_append _ _
  have found : offer ∈ loaded ↔
      offer ∈ offersUnder market offer.sellAsset.assetName offer.buyAsset.assetName := by
    obtain ⟨_, _, read, loads⟩ := bind_eq_done.mp loads
    obtain ⟨rfl, rfl⟩ := get_eq_done.mp read
    split_ifs at loads
    · exact (abort_eq_done.mp loads).elim
    · obtain ⟨rfl, -⟩ := pure_eq_done.mp loads
      exact (m.sort_perm _).mem_iff
  rw [found, accountOffers, offersUnder, List.mem_filter, List.mem_filter, agree offer]
  simp [byAccount, byAssets]

section Samples

private def chromium : Asset := ⟨.custom, "CR", "mint"⟩
private def vanadium : Asset := ⟨.custom, "VA", "mint"⟩

private def broker : Manager := .unsorted ⟨100⟩

private def metalAccounts : Bucket :=
  .ofRecords [.trader "mint" 0, .trader "alice" 2, .holding "alice" chromium,
    .holding "alice" vanadium, .trader "bob" 2, .holding "bob" chromium, .holding "bob" vanadium]

private def aliceSellsChromium : BookCall :=
  .apply (.ok "first") ⟨"alice", some vanadium, some chromium, 100, some ⟨1, 1⟩, "", 0⟩

private def bobSellsVanadium : BookCall :=
  .apply (.ok "second") ⟨"bob", some chromium, some vanadium, 40, some ⟨1, 1⟩, "", 0⟩

private def chromiumBook : Market :=
  bobSellsVanadium.commit broker
    (aliceSellsChromium.commit broker ⟨metalAccounts, .empty _, .empty _⟩)

/-- Bob buys a part of what Alice offers, and the rest of the offer is in both buckets. -/
theorem indexes_agree_after_purchase :
    chromiumBook.exchange.values = [⟨"first", "alice", chromium, vanadium, 60, ⟨1, 1⟩, 0⟩] ∧
      ∀ offer, offer ∈ chromiumBook.exchange.values ↔ offer ∈ chromiumBook.offers.values := by
  let registry : String → String × String × String := fun offerID =>
    if offerID = "first" then ("alice", "CR", "VA") else ("bob", "VA", "CR")
  have first : aliceSellsChromium.Identified registry := by
    rintro offer offerID valid - ⟨⟩
    cases valid
    exact ⟨by decide, by decide⟩
  have second : bobSellsVanadium.Identified registry := by
    rintro offer offerID valid - ⟨⟩
    cases valid
    exact ⟨by decide, by decide⟩
  refine ⟨by decide +kernel, ?_⟩
  exact (indexes_agree broker registry
    (.tail (.single (.call aliceSellsChromium first)) (.call bobSellsVanadium second))).1

end Samples

end Ultiledger
