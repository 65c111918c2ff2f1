import Ultiledger.ExchangeManager

/-! # Which offers an order crosses

The issuers are not part of the key of an offer, and nothing marks where the second name
ends.
-/

namespace Ultiledger

namespace Exchange

open AbortingProgram Program KeyedStore

section Keys

theorem utf8_append (first second : String) : utf8 (first ++ second) = utf8 first ++ utf8 second := by
  unfold utf8
  simp [String.toUTF8]

def separator : UInt8 := 95

theorem utf8_underscore : utf8 "_" = [separator] := by decide +kernel

theorem exchangeKey_eq (offer : Offer) :
    offer.exchangeKey = utf8 offer.sellAsset.assetName ++ separator ::
      (utf8 offer.buyAsset.assetName ++ separator :: utf8 offer.offerID) := by
  have joined : "_".intercalate
      [offer.sellAsset.assetName, offer.buyAsset.assetName, offer.offerID] =
      offer.sellAsset.assetName ++ "_" ++ offer.buyAsset.assetName ++ "_" ++ offer.offerID := rfl
  unfold Offer.exchangeKey getOfferKey
  rw [joined]
  simp only [utf8_append, utf8_underscore, List.append_assoc, List.cons_append, List.nil_append]

theorem pairPrefix_eq (sellAsset buyAsset : String) :
    utf8 (sellAsset ++ "_" ++ buyAsset) = utf8 sellAsset ++ separator :: utf8 buyAsset := by
  simp only [utf8_append, utf8_underscore, List.append_assoc, List.singleton_append]

end Keys

/-- No name of an asset begins with the name of another one. -/
def PrefixFree (used : Set Asset) : Prop :=
  ∀ first ∈ used, ∀ second ∈ used,
    utf8 first.assetName <+: utf8 second.assetName → first = second

theorem PrefixFree.assets_eq {used : Set Asset} (free : PrefixFree used) {offer : Offer}
    {sellAsset buyAsset : Asset} (sells : offer.sellAsset ∈ used) (buys : offer.buyAsset ∈ used)
    (sellUsed : sellAsset ∈ used) (buyUsed : buyAsset ∈ used)
    (found : utf8 (sellAsset.assetName ++ "_" ++ buyAsset.assetName) <+: offer.exchangeKey) :
    offer.sellAsset = sellAsset ∧ offer.buyAsset = buyAsset := by
  have comparable : ∀ first ∈ used, ∀ second ∈ used, ∀ whole,
      utf8 first.assetName <+: whole → utf8 second.assetName <+: whole → second = first := by
    intro first firstUsed second secondUsed whole firstPrefix secondPrefix
    rcases List.prefix_or_prefix_of_prefix firstPrefix secondPrefix with within | within
    · exact (free first firstUsed second secondUsed within).symm
    · exact free second secondUsed first firstUsed within
  rw [pairPrefix_eq, exchangeKey_eq] at found
  have sameSell : offer.sellAsset = sellAsset :=
    comparable sellAsset sellUsed offer.sellAsset sells _
      ((List.prefix_append _ _).trans found) (List.prefix_append _ _)
  rw [sameSell, List.prefix_append_right_inj, List.cons_prefix_cons] at found
  exact ⟨sameSell, comparable buyAsset buyUsed offer.buyAsset buys _ found.2
    (List.prefix_append _ _)⟩

inductive SavedBook (used : Set Asset) : Market → Prop where
  | start (accounts : Bucket) : SavedBook used ⟨accounts, .empty _, .empty _⟩
  | save (offer : Offer) (before after : Market) (saved : SavedBook used before)
      (sells : offer.sellAsset ∈ used) (buys : offer.buyAsset ∈ used)
      (done : saveOffer offer before = .done () after) : SavedBook used after

variable (asset : Asset) {first : Asset} (m : Manager) {second : Asset} {order : Order}
  {market : Market}

theorem SavedBook.used {used : Set Asset} (saved : SavedBook used market) :
    ∀ offer ∈ market.exchange.values, offer.sellAsset ∈ used ∧ offer.buyAsset ∈ used := by
  induction saved with
  | start accounts => simp [Store.empty]
  | save offer before after saved sells buys done ih =>
    obtain ⟨-, exchange, -⟩ := (holds_of_done done).mp (saveOffer_holds offer before)
    intro other otherMem
    rw [exchange, Store.mem_put] at otherMem
    rcases otherMem with rfl | ⟨earlier, -⟩
    · exact ⟨sells, buys⟩
    · exact ih other earlier

section Loop

/-- The crossing is a call of `Fill` that has returned. -/
inductive Crossing.Called (am : AccountManager) (crossing : Crossing) : Prop
  | done (filled : fill am crossing.before = .done () crossing.after)
      (success : crossing.error = none)
  | failed (message : String)
      (filled : fill am crossing.before = .abort (.failed message) crossing.after)
      (failure : crossing.error = some message)

theorem Crossing.Called.ends {am : AccountManager} {crossing : Crossing}
    (called : crossing.Called am) {property : Filling → Prop}
    (holds : (fill am).Holds crossing.before (fun _ => property) (fun _ => property)) :
    property crossing.after := by
  have ends := holds.atEnd
  cases called with
  | done filled _ =>
    rw [filled] at ends
    exact ends
  | failed message filled _ =>
    rw [filled] at ends
    exact ends

def Crossing.next (crossing : Crossing) : Matching :=
  { crossing.after with order := { crossing.after.order with
      filledOffers := crossing.after.order.filledOffers ++ [crossing.after.offer] } }

/-- The calls of `Fill` that lead from one state of the order to another one, none of them
with an offer of one's own. -/
inductive Crossings (am : AccountManager) :
    List Offer → Matching → List Crossing → Matching → Prop
  | stop (offers : List Offer) (matching : Matching) : Crossings am offers matching [] matching
  | last (rest : List Offer) (crossing : Crossing) (called : crossing.Called am)
      (apart : crossing.before.offer.accountID ≠ crossing.before.order.accountID)
      (full : crossing.after.order.full = true) :
      Crossings am (crossing.before.offer :: rest) crossing.before.toMatching [crossing]
        crossing.after.toMatching
  | step (rest : List Offer) (crossing : Crossing) (crossings : List Crossing) (final : Matching)
      (called : crossing.Called am)
      (apart : crossing.before.offer.accountID ≠ crossing.before.order.accountID)
      (later : Crossings am rest crossing.next crossings final) :
      Crossings am (crossing.before.offer :: rest) crossing.before.toMatching
        (crossing :: crossings) final

theorem apart_of_stopsAt {order : Order} {threshold : Price} {offer : Offer} {stops : Bool}
    (checked : stopsAt order threshold offer = .ok stops) (passed : ¬ stops = true) :
    offer.accountID ≠ order.accountID := by
  intro own
  apply passed
  unfold stopsAt at checked
  split_ifs at checked
  · obtain ⟨cmp, -, checked⟩ := bind_eq_ok.mp checked
    rw [← Except.ok.inj checked]
    exact decide_eq_true (.inr own)
  · rw [← Except.ok.inj checked]
    exact decide_eq_true own

theorem cross_holds (am : AccountManager) (offer : Offer) (matching : Matching) :
    (cross am offer).Holds matching
      (fun crossing after => crossing.before = { matching with offer := offer } ∧
        crossing.Called am ∧ after = crossing.after.toMatching)
      (fun _ _ => True) := by
  unfold Holds cross
  dsimp only
  cases ended : fill am { matching with offer := offer } with
  | done value after => exact ⟨rfl, .done ended rfl, rfl⟩
  | abort fault after =>
    cases fault with
    | failed message => exact ⟨rfl, .failed message ended rfl, rfl⟩
    | nilDereference what => trivial

theorem fillOffers_crossings (am : AccountManager) (threshold : Price) (offers : List Offer)
    (matching : Matching) :
    (fillOffers am threshold offers).Holds matching
      (fun crossings final => Crossings am offers matching crossings final)
      (fun _ _ => True) := by
  induction offers generalizing matching with
  | nil => exact .stop [] matching
  | cons offer rest ih =>
    rw [fillOffers, holds_bind, holds_get, holds_bind]
    refine holds_lift (fun stops checked => ?_) (fun _ _ => trivial)
    split
    case isTrue => exact .stop _ matching
    case isFalse passed =>
      have apart := apart_of_stopsAt checked passed
      rw [holds_bind]
      refine (cross_holds am offer matching).imp ?_
      rintro crossing after ⟨before, called, rfl⟩
      obtain rfl : crossing.before.toMatching = matching := by rw [before]
      obtain rfl : crossing.before.offer = offer := by rw [before]
      split
      case isTrue full => exact .last rest crossing called apart full
      case isFalse =>
        rw [holds_bind, holds_modify, holds_bind]
        refine (ih crossing.next).imp ?_
        intro crossings final later
        exact .step rest crossing crossings final called apart later

theorem Crossings.mem {am : AccountManager} {offers : List Offer} {matching final : Matching}
    {crossings : List Crossing} (run : Crossings am offers matching crossings final) :
    ∀ crossing ∈ crossings, crossing.before.offer ∈ offers := by
  induction run with
  | stop offers matching => simp
  | last rest crossing called apart full => simp
  | step rest crossing crossings final called apart later ih =>
    intro other otherMem
    rcases List.mem_cons.mp otherMem with rfl | tail
    · exact .head _
    · exact .tail _ (ih other tail)

end Loop

/-- `FillOrder` is its loop over the arranged offers, unless it panics before. -/
theorem holds_fillOrder {m : Manager} {post : Order × List Crossing → Market → Prop}
    {onAbort : OpError → Market → Prop} (panics : ∀ what, order.price = none ∨
      2 ≤ (offersUnder market order.buyAsset.assetName order.sellAsset.assetName).length →
      onAbort (.nilDereference what) market) (loop : ∀ price, order.price = some price →
      (fillOffers m.am price.reciprocal
        (m.sort (offersUnder market order.buyAsset.assetName order.sellAsset.assetName))).Holds
        ⟨market, order⟩
        (fun crossings matching => post (matching.order, crossings) matching.market)
        (fun fault matching => onAbort fault matching.market)) :
    (fillOrder m order).Holds market post onAbort := by
  rw [fillOrder, holds_bind, wrapFault, holds_mapFault, loadOffers, holds_bind, holds_get]
  dsimp only
  split
  case isTrue unsorted => exact panics _ (.inr unsorted.1)
  case isFalse =>
    rw [holds_pure, holds_bind]
    cases priced : order.price with
    | none => exact panics _ (.inl priced)
    | some price =>
      have looped := loop price priced
      rw [deref, holds_lift_ok]
      unfold Holds fillLoaded at *
      cases ended : fillOffers m.am price.reciprocal
        (m.sort (offersUnder market order.buyAsset.assetName order.sellAsset.assetName))
        ⟨market, order⟩ with
      | done crossings matching =>
        rw [ended] at looped
        exact looped
      | abort fault matching =>
        rw [ended] at looped
        exact looped

theorem fillOrder_crossings (order : Order) (market : Market) :
    (fillOrder m order).Holds market
      (fun result after => Crossings m.am
        (m.sort (offersUnder market order.buyAsset.assetName order.sellAsset.assetName))
        ⟨market, order⟩ result.2 ⟨after, result.1⟩)
      (fun _ _ => True) :=
  holds_fillOrder (fun _ _ => trivial) fun price _ =>
    fillOffers_crossings m.am price.reciprocal _ ⟨market, order⟩

theorem fillOrder_crosses (order : Order) (market : Market) :
    (fillOrder m order).Holds market
      (fun result _ => ∀ crossing ∈ result.2,
        crossing.before.offer ∈
          offersUnder market order.buyAsset.assetName order.sellAsset.assetName)
      (fun _ _ => True) := by
  refine (fillOrder_crossings m order market).imp ?_
  intro result after run crossing crossingMem
  exact (m.sort_perm _).mem_iff.mp (run.mem crossing crossingMem)

/-- The order crosses only offers that sell what it buys and buy what it sells. -/
def CrossesMatching (m : Manager) (order : Order) (market : Market) : Prop :=
  (fillOrder m order).Holds market
    (fun result _ => ∀ crossing ∈ result.2,
      crossing.before.offer.sellAsset = order.buyAsset ∧
        crossing.before.offer.buyAsset = order.sellAsset)
    (fun _ _ => True)

theorem crossesMatching_of_prefixFree {used : Set Asset} (free : PrefixFree used) (m : Manager)
    (saved : SavedBook used market) (sells : order.sellAsset ∈ used) (buys : order.buyAsset ∈ used)
    : CrossesMatching m order market := by
  refine (fillOrder_crosses m order market).imp ?_
  intro result after found crossing crossingMem
  obtain ⟨inBook, named⟩ := List.mem_filter.mp (found crossing crossingMem)
  obtain ⟨offerSells, offerBuys⟩ := saved.used _ inBook
  exact free.assets_eq offerSells offerBuys buys sells (by simpa using named)

section Clash

variable {offer : Offer} (idle : ∀ buying, getLiability offer buying = .ok 0)
  (holder : offer.accountID ≠ offer.buyAsset.issuer)

include idle holder

/-- Without accounts the liability of an offer cannot be released, even if it has
none. -/
theorem updateOfferLiability_of_nobody {market : Market} (nobody : market.accounts = Bucket.empty) :
    (updateOfferLiability offer false).Holds market (fun _ _ => False)
      (fun fault final => (∃ message, fault = .failed message) ∧ final = market) := by
  have noRecord : ∀ key, market.accounts.get key = none := by
    intro key
    rw [nobody]
    rfl
  have noAccount : getAccount market.accounts offer.accountID = none := by
    rw [getAccount, noRecord]
    rfl
  have noLine : getTrust market.accounts offer.accountID offer.buyAsset = none := by
    rw [getTrust, if_neg holder, noRecord]
    rfl
  rw [updateOfferLiability, idle, wrapFault, holds_bind, holds_mapFault, holds_lift_ok]
  dsimp only
  split
  · rw [changeAccountLiability, readAccounts]
    simp only [holds_bind, holds_get, holds_pure]
    rw [noAccount, updateLiability]
    simp [wrapFault, saveAccount, OpError.wrap]
  · rw [changeTrustLiability, readAccounts]
    simp only [holds_bind, holds_get, holds_pure]
    rw [noLine, updateTrustLiability]
    simp [wrapFault, saveTrust, OpError.wrap]

theorem fill_of_nobody (am : AccountManager) {matching : Matching}
    (nobody : matching.market.accounts = Bucket.empty) :
    (fill am).Holds { matching with offer := offer } (fun _ _ => False)
      (fun fault final => (∃ message, fault = .failed message) ∧
        final = { matching with offer := offer }) := by
  rw [fill, holds_bind, holds_get]
  rw [holds_bind, wrapFault, holds_mapFault, onMarket, holds_zoom]
  refine (updateOfferLiability_of_nobody idle holder nobody).mono (fun _ _ never => never.elim) ?_
  rintro fault final ⟨⟨message, rfl⟩, rfl⟩
  exact ⟨⟨_, rfl⟩, rfl⟩

theorem fillOffers_of_nobody (am : AccountManager) (threshold : Price) (matching : Matching)
    (nobody : matching.market.accounts = Bucket.empty)
    (unfiltered : matching.order.filterPrice = false) (notFull : matching.order.full = false)
    (other : offer.accountID ≠ matching.order.accountID) :
    (fillOffers am threshold [offer]).Holds matching
      (fun crossings _ => ∃ crossing ∈ crossings, crossing.before.offer = offer)
      (fun _ _ => False) := by
  have goesOn : stopsAt matching.order threshold offer = .ok false := by
    simp [stopsAt, unfiltered, other, pure, Except.pure]
  have crossed : (cross am offer).Holds matching
      (fun crossing _ => crossing.before.offer = offer ∧ crossing.after.order.full = false)
      (fun _ _ => False) := by
    have filled := fill_of_nobody idle holder am nobody
    unfold Holds cross at *
    dsimp only at *
    cases ended : fill am { matching with offer := offer } with
    | done _ after =>
      rw [ended] at filled
      exact filled.elim
    | abort fault after =>
      rw [ended] at filled
      obtain ⟨⟨message, rfl⟩, rfl⟩ := filled
      exact ⟨rfl, notFull⟩
  rw [fillOffers, holds_bind, holds_get, goesOn, holds_bind, holds_lift_ok, if_neg (by simp),
    holds_bind]
  refine crossed.imp ?_
  rintro crossing after ⟨same, unfilled⟩
  rw [if_neg (by simp [unfilled])]
  exact ⟨crossing, by simp, same⟩

end Clash

def nonIssuer (asset : Asset) : String := if asset.issuer = "a" then "b" else "a"

def emptyOffer (asset : Asset) : Offer :=
  ⟨"", nonIssuer asset, asset, asset, 0, ⟨1, 1⟩, 0⟩

def anyOrder (sellAsset buyAsset : Asset) : Order where
  maxSellAsset := 0
  maxBuyAsset := 0
  sellAssetSold := 0
  buyAssetBought := 0
  full := false
  accountID := ""
  sellAsset := sellAsset
  buyAsset := buyAsset
  price := some ⟨1, 1⟩
  filledOffers := []
  filterPrice := false

theorem nonIssuer_ne : nonIssuer asset ≠ asset.issuer := by
  unfold nonIssuer
  split_ifs with same
  · rw [same]
    decide
  · exact fun equal => same equal.symm

theorem nonIssuer_size : (nonIssuer asset).utf8ByteSize = 1 := by
  unfold nonIssuer
  split_ifs <;> rfl

theorem getLiability_emptyOffer (buying : Bool) :
    getLiability (emptyOffer asset) buying = .ok 0 := by
  change (exchange ⟨1, 1⟩ ⟨0, Int64.maxValue, 0, 0, false⟩ Int64.maxValue Int64.maxValue
    ⟨1, 1⟩ >>= _) = _
  cases buying <;> rfl

theorem length_utf8 (text : String) : (utf8 text).length = text.utf8ByteSize := by
  simp [utf8]

def emptyMarket (asset : Asset) : Market :=
  ⟨Bucket.empty, (Store.empty _).put (emptyOffer asset), (Store.empty _).put (emptyOffer asset)⟩

theorem savedBook_emptyMarket {used : Set Asset} {asset : Asset} (inUse : asset ∈ used)
    (room : asset.assetName.utf8ByteSize ≤ 16000) : SavedBook used (emptyMarket asset) := by
  have exchangeFits : ¬ (emptyOffer asset).exchangeKey.length > 32768 := by
    simp only [exchangeKey_eq, List.length_append, List.length_cons, length_utf8]
    change ¬ asset.assetName.utf8ByteSize + (asset.assetName.utf8ByteSize + (0 + 1) + 1) > _
    omega
  have offerFits : ¬ (emptyOffer asset).offerKey.length > 32768 := by
    have joined : (emptyOffer asset).offerKey = utf8 (nonIssuer asset ++ "_" ++ "") := rfl
    rw [joined, length_utf8, String.utf8ByteSize_append, String.utf8ByteSize_append,
      nonIssuer_size]
    decide
  refine .save (emptyOffer asset) _ _ (.start Bucket.empty) inUse inUse ?_
  unfold saveOffer putOffer
  rw [if_neg exchangeFits, if_neg offerFits]
  rfl

/-- An order for the asset finds the offer, if the name of what it sells begins the
name of the asset. -/
theorem offersUnder_emptyMarket (begins : utf8 first.assetName <+: utf8 second.assetName) :
    offersUnder (emptyMarket second) second.assetName first.assetName = [emptyOffer second] := by
  have named : utf8 (second.assetName ++ "_" ++ first.assetName) <+:
      (emptyOffer second).exchangeKey := by
    rw [pairPrefix_eq, exchangeKey_eq]
    exact (List.prefix_append_right_inj _).mpr (List.cons_prefix_cons.mpr
      ⟨rfl, begins.trans (List.prefix_append _ _)⟩)
  change List.filter _ [emptyOffer second] = _
  rw [List.filter_cons_of_pos (by simpa using named), List.filter_nil]

theorem fillOrder_emptyMarket (begins : utf8 first.assetName <+: utf8 second.assetName) :
    (fillOrder m (anyOrder first second)).Holds (emptyMarket second)
      (fun result _ => ∃ crossing ∈ result.2, crossing.before.offer = emptyOffer second)
      (fun _ _ => False) := by
  have found := offersUnder_emptyMarket begins
  have sorted : m.sort [emptyOffer second] = [emptyOffer second] :=
    List.perm_singleton.mp (m.sort_perm _)
  have other : nonIssuer second ≠ "" := by
    unfold nonIssuer
    split_ifs <;> decide
  refine holds_fillOrder ?_ fun price _ => ?_
  · rintro what (unpriced | two)
    · exact absurd unpriced (by simp [anyOrder])
    · have one : 2 ≤ [emptyOffer second].length := found ▸ two
      simp at one
  · have looped := fillOffers_of_nobody (getLiability_emptyOffer second) (nonIssuer_ne second) m.am
      price.reciprocal ⟨emptyMarket second, anyOrder first second⟩ rfl rfl rfl other
    change (fillOffers m.am price.reciprocal (m.sort (offersUnder (emptyMarket second)
      second.assetName first.assetName))).Holds _ _ _
    rw [found, sorted]
    exact looped

/-- For assets whose names leave room in a key, the orders over every book that was
saved cross only matching offers if and only if the names are prefix free. -/
theorem crossesMatching_iff (m : Manager) (used : Set Asset)
    (room : ∀ asset ∈ used, asset.assetName.utf8ByteSize ≤ 16000) :
    (∀ market order, SavedBook used market → order.sellAsset ∈ used → order.buyAsset ∈ used →
      CrossesMatching m order market) ↔ PrefixFree used := by
  constructor
  · intro always first firstUsed second secondUsed begins
    have matched := always (emptyMarket second) (anyOrder first second)
      (savedBook_emptyMarket secondUsed (room second secondUsed)) firstUsed secondUsed
    have crossed := fillOrder_emptyMarket m begins
    obtain ⟨result, after, ended, crossing, crossingMem, same⟩ := crossed.exists_done
    have agrees := (holds_of_done ended).mp matched crossing crossingMem
    rw [same] at agrees
    exact agrees.2.symm
  · exact fun free market order saved sells buys =>
      crossesMatching_of_prefixFree free m saved sells buys

section Samples

private def dollar : Asset := ⟨.custom, "USD", "bank"⟩
private def euro : Asset := ⟨.custom, "EUR", "bank"⟩
private def forgedDollar : Asset := ⟨.custom, "USD", "forger"⟩
private def dollarBond : Asset := ⟨.custom, "USDB", "bank"⟩

private def unsorted : Manager := .unsorted ⟨100⟩

private def bobsOffer (sellAsset buyAsset : Asset) : Offer :=
  ⟨"1", "bob", sellAsset, buyAsset, 100, ⟨1, 1⟩, 0⟩

private def bobsLines (sellAsset buyAsset : Asset) : Bucket :=
  .ofRecords [.account ⟨"bob", 1000000, "bank", 2, 3, some ⟨0, 0⟩⟩, .holding "bob" sellAsset,
    .trust ⟨"bob", some buyAsset, 1000, 10000, some ⟨100, 100⟩, 1⟩]

private def saveBobsOffer (sellAsset buyAsset : Asset) : Outcome Market OpError Unit :=
  saveOffer (bobsOffer sellAsset buyAsset) ⟨bobsLines sellAsset buyAsset, .empty _, .empty _⟩

private theorem bobsBook {used : Set Asset} {sellAsset buyAsset : Asset} (sells : sellAsset ∈ used)
    (buys : buyAsset ∈ used) (ends : (saveBobsOffer sellAsset buyAsset).isDone = true) :
    SavedBook used (saveBobsOffer sellAsset buyAsset).state :=
  .save _ _ _ (.start _) sells buys (Outcome.eq_done ends)

private def alicesOrder (sellAsset buyAsset : Asset) : Order where
  maxSellAsset := 10
  maxBuyAsset := 1000
  sellAssetSold := 0
  buyAssetBought := 0
  full := false
  accountID := "alice"
  sellAsset := sellAsset
  buyAsset := buyAsset
  price := some ⟨1, 1⟩
  filledOffers := []
  filterPrice := true

/-- The names of dollars and euros are prefix free. -/
theorem crossesMatching_dollar_euro :
    PrefixFree {dollar, euro} ∧
      CrossesMatching unsorted (alicesOrder euro dollar) (saveBobsOffer dollar euro).state := by
  have free : PrefixFree {dollar, euro} := by
    simp only [PrefixFree, Set.mem_insert_iff, Set.mem_singleton_iff]
    rintro first (rfl | rfl) second (rfl | rfl) <;> decide +kernel
  refine ⟨free, (crossesMatching_iff unsorted {dollar, euro} ?_).mpr free _ _
    (bobsBook (by simp) (by simp) (by decide +kernel)) (by simp [alicesOrder])
    (by simp [alicesOrder])⟩
  simp only [Set.mem_insert_iff, Set.mem_singleton_iff]
  rintro asset (rfl | rfl) <;> decide +kernel

/-- Alice buys dollars and gets forged ones, or sells dollars to somebody who buys
bonds. -/
theorem fillOrder_crosses_other_assets :
    (SavedBook {dollar, euro, forgedDollar} (saveBobsOffer forgedDollar euro).state ∧
      (fillOrder unsorted (alicesOrder euro dollar)).Holds (saveBobsOffer forgedDollar euro).state
        (fun result _ => result.1.buyAssetBought = 10 ∧
          result.2.map (fun crossing => (crossing.before.offer, crossing.error)) =
            [(bobsOffer forgedDollar euro, none)])
        (fun _ _ => False)) ∧
    (SavedBook {dollar, euro, dollarBond} (saveBobsOffer euro dollarBond).state ∧
      (fillOrder unsorted (alicesOrder dollar euro)).Holds (saveBobsOffer euro dollarBond).state
        (fun result _ => result.1.sellAssetSold = 10 ∧
          result.2.map (fun crossing => (crossing.before.offer, crossing.error)) =
            [(bobsOffer euro dollarBond, none)])
        (fun _ _ => False)) := by
  refine ⟨⟨bobsBook (by simp) (by simp) (by decide +kernel), ?_⟩,
    ⟨bobsBook (by simp) (by simp) (by decide +kernel), ?_⟩⟩
  · decide +kernel
  · decide +kernel

end Samples

end Exchange

end Ultiledger
