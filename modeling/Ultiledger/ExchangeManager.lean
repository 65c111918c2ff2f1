import Ultiledger.Operations
import Ultiledger.AbortingProgram
import Ultiledger.KeyedStore
import Mathlib.Algebra.Order.Ring.Unbundled.Rat

/-!
# The exchange manager

Package `exchange`: the offers in the book and the orders that are filled with them.
An offer stands in two buckets.  `Fill` works on copies that it has loaded before it
changes their liabilities, and its errors are dropped by `FillOrder`.

Orders and offers are passed by pointer, so they are part of the state.  `GetAll` and
`sort.Sort` together are some arrangement of the offers.

The crossings that `FillOrder` returns are not part of the program.  They record the
calls of `Fill`.
-/

namespace Ultiledger

namespace Exchange

open AbortingProgram Program KeyedStore

structure Price where
  numerator : Int64
  denominator : Int64
  deriving DecidableEq, Repr

def Price.reciprocal (price : Price) : Price := ⟨price.denominator, price.numerator⟩

/-- `ultpb.Offer`, as `SaveOffer` stores it: the assets and the price are there. -/
structure Offer where
  offerID : String
  accountID : String
  sellAsset : Asset
  buyAsset : Asset
  amount : Int64
  price : Price
  passive : Int32
  deriving DecidableEq, Repr

/-- What `Exchange` reads and writes of an order, its price apart. -/
structure Amounts where
  maxSellAsset : Int64
  maxBuyAsset : Int64
  sellAssetSold : Int64
  buyAssetBought : Int64
  full : Bool
  deriving DecidableEq, Repr

structure Order extends Amounts where
  accountID : String
  sellAsset : Asset
  buyAsset : Asset
  price : Option Price
  filledOffers : List Offer
  filterPrice : Bool
  deriving DecidableEq, Repr

def getOfferKey (names : List String) : List UInt8 := utf8 ("_".intercalate names)

/-- The key of an offer in the bucket `EXCHANGE`. -/
def Offer.exchangeKey (offer : Offer) : List UInt8 :=
  getOfferKey [offer.sellAsset.assetName, offer.buyAsset.assetName, offer.offerID]

/-- The key of an offer in the bucket `OFFER`. -/
def Offer.offerKey (offer : Offer) : List UInt8 := getOfferKey [offer.accountID, offer.offerID]

structure Market where
  accounts : Bucket
  exchange : Store Offer.exchangeKey
  offers : Store Offer.offerKey

/-- `Manager`, with the arrangement that it loads offers in. -/
structure Manager where
  am : AccountManager
  sort : List Offer → List Offer
  sort_perm : ∀ offers, (sort offers).Perm offers

/-- A manager that leaves the offers in the order in which it reads them. -/
def Manager.unsorted (am : AccountManager) : Manager where
  am := am
  sort := id
  sort_perm := fun _ => .refl _

abbrev MarketM (Value : Type) := Program Market OpError Value

def wrapFault {State Value : Type} (context : String) (program : Program State OpError Value) :
    Program State OpError Value :=
  program.mapFault (OpError.wrap context)

def deref {Value : Type} (what : String) : Option Value → Except OpError Value
  | none => .error (.nilDereference what)
  | some value => .ok value

theorem eq_some_of_deref {Value : Type} {what : String} {given : Option Value} {value : Value}
    (found : deref what given = .ok value) : given = some value := by
  cases given with
  | none => simp [deref] at found
  | some other => rw [Except.ok.inj found]

section Arithmetic

inductive RoundType where
  | up
  | down
  deriving DecidableEq, Repr

def multiplyInt64 (lhs rhs : Int64) : Int := lhs.toInt * rhs.toInt

/-- `DivideBigInt`: a Euclidean division whose quotient is cut to 64 bits. -/
def divideBigInt (val : Int) (divisor : Int64) (roundType : RoundType) : Except OpError Int64 :=
  if divisor = 0 then
    .error (.nilDereference "division by zero")
  else if roundType = .up ∧ 0 < val % divisor.toInt then
    .ok (Int64.ofInt (val / divisor.toInt) + 1)
  else
    .ok (Int64.ofInt (val / divisor.toInt))

def comparePrice (lhs rhs : Price) : Except OpError Ordering :=
  if lhs.denominator = 0 ∨ rhs.denominator = 0 then
    .error (.nilDereference "division by zero")
  else
    let l : Rat := lhs.numerator.toInt / lhs.denominator.toInt
    let r : Rat := rhs.numerator.toInt / rhs.denominator.toInt
    .ok (if l < r then .lt else if l = r then .eq else .gt)

def getOfferValue (maxToSell maxToBuy : Int64) (price : Price) : Int :=
  let sellValue := multiplyInt64 maxToSell price.numerator
  let buyValue := multiplyInt64 maxToBuy price.denominator
  if sellValue < buyValue then sellValue else buyValue

/-- The amounts of `SellAsset` sold and of `BuyAsset` bought that `Exchange` trades. -/
def tradedAmounts (orderValue offerValue : Int) (offerPrice : Price) :
    Except OpError (Int64 × Int64) :=
  if orderValue < offerValue then
    if offerPrice.numerator > offerPrice.denominator then do
      let buyAssetBought ← divideBigInt orderValue offerPrice.numerator .down
      let sellAssetSold ← divideBigInt (multiplyInt64 buyAssetBought offerPrice.numerator)
        offerPrice.denominator .up
      pure (sellAssetSold, buyAssetBought)
    else do
      let sellAssetSold ← divideBigInt orderValue offerPrice.denominator .down
      let buyAssetBought ← divideBigInt (multiplyInt64 sellAssetSold offerPrice.denominator)
        offerPrice.numerator .down
      pure (sellAssetSold, buyAssetBought)
  else
    if offerPrice.numerator > offerPrice.denominator then do
      let buyAssetBought ← divideBigInt offerValue offerPrice.numerator .down
      let sellAssetSold ← divideBigInt (multiplyInt64 buyAssetBought offerPrice.numerator)
        offerPrice.denominator .down
      pure (sellAssetSold, buyAssetBought)
    else do
      let sellAssetSold ← divideBigInt offerValue offerPrice.denominator .down
      let buyAssetBought ← divideBigInt (multiplyInt64 sellAssetSold offerPrice.denominator)
        offerPrice.numerator .up
      pure (sellAssetSold, buyAssetBought)

/-- `Exchange`.  No call asks for the check of numerical errors. -/
def exchange (orderPrice : Price) (order : Amounts) (maxOfferBuyAsset maxOfferSellAsset : Int64)
    (offerPrice : Price) : Except OpError Amounts := do
  let orderValue := getOfferValue order.maxSellAsset order.maxBuyAsset orderPrice
  let offerValue := getOfferValue maxOfferSellAsset maxOfferBuyAsset offerPrice
  let (sellAssetSold, buyAssetBought) ← tradedAmounts orderValue offerValue offerPrice
  let maxSellAsset := order.maxSellAsset - sellAssetSold
  let maxBuyAsset := order.maxBuyAsset - buyAssetBought
  pure
    { maxSellAsset := maxSellAsset
      maxBuyAsset := maxBuyAsset
      sellAssetSold := order.sellAssetSold + sellAssetSold
      buyAssetBought := order.buyAssetBought + buyAssetBought
      full := orderValue < offerValue ∨ maxSellAsset = 0 ∨ maxBuyAsset = 0 }

def getLiability (offer : Offer) (buying : Bool) : Except OpError Int64 := do
  let ord ← exchange offer.price ⟨offer.amount, Int64.maxValue, 0, 0, false⟩ Int64.maxValue
    Int64.maxValue offer.price.reciprocal
  pure (if buying then ord.buyAssetBought else ord.sellAssetSold)

def getMaxToSell (am : AccountManager) (acc : Option Account) (sellTrust : Option Trust) :
    Except OpError Int64 :=
  match sellTrust with
  | some line =>
    if line.authorized > 0 then getTrustBalance line
    else deref "acc" acc >>= am.getBalance
  | none => deref "acc" acc >>= am.getBalance

def getMaxToBuy (acc : Option Account) (buyTrust : Option Trust) : Except OpError Int64 :=
  match buyTrust with
  | some line => getTrustRestLimit line
  | none => deref "acc" acc >>= getRestLimit

end Arithmetic

section Buckets

def readAccounts {Value : Type} (read : Bucket → Value) : MarketM Value := do
  let market ← get
  pure (read market.accounts)

def writeAccounts (write : Bucket → Except OpError Bucket) : MarketM Unit := do
  let market ← get
  let accounts ← lift (write market.accounts)
  modify fun market => { market with accounts := accounts }

/-- `SaveAccount`; the encoder refuses a nil account. -/
def saveAccount : Option Account → MarketM Unit
  | none => abort (.failed "encode account failed: proto: Marshal called with nil")
  | some acc => writeAccounts fun putter => Ultiledger.saveAccount putter acc

def saveTrust : Option Trust → MarketM Unit
  | none => abort (.failed "encode account failed: proto: Marshal called with nil")
  | some line => writeAccounts fun putter => Ultiledger.saveTrust putter line

/-- `Put` of an offer under a key, which is never empty. -/
def putOffer (key : List UInt8) (change : Market → Market) : MarketM Unit :=
  if key.length > 32768 then abort (.failed "save offer in db failed: key too large")
  else modify change

def saveOffer (offer : Offer) : MarketM Unit := do
  putOffer offer.exchangeKey fun market =>
    { market with exchange := market.exchange.put offer }
  putOffer offer.offerKey fun market =>
    { market with offers := market.offers.put offer }

theorem saveOffer_holds (offer : Offer) (market : Market) :
    (saveOffer offer).Holds market
      (fun _ after => after.accounts = market.accounts ∧
        after.exchange = market.exchange.put offer ∧ after.offers = market.offers.put offer)
      (fun _ after => after.accounts = market.accounts) := by
  unfold saveOffer putOffer
  split_ifs <;> simp

def deleteOffer (offer : Offer) : MarketM Unit :=
  modify fun market =>
    { market with
      exchange := market.exchange.delete offer.exchangeKey
      offers := market.offers.delete offer.offerKey }

def getOffer (accountID sellAsset buyAsset offerID : String) : MarketM (Option Offer) := do
  let market ← get
  match market.offers.get (getOfferKey [accountID, offerID]) with
  | none => pure none
  | some offer =>
    if offer.offerID ≠ offerID then abort (.failed "offerID is incompatible")
    else if offer.sellAsset.assetName ≠ sellAsset then
      abort (.failed "sell asset incompatible")
    else if offer.buyAsset.assetName ≠ buyAsset then abort (.failed "buy asset incompatible")
    else pure (some offer)

def offersUnder (market : Market) (sellAsset buyAsset : String) : List Offer :=
  market.exchange.values.filter fun offer =>
    utf8 (sellAsset ++ "_" ++ buyAsset) <+: offer.exchangeKey

/-- `loadOffers`.  Sorting compares every price with another one, if there are two. -/
def loadOffers (m : Manager) (sellAsset buyAsset : String) : MarketM (List Offer) := do
  let market ← get
  let offers := offersUnder market sellAsset buyAsset
  if 2 ≤ offers.length ∧ ∃ offer ∈ offers, offer.price.denominator = 0 then
    abort (.nilDereference "division by zero")
  else
    pure (m.sort offers)

end Buckets

section Liabilities

def changeAccountLiability (context : String) (accountID : String) (amount : Int64) (buy : Bool) :
    MarketM Unit := do
  let acc ← readAccounts fun getter => getAccount getter accountID
  let acc ← wrapFault context (lift (updateLiability acc amount buy))
  wrapFault "save account failed: " (saveAccount acc)

def changeTrustLiability (accountID : String) (asset : Asset) (amount : Int64) (buy : Bool) :
    MarketM Unit := do
  let line ← readAccounts fun getter => getTrust getter accountID asset
  let line ← wrapFault "update trust buying liability failed: "
    (lift (updateTrustLiability line amount buy))
  wrapFault "save account failed: " (saveTrust line)

/-- `UpdateLiability` of the exchange.  For an issued asset the selling liability
goes to the line of the asset that is bought, as in the source. -/
def updateOfferLiability (offer : Offer) (acquire : Bool) : MarketM Unit := do
  let bl ← wrapFault "get buying liability failed: " (lift (getLiability offer true))
  let bl := if acquire then bl else -bl
  if offer.buyAsset.assetType = .native then
    changeAccountLiability "update account buying liability failed: " offer.accountID bl true
  else
    changeTrustLiability offer.accountID offer.buyAsset bl true
  let sl ← wrapFault "get selling liability failed: " (lift (getLiability offer false))
  let sl := if acquire then sl else -sl
  if offer.sellAsset.assetType = .native then
    changeAccountLiability "update account selling liability failed: " offer.accountID sl false
  else
    changeTrustLiability offer.accountID offer.buyAsset sl false

end Liabilities

section Filling

/-- An order on its way through the offers. -/
structure Matching where
  market : Market
  order : Order

structure Filling extends Matching where
  offer : Offer

abbrev FillM (Value : Type) := Program Filling OpError Value

def onMarket {Value : Type} (program : MarketM Value) : FillM Value :=
  program.zoom (fun filling => filling.market)
    fun filling market => { filling with market := market }

def tradedLine (getter : Bucket) (accountID : String) (asset : Asset) : Option Trust :=
  if asset.assetType ≠ .native then getTrust getter accountID asset else none

def exchangeOrder (maxBuyAsset maxSellAsset : Int64) (offerPrice : Price) : FillM Unit := do
  let filling ← get
  let price ← lift (deref "order.Price" filling.order.price)
  let amounts ← lift (exchange price filling.order.toAmounts maxBuyAsset maxSellAsset offerPrice)
  modify fun filling => { filling with order := { filling.order with toAmounts := amounts } }

/-- The balance of `BuyAsset` of the offer's account after the exchange. -/
def settleBuyAsset (acc : Option Account) (buyAssetTrust : Option Trust) (bought : Int64) :
    MarketM (Option Account × Option Trust) :=
  if bought = 0 then pure (acc, buyAssetTrust)
  else
    match buyAssetTrust with
    | some line => do
      let line ← wrapFault "add trust balance failed: " (lift (updateTrustBalance line bought))
      wrapFault "save trust failed: " (saveTrust (some line))
      pure (acc, some line)
    | none => do
      let acc ← lift (deref "acc" acc)
      let acc ← wrapFault "add account balance failed: " (lift (updateBalance acc bought))
      wrapFault "save account failed: " (saveAccount (some acc))
      pure (some acc, none)

/-- The balance of `SellAsset` of the offer's account after the exchange.  The line
that is saved is that of `BuyAsset`, as in the source. -/
def settleSellAsset (acc : Option Account) (buyAssetTrust sellAssetTrust : Option Trust)
    (sold : Int64) : MarketM (Option Account) :=
  if sold = 0 then pure acc
  else
    match sellAssetTrust with
    | some line => do
      let _ ← wrapFault "substract trust balance failed: "
        (lift (updateTrustBalance line (-sold)))
      wrapFault "save trust failed: " (saveTrust buyAssetTrust)
      pure acc
    | none => do
      let acc ← lift (deref "acc" acc)
      let acc ← wrapFault "substract account balance failed: "
        (lift (updateBalance acc (-sold)))
      wrapFault "save account failed: " (saveAccount (some acc))
      pure (some acc)

def finishOffer (am : AccountManager) (acc : Option Account) (offer : Offer) : MarketM Unit :=
  if offer.amount = 0 then do
    deleteOffer offer
    let acc ← lift (deref "acc" acc)
    let acc ← wrapFault "update entry count failed: " (lift (am.updateEntryCount acc (-1)))
    wrapFault "save account failed: " (saveAccount (some acc))
  else do
    wrapFault "save offer failed: " (saveOffer offer)
    wrapFault "acquire liability failed: " (updateOfferLiability offer true)

def Offer.filledBy (offer : Offer) (order : Order) : Offer :=
  { offer with amount := if order.full then offer.amount - order.buyAssetBought else 0 }

/-- `Fill` after the exchange. -/
def settleOffer (am : AccountManager) (acc : Option Account)
    (buyAssetTrust sellAssetTrust : Option Trust) (offer : Offer) : FillM Unit := do
  let exchanged ← get
  let order := exchanged.order
  let (acc, buyAssetTrust) ←
    onMarket (settleBuyAsset acc buyAssetTrust order.buyAssetBought)
  let acc ← onMarket (settleSellAsset acc buyAssetTrust sellAssetTrust order.sellAssetSold)
  modify fun filling => { filling with offer := offer.filledBy order }
  onMarket (finishOffer am acc (offer.filledBy order))

def fill (am : AccountManager) : FillM Unit := do
  let start ← get
  let offer := start.offer
  let acc := getAccount start.market.accounts offer.accountID
  let buyAssetTrust := tradedLine start.market.accounts offer.accountID offer.sellAsset
  let sellAssetTrust := tradedLine start.market.accounts offer.accountID offer.buyAsset
  wrapFault "release liability failed: " (onMarket (updateOfferLiability offer false))
  let maxBuyAsset ← lift (getMaxToSell am acc buyAssetTrust)
  let maxSellAsset ← lift (getMaxToBuy acc sellAssetTrust)
  exchangeOrder maxBuyAsset maxSellAsset offer.price
  settleOffer am acc buyAssetTrust sellAssetTrust offer

/-- A call of `Fill`, with the states before and after it and its error. -/
structure Crossing where
  before : Filling
  after : Filling
  error : Option String

/-- `Fill` as `FillOrder` calls it: errors are dropped, panics are not. -/
def cross (am : AccountManager) (offer : Offer) : Program Matching OpError Crossing :=
  fun matching =>
    let before : Filling := { matching with offer := offer }
    match fill am before with
    | .done () after => .done ⟨before, after, none⟩ after.toMatching
    | .abort (.failed message) after => .done ⟨before, after, some message⟩ after.toMatching
    | .abort (.nilDereference what) after => .abort (.nilDereference what) after.toMatching

/-- Whether the loop of `FillOrder` stops at an offer: it is too expensive, or one's
own. -/
def stopsAt (order : Order) (threshold : Price) (offer : Offer) : Except OpError Bool :=
  if order.filterPrice then do
    let cmp ← comparePrice threshold offer.price
    pure (cmp = .lt ∨ offer.accountID = order.accountID)
  else
    pure (offer.accountID = order.accountID)

/-- The loop of `FillOrder`. -/
def fillOffers (am : AccountManager) (threshold : Price) :
    List Offer → Program Matching OpError (List Crossing)
  | [] => pure []
  | offer :: rest => do
    let matching ← get
    let stops ← lift (stopsAt matching.order threshold offer)
    if stops then pure []
    else do
      let crossing ← cross am offer
      if crossing.after.order.full then pure [crossing]
      else do
        modify fun matching => { matching with order := { matching.order with
          filledOffers := matching.order.filledOffers ++ [crossing.after.offer] } }
        let crossings ← fillOffers am threshold rest
        pure (crossing :: crossings)

def fillLoaded (am : AccountManager) (o : Order) (price : Price) (offers : List Offer) :
    MarketM (Order × List Crossing) := fun market =>
  match fillOffers am price.reciprocal offers ⟨market, o⟩ with
  | .done crossings matching => .done (matching.order, crossings) matching.market
  | .abort fault matching => .abort fault matching.market

def fillOrder (m : Manager) (o : Order) : MarketM (Order × List Crossing) := do
  let offers ← wrapFault "load offers failed: "
    (loadOffers m o.buyAsset.assetName o.sellAsset.assetName)
  let price ← lift (deref "o.Price" o.price)
  fillLoaded m.am o price offers

end Filling

end Exchange

end Ultiledger
