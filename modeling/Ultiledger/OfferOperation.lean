import Ultiledger.ExchangeManager

/-!
# The offer operation

`Offer.Apply` of `tx/op` places, changes or cancels an offer and fills it with the
other side first, working on the records that it has loaded at the start.  The random
id of a new offer is a parameter.
-/

namespace Ultiledger

open AbortingProgram Program Exchange

structure Op.Offer where
  accountID : String
  buyAsset : Option Asset
  sellAsset : Option Asset
  amount : Int64
  price : Option Price
  offerID : String
  passive : Int32

structure Holdings where
  acc : Account
  sellTrust : Option Trust
  buyTrust : Option Trust

def minInt64Of (x y : Int64) : Int64 := if x ≤ y then x else y

/-- `validate`, returning the offer that `Apply` builds. -/
def Op.Offer.validate (of : Op.Offer) : Except OpError Exchange.Offer := do
  let sellAsset ← wrapError "asset for selling is invalid: " (validateAsset of.sellAsset)
  let buyAsset ← wrapError "asset for buying is invalid: " (validateAsset of.buyAsset)
  if sellAsset = buyAsset then
    .error (.failed "identical asset for offer")
  else do
    let price ← deref "of.Price" of.price
    if price.numerator = 0 ∨ price.denominator = 0 then
      .error (.failed "price is invalid")
    else if of.amount = 0 ∧ of.offerID = "" then
      .error (.failed "amount of new offer is zero")
    else
      .ok ⟨of.offerID, of.accountID, sellAsset, buyAsset, of.amount, price, of.passive⟩

/-- The line of the asset that is sold, in `loadTrust`. -/
def loadSellTrust (getter : Bucket) (offer : Exchange.Offer) : Except OpError (Option Trust) :=
  if offer.sellAsset.assetType ≠ .native then do
    let line ← deref "sellTrust" (getTrust getter offer.accountID offer.sellAsset)
    if line.balance = 0 then .error (.failed "selling trust is underfund")
    else if line.authorized = 0 then .error (.failed "selling trust is not authorized")
    else .ok (some line)
  else
    .ok none

/-- The line of the asset that is bought, in `loadTrust`. -/
def loadBuyTrust (getter : Bucket) (offer : Exchange.Offer) : Except OpError (Option Trust) :=
  if offer.buyAsset.assetType ≠ .native then do
    let line ← deref "buyTrust" (getTrust getter offer.accountID offer.buyAsset)
    if line.authorized = 0 then .error (.failed "buying trust is not authorized")
    else .ok (some line)
  else
    .ok none

/-- `loadTrust`, with the account. -/
def loadHoldings (offer : Exchange.Offer) : MarketM Holdings := do
  let market ← get
  match getAccount market.accounts offer.accountID with
  | none => abort errAccountNotExist
  | some acc => wrapFault "load selling and buying trust failed: " do
      let sellTrust ← lift (loadSellTrust market.accounts offer)
      let buyTrust ← lift (loadBuyTrust market.accounts offer)
      pure ⟨acc, sellTrust, buyTrust⟩

def bumpEntryCount (am : AccountManager) (acc : Account) (count : Int32) (newOffer : Bool) :
    MarketM Account :=
  if newOffer then do
    let acc ← wrapFault "increase account entry account failed: "
      (lift (am.updateEntryCount acc count))
    wrapFault "save account failed: " (Exchange.saveAccount (some acc))
    pure acc
  else
    pure acc

/-- How much an offer could buy, in `getOfferLimits`. -/
def buyLimitOf (held : Holdings) (offer : Exchange.Offer) : Except OpError Int64 := do
  let buyLimit ←
    if offer.buyAsset.assetType = .native then getRestLimit held.acc
    else deref "buyTrust" held.buyTrust >>= getTrustRestLimit
  let bl ← wrapError "get buying liability failed: " (getLiability offer true)
  if buyLimit < bl then .error (.failed "out of buying limit") else .ok buyLimit

/-- How much an offer could sell, in `getOfferLimits`. -/
def sellLimitOf (am : AccountManager) (held : Holdings) (offer : Exchange.Offer) :
    Except OpError Int64 := do
  let sellLimit ←
    if offer.sellAsset.assetType = .native then am.getBalance held.acc
    else deref "sellTrust" held.sellTrust >>= getTrustBalance
  let sl ← wrapError "get selling liability failed: " (getLiability offer false)
  if sellLimit < sl then .error (.failed "account underfund") else .ok sellLimit

/-- `getOfferLimits`: the account after it, and the limits for selling and buying. -/
def getOfferLimits (am : AccountManager) (held : Holdings) (offer : Exchange.Offer)
    (newOffer : Bool) : MarketM (Account × Int64 × Int64) := do
  let acc ← bumpEntryCount am held.acc 1 newOffer
  let buyLimit ← lift (buyLimitOf { held with acc := acc } offer)
  let sellLimit ← lift (sellLimitOf am { held with acc := acc } offer)
  let acc ← bumpEntryCount am acc (-1) newOffer
  pure (acc, minInt64Of sellLimit offer.amount, buyLimit)

/-- The half of `updateBalances` for the asset that is bought. -/
def creditBuyAsset (held : Holdings) (offer : Exchange.Offer) (buyAssetBought : Int64) :
    MarketM Holdings :=
  if offer.buyAsset.assetType = .native then do
    let acc ← wrapFault "update account balance failed: "
      (lift (updateBalance held.acc buyAssetBought))
    wrapFault "save account failed: " (Exchange.saveAccount (some acc))
    pure { held with acc := acc }
  else do
    let line ← lift (deref "buyTrust" held.buyTrust)
    let line ← wrapFault "update trust balance failed: "
      (lift (updateTrustBalance line buyAssetBought))
    wrapFault "save trust failed: " (Exchange.saveTrust (some line))
    pure { held with buyTrust := some line }

/-- The half of `updateBalances` for the asset that is sold. -/
def debitSellAsset (held : Holdings) (offer : Exchange.Offer) (sellAssetSold : Int64) :
    MarketM Holdings :=
  if offer.sellAsset.assetType = .native then do
    let acc ← wrapFault "update account balance failed: "
      (lift (updateBalance held.acc (-sellAssetSold)))
    wrapFault "save account failed: " (Exchange.saveAccount (some acc))
    pure { held with acc := acc }
  else do
    let line ← lift (deref "sellTrust" held.sellTrust)
    let line ← wrapFault "update trust balance failed: "
      (lift (updateTrustBalance line (-sellAssetSold)))
    wrapFault "save trust failed: " (Exchange.saveTrust (some line))
    pure { held with sellTrust := some line }

/-- `updateBalances`, called if something was bought. -/
def updateBalances (held : Holdings) (offer : Exchange.Offer) (order : Exchange.Order) :
    MarketM Holdings :=
  if order.buyAssetBought > 0 then
    wrapFault "update account and trust balances failed: " do
      let held ← creditBuyAsset held offer order.buyAssetBought
      debitSellAsset held offer order.sellAssetSold
  else
    pure held

def restingAmount (am : AccountManager) (held : Holdings) (offer : Exchange.Offer)
    (sellLimit : Int64) (order : Exchange.Order) : Except OpError Int64 :=
  if order.full then
    .ok 0
  else do
    let maxToSell ← getMaxToSell am (some held.acc) held.sellTrust
    let bl ← getMaxToBuy (some held.acc) held.buyTrust
    let sl := minInt64Of (sellLimit - order.sellAssetSold) maxToSell
    let ord ← exchange offer.price ⟨sl, bl, 0, 0, false⟩ Int64.maxValue Int64.maxValue
      offer.price.reciprocal
    pure ord.sellAssetSold

def restingID (createID : Except String String) (newOffer : Bool) (offer : Exchange.Offer) :
    Except OpError String :=
  if newOffer then
    match createID with
    | .ok offerID => .ok offerID
    | .error err => .error (.failed ("create offer id failed: " ++ err))
  else
    .ok offer.offerID

def restOffer (createID : Except String String) (newOffer : Bool) (offer : Exchange.Offer) :
    MarketM Unit := do
  let offerID ← lift (restingID createID newOffer offer)
  let offer := { offer with offerID := offerID }
  wrapFault "save offer failed: " (saveOffer offer)
  wrapFault "acquire offer liability failed: " (updateOfferLiability offer true)

def orderOf (offer : Exchange.Offer) (sellLimit buyLimit : Int64) : Exchange.Order where
  maxSellAsset := sellLimit
  maxBuyAsset := buyLimit
  sellAssetSold := 0
  buyAssetBought := 0
  full := false
  accountID := offer.accountID
  sellAsset := offer.sellAsset
  buyAsset := offer.buyAsset
  price := some offer.price
  filledOffers := []
  filterPrice := true

/-- `Apply` from the limits to the amount that is left for the book.  The crossings are
returned for the record. -/
def matchOffer (m : Manager) (newOffer : Bool) (held : Holdings) (offer : Exchange.Offer) :
    MarketM (List Crossing × Int64) := do
  let (acc, sellLimit, buyLimit) ← wrapFault "get offer limits failed: "
    (getOfferLimits m.am held offer newOffer)
  if buyLimit = 0 then
    abort (.failed "offer buying limit is zero")
  else do
    let (order, crossings) ← wrapFault "fill order failed: "
      (fillOrder m (orderOf offer sellLimit buyLimit))
    let held ← updateBalances { held with acc := acc } offer order
    let amount ← lift (restingAmount m.am held offer sellLimit order)
    pure (crossings, amount)

def placeOffer (m : Manager) (createID : Except String String) (newOffer : Bool)
    (held : Holdings) (offer : Exchange.Offer) : MarketM Unit := do
  let (_, amount) ← matchOffer m newOffer held offer
  if amount > 0 then
    restOffer createID newOffer { offer with amount := amount }
  else
    pure ()

/-- Cancel an offer; the account that is saved was loaded before its liability was
released. -/
def cancelOffer (am : AccountManager) (acc : Account) (offer : Exchange.Offer) : MarketM Unit := do
  deleteOffer offer
  let acc ← wrapFault "decrease account entry account failed: "
    (lift (am.updateEntryCount acc (-1)))
  wrapFault "save account failed: " (Exchange.saveAccount (some acc))

def Op.Offer.apply (m : Manager) (createID : Except String String) (of : Op.Offer) :
    MarketM Unit := do
  let offer ← wrapFault "validate offer failed: " (lift of.validate)
  let held ← loadHoldings offer
  if offer.offerID = "" then
    if offer.amount = 0 then pure () else placeOffer m createID true held offer
  else do
    let known ← wrapFault "get offer failed: " (getOffer offer.accountID
      offer.sellAsset.assetName offer.buyAsset.assetName offer.offerID)
    match known with
    | none => abort (.failed "offer not exists")
    | some old => do
      wrapFault "release offer liability failed: " (updateOfferLiability old false)
      if offer.amount = 0 then cancelOffer m.am held.acc old
      else placeOffer m createID false held offer

end Ultiledger
