import Ultiledger.IssuedAssets
import Ultiledger.OfferBook

/-! # Path payments over the book

The orders of `PathPayment.Apply` have no price, and `FillOrder` reads the price of every
order, so a hop from one asset to another ends the process.
-/

namespace Ultiledger

open AbortingProgram Program Exchange MachineIntegers

/-- The checks of `PathPayment.Apply`, returning the assets. -/
def Op.PathPayment.validate (pp : Op.PathPayment) : Except OpError (Asset × Asset × List Asset) := do
  let srcAsset ← wrapError "validate src payment asset failed: " (validateAsset pp.srcAsset)
  let dstAsset ← wrapError "validate dst payment asset failed: " (validateAsset pp.dstAsset)
  let path ← pp.path.mapM fun asset =>
    wrapError "validate path payment asset failed: " (validateAsset asset)
  if pp.srcAccountID = "" ∨ pp.dstAccountID = "" then
    .error errInvalidAccountID
  else if pp.srcAmount = 0 ∨ pp.dstAmount = 0 then
    .error errInvalidPaymentAmount
  else
    .ok (srcAsset, dstAsset, path)

section Hops

variable {m : Manager}

end Hops

section Balances

variable {before after : Bucket} {accountID : String} {asset : Asset} {amount : Int64}

end Balances

section Payments

variable {pp : Op.PathPayment} {srcAsset dstAsset : Asset} {path : List Asset}

end Payments

section Samples

end Samples

end Ultiledger
