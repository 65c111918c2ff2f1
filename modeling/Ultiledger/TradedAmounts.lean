import Ultiledger.ExchangeManager
import Mathlib.Algebra.Order.Ring.Int

/-! # The amounts that an exchange trades

The value of an order is scaled with its own price, and turned into amounts with the
price of the offer.
-/

namespace Ultiledger

namespace Exchange

open MachineIntegers

/-- A quotient of `DivideBigInt` before it is cut to 64 bits. -/
def exactQuotient (val divisor : Int) : RoundType → Int
  | .down => val / divisor
  | .up => if 0 < val % divisor then val / divisor + 1 else val / divisor

section Rounding

variable {val divisor : Int} (positive : 0 < divisor)

include positive

theorem exactQuotient_down :
    exactQuotient val divisor .down * divisor ≤ val ∧
      val < exactQuotient val divisor .down * divisor + divisor := by
  have upper := Int.lt_ediv_add_one_mul_self val positive
  rw [add_mul, one_mul] at upper
  exact ⟨Int.ediv_mul_le val positive.ne', upper⟩

theorem exactQuotient_up :
    val ≤ exactQuotient val divisor .up * divisor ∧
      exactQuotient val divisor .up * divisor < val + divisor := by
  have split := Int.mul_ediv_add_emod val divisor
  have small := Int.emod_lt_of_pos val positive
  have notNegative := Int.emod_nonneg val positive.ne'
  rw [mul_comm] at split
  simp only [exactQuotient]
  split_ifs with rest
  · rw [add_mul]
    omega
  · omega

theorem exactQuotient_nonneg (notNegative : 0 ≤ val) (roundType : RoundType) :
    0 ≤ exactQuotient val divisor roundType := by
  have quotient := Int.ediv_nonneg notNegative positive.le
  cases roundType with
  | down => exact quotient
  | up =>
    simp only [exactQuotient]
    split_ifs <;> omega

theorem exactQuotient_le {bound : Int} (below : val ≤ bound * divisor) (roundType : RoundType) :
    exactQuotient val divisor roundType ≤ bound := by
  have scaled : exactQuotient val divisor roundType * divisor < (bound + 1) * divisor := by
    rw [add_mul, one_mul]
    cases roundType with
    | down => exact (exactQuotient_down positive).1.trans_lt (by omega)
    | up => exact (exactQuotient_up positive).2.trans_le (Int.add_le_add_right below divisor)
  exact Int.lt_add_one_iff.mp (Int.lt_of_mul_lt_mul_right scaled positive.le)

/-- A factor above the divisor makes a quotient exceed a number that is not below it. -/
theorem lt_exactQuotient {factor bound : Int} (larger : divisor < factor) (above : divisor ≤ bound)
    (roundType : RoundType) : bound < exactQuotient (bound * factor) divisor roundType := by
  have room : (bound + 1) * divisor ≤ bound * factor := by
    have scaled := Int.mul_le_mul_of_nonneg_left (Int.add_one_le_of_lt larger)
      (positive.le.trans above)
    rw [mul_add] at scaled
    rw [add_mul]
    omega
  have quotient : bound + 1 ≤ bound * factor / divisor := (Int.le_ediv_iff_mul_le positive).mpr room
  cases roundType with
  | down => exact quotient
  | up =>
    simp only [exactQuotient]
    split_ifs <;> omega

end Rounding

theorem divideBigInt_exact {val : Int} {divisor bound : Int64} (positive : 0 < divisor.toInt)
    (notNegative : 0 ≤ val) (below : val ≤ bound.toInt * divisor.toInt) (roundType : RoundType) :
    ∃ quotient : Int64, divideBigInt val divisor roundType = .ok quotient ∧
      quotient.toInt = exactQuotient val divisor.toInt roundType ∧ 0 ≤ quotient.toInt ∧
        quotient.toInt ≤ bound.toInt := by
  have nonzero : divisor ≠ 0 := by
    rintro rfl
    exact lt_irrefl _ positive
  have lower := exactQuotient_nonneg positive notNegative
  have upper : ∀ direction, exactQuotient val divisor.toInt direction ≤ bound.toInt :=
    exactQuotient_le positive below
  have largest := le_maxInt64 bound
  have cut : (Int64.ofInt (val / divisor.toInt)).toInt = val / divisor.toInt := by
    have fits : val / divisor.toInt ≤ bound.toInt := upper .down
    have above : 0 ≤ val / divisor.toInt := lower .down
    unfold maxInt64 at largest
    exact Int64.toInt_ofInt_of_le (by omega) (by omega)
  have exact : ∃ quotient : Int64, divideBigInt val divisor roundType = .ok quotient ∧
      quotient.toInt = exactQuotient val divisor.toInt roundType := by
    unfold divideBigInt
    rw [if_neg nonzero]
    cases roundType with
    | down => exact ⟨_, by simp, cut⟩
    | up =>
      have fits := upper .up
      have above := lower .up
      simp only [exactQuotient] at fits above ⊢
      by_cases rest : 0 < val % divisor.toInt
      · rw [if_pos rest] at fits above ⊢
        refine ⟨Int64.ofInt (val / divisor.toInt) + 1, by simp [rest], ?_⟩
        have one : (1 : Int64).toInt = 1 := rfl
        rw [toInt_add_of_fits, cut, one]
        · unfold minInt64
          omega
        · omega
      · rw [if_neg rest]
        exact ⟨Int64.ofInt (val / divisor.toInt), by simp [rest], cut⟩
  obtain ⟨quotient, divides, same⟩ := exact
  refine ⟨quotient, divides, same, ?_, ?_⟩
  · rw [same]
    exact lower roundType
  · rw [same]
    exact upper roundType

section Trading

/-- Which way the second amount is rounded when the first one is `BuyAsset`. -/
def soldRounding (orderIsSmaller : Bool) : RoundType := if orderIsSmaller then .up else .down

/-- Which way the second amount is rounded when the first one is `SellAsset`. -/
def boughtRounding (orderIsSmaller : Bool) : RoundType := if orderIsSmaller then .down else .up

/-- The amounts of `SellAsset` and `BuyAsset` that a value buys at the price `n / d`, as
integers. -/
def exactAmounts (orderIsSmaller : Bool) (value n d : Int) : Int × Int :=
  if n > d then
    (exactQuotient (value / n * n) d (soldRounding orderIsSmaller), value / n)
  else
    (value / d, exactQuotient (value / d * d) n (boughtRounding orderIsSmaller))

variable {value n d : Int} (nPositive : 0 < n) (dPositive : 0 < d) (orderIsSmaller : Bool)

include nPositive dPositive

theorem exactAmounts_le {maxSell maxBuy : Int} (sellFits : value ≤ maxSell * d)
    (buyFits : value ≤ maxBuy * n) :
    (exactAmounts orderIsSmaller value n d).1 ≤ maxSell ∧
      (exactAmounts orderIsSmaller value n d).2 ≤ maxBuy := by
  unfold exactAmounts
  split_ifs
  · exact ⟨exactQuotient_le dPositive ((Int.ediv_mul_le _ nPositive.ne').trans sellFits) _,
      exactQuotient_le nPositive buyFits .down⟩
  · exact ⟨exactQuotient_le dPositive sellFits .down,
      exactQuotient_le nPositive ((Int.ediv_mul_le _ dPositive.ne').trans buyFits) _⟩

theorem lt_exactAmounts_sold {factor : Int} (larger : d < factor) :
    max n d < (exactAmounts orderIsSmaller (max n d * factor) n d).1 := by
  unfold exactAmounts
  split_ifs with dearer
  · rw [max_eq_left dearer.le, Int.mul_ediv_cancel_left _ nPositive.ne', mul_comm]
    exact lt_exactQuotient dPositive larger dearer.le _
  · rwa [max_eq_right (not_lt.mp dearer), Int.mul_ediv_cancel_left _ dPositive.ne']

theorem lt_exactAmounts_bought {factor : Int} (larger : n < factor) :
    max n d < (exactAmounts orderIsSmaller (max n d * factor) n d).2 := by
  unfold exactAmounts
  split_ifs with dearer
  · rwa [max_eq_left dearer.le, Int.mul_ediv_cancel_left _ nPositive.ne']
  · rw [max_eq_right (not_lt.mp dearer), Int.mul_ediv_cancel_left _ dPositive.ne', mul_comm]
    exact lt_exactQuotient nPositive larger (not_lt.mp dearer) _

/-- The difference of the two amounts at the price is less than either of its terms, and
goes to the side that stays. -/
theorem exactAmounts_rounding :
    if orderIsSmaller then
      (exactAmounts orderIsSmaller value n d).2 * n ≤
          (exactAmounts orderIsSmaller value n d).1 * d ∧
        (exactAmounts orderIsSmaller value n d).1 * d -
          (exactAmounts orderIsSmaller value n d).2 * n < min n d
    else
      (exactAmounts orderIsSmaller value n d).1 * d ≤
          (exactAmounts orderIsSmaller value n d).2 * n ∧
        (exactAmounts orderIsSmaller value n d).2 * n -
          (exactAmounts orderIsSmaller value n d).1 * d < min n d := by
  unfold exactAmounts
  by_cases dearer : n > d
  · rw [if_pos dearer, min_eq_right dearer.le]
    have up := @exactQuotient_up (value / n * n) d dPositive
    have down := @exactQuotient_down (value / n * n) d dPositive
    cases orderIsSmaller with
    | true => exact ⟨up.1, sub_lt_iff_lt_add'.mpr up.2⟩
    | false => exact ⟨down.1, sub_lt_iff_lt_add'.mpr down.2⟩
  · rw [if_neg dearer, min_eq_left (not_lt.mp dearer)]
    have up := @exactQuotient_up (value / d * d) n nPositive
    have down := @exactQuotient_down (value / d * d) n nPositive
    cases orderIsSmaller with
    | true => exact ⟨down.1, sub_lt_iff_lt_add'.mpr down.2⟩
    | false => exact ⟨up.1, sub_lt_iff_lt_add'.mpr up.2⟩

end Trading

theorem divideBigInt_twice {value : Int} {first second firstMax secondMax : Int64}
    (firstPositive : 0 < first.toInt) (secondPositive : 0 < second.toInt)
    (notNegative : 0 ≤ value) (firstBound : value ≤ firstMax.toInt * first.toInt)
    (secondBound : value ≤ secondMax.toInt * second.toInt) (roundType : RoundType) :
    ∃ quotient other : Int64, divideBigInt value first .down = .ok quotient ∧
      divideBigInt (multiplyInt64 quotient first) second roundType = .ok other ∧
      quotient.toInt = value / first.toInt ∧
      other.toInt =
        exactQuotient (value / first.toInt * first.toInt) second.toInt roundType ∧
      (0 ≤ quotient.toInt ∧ quotient.toInt ≤ firstMax.toInt) ∧
      0 ≤ other.toInt ∧ other.toInt ≤ secondMax.toInt := by
  obtain ⟨quotient, divides, exact, quotientBounds⟩ :=
    divideBigInt_exact firstPositive notNegative firstBound .down
  replace exact : quotient.toInt = value / first.toInt := exact
  have product : multiplyInt64 quotient first = value / first.toInt * first.toInt := by
    rw [multiplyInt64, exact]
  have productBound : multiplyInt64 quotient first ≤ value := by
    rw [product]
    exact Int.ediv_mul_le value firstPositive.ne'
  have productNonneg : 0 ≤ multiplyInt64 quotient first :=
    Int.mul_nonneg quotientBounds.1 firstPositive.le
  obtain ⟨other, dividesAgain, exactOther, otherBounds⟩ :=
    divideBigInt_exact secondPositive productNonneg (productBound.trans secondBound) roundType
  rw [product] at exactOther
  exact ⟨quotient, other, divides, dividesAgain, exact, exactOther, quotientBounds, otherBounds⟩

theorem getOfferValue_bounds {maxToSell maxToBuy : Int64} {price : Price}
    (nPositive : 0 < price.numerator.toInt) (dPositive : 0 < price.denominator.toInt)
    (sellNonneg : 0 ≤ maxToSell.toInt) (buyNonneg : 0 ≤ maxToBuy.toInt) :
    0 ≤ getOfferValue maxToSell maxToBuy price ∧
      getOfferValue maxToSell maxToBuy price ≤ maxToSell.toInt * price.numerator.toInt ∧
        getOfferValue maxToSell maxToBuy price ≤ maxToBuy.toInt * price.denominator.toInt := by
  have sellValue := Int.mul_nonneg sellNonneg nPositive.le
  have buyValue := Int.mul_nonneg buyNonneg dPositive.le
  simp only [getOfferValue, multiplyInt64]
  split_ifs <;> omega

theorem getOfferValue_eq_min (maxToSell maxToBuy : Int64) (price : Price) :
    getOfferValue maxToSell maxToBuy price =
      min (maxToSell.toInt * price.numerator.toInt) (maxToBuy.toInt * price.denominator.toInt) := by
  unfold getOfferValue multiplyInt64
  dsimp only
  split_ifs with less
  · exact (min_eq_left less.le).symm
  · exact (min_eq_right (not_lt.mp less)).symm

theorem toInt_sub_nonneg {limit amount : Int64} (notNegative : 0 ≤ amount.toInt)
    (below : amount.toInt ≤ limit.toInt) : 0 ≤ (limit - amount).toInt := by
  have largest := le_maxInt64 limit
  rw [toInt_sub_of_fits]
  · omega
  · unfold minInt64
    omega
  · omega

/-- The smaller of the two values is traded exactly, and within the limits of the offer. -/
theorem tradedAmounts_exact {orderValue : Int} {maxOfferSell maxOfferBuy : Int64} {price : Price}
    (nPositive : 0 < price.numerator.toInt) (dPositive : 0 < price.denominator.toInt)
    (orderNonneg : 0 ≤ orderValue) (sellNonneg : 0 ≤ maxOfferSell.toInt)
    (buyNonneg : 0 ≤ maxOfferBuy.toInt) :
    ∃ sold bought : Int64,
      tradedAmounts orderValue (getOfferValue maxOfferSell maxOfferBuy price) price =
        .ok (sold, bought) ∧
      (sold.toInt, bought.toInt) =
        exactAmounts (orderValue < getOfferValue maxOfferSell maxOfferBuy price)
          (min orderValue (getOfferValue maxOfferSell maxOfferBuy price))
          price.numerator.toInt price.denominator.toInt ∧
      (0 ≤ bought.toInt ∧ bought.toInt ≤ maxOfferSell.toInt) ∧
      0 ≤ sold.toInt ∧ sold.toInt ≤ maxOfferBuy.toInt := by
  obtain ⟨offerNonneg, offerSell, offerBuy⟩ :=
    getOfferValue_bounds nPositive dPositive sellNonneg buyNonneg
  generalize getOfferValue maxOfferSell maxOfferBuy price = offerValue at *
  have notNegative : 0 ≤ min orderValue offerValue := le_min orderNonneg offerNonneg
  have sellBound := (min_le_right orderValue offerValue).trans offerSell
  have buyBound := (min_le_right orderValue offerValue).trans offerBuy
  have dearer_iff : price.numerator > price.denominator ↔
      price.numerator.toInt > price.denominator.toInt := Int64.lt_iff_toInt_lt
  unfold tradedAmounts exactAmounts
  by_cases dearer : price.numerator > price.denominator
  · obtain ⟨bought, sold, first, second, exactBought, exactSold, boughtBounds, soldBounds⟩ :=
      divideBigInt_twice nPositive dPositive notNegative sellBound buyBound
        (soldRounding (orderValue < offerValue))
    refine ⟨sold, bought, ?_, ?_, boughtBounds, soldBounds⟩
    · by_cases smaller : orderValue < offerValue
      · rw [min_eq_left smaller.le] at first
        simp only [smaller, soldRounding, decide_true, if_true] at second
        simp [smaller, dearer, first, second, bind, Except.bind, pure, Except.pure]
      · rw [min_eq_right (not_lt.mp smaller)] at first
        simp only [smaller, soldRounding, decide_false, Bool.false_eq_true, if_false] at second
        simp [smaller, dearer, first, second, bind, Except.bind, pure, Except.pure]
    · rw [if_pos (dearer_iff.mp dearer), exactBought, exactSold]
  · obtain ⟨sold, bought, first, second, exactSold, exactBought, soldBounds, boughtBounds⟩ :=
      divideBigInt_twice dPositive nPositive notNegative buyBound sellBound
        (boughtRounding (orderValue < offerValue))
    refine ⟨sold, bought, ?_, ?_, boughtBounds, soldBounds⟩
    · by_cases smaller : orderValue < offerValue
      · rw [min_eq_left smaller.le] at first
        simp only [smaller, boughtRounding, decide_true, if_true] at second
        simp [smaller, dearer, first, second, bind, Except.bind, pure, Except.pure]
      · rw [min_eq_right (not_lt.mp smaller)] at first
        simp only [smaller, boughtRounding, decide_false, Bool.false_eq_true, if_false] at second
        simp [smaller, dearer, first, second, bind, Except.bind, pure, Except.pure]
    · rw [if_neg (mt dearer_iff.mpr dearer), exactBought, exactSold]

def Amounts.traded (order : Amounts) (sold bought : Int64) (orderIsSmaller : Bool) : Amounts where
  maxSellAsset := order.maxSellAsset - sold
  maxBuyAsset := order.maxBuyAsset - bought
  sellAssetSold := order.sellAssetSold + sold
  buyAssetBought := order.buyAssetBought + bought
  full := orderIsSmaller ∨ order.maxSellAsset - sold = 0 ∨ order.maxBuyAsset - bought = 0

/-- An order and the limits and the price of an offer.  Nothing ties one price to the
other. -/
structure Deal where
  orderPrice : Price
  order : Amounts
  maxOfferBuyAsset : Int64
  maxOfferSellAsset : Int64
  offerPrice : Price
  orderNumerator_pos : 0 < orderPrice.numerator.toInt
  orderDenominator_pos : 0 < orderPrice.denominator.toInt
  offerNumerator_pos : 0 < offerPrice.numerator.toInt
  offerDenominator_pos : 0 < offerPrice.denominator.toInt
  maxSellAsset_nonneg : 0 ≤ order.maxSellAsset.toInt
  maxBuyAsset_nonneg : 0 ≤ order.maxBuyAsset.toInt
  maxOfferBuyAsset_nonneg : 0 ≤ maxOfferBuyAsset.toInt
  maxOfferSellAsset_nonneg : 0 ≤ maxOfferSellAsset.toInt

namespace Deal

variable (deal : Deal)

def orderValue : Int :=
  getOfferValue deal.order.maxSellAsset deal.order.maxBuyAsset deal.orderPrice

def offerValue : Int :=
  getOfferValue deal.maxOfferSellAsset deal.maxOfferBuyAsset deal.offerPrice

def orderIsSmaller : Bool := deal.orderValue < deal.offerValue

def value : Int := min deal.orderValue deal.offerValue

def n : Int := deal.offerPrice.numerator.toInt

def d : Int := deal.offerPrice.denominator.toInt

def exchange : Except OpError Amounts :=
  Exchange.exchange deal.orderPrice deal.order deal.maxOfferBuyAsset deal.maxOfferSellAsset
    deal.offerPrice

theorem offerValue_of_unlimited (sells : deal.maxOfferSellAsset = Int64.maxValue)
    (buys : deal.maxOfferBuyAsset = Int64.maxValue) :
    deal.offerValue = maxInt64 * min deal.n deal.d := by
  unfold offerValue
  rw [getOfferValue_eq_min, sells, buys, mul_min_of_nonneg _ _ (by decide)]
  rfl

theorem exchange_exact :
    ∃ sold bought : Int64,
      deal.exchange = .ok (deal.order.traded sold bought deal.orderIsSmaller) ∧
      (sold.toInt, bought.toInt) =
        exactAmounts deal.orderIsSmaller deal.value deal.n deal.d ∧
      (0 ≤ bought.toInt ∧ bought.toInt ≤ deal.maxOfferSellAsset.toInt) ∧
      0 ≤ sold.toInt ∧ sold.toInt ≤ deal.maxOfferBuyAsset.toInt := by
  have orderNonneg : 0 ≤ deal.orderValue := (getOfferValue_bounds deal.orderNumerator_pos
    deal.orderDenominator_pos deal.maxSellAsset_nonneg deal.maxBuyAsset_nonneg).1
  obtain ⟨sold, bought, traded, exact, bounds⟩ :=
    tradedAmounts_exact deal.offerNumerator_pos deal.offerDenominator_pos orderNonneg
      deal.maxOfferSellAsset_nonneg deal.maxOfferBuyAsset_nonneg
  refine ⟨sold, bought, ?_, exact, bounds⟩
  unfold orderValue at traded
  unfold Deal.exchange Exchange.exchange orderIsSmaller orderValue offerValue
  simp only [traded]
  simp [Amounts.traded, bind, Except.bind, pure, Except.pure]

/-- No quotient of an exchange is cut, the amounts are within the limits of the offer, and
the rounding favours the side that stays. -/
theorem exchange_rounds :
    ∃ sold bought : Int64,
      deal.exchange = .ok (deal.order.traded sold bought deal.orderIsSmaller) ∧
      (sold.toInt, bought.toInt) =
        exactAmounts deal.orderIsSmaller deal.value deal.n deal.d ∧
      (0 ≤ bought.toInt ∧ bought.toInt ≤ deal.maxOfferSellAsset.toInt) ∧
      (0 ≤ sold.toInt ∧ sold.toInt ≤ deal.maxOfferBuyAsset.toInt) ∧
      if deal.orderValue < deal.offerValue then
        bought.toInt * deal.n ≤ sold.toInt * deal.d ∧
          sold.toInt * deal.d - bought.toInt * deal.n < min deal.n deal.d
      else
        sold.toInt * deal.d ≤ bought.toInt * deal.n ∧
          bought.toInt * deal.n - sold.toInt * deal.d < min deal.n deal.d := by
  obtain ⟨sold, bought, traded, exact, boughtBounds, soldBounds⟩ := deal.exchange_exact
  refine ⟨sold, bought, traded, exact, boughtBounds, soldBounds, ?_⟩
  have rounding := @exactAmounts_rounding deal.value deal.n deal.d deal.offerNumerator_pos
    deal.offerDenominator_pos deal.orderIsSmaller
  rw [← exact] at rounding
  simpa only [orderIsSmaller, decide_eq_true_eq] using rounding

/-- An offer at three for two, of which an order takes the most that it can pay. -/
private def threeForTwo : Deal :=
  ⟨⟨2, 3⟩, ⟨10, 100, 0, 0, false⟩, 90, 60, ⟨3, 2⟩, by decide, by decide, by decide, by decide,
    by decide, by decide, by decide, by decide⟩

/-- Ten units buy six, for which nine are sold. -/
theorem exchange_rounds_threeForTwo :
    threeForTwo.exchange = .ok (threeForTwo.order.traded 9 6 true) ∧
      ∃ sold bought : Int64,
        threeForTwo.exchange = .ok (threeForTwo.order.traded sold bought true) ∧
        bought.toInt * 3 ≤ sold.toInt * 2 ∧ sold.toInt * 2 - bought.toInt * 3 < 2 := by
  obtain ⟨sold, bought, traded, -, -, -, rounding⟩ := threeForTwo.exchange_rounds
  rw [if_pos (by decide)] at rounding
  exact ⟨rfl, sold, bought, traded, rounding⟩

structure StaysWithin (sold bought : Int64) : Prop where
  soldWithin : 0 ≤ sold.toInt ∧ sold.toInt ≤ deal.order.maxSellAsset.toInt
  boughtWithin : 0 ≤ bought.toInt ∧ bought.toInt ≤ deal.order.maxBuyAsset.toInt
  maxSellAsset_left : 0 ≤ (deal.order.maxSellAsset - sold).toInt
  maxBuyAsset_left : 0 ≤ (deal.order.maxBuyAsset - bought).toInt

/-- The terms of the order's price are at most those of the offer's price, taken
crosswise. -/
def TermsFit : Prop :=
  deal.orderPrice.numerator.toInt ≤ deal.d ∧ deal.orderPrice.denominator.toInt ≤ deal.n

theorem maxValue_nonneg : 0 ≤ Int64.maxValue.toInt := by decide

/-- The same prices with other limits of the order, and an offer without limits. -/
def withLimits (maxSellAsset maxBuyAsset : Int64) (sellNonneg : 0 ≤ maxSellAsset.toInt)
    (buyNonneg : 0 ≤ maxBuyAsset.toInt) : Deal :=
  { deal with
    order := ⟨maxSellAsset, maxBuyAsset, 0, 0, false⟩
    maxOfferBuyAsset := Int64.maxValue
    maxOfferSellAsset := Int64.maxValue
    maxSellAsset_nonneg := sellNonneg
    maxBuyAsset_nonneg := buyNonneg
    maxOfferBuyAsset_nonneg := maxValue_nonneg
    maxOfferSellAsset_nonneg := maxValue_nonneg }

theorem value_withLimits {maxSellAsset maxBuyAsset : Int64} (sellNonneg : 0 ≤ maxSellAsset.toInt)
    (buyNonneg : 0 ≤ maxBuyAsset.toInt) :
    (deal.withLimits maxSellAsset maxBuyAsset sellNonneg buyNonneg).value =
      min (min (maxSellAsset.toInt * deal.orderPrice.numerator.toInt)
        (maxBuyAsset.toInt * deal.orderPrice.denominator.toInt)) (maxInt64 * min deal.n deal.d) := by
  unfold value orderValue
  rw [offerValue_of_unlimited _ rfl rfl, getOfferValue_eq_min]
  rfl

/-- The larger term of the offer's price. -/
def largerTerm : Int64 :=
  if deal.offerPrice.denominator < deal.offerPrice.numerator then deal.offerPrice.numerator
  else deal.offerPrice.denominator

theorem toInt_largerTerm : deal.largerTerm.toInt = max deal.n deal.d := by
  unfold largerTerm
  split_ifs with dearer
  · exact (max_eq_left (Int64.lt_iff_toInt_lt.mp dearer).le).symm
  · exact (max_eq_right (Int64.le_iff_toInt_le.mp (Int64.not_lt.mp dearer))).symm

/-- No term is too large for the limits of the orders that `exists_exceeding` takes. -/
def SmallTerms : Prop :=
  (deal.orderPrice.numerator.toInt ≤ 2 ^ 31 ∧ deal.orderPrice.denominator.toInt ≤ 2 ^ 31) ∧
    deal.n ≤ 2 ^ 31 ∧ deal.d ≤ 2 ^ 31

theorem mul_le_maxInt64_mul {term factor : Int} (termSmall : term ≤ 2 ^ 31)
    (factorSmall : factor ≤ 2 ^ 31) (notNegative : 0 ≤ factor) (scale : Int)
    (positive : 0 < scale) : term * factor ≤ maxInt64 * scale :=
  calc
    term * factor ≤ 2 ^ 31 * 2 ^ 31 := Int.mul_le_mul termSmall factorSmall notNegative (by decide)
    _ ≤ maxInt64 * 1 := by decide
    _ ≤ maxInt64 * scale := Int.mul_le_mul_of_nonneg_left positive (by decide)

/-- If the terms do not fit, an order that is limited on one side, by the larger term of the
offer's price, exceeds its limit. -/
theorem exists_exceeding (small : deal.SmallTerms) (misfit : ¬ deal.TermsFit) :
    ∃ other : Deal, (other.orderPrice = deal.orderPrice ∧ other.offerPrice = deal.offerPrice) ∧
      ∃ sold bought : Int64,
        other.exchange = .ok (other.order.traded sold bought other.orderIsSmaller) ∧
        ¬ other.StaysWithin sold bought := by
  obtain ⟨⟨numeratorSmall, denominatorSmall⟩, nSmall, dSmall⟩ := small
  have largest : Int64.maxValue.toInt = maxInt64 := rfl
  have limit := deal.toInt_largerTerm
  have limitSmall : max deal.n deal.d ≤ 2 ^ 31 := max_le nSmall dSmall
  have limitNonneg : 0 ≤ deal.largerTerm.toInt := by
    rw [limit]
    exact le_max_of_le_left deal.offerNumerator_pos.le
  have leastPositive : 0 < min deal.n deal.d :=
    lt_min deal.offerNumerator_pos deal.offerDenominator_pos
  rcases not_and_or.mp misfit with tooLarge | tooLarge
  · have covered := mul_le_maxInt64_mul limitSmall numeratorSmall deal.orderNumerator_pos.le
    have value : (deal.withLimits _ _ limitNonneg maxValue_nonneg).value =
        max deal.n deal.d * deal.orderPrice.numerator.toInt := by
      rw [value_withLimits, limit, largest, min_eq_left (covered _ deal.orderDenominator_pos),
        min_eq_left (covered _ leastPositive)]
    obtain ⟨sold, bought, traded, exact, -⟩ := Deal.exchange_exact _
    rw [value] at exact
    refine ⟨deal.withLimits _ _ limitNonneg maxValue_nonneg, ⟨rfl, rfl⟩, sold, bought, traded, ?_⟩
    intro stays
    have within := (congrArg Prod.fst exact).symm.trans_le (stays.soldWithin.2.trans_eq limit)
    exact absurd (lt_exactAmounts_sold deal.offerNumerator_pos deal.offerDenominator_pos _
      (not_le.mp tooLarge)) (not_lt.mpr within)
  · have covered := mul_le_maxInt64_mul limitSmall denominatorSmall deal.orderDenominator_pos.le
    have value : (deal.withLimits _ _ maxValue_nonneg limitNonneg).value =
        max deal.n deal.d * deal.orderPrice.denominator.toInt := by
      rw [value_withLimits, limit, largest, min_eq_right (covered _ deal.orderNumerator_pos),
        min_eq_left (covered _ leastPositive)]
    obtain ⟨sold, bought, traded, exact, -⟩ := Deal.exchange_exact _
    rw [value] at exact
    refine ⟨deal.withLimits _ _ maxValue_nonneg limitNonneg, ⟨rfl, rfl⟩, sold, bought, traded, ?_⟩
    intro stays
    have within := (congrArg Prod.snd exact).symm.trans_le (stays.boughtWithin.2.trans_eq limit)
    exact absurd (lt_exactAmounts_bought deal.offerNumerator_pos deal.offerDenominator_pos _
      (not_le.mp tooLarge)) (not_lt.mpr within)

/-- An exchange stays within an order if the terms of the prices fit.  If they do not, and
none is too large, some order at the same prices is exceeded. -/
theorem exchange_within_order_iff :
    (deal.TermsFit → ∃ sold bought : Int64,
      deal.exchange = .ok (deal.order.traded sold bought deal.orderIsSmaller) ∧
        deal.StaysWithin sold bought) ∧
    (deal.SmallTerms → ¬ deal.TermsFit → ∃ other : Deal,
      (other.orderPrice = deal.orderPrice ∧ other.offerPrice = deal.offerPrice) ∧
      ∃ sold bought : Int64,
        other.exchange = .ok (other.order.traded sold bought other.orderIsSmaller) ∧
        ¬ other.StaysWithin sold bought) := by
  refine ⟨?_, deal.exists_exceeding⟩
  rintro ⟨numerators, denominators⟩
  obtain ⟨sold, bought, traded, exact, ⟨boughtNonneg, -⟩, soldNonneg, -⟩ := deal.exchange_exact
  obtain ⟨-, sellBound, buyBound⟩ := getOfferValue_bounds deal.orderNumerator_pos
    deal.orderDenominator_pos deal.maxSellAsset_nonneg deal.maxBuyAsset_nonneg
  have below : deal.value ≤ deal.orderValue := min_le_left _ _
  have sellFits := (below.trans sellBound).trans
    (Int.mul_le_mul_of_nonneg_left numerators deal.maxSellAsset_nonneg)
  have buyFits := (below.trans buyBound).trans
    (Int.mul_le_mul_of_nonneg_left denominators deal.maxBuyAsset_nonneg)
  have fits := exactAmounts_le deal.offerNumerator_pos deal.offerDenominator_pos
    deal.orderIsSmaller sellFits buyFits
  obtain ⟨soldBound, boughtBound⟩ := exact ▸ fits
  exact ⟨sold, bought, traded, ⟨soldNonneg, soldBound⟩, ⟨boughtNonneg, boughtBound⟩,
    toInt_sub_nonneg soldNonneg soldBound, toInt_sub_nonneg boughtNonneg boughtBound⟩

/-- Orders at two for three stay within their limits when they cross offers at three for
two. -/
theorem exchange_within_order_threeForTwo : ∃ sold bought : Int64,
    threeForTwo.exchange = .ok (threeForTwo.order.traded sold bought true) ∧
      threeForTwo.StaysWithin sold bought :=
  threeForTwo.exchange_within_order_iff.1 ⟨by decide, by decide⟩

private def doubledTerms : Deal :=
  ⟨⟨2, 2⟩, ⟨1, 1, 0, 0, false⟩, 10, 10, ⟨1, 1⟩, by decide, by decide, by decide, by decide,
    by decide, by decide, by decide, by decide⟩

private def generousOrder : Deal :=
  ⟨⟨1, 2⟩, ⟨10, 5, 0, 0, false⟩, 100, 100, ⟨1, 1⟩, by decide, by decide, by decide, by decide,
    by decide, by decide, by decide, by decide⟩

/-- An order for one unit at two for two is filled with two at one for one, and an order
for at most five units with ten. -/
theorem exchange_exceeds_order :
    comparePrice doubledTerms.orderPrice.reciprocal doubledTerms.offerPrice = .ok .eq ∧
      doubledTerms.exchange = .ok (doubledTerms.order.traded 2 2 true) ∧
      ¬ doubledTerms.StaysWithin 2 2 ∧
    comparePrice generousOrder.orderPrice.reciprocal generousOrder.offerPrice = .ok .gt ∧
      generousOrder.exchange = .ok (generousOrder.order.traded 10 10 true) ∧
      ¬ generousOrder.StaysWithin 10 10 := by
  refine ⟨by decide +kernel, rfl, ?_, by decide +kernel, rfl, ?_⟩
  · intro stays
    exact absurd stays.maxBuyAsset_left (by decide)
  · intro stays
    exact absurd stays.maxBuyAsset_left (by decide)

end Deal

end Exchange

end Ultiledger
