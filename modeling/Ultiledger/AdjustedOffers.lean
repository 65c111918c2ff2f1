import Ultiledger.OfferOperation
import Ultiledger.TradedAmounts

/-! # Adjusting an offer to its limits -/

namespace Ultiledger

namespace Exchange

open MachineIntegers

/-- The exchange with an offer without limits at the reciprocal price. -/
def adjust (price : Price) (sl bl : Int64) : Except OpError Amounts :=
  exchange price ⟨sl, bl, 0, 0, false⟩ Int64.maxValue Int64.maxValue price.reciprocal

theorem getLiability_eq_adjust (offer : Offer) (buying : Bool) :
    getLiability offer buying = (adjust offer.price offer.amount Int64.maxValue).map
      fun ord => if buying then ord.buyAssetBought else ord.sellAssetSold := by
  unfold getLiability adjust
  cases exchange offer.price _ _ _ _ <;> rfl

/-- The amount that `Offer.Apply` keeps in the book is that of an adjustment, unless the
order is full. -/
theorem restingAmount_adjusts {am : AccountManager} {held : Holdings} {offer : Offer}
    {sellLimit amount : Int64} {order : Order} (rest : order.full = false)
    (kept : restingAmount am held offer sellLimit order = .ok amount) :
    ∃ maxToSell bl ord, getMaxToSell am (some held.acc) held.sellTrust = .ok maxToSell ∧
      getMaxToBuy (some held.acc) held.buyTrust = .ok bl ∧
      adjust offer.price (minInt64Of (sellLimit - order.sellAssetSold) maxToSell) bl = .ok ord ∧
      amount = ord.sellAssetSold := by
  rw [restingAmount, if_neg (by simp [rest])] at kept
  obtain ⟨maxToSell, sells, kept⟩ := bind_eq_ok.mp kept
  obtain ⟨bl, buys, kept⟩ := bind_eq_ok.mp kept
  obtain ⟨ord, adjusted, kept⟩ := bind_eq_ok.mp kept
  exact ⟨maxToSell, bl, ord, sells, buys, adjusted, (Except.ok.inj kept).symm⟩

/-- The amounts sold and bought by an exchange with an offer without limits, at the price
`n / d`. -/
def adjustedAmounts (n d sl bl : Int) : Int × Int :=
  exactAmounts (min (sl * n) (bl * d) < maxInt64 * min n d)
    (min (min (sl * n) (bl * d)) (maxInt64 * min n d)) d n

/-- The limits and the price `n / d` leave an adjusted amount alone when it is adjusted
again.  With the largest limit on what is sold, at a price below one, the limit on what is
bought has to be low, or so high that only the price counts. -/
def Stable (n d sl bl : Int) : Prop :=
  d ≤ n ∨ sl < maxInt64 ∨ bl * d ≤ (maxInt64 - 1) * n ∨
    maxInt64 * n ≤ bl * d ∧
      (maxInt64 * n / d * d % n = 0 ∨ d < n + maxInt64 * n / d * d % n)

section Arithmetic

variable {n d sl bl : Int} (nPositive : 0 < n) (dPositive : 0 < d)

theorem adjustedAmounts_of_le (dear : d ≤ n) :
    adjustedAmounts n d sl bl =
      (min (min (sl * n) (bl * d)) (maxInt64 * d) / n,
        exactQuotient (min (min (sl * n) (bl * d)) (maxInt64 * d) / n * n) d
          (boughtRounding (min (sl * n) (bl * d) < maxInt64 * d))) := by
  unfold adjustedAmounts exactAmounts
  rw [if_neg (not_lt.mpr dear), min_eq_right dear]

theorem adjustedAmounts_of_lt (cheap : n < d) :
    adjustedAmounts n d sl bl =
      (exactQuotient (min (min (sl * n) (bl * d)) (maxInt64 * n) / d * d) n
          (soldRounding (min (sl * n) (bl * d) < maxInt64 * n)),
        min (min (sl * n) (bl * d)) (maxInt64 * n) / d) := by
  unfold adjustedAmounts exactAmounts
  rw [if_pos cheap, min_eq_left cheap.le]

include nPositive dPositive

theorem adjustedAmounts_within :
    (adjustedAmounts n d sl bl).1 ≤ sl ∧ (adjustedAmounts n d sl bl).2 ≤ bl := by
  have value : min (min (sl * n) (bl * d)) (maxInt64 * min n d) ≤ min (sl * n) (bl * d) :=
    min_le_left _ _
  have sellBound := value.trans (min_le_left _ _)
  have buyBound := value.trans (min_le_right _ _)
  exact exactAmounts_le dPositive nPositive _ sellBound buyBound

omit dPositive in
/-- What an exchange with an offer without limits trades of an amount: the value of the
amount itself. -/
theorem value_again {sold : Int} (below : sold ≤ maxInt64) (capped : sold * n ≤ maxInt64 * d) :
    min (min (sold * n) (maxInt64 * d)) (maxInt64 * min n d) = sold * n := by
  rw [min_eq_left capped]
  apply min_eq_left
  rcases le_total n d with cheap | dear
  · rw [min_eq_left cheap]
    exact Int.mul_le_mul_of_nonneg_right below nPositive.le
  · rw [min_eq_right dear]
    exact capped

theorem adjustedAmounts_again_of_le (dear : d ≤ n) (below : sl ≤ maxInt64) :
    (adjustedAmounts n d (adjustedAmounts n d sl bl).1 maxInt64).1 = (adjustedAmounts n d sl bl).1 ∧
      (adjustedAmounts n d (adjustedAmounts n d sl bl).1 maxInt64).2 ≤ bl := by
  have within := (@adjustedAmounts_within n d sl bl nPositive dPositive).1
  have sold : (adjustedAmounts n d sl bl).1 * n ≤
      min (min (sl * n) (bl * d)) (maxInt64 * d) := by
    rw [adjustedAmounts_of_le dear]
    exact Int.ediv_mul_le _ nPositive.ne'
  obtain ⟨limits, capped⟩ := le_min_iff.mp sold
  have value := value_again nPositive (within.trans below) capped
  rw [min_eq_right dear] at value
  rw [adjustedAmounts_of_le dear, value, Int.mul_ediv_cancel _ nPositive.ne']
  exact ⟨rfl, exactQuotient_le dPositive (limits.trans (min_le_right _ _)) _⟩

omit nPositive in
theorem ediv_eq_of_bounds {val quotient : Int} (lower : quotient * d ≤ val)
    (upper : val < (quotient + 1) * d) : val / d = quotient :=
  le_antisymm (Int.lt_add_one_iff.mp ((Int.ediv_lt_iff_lt_mul dPositive).mpr upper))
    ((Int.le_ediv_iff_mul_le dPositive).mpr lower)

omit dPositive in
theorem exactQuotient_up_le_iff {val bound : Int} :
    exactQuotient val n .up ≤ bound ↔ val ≤ bound * n :=
  ⟨fun bounded => (exactQuotient_up nPositive).1.trans
    (Int.mul_le_mul_of_nonneg_right bounded nPositive.le), (exactQuotient_le nPositive · .up)⟩

/-- An amount that was rounded up is found again unless it is the largest integer. -/
theorem exactQuotient_again_of_up {amount bought : Int} (cheap : n < d)
    (rounded : amount = exactQuotient (bought * d) n .up) (below : amount ≤ maxInt64)
    (small : bought * d < maxInt64 * n) :
    amount * n / d = bought ∧
      (exactQuotient (bought * d) n (soldRounding (amount * n < maxInt64 * n)) = amount ↔
        amount < maxInt64) := by
  obtain ⟨lower, upper⟩ := @exactQuotient_up (bought * d) n nPositive
  rw [← rounded] at lower upper
  refine ⟨ediv_eq_of_bounds dPositive lower (by rw [add_mul]; omega), ?_⟩
  rcases below.lt_or_eq with limited | rfl
  · rw [decide_eq_true (Int.mul_lt_mul_of_pos_right limited nPositive)]
    exact iff_of_true rounded.symm limited
  · rw [decide_eq_false (lt_irrefl _)]
    have less : bought * d / n < maxInt64 := (Int.ediv_lt_iff_lt_mul nPositive).mpr small
    exact iff_of_false less.ne (lt_irrefl _)

/-- An amount that was rounded down is found again if nothing was left, or if the rest is
large enough. -/
theorem exactQuotient_again_of_down {amount bought : Int} (cheap : n < d)
    (rounded : amount = bought * d / n) (capped : bought * d ≤ maxInt64 * n) :
    exactQuotient (amount * n / d * d) n (soldRounding (amount * n < maxInt64 * n)) = amount ↔
      bought * d % n = 0 ∨ d < n + bought * d % n := by
  have split : amount * n + bought * d % n = bought * d := by
    rw [rounded, mul_comm]
    exact Int.mul_ediv_add_emod _ _
  have small := Int.emod_lt_of_pos (bought * d) nPositive
  rcases (Int.emod_nonneg (bought * d) nPositive.ne').eq_or_lt with nothing | rest
  · rw [← nothing, add_zero] at split
    rw [split, Int.mul_ediv_cancel _ dPositive.ne', ← split]
    unfold exactQuotient
    split <;> simp [Int.mul_ediv_cancel _ nPositive.ne']
  · have bought' : amount * n / d = bought - 1 := by
      apply ediv_eq_of_bounds dPositive
      · rw [sub_mul]
        omega
      · rw [Int.sub_add_cancel]
        omega
    have smaller : amount * n < maxInt64 * n := by omega
    have product : (bought - 1) * d = bought * d - d := by rw [sub_mul, one_mul]
    rw [bought', product, decide_eq_true smaller]
    change exactQuotient (bought * d - d) n .up = amount ↔ _
    have most : exactQuotient (bought * d - d) n .up ≤ amount :=
      exactQuotient_le nPositive (by omega) .up
    have fewer := @exactQuotient_up_le_iff n nPositive (bought * d - d) (amount - 1)
    rw [sub_mul amount] at fewer
    omega

theorem adjustedAmounts_again_of_lt (cheap : n < d) (below : sl ≤ maxInt64) :
    (adjustedAmounts n d (adjustedAmounts n d sl bl).1 maxInt64).1 ≤ (adjustedAmounts n d sl bl).1 ∧
      (adjustedAmounts n d (adjustedAmounts n d sl bl).1 maxInt64).2 ≤ bl ∧
      ((adjustedAmounts n d (adjustedAmounts n d sl bl).1 maxInt64).1 =
        (adjustedAmounts n d sl bl).1 ↔ Stable n d sl bl) := by
  obtain ⟨soldWithin, boughtWithin⟩ := @adjustedAmounts_within n d sl bl nPositive dPositive
  have exactSold : (adjustedAmounts n d sl bl).1 =
      exactQuotient ((adjustedAmounts n d sl bl).2 * d) n
        (soldRounding (min (sl * n) (bl * d) < maxInt64 * n)) := by
    rw [adjustedAmounts_of_lt cheap]
  have exactBought : (adjustedAmounts n d sl bl).2 =
      min (min (sl * n) (bl * d)) (maxInt64 * n) / d := by
    rw [adjustedAmounts_of_lt cheap]
  generalize (adjustedAmounts n d sl bl).2 = bought at boughtWithin exactSold exactBought
  generalize (adjustedAmounts n d sl bl).1 = amount at soldWithin exactSold ⊢
  have capped : amount * n ≤ maxInt64 * d :=
    (Int.mul_le_mul_of_nonneg_right (soldWithin.trans below) nPositive.le).trans
      (Int.mul_le_mul_of_nonneg_left cheap.le (by decide))
  have value := value_again nPositive (soldWithin.trans below) capped
  rw [min_eq_left cheap.le] at value
  rw [adjustedAmounts_of_lt cheap, value, min_eq_left capped]
  have boughtBelow : bought * d ≤ min (min (sl * n) (bl * d)) (maxInt64 * n) := by
    rw [exactBought]
    exact Int.ediv_mul_le _ dPositive.ne'
  have upper : amount * n < (bought + 1) * d := by
    rw [add_mul, one_mul, exactSold]
    cases decide (min (sl * n) (bl * d) < maxInt64 * n) with
    | true => exact (exactQuotient_up nPositive).2.trans (Int.add_lt_add_left cheap _)
    | false => exact (exactQuotient_down nPositive).1.trans_lt (Int.lt_add_of_pos_right _ dPositive)
  have boughtAgain : amount * n / d ≤ bought :=
    Int.lt_add_one_iff.mp ((Int.ediv_lt_iff_lt_mul dPositive).mpr upper)
  refine ⟨exactQuotient_le nPositive (Int.ediv_mul_le _ dPositive.ne') _,
    boughtAgain.trans boughtWithin, ?_⟩
  by_cases smaller : min (sl * n) (bl * d) < maxInt64 * n
  · rw [decide_eq_true smaller] at exactSold
    rw [min_eq_left smaller.le] at boughtBelow exactBought
    obtain ⟨same, again⟩ := exactQuotient_again_of_up nPositive dPositive cheap exactSold
      (soldWithin.trans below) (boughtBelow.trans_lt smaller)
    rw [same, again]
    rcases below.lt_or_eq with limited | rfl
    · exact iff_of_true (soldWithin.trans_lt limited) (.inr (.inl limited))
    · have less : bl * d < maxInt64 * n := (min_lt_iff.mp smaller).resolve_left (lt_irrefl _)
      rw [min_eq_right less.le, Int.mul_ediv_cancel _ dPositive.ne'] at exactBought
      have fits := @exactQuotient_up_le_iff n nPositive (bl * d) (maxInt64 - 1)
      rw [← exactBought, show exactQuotient (bought * d) n .up = amount from exactSold.symm] at fits
      rw [Stable, ← exactBought]
      omega
  · obtain ⟨sellReaches, buyReaches⟩ := le_min_iff.mp (not_lt.mp smaller)
    rw [decide_eq_false smaller] at exactSold
    rw [min_eq_right (not_lt.mp smaller)] at boughtBelow exactBought
    have reached : maxInt64 ≤ sl := Int.le_of_mul_le_mul_right sellReaches nPositive
    rw [exactQuotient_again_of_down nPositive dPositive cheap exactSold boughtBelow, Stable,
      ← exactBought, sub_mul]
    omega

end Arithmetic

structure Adjustment where
  price : Price
  sellLimit : Int64
  buyLimit : Int64
  numerator_pos : 0 < price.numerator.toInt
  denominator_pos : 0 < price.denominator.toInt
  sellLimit_nonneg : 0 ≤ sellLimit.toInt
  buyLimit_nonneg : 0 ≤ buyLimit.toInt

namespace Adjustment

variable (adjustment : Adjustment)

def deal : Deal where
  orderPrice := adjustment.price
  order := ⟨adjustment.sellLimit, adjustment.buyLimit, 0, 0, false⟩
  maxOfferBuyAsset := Int64.maxValue
  maxOfferSellAsset := Int64.maxValue
  offerPrice := adjustment.price.reciprocal
  orderNumerator_pos := adjustment.numerator_pos
  orderDenominator_pos := adjustment.denominator_pos
  offerNumerator_pos := adjustment.denominator_pos
  offerDenominator_pos := adjustment.numerator_pos
  maxSellAsset_nonneg := adjustment.sellLimit_nonneg
  maxBuyAsset_nonneg := adjustment.buyLimit_nonneg
  maxOfferBuyAsset_nonneg := Deal.maxValue_nonneg
  maxOfferSellAsset_nonneg := Deal.maxValue_nonneg

theorem deal_orderValue : adjustment.deal.orderValue =
    min (adjustment.sellLimit.toInt * adjustment.price.numerator.toInt)
      (adjustment.buyLimit.toInt * adjustment.price.denominator.toInt) :=
  getOfferValue_eq_min _ _ _

theorem deal_offerValue : adjustment.deal.offerValue =
    maxInt64 * min adjustment.price.numerator.toInt adjustment.price.denominator.toInt := by
  rw [min_comm]
  exact Deal.offerValue_of_unlimited _ rfl rfl

theorem adjust_exact : ∃ ord,
    adjust adjustment.price adjustment.sellLimit adjustment.buyLimit = .ok ord ∧
      0 ≤ ord.sellAssetSold.toInt ∧ 0 ≤ ord.buyAssetBought.toInt ∧
      ord.sellAssetSold.toInt =
        (adjustedAmounts adjustment.price.numerator.toInt adjustment.price.denominator.toInt
          adjustment.sellLimit.toInt adjustment.buyLimit.toInt).1 ∧
      ord.buyAssetBought.toInt =
        (adjustedAmounts adjustment.price.numerator.toInt adjustment.price.denominator.toInt
          adjustment.sellLimit.toInt adjustment.buyLimit.toInt).2 := by
  obtain ⟨sold, bought, traded, exact, ⟨boughtNonneg, -⟩, soldNonneg, -⟩ :=
    adjustment.deal.exchange_exact
  unfold Deal.orderIsSmaller Deal.value at exact
  rw [deal_orderValue, deal_offerValue] at exact
  have soldFirst : (0 : Int64) + sold = sold := Int64.zero_add sold
  have boughtFirst : (0 : Int64) + bought = bought := Int64.zero_add bought
  refine ⟨_, traded, ?_⟩
  change 0 ≤ ((0 : Int64) + sold).toInt ∧ 0 ≤ ((0 : Int64) + bought).toInt ∧
    ((0 : Int64) + sold).toInt = _ ∧ ((0 : Int64) + bought).toInt = _
  rw [soldFirst, boughtFirst]
  exact ⟨soldNonneg, boughtNonneg, congrArg Prod.fst exact, congrArg Prod.snd exact⟩

def again (sold : Int64) (notNegative : 0 ≤ sold.toInt) : Adjustment :=
  { adjustment with
    sellLimit := sold
    buyLimit := Int64.maxValue
    sellLimit_nonneg := notNegative
    buyLimit_nonneg := Deal.maxValue_nonneg }

/-- The liabilities of an adjusted offer fit the limits.  The selling one is the amount of
the offer exactly when the price and the limits are stable. -/
theorem getLiability_adjusted : ∃ ord,
    adjust adjustment.price adjustment.sellLimit adjustment.buyLimit = .ok ord ∧
      ord.sellAssetSold.toInt ≤ adjustment.sellLimit.toInt ∧
      ∀ offer : Offer, offer.price = adjustment.price → offer.amount = ord.sellAssetSold →
        ∃ selling buying : Int64, getLiability offer false = .ok selling ∧
          getLiability offer true = .ok buying ∧
          selling.toInt ≤ ord.sellAssetSold.toInt ∧ buying.toInt ≤ adjustment.buyLimit.toInt ∧
          (selling = ord.sellAssetSold ↔
            Stable adjustment.price.numerator.toInt adjustment.price.denominator.toInt
              adjustment.sellLimit.toInt adjustment.buyLimit.toInt) := by
  obtain ⟨ord, adjusted, soldNonneg, -, sold, -⟩ := adjustment.adjust_exact
  have within := (@adjustedAmounts_within _ _ adjustment.sellLimit.toInt
    adjustment.buyLimit.toInt adjustment.numerator_pos adjustment.denominator_pos).1
  have below := le_maxInt64 adjustment.sellLimit
  rw [← sold] at within
  refine ⟨ord, adjusted, within, ?_⟩
  intro offer samePrice sameAmount
  obtain ⟨next, adjustedAgain, -, -, soldAgain, boughtAgain⟩ :=
    (adjustment.again ord.sellAssetSold soldNonneg).adjust_exact
  have liability : ∀ buying, getLiability offer buying =
      .ok (if buying then next.buyAssetBought else next.sellAssetSold) := by
    intro buying
    rw [getLiability_eq_adjust, samePrice, sameAmount]
    exact congrArg _ adjustedAgain
  change _ = (adjustedAmounts adjustment.price.numerator.toInt
    adjustment.price.denominator.toInt ord.sellAssetSold.toInt maxInt64).1 at soldAgain
  change _ = (adjustedAmounts adjustment.price.numerator.toInt
    adjustment.price.denominator.toInt ord.sellAssetSold.toInt maxInt64).2 at boughtAgain
  refine ⟨next.sellAssetSold, next.buyAssetBought, liability false, liability true, ?_⟩
  rcases le_or_gt adjustment.price.denominator.toInt adjustment.price.numerator.toInt with
    dear | cheap
  · obtain ⟨same, fits⟩ := @adjustedAmounts_again_of_le _ _ adjustment.sellLimit.toInt
      adjustment.buyLimit.toInt adjustment.numerator_pos adjustment.denominator_pos dear below
    rw [← sold, ← soldAgain] at same
    rw [← sold, ← boughtAgain] at fits
    exact ⟨same.le, fits, iff_of_true (Int64.toInt_inj.mp same) (.inl dear)⟩
  · obtain ⟨smaller, fits, same⟩ := @adjustedAmounts_again_of_lt _ _ adjustment.sellLimit.toInt
      adjustment.buyLimit.toInt adjustment.numerator_pos adjustment.denominator_pos cheap below
    rw [← sold, ← soldAgain] at smaller same
    rw [← sold, ← boughtAgain] at fits
    exact ⟨smaller, fits, Int64.toInt_inj.symm.trans same⟩

private def nativeForEuro (amount : Int64) (price : Price) : Offer :=
  ⟨"offer", "alice", ⟨.native, "", ""⟩, ⟨.custom, "EUR", "bank"⟩, amount, price, 0⟩

private theorem bounds_twoForThree :
    0 < (2 : Int64).toInt ∧ 0 < (3 : Int64).toInt ∧ 0 ≤ (1000 : Int64).toInt := by
  decide

private def twoForThree : Adjustment :=
  ⟨⟨2, 3⟩, 1000, Int64.maxValue, bounds_twoForThree.1, bounds_twoForThree.2.1,
    bounds_twoForThree.2.2, Deal.maxValue_nonneg⟩

/-- Of a thousand, 999 are offered for 666. -/
theorem getLiability_adjusted_twoForThree :
    ∃ ord, adjust ⟨2, 3⟩ 1000 Int64.maxValue = .ok ord ∧ ord.sellAssetSold = 999 ∧
      ∃ selling buying : Int64,
        getLiability (nativeForEuro 999 ⟨2, 3⟩) false = .ok selling ∧
        getLiability (nativeForEuro 999 ⟨2, 3⟩) true = .ok buying ∧
        selling = 999 := by
  obtain ⟨ord, adjusted, -, liabilities⟩ := twoForThree.getLiability_adjusted
  have sold : ord.sellAssetSold = 999 := by
    have computed : (adjust ⟨2, 3⟩ 1000 Int64.maxValue).map (·.sellAssetSold) = .ok 999 := rfl
    rw [show adjust ⟨2, 3⟩ 1000 Int64.maxValue = .ok ord from adjusted] at computed
    exact Except.ok.inj computed
  obtain ⟨selling, buying, sells, buys, -, -, same⟩ :=
    liabilities (nativeForEuro 999 ⟨2, 3⟩) rfl sold.symm
  refine ⟨ord, adjusted, sold, selling, buying, sells, buys, ?_⟩
  rw [same.mpr (.inr (.inl (by decide))), sold]

/-- With the largest limit, the whole limit is kept at three for four, and its selling
liability is smaller by one. -/
theorem getLiability_adjusted_shrinks :
    (adjust ⟨3, 4⟩ Int64.maxValue 6917529027641081855).map (·.sellAssetSold) =
        .ok Int64.maxValue ∧
      getLiability (nativeForEuro Int64.maxValue ⟨3, 4⟩) false = .ok (Int64.maxValue - 1) :=
  ⟨rfl, rfl⟩

end Adjustment

end Exchange

end Ultiledger
