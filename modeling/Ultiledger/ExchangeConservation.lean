import Ultiledger.ExchangeEffects
import Ultiledger.MatchingOffers
import Mathlib.Algebra.Order.BigOperators.Group.Finset

/-! # What a filled order takes from the makers

`Fill` pays the makers where it should charge them, with the totals of the order, and
saves the line of the wrong asset.
-/

namespace Ultiledger

open MachineIntegers RewrittenMaps AbortingProgram Program Exchange

variable {old new record : Record} {am : AccountManager} {start : Filling} {offers : List Offer}
  {crossings : List Crossing}

def Record.holds (accountID : String) (asset : Asset) : Record → Int
  | .account acc =>
    if asset.assetType = .native ∧ acc.accountID = accountID then acc.balance.toInt else 0
  | .trust line =>
    if asset.assetType ≠ .native ∧ line.accountID = accountID ∧ line.asset = some asset then
      line.balance.toInt
    else 0

def balanceKey (accountID : String) (asset : Asset) : List UInt8 :=
  if asset.assetType = .native then accountKey accountID else trustKey accountID asset

def holding (accounts : Bucket) (accountID : String) (asset : Asset) : Int :=
  (accounts.get (balanceKey accountID asset)).elim 0 (Record.holds accountID asset)

def heldBy (makers : Finset String) (accounts : Bucket) (asset : Asset) : Int :=
  ∑ maker ∈ makers, holding accounts maker asset

def Record.funds : Record → Record
  | .account acc => .account { acc with liability := none, entryCount := 0 }
  | .trust line => .trust { line with liability := none }

theorem Record.funds_of_unburdened (same : new.unburdened = old.unburdened) :
    new.funds = old.funds := by
  cases old <;> cases new <;> simp_all [Record.unburdened, Record.withLiability, Record.funds]

theorem Record.identity_of_funds (same : new.funds = old.funds) : new.identity = old.identity := by
  cases old <;> cases new <;> simp_all [Record.funds, Record.identity]

theorem Bucket.SameUpTo.funds_of_unburdened {before after : Bucket}
    (same : before.SameUpTo Record.unburdened after) : before.SameUpTo Record.funds after :=
  same.mono fun _ _ => Record.funds_of_unburdened

theorem Record.holds_of_funds (same : new.funds = old.funds) (accountID : String) (asset : Asset) :
    new.holds accountID asset = old.holds accountID asset := by
  cases old <;> cases new <;> simp_all [Record.funds, Record.holds]

theorem holding_eq {before after : Bucket} (same : before.SameUpTo Record.funds after)
    (accountID : String) (asset : Asset) :
    holding after accountID asset = holding before accountID asset := by
  unfold holding
  cases found : after.get (balanceKey accountID asset) with
  | none => rw [(same.eq_none_iff _).mp found]
  | some new =>
    obtain ⟨old, stood, alike⟩ := same.old_of_new found
    rw [stood]
    exact Record.holds_of_funds alike accountID asset

namespace Exchange

def Idle (am : AccountManager) (filling : Filling) : Prop :=
  (updateOfferLiability filling.offer false filling.market).isDone = true →
    ∀ amounts, tradeOf am filling = .ok amounts →
      amounts.sellAssetSold = filling.order.sellAssetSold ∧
        amounts.buyAssetBought = filling.order.buyAssetBought ∧
        (amounts.full = true ∨ filling.offer.amount = 0)

instance decidableIdle (am : AccountManager) (filling : Filling) : Decidable (Idle am filling) :=
  decidable_of_iff ((updateOfferLiability filling.offer false filling.market).isDone = true →
    ∀ amounts ∈ (tradeOf am filling).toOption,
      amounts.sellAssetSold = filling.order.sellAssetSold ∧
        amounts.buyAssetBought = filling.order.buyAssetBought ∧
        (amounts.full = true ∨ filling.offer.amount = 0)) <| by
    unfold Idle
    cases tradeOf am filling <;> simp [Except.toOption]

structure Unmoved (before after : Filling) : Prop where
  sold : after.order.sellAssetSold = before.order.sellAssetSold
  bought : after.order.buyAssetBought = before.order.buyAssetBought
  amount : after.offer.amount = before.offer.amount
  funds : before.market.accounts.SameUpTo Record.funds after.market.accounts

variable {market after : Market}

theorem OfferFinished.funds {offer : Offer} {acc : Option Account}
    (finished : OfferFinished am market offer acc after)
    (copies : ∀ held ∈ acc, ∃ stored, market.accounts.get (accountKey held.accountID) = some stored ∧
      (Record.account held).funds = stored.funds) :
    market.accounts.SameUpTo Record.funds after.accounts := by
  cases finished with
  | deleted held updated empty counts =>
    obtain ⟨stored, stands, alike⟩ := copies held rfl
    obtain ⟨entries, rfl⟩ := eq_of_updateEntryCount counts
    exact (Bucket.SameUpTo.refl _ _).insert stands alike
  | saved acc after open_ exchange offers charged =>
    exact charged.mono fun _ _ changed => Record.funds_of_unburdened changed.1

theorem fill_unmoved (own : start.offer.BearersOwn start.market.accounts) (idle : Idle am start)
    (soldNothing : start.order.sellAssetSold = 0) (boughtNothing : start.order.buyAssetBought = 0) :
    (fill am).Holds start (fun _ => Unmoved start) (fun _ => Unmoved start) := by
  refine holds_fill (fun market =>
    (updateOfferLiability start.offer false start.market).isDone = true ∧
      start.market.accounts.SameUpTo Record.unburdened market.accounts) ?_ ?_ ?_
  · exact (release_holds own).mono (fun _ _ released => released)
      (fun _ market stuck => ⟨rfl, rfl, rfl, stuck.2.funds_of_unburdened⟩)
  · exact fun _ market released _ => ⟨rfl, rfl, rfl, released.2.funds_of_unburdened⟩
  · rintro market amounts ⟨done, released⟩ trades
    obtain ⟨sold, bought, kept⟩ := idle done amounts trades
    have funds := released.funds_of_unburdened
    refine holds_settleOffer (fun _ _ => ⟨sold, bought, rfl, funds⟩) ?_ ?_
    · intro fault settled after _ settles
      obtain ⟨-, rfl⟩ := settles.of_zero (bought.trans boughtNothing)
      exact ⟨sold, bought, rfl, funds⟩
    · intro settled boughtMarket held soldMarket buys sells
      obtain ⟨rfl, rfl⟩ := buys.of_zero (bought.trans boughtNothing)
      obtain ⟨rfl, rfl⟩ := sells.of_zero (sold.trans soldNothing)
      have amount : (start.offer.filledBy (start.traded soldMarket amounts).order).amount =
          start.offer.amount := by
        change (if amounts.full then start.offer.amount - amounts.buyAssetBought else 0) = _
        rw [bought, boughtNothing, Int64.sub_zero]
        rcases kept with full | empty
        · rw [if_pos full]
        · rw [empty, ite_self]
      have bearers := (own.of_identity released.identity_of_unburdened).filledBy (start.traded soldMarket amounts).order
      refine (finishOffer_holds bearers am _).mono ?_ ?_
      · intro _ after finished
        refine ⟨sold, bought, amount, funds.trans (finished.funds fun acc read => ?_)⟩
        obtain ⟨stored, own⟩ := get_of_getAccount own.account read
        obtain ⟨current, stands, same⟩ := funds.new_of_old stored
        exact ⟨current, own ▸ stands, same.symm⟩
      · exact fun _ after same => ⟨sold, bought, amount, funds.trans same.funds_of_unburdened⟩

section Leaning

def Leans (gaining losing : Asset) (before after : Bucket) : Prop :=
  ∀ accountID, holding before accountID gaining ≤ holding after accountID gaining ∧
    holding after accountID losing ≤ holding before accountID losing

variable {gaining losing : Asset} {before middle after accounts : Bucket}

theorem Leans.of_funds (same : before.SameUpTo Record.funds after) :
    Leans gaining losing before after := by
  intro accountID
  exact ⟨(holding_eq same accountID gaining).ge, (holding_eq same accountID losing).le⟩

theorem Leans.trans (early : Leans gaining losing before middle)
    (late : Leans gaining losing middle after) : Leans gaining losing before after := by
  intro accountID
  exact ⟨(early accountID).1.trans (late accountID).1, (late accountID).2.trans (early accountID).2⟩

theorem Record.holds_eq_zero {accountID : String} {asset : Asset}
    (elsewhere : record.key ≠ balanceKey accountID asset) : record.holds accountID asset = 0 := by
  unfold balanceKey at elsewhere
  cases record with
  | account acc =>
    refine if_neg ?_
    rintro ⟨native, own⟩
    rw [if_pos native, Record.key_account, own] at elsewhere
    exact elsewhere rfl
  | trust line =>
    refine if_neg ?_
    rintro ⟨issued, owner, lineAsset⟩
    rw [if_neg issued] at elsewhere
    simp [Record.key, owner, lineAsset] at elsewhere

theorem holding_insert (stored : accounts.get record.key = some old) (accountID : String)
    (asset : Asset) :
    holding (accounts.insert record) accountID asset = holding accounts accountID asset +
      (record.holds accountID asset - old.holds accountID asset) := by
  unfold holding
  rw [Bucket.get_insert]
  split_ifs with here
  · rw [here, stored]
    simp
  · have sameKey : old.key = record.key := accounts.ownKey _ _ stored
    rw [Record.holds_eq_zero fun same => here same.symm,
      Record.holds_eq_zero fun same => here (sameKey.symm.trans same).symm]
    simp

theorem Leans.insert (stored : accounts.get record.key = some old)
    (gains : ∀ accountID, old.holds accountID gaining ≤ record.holds accountID gaining)
    (loses : ∀ accountID, record.holds accountID losing ≤ old.holds accountID losing) :
    Leans gaining losing accounts (accounts.insert record) := by
  intro accountID
  have gained := gains accountID
  have lost := loses accountID
  rw [holding_insert stored, holding_insert stored]
  constructor <;> omega

/-- The copies of the maker's records that `Fill` works on hold the stored funds. -/
structure InStep (accounts : Bucket) (acc : Option Account) (line : Option Trust) : Prop where
  account : ∀ held ∈ acc, ∃ stored, accounts.get (Record.account held).key = some stored ∧
    stored.funds = (Record.account held).funds
  line : ∀ held ∈ line, ∃ stored, accounts.get (Record.trust held).key = some stored ∧
    stored.funds = (Record.trust held).funds

variable {acc : Option Account} {line : Option Trust}

theorem InStep.of_funds (inStep : InStep before acc line)
    (same : before.SameUpTo Record.funds after) : InStep after acc line := by
  constructor
  · intro held heldMem
    obtain ⟨stored, stood, alike⟩ := inStep.account held heldMem
    obtain ⟨current, stands, changed⟩ := same.new_of_old stood
    exact ⟨current, stands, changed.trans alike⟩
  · intro held heldMem
    obtain ⟨stored, stood, alike⟩ := inStep.line held heldMem
    obtain ⟨current, stands, changed⟩ := same.new_of_old stood
    exact ⟨current, stands, changed.trans alike⟩

variable {bought : Int64} {held : Trust} {settled : Option Account × Option Trust}

theorem InStep.write_line {written : Trust} (inStep : InStep accounts acc (some held))
    (sameKey : (Record.trust written).key = (Record.trust held).key) :
    InStep (accounts.insert (.trust written)) acc (some written) := by
  obtain ⟨storedLine, lineStands, lineAlike⟩ := inStep.line held rfl
  constructor
  · intro copy copyMem
    obtain ⟨stored, stands, alike⟩ := inStep.account copy copyMem
    refine ⟨stored, ?_, alike⟩
    rw [Bucket.get_insert, if_neg ?_]
    · exact stands
    · intro same
      rw [same, sameKey, lineStands, Option.some.injEq] at stands
      subst stands
      rw [lineAlike] at alike
      simp [Record.funds] at alike
  · rintro copy ⟨⟩
    exact ⟨.trust written, by rw [Bucket.get_insert, if_pos rfl], rfl⟩

theorem InStep.write_account (accounts : Bucket) (written : Account) :
    InStep (accounts.insert (.account written)) (some written) none := by
  constructor
  · rintro copy ⟨⟩
    exact ⟨.account written, by rw [Bucket.get_insert, if_pos rfl], rfl⟩
  · simp

variable {market settledMarket : Market}

theorem BuySettled.leans (settles : BuySettled market bought acc line settled settledMarket)
    (inStep : InStep market.accounts acc line) (notNegative : 0 ≤ bought.toInt)
    (fits : ∀ held ∈ line, held.asset ≠ some losing ∧ held.balance.toInt + bought.toInt ≤ maxInt64)
    (issued : line = none → losing.assetType ≠ .native) :
    Leans gaining losing market.accounts settledMarket.accounts ∧
      InStep settledMarket.accounts settled.1 settled.2 ∧
      market.accounts.SameUpTo Record.identity settledMarket.accounts := by
  cases settles with
  | nothing acc line zero => exact ⟨.of_funds (.refl _ _), inStep, .refl _ _⟩
  | line acc line updated nonzero updates =>
    obtain ⟨other, room⟩ := fits line rfl
    obtain ⟨stored, stands, alike⟩ := inStep.line line rfl
    obtain rfl := eq_of_updateTrustBalance updates
    have exact : (line.balance + bought).toInt = line.balance.toInt + bought.toInt :=
      toInt_add_of_fits (by have := minInt64_le line.balance; omega) room
    refine ⟨Leans.insert stands ?_ ?_, inStep.write_line rfl,
      (Bucket.SameUpTo.refl _ _).insert stands (Record.identity_of_funds alike).symm⟩
    · intro accountID
      rw [Record.holds_of_funds alike]
      simp only [Record.holds]
      split_ifs <;> omega
    · intro accountID
      rw [Record.holds_of_funds alike]
      simp [Record.holds, other]
  | account acc updated nonzero updates =>
    obtain ⟨stored, stands, alike⟩ := inStep.account acc rfl
    obtain ⟨room, -⟩ := guards_of_updateBalance updates
    obtain rfl := eq_of_updateBalance updates
    have exact : (acc.balance + bought).toInt = acc.balance.toInt + bought.toInt := by
      apply toInt_add_of_fits
      · have := minInt64_le acc.balance
        omega
      · by_cases positive : 0 < bought.toInt
        · exact room positive
        · have := le_maxInt64 acc.balance
          omega
    refine ⟨Leans.insert stands ?_ ?_, .write_account _ _,
      (Bucket.SameUpTo.refl _ _).insert stands (Record.identity_of_funds alike).symm⟩
    · intro accountID
      rw [Record.holds_of_funds alike]
      simp only [Record.holds]
      split_ifs <;> omega
    · intro accountID
      rw [Record.holds_of_funds alike]
      simp [Record.holds, issued rfl]

theorem BuySettled.account_eq (settles : BuySettled market bought acc line settled settledMarket)
    (present : line ≠ none) : settled.1 = acc := by
  cases settles with
  | nothing acc line zero => rfl
  | line acc line updated nonzero updates => rfl
  | account acc updated nonzero updates => exact absurd rfl present

theorem SellSettled.leans {sold : Int64} {sellLine : Option Trust} {held : Option Account}
    (settles : SellSettled market sold line acc sellLine held settledMarket)
    (inStep : InStep market.accounts acc line) (notNegative : 0 ≤ sold.toInt)
    (issued : sellLine = none → gaining.assetType ≠ .native ∧
      ∀ copy ∈ acc, 0 ≤ copy.balance.toInt) :
    Leans gaining losing market.accounts settledMarket.accounts ∧
      InStep settledMarket.accounts held none ∧
      market.accounts.SameUpTo Record.identity settledMarket.accounts := by
  cases settles with
  | nothing acc line zero =>
    exact ⟨.of_funds (.refl _ _), ⟨inStep.account, by simp⟩, .refl _ _⟩
  | line acc line updated saved nonzero updates other =>
    subst other
    obtain ⟨stored, stands, alike⟩ := inStep.line saved rfl
    exact ⟨.of_funds ((Bucket.SameUpTo.refl _ _).insert stands alike.symm),
      ⟨(inStep.write_line rfl).account, by simp⟩,
      (Bucket.SameUpTo.refl _ _).insert stands (Record.identity_of_funds alike).symm⟩
  | account acc updated nonzero updates =>
    obtain ⟨notNative, solvent⟩ := issued rfl
    have balance := solvent acc rfl
    obtain ⟨stored, stands, alike⟩ := inStep.account acc rfl
    obtain rfl := eq_of_updateBalance updates
    have exact : (acc.balance + -sold).toInt = acc.balance.toInt - sold.toInt := by
      rw [← Int64.sub_eq_add_neg]
      have := le_maxInt64 sold
      have := le_maxInt64 acc.balance
      apply toInt_sub_of_fits <;> unfold minInt64 maxInt64 at * <;> omega
    refine ⟨Leans.insert stands ?_ ?_, .write_account _ _,
      (Bucket.SameUpTo.refl _ _).insert stands (Record.identity_of_funds alike).symm⟩
    · intro accountID
      rw [Record.holds_of_funds alike]
      simp [Record.holds, notNative]
    · intro accountID
      rw [Record.holds_of_funds alike]
      simp only [Record.holds]
      split_ifs <;> omega

/-- The offer matches the order, its maker has own records for the assets, and what is
traded is not negative and fits into the balances. -/
structure Sane (am : AccountManager) (filling : Filling) : Prop where
  bearers : filling.offer.BearersOwn filling.market.accounts
  sells : filling.offer.sellAsset = filling.order.buyAsset
  buys : filling.offer.buyAsset = filling.order.sellAsset
  apart : filling.order.buyAsset ≠ filling.order.sellAsset
  issued : filling.order.buyAsset.assetType ≠ .native ∨ filling.order.sellAsset.assetType ≠ .native
  buyLine : filling.order.buyAsset.assetType ≠ .native →
    filling.market.accounts.OnlyLineAt filling.offer.accountID filling.order.buyAsset ∧
      filling.offer.accountID ≠ filling.order.buyAsset.issuer ∧
      getTrust filling.market.accounts filling.offer.accountID filling.order.buyAsset ≠ none
  sellLine : filling.order.sellAsset.assetType ≠ .native →
    getTrust filling.market.accounts filling.offer.accountID filling.order.sellAsset ≠ none
  solvent : filling.order.sellAsset.assetType = .native →
    0 ≤ (balanceOf filling.market.accounts filling.offer.accountID).toInt
  trade : ∀ amounts, tradeOf am filling = .ok amounts →
    filling.order.sellAssetSold.toInt ≤ amounts.sellAssetSold.toInt ∧
      filling.order.buyAssetBought.toInt ≤ amounts.buyAssetBought.toInt ∧
      ∀ line ∈ getTrust filling.market.accounts filling.offer.accountID filling.order.buyAsset,
        line.balance.toInt + amounts.buyAssetBought.toInt ≤ maxInt64

/-- What `Fill` does, whether it succeeds or not: the maker does not lose what the order
buys and does not gain what it sells. -/
structure Leaned (am : AccountManager) (before after : Filling) : Prop where
  leans : Leans before.order.buyAsset before.order.sellAsset before.market.accounts
    after.market.accounts
  sold : before.order.sellAssetSold.toInt ≤ after.order.sellAssetSold.toInt
  bought : before.order.buyAssetBought.toInt ≤ after.order.buyAssetBought.toInt
  assets : after.order.buyAsset = before.order.buyAsset ∧
    after.order.sellAsset = before.order.sellAsset
  traded : (updateOfferLiability before.offer false before.market).isDone = true →
    ∀ amounts, tradeOf am before = .ok amounts → after.order.toAmounts = amounts ∧
      (amounts.sellAssetSold = 0 → amounts.buyAssetBought = 0 →
        after.offer = before.offer.filledBy after.order)

theorem Sane.line_of_read (sane : Sane am start)
    (read : held ∈ tradedLine start.market.accounts start.offer.accountID start.offer.sellAsset) :
    start.order.buyAsset.assetType ≠ .native ∧
      getTrust start.market.accounts start.offer.accountID start.order.buyAsset = some held := by
  unfold tradedLine at read
  rw [sane.sells] at read
  split_ifs at read with issued
  · exact ⟨issued, read⟩
  · simp at read

theorem Sane.inStep (sane : Sane am start) :
    InStep start.market.accounts (getAccount start.market.accounts start.offer.accountID)
      (tradedLine start.market.accounts start.offer.accountID start.offer.sellAsset) := by
  constructor
  · intro held read
    obtain ⟨stored, own⟩ := get_of_getAccount sane.bearers.account read
    exact ⟨.account held, by rwa [Record.key_account, own], rfl⟩
  · intro held read
    obtain ⟨issued, read⟩ := sane.line_of_read read
    obtain ⟨only, apart, -⟩ := sane.buyLine issued
    have stored := get_of_getTrust only.noAccountAt apart read
    exact ⟨.trust held, by rwa [start.market.accounts.ownKey _ _ stored], rfl⟩

theorem Sane.losing_issued (sane : Sane am start)
    (missing : tradedLine start.market.accounts start.offer.accountID start.offer.sellAsset = none) :
    start.order.sellAsset.assetType ≠ .native := by
  unfold tradedLine at missing
  rw [sane.sells] at missing
  split_ifs at missing with issued
  · exact absurd missing (sane.buyLine issued).2.2
  · exact sane.issued.resolve_left issued

theorem Sane.gaining_issued (sane : Sane am start)
    (missing : tradedLine start.market.accounts start.offer.accountID start.offer.buyAsset = none) :
    start.order.sellAsset.assetType = .native ∧ start.order.buyAsset.assetType ≠ .native := by
  unfold tradedLine at missing
  rw [sane.buys] at missing
  split_ifs at missing with issued
  · exact absurd missing (sane.sellLine issued)
  · exact ⟨not_not.mp issued, sane.issued.resolve_right issued⟩

theorem fill_leans (sane : Sane am start) (soldBefore : 0 ≤ start.order.sellAssetSold.toInt)
    (boughtBefore : 0 ≤ start.order.buyAssetBought.toInt) :
    (fill am).Holds start (fun _ => Leaned am start) (fun _ => Leaned am start) := by
  refine holds_fill (fun market =>
    (updateOfferLiability start.offer false start.market).isDone = true ∧
      start.market.accounts.SameUpTo Record.unburdened market.accounts) ?_ ?_ ?_
  · refine (release_holds sane.bearers).mono (fun _ _ released => released) ?_
    rintro - market ⟨stuck, released⟩
    refine ⟨.of_funds released.funds_of_unburdened, le_rfl, le_rfl, ⟨rfl, rfl⟩, ?_⟩
    intro done
    rw [stuck] at done
    simp at done
  · rintro - market ⟨-, released⟩ panics
    exact ⟨.of_funds released.funds_of_unburdened, le_rfl, le_rfl, ⟨rfl, rfl⟩,
      fun _ amounts trades => absurd trades (panics amounts)⟩
  · rintro market amounts ⟨-, released⟩ trades
    obtain ⟨sold, bought, room⟩ := sane.trade amounts trades
    have funds := released.funds_of_unburdened
    have inStep := sane.inStep.of_funds funds
    have leaned : ∀ settledMarket offer,
        Leans start.order.buyAsset start.order.sellAsset market.accounts settledMarket.accounts →
        (amounts.sellAssetSold = 0 → amounts.buyAssetBought = 0 →
          offer = start.offer.filledBy (start.traded market amounts).order) →
        Leaned am start
          { start.traded market amounts with market := settledMarket, offer := offer } := by
      intro settledMarket offer leans filled
      refine ⟨.trans (.of_funds funds) leans, sold, bought, ⟨rfl, rfl⟩, ?_⟩
      intro _ others othersTrade
      cases trades.symm.trans othersTrade
      exact ⟨rfl, filled⟩
    have fits : ∀ held ∈ tradedLine start.market.accounts start.offer.accountID
        start.offer.sellAsset, held.asset ≠ some start.order.sellAsset ∧
          held.balance.toInt + amounts.buyAssetBought.toInt ≤ maxInt64 := by
      intro held read
      obtain ⟨issued, read⟩ := sane.line_of_read read
      refine ⟨?_, room held read⟩
      rw [(line_of_getTrust (sane.buyLine issued).1 read).2]
      exact fun same => sane.apart (Option.some.inj same)
    refine holds_settleOffer ?_ ?_ ?_
    · exact fun _ nonzero => leaned market start.offer (.of_funds (.refl _ _))
        fun _ zero => absurd zero nonzero
    · intro fault settled boughtMarket nonzero buys
      obtain ⟨leans, -, -⟩ := buys.leans inStep (boughtBefore.trans bought) fits sane.losing_issued
      exact leaned boughtMarket start.offer leans fun zero _ => absurd zero nonzero
    · intro settled boughtMarket held soldMarket buys sells
      obtain ⟨buyLeans, boughtInStep, boughtSame⟩ : Leans start.order.buyAsset _ _ _ ∧ _ ∧ _ :=
        buys.leans inStep (boughtBefore.trans bought) fits sane.losing_issued
      have gainingIssued : tradedLine start.market.accounts start.offer.accountID
          start.offer.buyAsset = none → start.order.buyAsset.assetType ≠ .native ∧
            ∀ copy ∈ settled.1, 0 ≤ copy.balance.toInt := by
        intro missing
        obtain ⟨native, issued⟩ := sane.gaining_issued missing
        have present : tradedLine start.market.accounts start.offer.accountID
            start.offer.sellAsset ≠ none := by
          unfold tradedLine
          rw [sane.sells, if_pos issued]
          exact (sane.buyLine issued).2.2
        rw [buys.account_eq present]
        refine ⟨issued, fun copy read => ?_⟩
        rw [← balanceOf_eq read]
        exact sane.solvent native
      obtain ⟨sellLeans, soldInStep, soldSame⟩ : Leans _ start.order.sellAsset _ _ ∧ _ ∧ _ :=
        sells.leans boughtInStep (soldBefore.trans sold) gainingIssued
      have bearers := ((sane.bearers.of_identity released.identity_of_unburdened).of_identity
        (boughtSame.trans soldSame)).filledBy (start.traded market amounts).order
      have leans := buyLeans.trans sellLeans
      refine (finishOffer_holds bearers am held).mono ?_ ?_
      · intro _ after finished
        refine leaned after _ (leans.trans (.of_funds (finished.funds fun copy copyMem => ?_)))
          fun _ _ => rfl
        obtain ⟨stored, stands, alike⟩ := soldInStep.account copy copyMem
        exact ⟨stored, stands, alike.symm⟩
      · intro _ after same
        exact leaned after _ (leans.trans (.of_funds same.funds_of_unburdened)) fun _ _ => rfl

end Leaning

variable {matching : Matching} {order : Order} {final : Matching}

theorem Crossings.unmoved (run : Crossings am offers matching crossings final)
    (idle : ∀ crossing ∈ crossings,
      crossing.before.offer.BearersOwn crossing.before.market.accounts ∧ Idle am crossing.before)
    (soldNothing : matching.order.sellAssetSold = 0)
    (boughtNothing : matching.order.buyAssetBought = 0) :
    (final.order.sellAssetSold = 0 ∧ final.order.buyAssetBought = 0 ∧
      matching.market.accounts.SameUpTo Record.funds final.market.accounts) ∧
      ∀ crossing ∈ crossings, Unmoved crossing.before crossing.after := by
  induction run with
  | stop offers matching => exact ⟨⟨soldNothing, boughtNothing, .refl _ _⟩, by simp⟩
  | last rest crossing called apart full =>
    obtain ⟨own, quiet⟩ := idle crossing (by simp)
    have unmoved := called.ends (fill_unmoved own quiet soldNothing boughtNothing)
    exact ⟨⟨unmoved.sold.trans soldNothing, unmoved.bought.trans boughtNothing, unmoved.funds⟩,
      by simpa using unmoved⟩
  | step rest crossing crossings final called apart later ih =>
    obtain ⟨own, quiet⟩ := idle crossing (by simp)
    have unmoved := called.ends (fill_unmoved own quiet soldNothing boughtNothing)
    obtain ⟨⟨sold, bought, funds⟩, all⟩ := ih
      (List.forall_mem_cons.mp idle).2
      (unmoved.sold.trans soldNothing) (unmoved.bought.trans boughtNothing)
    refine ⟨⟨sold, bought, unmoved.funds.trans funds⟩, ?_⟩
    intro other otherMem
    rcases List.mem_cons.mp otherMem with rfl | tail
    · exact unmoved
    · exact all other tail

theorem Crossings.leaned (run : Crossings am offers matching crossings final)
    (sane : ∀ crossing ∈ crossings, Sane am crossing.before)
    (soldBefore : 0 ≤ matching.order.sellAssetSold.toInt)
    (boughtBefore : 0 ≤ matching.order.buyAssetBought.toInt) :
    (Leans matching.order.buyAsset matching.order.sellAsset matching.market.accounts
        final.market.accounts ∧
      matching.order.sellAssetSold.toInt ≤ final.order.sellAssetSold.toInt ∧
      matching.order.buyAssetBought.toInt ≤ final.order.buyAssetBought.toInt) ∧
    ∀ crossing ∈ crossings, Leaned am crossing.before crossing.after ∧
      (matching.order.sellAssetSold.toInt ≤ crossing.before.order.sellAssetSold.toInt ∧
        crossing.after.order.sellAssetSold.toInt ≤ final.order.sellAssetSold.toInt) ∧
      matching.order.buyAssetBought.toInt ≤ crossing.before.order.buyAssetBought.toInt ∧
        crossing.after.order.buyAssetBought.toInt ≤ final.order.buyAssetBought.toInt := by
  induction run with
  | stop offers matching => exact ⟨⟨.of_funds (.refl _ _), le_rfl, le_rfl⟩, by simp⟩
  | last rest crossing called apart full =>
    have leaned := called.ends (fill_leans (sane crossing (by simp)) soldBefore boughtBefore)
    refine ⟨⟨leaned.leans, leaned.sold, leaned.bought⟩, ?_⟩
    simpa using leaned
  | step rest crossing crossings final called apart later ih =>
    have leaned := called.ends (fill_leans (sane crossing (by simp)) soldBefore boughtBefore)
    obtain ⟨⟨leans, sold, bought⟩, all⟩ := ih
      (List.forall_mem_cons.mp sane).2
      (soldBefore.trans leaned.sold) (boughtBefore.trans leaned.bought)
    change Leans crossing.after.order.buyAsset crossing.after.order.sellAsset _ _ at leans
    rw [leaned.assets.1, leaned.assets.2] at leans
    refine ⟨⟨leaned.leans.trans leans, leaned.sold.trans sold, leaned.bought.trans bought⟩, ?_⟩
    intro other otherMem
    rcases List.mem_cons.mp otherMem with rfl | tail
    · exact ⟨leaned, ⟨le_rfl, sold⟩, le_rfl, bought⟩
    · obtain ⟨otherLeaned, otherSold, otherBought⟩ := all other tail
      exact ⟨otherLeaned, ⟨leaned.sold.trans otherSold.1, otherSold.2⟩,
        leaned.bought.trans otherBought.1, otherBought.2⟩

def makersOf (crossings : List Crossing) : Finset String :=
  (crossings.map fun crossing => crossing.before.offer.accountID).toFinset

/-- The makers have lost what the order has bought and gained what it has sold, and
every offer has lost what was taken from it. -/
@[mk_iff]
structure Conserved (order : Order) (before after : Bucket) (final : Order)
    (crossings : List Crossing) : Prop where
  lost : heldBy (makersOf crossings) before order.buyAsset -
    heldBy (makersOf crossings) after order.buyAsset = final.buyAssetBought.toInt
  gained : heldBy (makersOf crossings) after order.sellAsset -
    heldBy (makersOf crossings) before order.sellAsset = final.sellAssetSold.toInt
  taken : ∀ crossing ∈ crossings,
    crossing.before.offer.amount.toInt - crossing.after.offer.amount.toInt =
      crossing.after.order.buyAssetBought.toInt - crossing.before.order.buyAssetBought.toInt

instance decidableConserved (order : Order) (before after : Bucket) (final : Order)
    (crossings : List Crossing) : Decidable (Conserved order before after final crossings) :=
  decidable_of_iff' _ (conserved_iff order before after final crossings)

def Conserves (m : Manager) (order : Order) (market : Market) : Prop :=
  (fillOrder m order).Holds market
    (fun result after => Conserved order market.accounts after.accounts result.1 result.2)
    (fun _ _ => True)

def Along (m : Manager) (order : Order) (market : Market) (condition : Filling → Prop) : Prop :=
  (fillOrder m order).Holds market
    (fun result _ => ∀ crossing ∈ result.2, condition crossing.before)
    (fun _ _ => True)

theorem heldBy_eq {before after : Bucket} (same : before.SameUpTo Record.funds after)
    (makers : Finset String) (asset : Asset) : heldBy makers after asset = heldBy makers before asset :=
  Finset.sum_congr rfl fun maker _ => holding_eq same maker asset

theorem Conserved.of_idle {final : Order}
    (run : Crossings am offers ⟨market, order⟩ crossings ⟨after, final⟩)
    (own : ∀ crossing ∈ crossings, crossing.before.offer.BearersOwn crossing.before.market.accounts)
    (idle : ∀ crossing ∈ crossings, Idle am crossing.before) (soldNothing : order.sellAssetSold = 0)
    (boughtNothing : order.buyAssetBought = 0) :
    Conserved order market.accounts after.accounts final crossings := by
  obtain ⟨⟨sold, bought, funds⟩, unmoved⟩ := run.unmoved
    (fun crossing crossingMem => ⟨own crossing crossingMem, idle crossing crossingMem⟩)
    soldNothing boughtNothing
  constructor
  · rw [heldBy_eq funds, bought]
    simp
  · rw [heldBy_eq funds, sold]
    simp
  · intro crossing crossingMem
    rw [(unmoved crossing crossingMem).amount, (unmoved crossing crossingMem).bought]
    simp

theorem Conserved.idle {final : Order}
    (run : Crossings am offers ⟨market, order⟩ crossings ⟨after, final⟩)
    (sane : ∀ crossing ∈ crossings, Sane am crossing.before) (soldNothing : order.sellAssetSold = 0)
    (boughtNothing : order.buyAssetBought = 0)
    (conserved : Conserved order market.accounts after.accounts final crossings) :
    ∀ crossing ∈ crossings, Idle am crossing.before := by
  obtain ⟨⟨leans, sold, bought⟩, leaned⟩ := run.leaned sane (by simp [soldNothing])
    (by simp [boughtNothing])
  dsimp only at leans sold bought leaned
  have soldNone : final.sellAssetSold.toInt ≤ 0 := by
    have less : heldBy (makersOf crossings) after.accounts order.sellAsset ≤
        heldBy (makersOf crossings) market.accounts order.sellAsset :=
      Finset.sum_le_sum fun maker _ => (leans maker).2
    have gained := conserved.gained
    omega
  have boughtNone : final.buyAssetBought.toInt ≤ 0 := by
    have more : heldBy (makersOf crossings) market.accounts order.buyAsset ≤
        heldBy (makersOf crossings) after.accounts order.buyAsset :=
      Finset.sum_le_sum fun maker _ => (leans maker).1
    have lost := conserved.lost
    omega
  intro crossing crossingMem done amounts trades
  obtain ⟨lean, ⟨soldLow, soldHigh⟩, boughtLow, boughtHigh⟩ := leaned crossing crossingMem
  obtain ⟨rfl, filled⟩ := lean.traded done amounts trades
  have soldFirst : order.sellAssetSold.toInt = 0 := by simp [soldNothing]
  have boughtFirst : order.buyAssetBought.toInt = 0 := by simp [boughtNothing]
  have soldAfter : crossing.after.order.sellAssetSold.toInt = 0 := by
    have := lean.sold
    omega
  have boughtAfter : crossing.after.order.buyAssetBought.toInt = 0 := by
    have := lean.bought
    omega
  refine ⟨Int64.toInt_inj.mp ?_, Int64.toInt_inj.mp ?_, ?_⟩
  · have := lean.sold
    omega
  · have := lean.bought
    omega
  · by_cases full : crossing.after.order.full = true
    · exact .inl full
    · right
      have emptied : crossing.after.offer.amount = 0 := by
        rw [filled (Int64.toInt_inj.mp (by simpa using soldAfter))
          (Int64.toInt_inj.mp (by simpa using boughtAfter))]
        exact if_neg full
      have taken := conserved.taken crossing crossingMem
      rw [emptied] at taken
      apply Int64.toInt_inj.mp
      have := lean.bought
      omega

/-- An order conserves the assets if it trades with idle offers only, and along sane
crossings only then. -/
theorem fillOrder_conserves (m : Manager) (order : Order) (market : Market)
    (soldNothing : order.sellAssetSold = 0) (boughtNothing : order.buyAssetBought = 0)
    (own : Along m order market fun filling => filling.offer.BearersOwn filling.market.accounts) :
    (Along m order market (Idle m.am) → Conserves m order market) ∧
      (Along m order market (Sane m.am) → Conserves m order market →
        Along m order market (Idle m.am)) := by
  have run := fillOrder_crossings m order market
  constructor
  · intro idle
    refine ((run.and own).and idle).mono ?_ (fun _ _ _ => trivial)
    rintro result after ⟨⟨crossings, bearers⟩, quiet⟩
    exact .of_idle crossings bearers quiet soldNothing boughtNothing
  · intro sane conserves
    refine ((run.and sane).and conserves).mono ?_ (fun _ _ _ => trivial)
    rintro result after ⟨⟨crossings, proper⟩, conserved⟩
    exact conserved.idle crossings proper soldNothing boughtNothing

section Samples

private def silver : Asset := ⟨.custom, "AG", "mint"⟩
private def copper : Asset := ⟨.custom, "CU", "mint"⟩

private def plainManager : Manager := .unsorted ⟨100⟩

/-- Offers of silver at one price, from makers who hold some of it.  The sort of the source
turns two such offers around. -/
private def silverMarket (makers : List (String × String × Int64)) : Market :=
  makers.foldr
    (fun (offerID, maker, balance) market =>
      ⟨((market.accounts.insert (.account ⟨maker, 1000000, "", 2, 3, some ⟨0, 0⟩⟩)).insert
        (.trust ⟨maker, some silver, balance, 10000, some ⟨0, 0⟩, 1⟩)).insert
        (.trust ⟨maker, some copper, 1000, 10000, some ⟨100, 100⟩, 1⟩),
        market.exchange.put ⟨offerID, maker, silver, copper, 100, ⟨1, 1⟩, 0⟩,
        market.offers.put ⟨offerID, maker, silver, copper, 100, ⟨1, 1⟩, 0⟩⟩)
    ⟨Bucket.empty, .empty _, .empty _⟩

private def silverOrder (maxSellAsset : Int64) : Order where
  maxSellAsset := maxSellAsset
  maxBuyAsset := 1000
  sellAssetSold := 0
  buyAssetBought := 0
  full := false
  accountID := "alice"
  sellAsset := copper
  buyAsset := silver
  price := some ⟨1, 1⟩
  filledOffers := []
  filterPrice := true

/-- An order that has nothing to pay with crosses the offer and trades nothing. -/
theorem fillOrder_conserves_of_nothing :
    (fillOrder plainManager (silverOrder 0)).Holds (silverMarket [("1", "bob", 1000)])
      (fun result _ => result.2.map (fun crossing => crossing.error) = [none])
      (fun _ _ => False) ∧
    Conserves plainManager (silverOrder 0) (silverMarket [("1", "bob", 1000)]) := by
  refine ⟨by decide +kernel, (fillOrder_conserves plainManager (silverOrder 0) _ rfl rfl ?_).1 ?_⟩
  · unfold Along
    decide +kernel
  · unfold Along
    decide +kernel

/-- Bob sells ten units of silver and has ten more of it afterwards.  If Bob has only
five to sell, the rest of Bob's offer is gone. -/
theorem fillOrder_pays_makers :
    ((fillOrder plainManager (silverOrder 10)).Holds (silverMarket [("1", "bob", 1000)])
      (fun result after => result.1.buyAssetBought = 10 ∧ result.1.sellAssetSold = 10 ∧
        result.2.map (fun crossing => crossing.error) = [none] ∧
        holding after.accounts "bob" silver = 1010 ∧ holding after.accounts "bob" copper = 1000)
      (fun _ _ => False) ∧
    ¬ Conserves plainManager (silverOrder 10) (silverMarket [("1", "bob", 1000)])) ∧
    (fillOrder plainManager (silverOrder 10)).Holds
      (silverMarket [("2", "bob", 5), ("1", "carol", 1000)])
      (fun result after => result.1.buyAssetBought = 10 ∧ result.1.sellAssetSold = 10 ∧
        result.2.map (fun crossing => (crossing.before.offer.accountID,
          crossing.after.offer.amount, crossing.error)) =
            [("bob", 0, none), ("carol", 90, none)] ∧
        holding after.accounts "bob" silver = 10 ∧ holding after.accounts "carol" silver = 1010)
      (fun _ _ => False) ∧
    ¬ Conserves plainManager (silverOrder 10)
      (silverMarket [("2", "bob", 5), ("1", "carol", 1000)]) := by
  unfold Conserves
  refine ⟨⟨?_, ?_⟩, ?_, ?_⟩ <;> decide +kernel

end Samples

end Exchange

end Ultiledger
