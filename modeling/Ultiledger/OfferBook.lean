import Ultiledger.OfferSteps

/-! # What the exchange does to the book -/

namespace Ultiledger

namespace Exchange

open AbortingProgram Program KeyedStore

structure Market.SameBook (before after : Market) : Prop where
  exchange : after.exchange = before.exchange
  offers : after.offers = before.offers

theorem Market.SameBook.refl (market : Market) : market.SameBook market := ⟨rfl, rfl⟩

theorem Market.SameBook.trans {first second third : Market} (early : first.SameBook second)
    (late : second.SameBook third) : first.SameBook third :=
  ⟨late.exchange.trans early.exchange, late.offers.trans early.offers⟩

section Untouched

variable {Value Result : Type}

def LeavesBook (program : MarketM Value) : Prop := Steps Market.SameBook program

theorem LeavesBook.pure (value : Value) : LeavesBook (Pure.pure value) :=
  Steps.pure Market.SameBook.refl value

theorem LeavesBook.lift (result : Except OpError Value) : LeavesBook (Program.lift result) :=
  Steps.lift Market.SameBook.refl result

theorem LeavesBook.bind {first : MarketM Value} {next : Value → MarketM Result}
    (firstLeaves : LeavesBook first) (nextLeaves : ∀ value, LeavesBook (next value)) :
    LeavesBook (first >>= next) :=
  Steps.bind (fun _ _ _ early late => early.trans late) firstLeaves nextLeaves

theorem LeavesBook.wrapFault {program : MarketM Value} (leaves : LeavesBook program)
    (context : String) : LeavesBook (Exchange.wrapFault context program) :=
  Steps.mapFault _ leaves

theorem LeavesBook.readAccounts (read : Bucket → Value) : LeavesBook (Exchange.readAccounts read) :=
  fun market => .refl market

theorem LeavesBook.writeAccounts (write : Bucket → Except OpError Bucket) :
    LeavesBook (Exchange.writeAccounts write) :=
  fun market => writeAccounts_holds (fun _ _ => ⟨rfl, rfl⟩) (fun _ => .refl market)

theorem LeavesBook.saveAccount (acc : Option Account) : LeavesBook (Exchange.saveAccount acc) := by
  cases acc with
  | none => exact .abort .refl _
  | some acc => exact .writeAccounts fun putter => Ultiledger.saveAccount putter acc

theorem LeavesBook.saveTrust (line : Option Trust) : LeavesBook (Exchange.saveTrust line) := by
  cases line with
  | none => exact .abort .refl _
  | some line => exact .writeAccounts fun putter => Ultiledger.saveTrust putter line

theorem leavesBook_changeAccountLiability (context accountID : String) (amount : Int64)
    (buy : Bool) : LeavesBook (changeAccountLiability context accountID amount buy) :=
  .bind (.readAccounts _) fun _ => .bind (.wrapFault (.lift _) _) fun _ =>
    .wrapFault (.saveAccount _) _

theorem leavesBook_changeTrustLiability (accountID : String) (asset : Asset) (amount : Int64)
    (buy : Bool) : LeavesBook (changeTrustLiability accountID asset amount buy) :=
  .bind (.readAccounts _) fun _ => .bind (.wrapFault (.lift _) _) fun _ =>
    .wrapFault (.saveTrust _) _

theorem leavesBook_chargeSide (onRead onUpdate : String) (offer : Offer) (acquire side : Bool) :
    LeavesBook (chargeSide onRead onUpdate offer acquire side) := by
  refine .bind (.wrapFault (.lift _) _) fun amount => ?_
  by_cases native : (offer.traded side).assetType = .native
  · rw [if_pos native]
    exact leavesBook_changeAccountLiability _ _ _ _
  · rw [if_neg native]
    exact leavesBook_changeTrustLiability _ _ _ _

variable (am : AccountManager) (held : Holdings) (offer : Offer)

theorem leavesBook_updateOfferLiability (acquire : Bool) :
    LeavesBook (updateOfferLiability offer acquire) := by
  rw [updateOfferLiability_eq]
  exact .bind (leavesBook_chargeSide _ _ _ _ _) fun _ => leavesBook_chargeSide _ _ _ _ _

theorem leavesBook_bumpEntryCount (acc : Account) (count : Int32) (newOffer : Bool) :
    LeavesBook (bumpEntryCount am acc count newOffer) := by
  cases newOffer with
  | false => exact .pure acc
  | true =>
    exact .bind (.wrapFault (.lift _) _) fun _ =>
      .bind (.wrapFault (.saveAccount _) _) fun _ => .pure _

theorem leavesBook_getOfferLimits (newOffer : Bool) :
    LeavesBook (getOfferLimits am held offer newOffer) :=
  .bind (leavesBook_bumpEntryCount _ _ _ _) fun _ => .bind (.lift _) fun _ => .bind (.lift _) fun _ =>
    .bind (leavesBook_bumpEntryCount _ _ _ _) fun _ => .pure _

theorem leavesBook_creditBuyAsset (buyAssetBought : Int64) :
    LeavesBook (creditBuyAsset held offer buyAssetBought) := by
  unfold creditBuyAsset
  split_ifs
  · exact .bind (.wrapFault (.lift _) _) fun _ =>
      .bind (.wrapFault (.saveAccount _) _) fun _ => .pure _
  · exact .bind (.lift _) fun _ => .bind (.wrapFault (.lift _) _) fun _ =>
      .bind (.wrapFault (.saveTrust _) _) fun _ => .pure _

theorem leavesBook_debitSellAsset (sellAssetSold : Int64) :
    LeavesBook (debitSellAsset held offer sellAssetSold) := by
  unfold debitSellAsset
  split_ifs
  · exact .bind (.wrapFault (.lift _) _) fun _ =>
      .bind (.wrapFault (.saveAccount _) _) fun _ => .pure _
  · exact .bind (.lift _) fun _ => .bind (.wrapFault (.lift _) _) fun _ =>
      .bind (.wrapFault (.saveTrust _) _) fun _ => .pure _

theorem leavesBook_updateBalances (order : Order) :
    LeavesBook (updateBalances held offer order) := by
  unfold updateBalances
  split_ifs
  · exact .wrapFault (.bind (leavesBook_creditBuyAsset _ _ _) fun _ =>
      leavesBook_debitSellAsset _ _ _) _
  · exact .pure held

end Untouched

section Filling

inductive BookChange (offer : Offer) (before after : Market) : Prop
  | untouched (same : before.SameBook after)
  | deleted (exchange : after.exchange = before.exchange.delete offer.exchangeKey)
      (offers : after.offers = before.offers.delete offer.offerKey)
  | saved (amount : Int64)
      (exchange : after.exchange = before.exchange.put { offer with amount := amount })
      (offers : after.offers = before.offers.put { offer with amount := amount })

variable {offer : Offer} {before after middle : Market} {acc : Option Account} {line : Option Trust}

theorem BookChange.after_same (same : before.SameBook middle)
    (change : BookChange offer middle after) : BookChange offer before after := by
  obtain ⟨exchange, offers⟩ := same
  cases change with
  | untouched same => exact .untouched (Market.SameBook.trans ⟨exchange, offers⟩ same)
  | deleted deleted deletedToo =>
    exact .deleted (by rw [deleted, exchange]) (by rw [deletedToo, offers])
  | saved amount saved savedToo =>
    exact .saved amount (by rw [saved, exchange]) (by rw [savedToo, offers])

theorem BookChange.before_same (change : BookChange offer before middle)
    (same : middle.SameBook after) : BookChange offer before after := by
  obtain ⟨exchange, offers⟩ := same
  cases change with
  | untouched same => exact .untouched (same.trans ⟨exchange, offers⟩)
  | deleted deleted deletedToo =>
    exact .deleted (exchange.trans deleted) (offers.trans deletedToo)
  | saved amount saved savedToo =>
    exact .saved amount (exchange.trans saved) (offers.trans savedToo)

theorem saveOffer_fits (fits : offer.offerKey.length ≤ 32768) (market : Market) :
    (saveOffer offer).Holds market
      (fun _ after => after.exchange = market.exchange.put offer ∧
        after.offers = market.offers.put offer)
      (fun _ after => after = market) := by
  unfold saveOffer putOffer
  rw [if_neg (Nat.not_lt.mpr fits)]
  split_ifs
  · rfl
  · exact ⟨rfl, rfl⟩

theorem finishOffer_book (fits : offer.offerKey.length ≤ 32768) (am : AccountManager)
    (acc : Option Account) (market : Market) :
    (finishOffer am acc offer).Holds market (fun _ => BookChange offer market)
      (fun _ => BookChange offer market) := by
  unfold finishOffer
  split_ifs with empty
  · have rest : LeavesBook (do
        let acc ← lift (deref "acc" acc)
        let acc ← wrapFault "update entry count failed: " (lift (am.updateEntryCount acc (-1)))
        wrapFault "save account failed: " (Exchange.saveAccount (some acc))) :=
      .bind (.lift _) fun _ => .bind (.wrapFault (.lift _) _) fun _ =>
        .wrapFault (.saveAccount _) _
    exact (rest _).mono
      (fun _ _ same => .before_same (.deleted rfl rfl) same)
      (fun _ _ same => .before_same (.deleted rfl rfl) same)
  · rw [holds_bind, wrapFault, holds_mapFault]
    refine (saveOffer_fits fits market).mono ?_ ?_
    · rintro - saved ⟨exchange, offers⟩
      have change : BookChange offer market saved := .saved offer.amount exchange offers
      exact ((leavesBook_updateOfferLiability offer true).wrapFault _ saved).mono
        (fun _ _ same => change.before_same same) (fun _ _ same => change.before_same same)
    · rintro - after rfl
      exact .untouched (.refl _)

theorem BuySettled.sameBook {market : Market} {bought : Int64}
    {settled : Option Account × Option Trust}
    (settles : BuySettled market bought acc line settled after) : market.SameBook after := by
  cases settles with
  | nothing acc line zero => exact .refl _
  | line acc line updated nonzero updates => exact ⟨rfl, rfl⟩
  | account acc updated nonzero updates => exact ⟨rfl, rfl⟩

theorem SellSettled.sameBook {market : Market} {sold : Int64} {held : Option Account}
    {buyAssetTrust : Option Trust}
    (settles : SellSettled market sold buyAssetTrust acc line held after) :
    market.SameBook after := by
  cases settles with
  | nothing acc line zero => exact .refl _
  | line acc line updated saved nonzero updates other => exact ⟨rfl, rfl⟩
  | account acc updated nonzero updates => exact ⟨rfl, rfl⟩

/-- `Fill` changes the book at its own offer only, and does not change whose order it
fills. -/
theorem fill_book {am : AccountManager} {start : Filling}
    (fits : start.offer.offerKey.length ≤ 32768) :
    (fill am).Holds start
      (fun _ after => after.order.accountID = start.order.accountID ∧
        BookChange start.offer start.market after.market)
      (fun _ after => after.order.accountID = start.order.accountID ∧
        BookChange start.offer start.market after.market) := by
  refine holds_fill start.market.SameBook ?_ ?_ ?_
  · exact (leavesBook_updateOfferLiability start.offer false start.market).mono
      (fun _ _ same => same) (fun _ _ same => ⟨rfl, .untouched same⟩)
  · exact fun _ _ same _ => ⟨rfl, .untouched same⟩
  · intro market amounts same _
    refine holds_settleOffer (fun _ _ => ⟨rfl, .untouched same⟩) ?_ ?_
    · intro _ settled boughtMarket _ buys
      exact ⟨rfl, .untouched (same.trans buys.sameBook)⟩
    · intro settled boughtMarket held soldMarket buys sells
      have settledBook := same.trans (buys.sameBook.trans sells.sameBook)
      have finished := finishOffer_book
        (show (start.offer.filledBy (start.traded market amounts).order).offerKey.length ≤ 32768
          from fits) am held soldMarket
      have reached : ∀ after,
          BookChange (start.offer.filledBy (start.traded market amounts).order) soldMarket after →
            BookChange start.offer start.market after := by
        intro after change
        refine .after_same settledBook ?_
        cases change with
        | untouched same => exact .untouched same
        | deleted exchange offers => exact .deleted exchange offers
        | saved amount exchange offers => exact .saved amount exchange offers
      exact finished.mono (fun _ after change => ⟨rfl, reached after change⟩)
        (fun _ after change => ⟨rfl, reached after change⟩)

end Filling

section Agreement

/-- Both buckets hold the same offers, and each of them can be saved again. -/
structure Market.Agrees (market : Market) : Prop where
  same : market.exchange.Agree market.offers
  fits : ∀ offer ∈ market.offers.values, offer.offerKey.length ≤ 32768

structure Market.Moved (accountID : String) (before after : Market) : Prop where
  own : ∀ offer, offer.accountID = accountID →
    (offer ∈ after.exchange.values ↔ offer ∈ before.exchange.values)
  stems : ∀ offer ∈ after.exchange.values, ∃ former ∈ before.exchange.values,
    offer = { former with amount := offer.amount }

variable {before middle after : Market} {offer : Offer} {accountID : String}

theorem Market.Moved.refl (accountID : String) (market : Market) : market.Moved accountID market :=
  ⟨fun _ _ => Iff.rfl, fun offer member => ⟨offer, member, rfl⟩⟩

theorem Market.Moved.trans (early : before.Moved accountID middle)
    (late : middle.Moved accountID after) : before.Moved accountID after := by
  refine ⟨fun offer own => (late.own offer own).trans (early.own offer own), ?_⟩
  intro offer member
  obtain ⟨between, betweenMem, fromBetween⟩ := late.stems offer member
  obtain ⟨former, formerMem, fromFormer⟩ := early.stems between betweenMem
  refine ⟨former, formerMem, ?_⟩
  rw [fromFormer] at fromBetween
  exact fromBetween

theorem Market.Agrees.of_sameBook (agrees : before.Agrees) (same : before.SameBook after) :
    after.Agrees := by
  obtain ⟨exchange, offers⟩ := same
  refine ⟨?_, ?_⟩
  · rw [exchange, offers]
    exact agrees.same
  · rw [offers]
    exact agrees.fits

theorem Market.Agrees.put (agrees : before.Agrees) (fits : offer.offerKey.length ≤ 32768)
    (aligned : before.exchange.Aligned Offer.offerKey offer)
    (exchange : after.exchange = before.exchange.put offer)
    (offers : after.offers = before.offers.put offer) : after.Agrees := by
  refine ⟨?_, ?_⟩
  · rw [exchange, offers]
    exact agrees.same.put aligned
  · intro other otherMem
    rw [offers, Store.mem_put] at otherMem
    rcases otherMem with rfl | ⟨earlier, -⟩
    · exact fits
    · exact agrees.fits other earlier

theorem Market.Agrees.delete (agrees : before.Agrees)
    (aligned : before.exchange.Aligned Offer.offerKey offer)
    (exchange : after.exchange = before.exchange.delete offer.exchangeKey)
    (offers : after.offers = before.offers.delete offer.offerKey) : after.Agrees := by
  refine ⟨?_, ?_⟩
  · rw [exchange, offers]
    exact agrees.same.delete aligned
  · intro other otherMem
    rw [offers, Store.mem_delete] at otherMem
    exact agrees.fits other otherMem.1

section

variable (change : BookChange offer before after) (member : offer ∈ before.exchange.values)

include change member

theorem BookChange.agrees (agrees : before.Agrees) : after.Agrees := by
  cases change with
  | untouched same => exact agrees.of_sameBook same
  | deleted exchange offers =>
    exact agrees.delete (agrees.same.aligned member rfl rfl) exchange offers
  | saved amount exchange offers =>
    have fits : { offer with amount := amount }.offerKey.length ≤ 32768 :=
      agrees.fits offer ((agrees.same offer).mp member)
    exact agrees.put fits (agrees.same.aligned member rfl rfl) exchange offers

theorem BookChange.kept {other : Offer} (otherMem : other ∈ before.exchange.values)
    (apart : other ≠ offer) : other ∈ after.exchange.values := by
  have differs : other.exchangeKey ≠ offer.exchangeKey := fun same =>
    apart (Store.eq_of_mem otherMem member same)
  cases change with
  | untouched same =>
    rw [same.exchange]
    exact otherMem
  | deleted exchange offers =>
    rw [exchange, Store.mem_delete]
    exact ⟨otherMem, differs⟩
  | saved amount exchange offers =>
    rw [exchange, Store.mem_put]
    exact .inr ⟨otherMem, differs⟩

theorem BookChange.moved (apart : offer.accountID ≠ accountID) : before.Moved accountID after := by
  have present : ∀ other, other.accountID = accountID → other ∈ before.exchange.values →
      other ∈ after.exchange.values := by
    intro other own otherMem
    exact change.kept member otherMem fun same => apart (same ▸ own)
  cases change with
  | untouched same =>
    refine ⟨fun other own => ?_, fun other otherMem => ?_⟩
    · rw [same.exchange]
    · rw [same.exchange] at otherMem
      exact ⟨other, otherMem, rfl⟩
  | deleted exchange offers =>
    refine ⟨fun other own => ⟨fun otherMem => ?_, present other own⟩, fun other otherMem => ?_⟩
    · rw [exchange, Store.mem_delete] at otherMem
      exact otherMem.1
    · rw [exchange, Store.mem_delete] at otherMem
      exact ⟨other, otherMem.1, rfl⟩
  | saved amount exchange offers =>
    refine ⟨fun other own => ⟨fun otherMem => ?_, present other own⟩, fun other otherMem => ?_⟩
    · rw [exchange, Store.mem_put] at otherMem
      rcases otherMem with rfl | ⟨earlier, -⟩
      · exact absurd own apart
      · exact earlier
    · rw [exchange, Store.mem_put] at otherMem
      rcases otherMem with rfl | ⟨earlier, -⟩
      · exact ⟨offer, member, rfl⟩
      · exact ⟨other, earlier, rfl⟩

end

theorem Crossing.Called.book {am : AccountManager} {crossing : Crossing}
    (called : crossing.Called am) (agrees : crossing.before.market.Agrees)
    (member : crossing.before.offer ∈ crossing.before.market.exchange.values) :
    crossing.after.order.accountID = crossing.before.order.accountID ∧
      BookChange crossing.before.offer crossing.before.market crossing.after.market :=
  @Crossing.Called.ends am crossing called
    (fun after => after.order.accountID = crossing.before.order.accountID ∧
      BookChange crossing.before.offer crossing.before.market after.market)
    (fill_book (agrees.fits _ ((agrees.same _).mp member)))

/-- The calls of `Fill` with offers of the book, each of which is called once. -/
theorem Crossings.book {am : AccountManager} {offers : List Offer} {matching final : Matching}
    {crossings : List Crossing} (run : Crossings am offers matching crossings final)
    (listed : ∀ offer ∈ offers, offer ∈ matching.market.exchange.values)
    (distinct : offers.Nodup) (agrees : matching.market.Agrees) :
    final.market.Agrees ∧ matching.market.Moved matching.order.accountID final.market := by
  induction run with
  | stop offers matching => exact ⟨agrees, .refl _ _⟩
  | last rest crossing called apart full =>
    have member := listed crossing.before.offer (.head _)
    obtain ⟨-, change⟩ := called.book agrees member
    exact ⟨change.agrees member agrees, change.moved member apart⟩
  | step rest crossing crossings final called apart later ih =>
    have member := listed crossing.before.offer (.head _)
    obtain ⟨fresh, distinctRest⟩ := List.nodup_cons.mp distinct
    obtain ⟨sameAccount, change⟩ := called.book agrees member
    have listedRest : ∀ offer ∈ rest, offer ∈ crossing.next.market.exchange.values := by
      intro offer offerMem
      exact change.kept member (listed offer (.tail _ offerMem))
        fun same => fresh (same ▸ offerMem)
    obtain ⟨finalAgrees, finalMoved⟩ :=
      ih listedRest distinctRest (change.agrees member agrees)
    have nextAccount : crossing.next.order.accountID = crossing.before.order.accountID :=
      sameAccount
    rw [nextAccount] at finalMoved
    exact ⟨finalAgrees, (change.moved member apart).trans finalMoved⟩

theorem fillOrder_book (m : Manager) (order : Order) (agrees : before.Agrees) :
    (fillOrder m order).Holds before
      (fun _ after => after.Agrees ∧ before.Moved order.accountID after)
      (fun _ _ => True) := by
  refine (fillOrder_crossings m order before).imp ?_
  intro result after run
  refine run.book ?_ ?_ agrees
  · intro offer offerMem
    exact List.mem_of_mem_filter ((m.sort_perm _).mem_iff.mp offerMem)
  · rw [(m.sort_perm _).nodup_iff]
    exact before.exchange.distinct.of_map.filter _

end Agreement

end Exchange

section Placements

open AbortingProgram Program Exchange

variable {m : Manager} {createID : Except String String} {newOffer : Bool} {held : Holdings}
  {offer : Exchange.Offer} {before after : Market}

theorem Placement.booked_book (placement : Placement m createID newOffer held offer before after)
    (agrees : before.Agrees) :
    placement.booked.Agrees ∧ before.Moved offer.accountID placement.booked := by
  have limited := (holds_of_done placement.limits).mp
    (leavesBook_getOfferLimits m.am held offer newOffer before)
  obtain ⟨filledAgrees, moved⟩ := (holds_of_done placement.fills).mp
    (fillOrder_book m _ (agrees.of_sameBook limited))
  have settled := (holds_of_done placement.settles).mp
    (leavesBook_updateBalances _ offer placement.order placement.filled)
  refine ⟨filledAgrees.of_sameBook settled, ?_, ?_⟩
  · intro other own
    rw [settled.exchange, moved.own other own, limited.exchange]
  · intro other otherMem
    rw [settled.exchange] at otherMem
    obtain ⟨former, formerMem, fromFormer⟩ := moved.stems other otherMem
    rw [limited.exchange] at formerMem
    exact ⟨former, formerMem, fromFormer⟩

theorem book_of_saveOffer (saves : saveOffer offer before = .done () after) :
    offer.offerKey.length ≤ 32768 ∧ after.exchange = before.exchange.put offer ∧
      after.offers = before.offers.put offer := by
  refine ⟨?_, ((holds_of_done saves).mp (saveOffer_holds offer before)).2⟩
  by_contra long
  unfold saveOffer putOffer at saves
  rw [bind_eq_done] at saves
  obtain ⟨_, _, -, saves⟩ := saves
  rw [if_pos (Nat.lt_of_not_le long)] at saves
  exact abort_eq_done.mp saves

theorem book_of_restOffer (rests : restOffer createID newOffer offer before = .done () after) :
    ∃ offerID, (newOffer = true → createID = .ok offerID) ∧
      (newOffer = false → offerID = offer.offerID) ∧
      { offer with offerID := offerID }.offerKey.length ≤ 32768 ∧
      after.exchange = before.exchange.put { offer with offerID := offerID } ∧
      after.offers = before.offers.put { offer with offerID := offerID } := by
  obtain ⟨offerID, saved, new, old, saves, charges⟩ := of_restOffer rests
  obtain ⟨fits, exchange, offers⟩ := book_of_saveOffer saves
  have same := (holds_of_done charges).mp (leavesBook_updateOfferLiability _ true saved)
  exact ⟨offerID, new, old, fits, same.exchange.trans exchange, same.offers.trans offers⟩

theorem book_of_cancelOffer {am : AccountManager} {acc : Account}
    (cancels : cancelOffer am acc offer before = .done () after) :
    after.exchange = before.exchange.delete offer.exchangeKey ∧
      after.offers = before.offers.delete offer.offerKey := by
  have counts : LeavesBook (do
      let acc ← wrapFault "decrease account entry account failed: "
        (lift (am.updateEntryCount acc (-1)))
      wrapFault "save account failed: " (Exchange.saveAccount (some acc))) :=
    .bind (.wrapFault (.lift _) _) fun _ => .wrapFault (.saveAccount _) _
  obtain ⟨_, deleted, deletes, counted⟩ := bind_eq_done.mp cancels
  obtain rfl := (Outcome.done.inj deletes).2
  have same := (holds_of_done counted).mp (counts _)
  exact ⟨same.exchange, same.offers⟩

end Placements

end Ultiledger
