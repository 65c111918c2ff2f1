import Ultiledger.OfferSteps

/-! # What the exchange leaves of a record

Trades change the balances and liabilities of records.  What they leave is the standing
of a record: its owner, the asset, and the number of entries.
-/

namespace Ultiledger

open AbortingProgram Program Exchange KeyedStore RewrittenMaps

namespace Record

def standing : Record → Record
  | .account acc => .account { acc with balance := 0, liability := none }
  | .trust line => .trust { line with balance := 0, liability := none }

def recount (accountID : String) (count : Int32) : Record → Record
  | .account acc =>
    .account
      (if acc.accountID = accountID then { acc with entryCount := acc.entryCount + count }
      else acc)
  | .trust line => .trust line

/-- The account has entries added, nothing else that counts has changed. -/
def Recounted (accountID : String) (count : Int32) (old new : Record) : Prop :=
  new.standing = (old.recount accountID count).standing

variable {old between new : Record} {accountID : String} {count : Int32}

theorem standing_of_unburdened (same : new.unburdened = old.unburdened) :
    new.standing = old.standing := by
  cases old <;> cases new <;> simp_all [standing, unburdened, withLiability]

theorem identity_of_standing (same : new.standing = old.standing) :
    new.identity = old.identity := by
  cases old <;> cases new <;> simp_all [standing, identity]

theorem key_of_standing (same : new.standing = old.standing) : new.key = old.key := by
  cases old <;> cases new <;> simp_all [standing, key]

theorem owner_of_identity (same : new.identity = old.identity) : new.owner = old.owner := by
  cases old <;> cases new <;> simp_all [identity, owner]

theorem standing_recount (same : new.standing = old.standing) :
    (new.recount accountID count).standing = (old.recount accountID count).standing := by
  cases old with
  | account acc =>
    cases new with
    | account later =>
      simp only [standing, Record.account.injEq, Account.mk.injEq] at same
      simp only [recount, standing, same]
      split_ifs <;> simp [same]
    | trust line => simp [standing] at same
  | trust line =>
    cases new with
    | account later => simp [standing] at same
    | trust later => exact same

theorem Recounted.of_standing (same : between.standing = old.standing)
    (recounted : between.Recounted accountID count new) : old.Recounted accountID count new :=
  recounted.trans (standing_recount same)

theorem Recounted.zero (same : new.standing = old.standing) (accountID : String) :
    old.Recounted accountID 0 new := by
  refine same.trans ?_
  cases old with
  | account acc =>
    simp only [recount, Int32.add_zero]
    split_ifs <;> rfl
  | trust line => rfl

theorem recount_of_not (other : ¬ old.IsAccountOf accountID) :
    old.recount accountID count = old := by
  cases old with
  | account acc => simp only [recount, if_neg (show acc.accountID ≠ accountID from other)]
  | trust line => rfl

theorem Recounted.identity (recounted : old.Recounted accountID count new) :
    new.identity = old.identity := by
  refine (identity_of_standing recounted).trans ?_
  cases old with
  | account acc =>
    simp only [recount]
    split_ifs <;> rfl
  | trust line => rfl

end Record

theorem standing_of_chargedFor {offer : Exchange.Offer} {acquire : Bool} {before after : Bucket}
    (charged : Rewritten (Record.ChargedFor offer acquire) before.get after.get) :
    before.SameUpTo Record.standing after :=
  charged.mono fun _ _ change => Record.standing_of_unburdened change.1

theorem Bucket.SameUpTo.identity_of_standing {before after : Bucket}
    (same : before.SameUpTo Record.standing after) : before.SameUpTo Record.identity after :=
  same.mono fun _ _ => Record.identity_of_standing

def Bucket.Shows (bucket : Bucket) (record : Record) : Prop :=
  ∃ stored, bucket.get record.key = some stored ∧ stored.standing = record.standing

namespace Bucket.Shows

variable {before after : Bucket} {record twin : Record}

theorem of_get (stored : before.get record.key = some record) : before.Shows record :=
  ⟨record, stored, rfl⟩

theorem later (shows : before.Shows record) (same : before.SameUpTo Record.standing after) :
    after.Shows record := by
  obtain ⟨stored, stood, alike⟩ := shows
  obtain ⟨current, stands, changed⟩ := same.new_of_old stood
  exact ⟨current, stands, changed.trans alike⟩

theorem copy (shows : before.Shows record) (alike : twin.standing = record.standing) :
    before.Shows twin := by
  obtain ⟨stored, stands, same⟩ := shows
  exact ⟨stored, Record.key_of_standing alike ▸ stands, same.trans alike.symm⟩

theorem write (shows : before.Shows record) (alike : twin.standing = record.standing) :
    before.SameUpTo Record.standing (before.insert twin) := by
  obtain ⟨stored, stands, same⟩ := shows.copy alike
  exact (Bucket.SameUpTo.refl _ _).insert stands same.symm

theorem recount {acc : Account} {accountID : String} (shows : before.Shows (.account acc))
    (own : acc.accountID = accountID) (count : Int32) :
    Rewritten (Record.Recounted accountID count) before.get
      (before.insert (.account { acc with entryCount := acc.entryCount + count })).get := by
  subst own
  obtain ⟨stored, stands, same⟩ := shows
  refine Bucket.rewritten_insert stands ?_ ?_
  · refine Record.Recounted.of_standing same.symm ?_
    simp [Record.Recounted, Record.recount]
  · intro other apart
    have notOwn : ¬ other.IsAccountOf acc.accountID := by
      intro own
      cases other with
      | account another => exact apart (congrArg accountKey own)
      | trust line => exact own
    rw [Record.Recounted, Record.recount_of_not notOwn]

end Bucket.Shows

@[mk_iff]
structure Exchange.Offer.RecordsOwn (offer : Exchange.Offer) (accounts : Bucket) : Prop where
  bearers : offer.BearersOwn accounts
  sellLine : offer.sellAsset.assetType ≠ .native →
    accounts.OnlyLineAt offer.accountID offer.sellAsset ∧
      offer.accountID ≠ offer.sellAsset.issuer

instance decidableRecordsOwn (offer : Exchange.Offer) (accounts : Bucket) :
    Decidable (offer.RecordsOwn accounts) :=
  decidable_of_iff' _ (Exchange.Offer.recordsOwn_iff offer accounts)

section Loads

variable {accounts : Bucket} {line : Trust}

theorem shows_of_getAccount {accountID : String} {acc : Account}
    (typed : accounts.NoTrustAt (accountKey accountID))
    (read : getAccount accounts accountID = some acc) :
    accounts.Shows (.account acc) ∧ acc.accountID = accountID := by
  obtain ⟨stored, own⟩ := get_of_getAccount typed read
  exact ⟨.of_get (by rwa [Record.key_account, own]), own⟩

theorem shows_of_getTrust {accountID : String} {asset : Asset}
    (only : accounts.OnlyLineAt accountID asset) (apart : accountID ≠ asset.issuer)
    (read : getTrust accounts accountID asset = some line) : accounts.Shows (.trust line) := by
  have stored := get_of_getTrust only.noAccountAt apart read
  exact .of_get (by rwa [accounts.ownKey _ _ stored])

theorem shows_of_loadSellTrust {offer : Exchange.Offer}
    (own : offer.RecordsOwn accounts) (loads : loadSellTrust accounts offer = .ok (some line)) :
    accounts.Shows (.trust line) := by
  unfold loadSellTrust at loads
  split_ifs at loads with issued
  · obtain ⟨found, read, loads⟩ := bind_eq_ok.mp loads
    split_ifs at loads
    cases loads
    obtain ⟨only, apart⟩ := own.sellLine issued
    exact shows_of_getTrust only apart (eq_some_of_deref read)
  · simp at loads

theorem shows_of_loadBuyTrust {offer : Exchange.Offer}
    (own : offer.BearersOwn accounts) (loads : loadBuyTrust accounts offer = .ok (some line)) :
    accounts.Shows (.trust line) := by
  unfold loadBuyTrust at loads
  split_ifs at loads with issued
  · obtain ⟨found, read, loads⟩ := bind_eq_ok.mp loads
    split_ifs at loads
    cases loads
    obtain ⟨only, apart⟩ := own.line (.inl issued)
    exact shows_of_getTrust only apart (eq_some_of_deref read)
  · simp at loads

end Loads

namespace Exchange

section Settling

variable {market after : Market} {acc : Option Account} {line : Option Trust}

theorem BuySettled.standing {bought : Int64} {settled : Option Account × Option Trust}
    (settles : BuySettled market bought acc line settled after)
    (account : ∀ held ∈ acc, market.accounts.Shows (.account held))
    (traded : ∀ held ∈ line, market.accounts.Shows (.trust held)) :
    market.accounts.SameUpTo Record.standing after.accounts ∧
      after.exchange = market.exchange ∧ after.offers = market.offers ∧
      (∀ held ∈ settled.1, ∃ copy ∈ acc,
        (Record.account held).standing = (Record.account copy).standing) ∧
      ∀ held ∈ settled.2, after.accounts.Shows (.trust held) := by
  cases settles with
  | nothing acc line zero => exact ⟨.refl _ _, rfl, rfl, fun held own => ⟨held, own, rfl⟩, traded⟩
  | line acc line updated nonzero updates =>
    obtain rfl := eq_of_updateTrustBalance updates
    have same := (traded line rfl).write
      (show (Record.trust { line with balance := line.balance + bought }).standing = _ from rfl)
    refine ⟨same, rfl, rfl, fun held own => ⟨held, own, rfl⟩, ?_⟩
    rintro held ⟨⟩
    exact ((traded line rfl).copy rfl).later same
  | account acc updated nonzero updates =>
    obtain rfl := eq_of_updateBalance updates
    refine ⟨(account acc rfl).write rfl, rfl, rfl, ?_, by simp⟩
    rintro held ⟨⟩
    exact ⟨acc, rfl, rfl⟩

theorem SellSettled.standing {sold : Int64} {sellLine : Option Trust} {held : Option Account}
    (settles : SellSettled market sold line acc sellLine held after)
    (account : ∀ copy ∈ acc, market.accounts.Shows (.account copy))
    (traded : ∀ copy ∈ line, market.accounts.Shows (.trust copy)) :
    market.accounts.SameUpTo Record.standing after.accounts ∧
      after.exchange = market.exchange ∧ after.offers = market.offers ∧
      ∀ kept ∈ held, ∃ copy ∈ acc,
        (Record.account kept).standing = (Record.account copy).standing := by
  cases settles with
  | nothing acc line zero => exact ⟨.refl _ _, rfl, rfl, fun kept own => ⟨kept, own, rfl⟩⟩
  | line acc line updated saved nonzero updates other =>
    exact ⟨(traded saved other).write rfl, rfl, rfl, fun kept own => ⟨kept, own, rfl⟩⟩
  | account acc updated nonzero updates =>
    obtain rfl := eq_of_updateBalance updates
    refine ⟨(account acc rfl).write rfl, rfl, rfl, ?_⟩
    rintro kept ⟨⟩
    exact ⟨acc, rfl, rfl⟩

end Settling

/-- How a successful `Fill` has changed the book and what counts of the records. -/
inductive OfferFilled (offer : Offer) (before after : Market) : Prop
  | usedUp (exchange : after.exchange = before.exchange.delete offer.exchangeKey)
      (offers : after.offers = before.offers.delete offer.offerKey)
      (recounted : Rewritten (Record.Recounted offer.accountID (-1))
        before.accounts.get after.accounts.get) : OfferFilled offer before after
  | reduced (amount : Int64)
      (exchange : after.exchange = before.exchange.put { offer with amount := amount })
      (offers : after.offers = before.offers.put { offer with amount := amount })
      (same : before.accounts.SameUpTo Record.standing after.accounts) :
      OfferFilled offer before after

theorem fill_filled {am : AccountManager} {start : Filling}
    (own : start.offer.RecordsOwn start.market.accounts) :
    (fill am).Holds start
      (fun _ after => after.order.accountID = start.order.accountID ∧
        OfferFilled start.offer start.market after.market)
      (fun _ _ => True) := by
  refine holds_fill
    (fun market => market.exchange = start.market.exchange ∧
      market.offers = start.market.offers ∧
      start.market.accounts.SameUpTo Record.standing market.accounts) ?_ ?_ ?_
  · refine (updateOfferLiability_holds own.bearers false).mono ?_ (fun _ _ _ => trivial)
    rintro - market ⟨exchange, offers, charged⟩
    exact ⟨exchange, offers, standing_of_chargedFor charged⟩
  · exact fun _ _ _ _ => trivial
  · rintro market amounts ⟨exchange, offers, released⟩ -
    have account : ∀ held ∈ getAccount start.market.accounts start.offer.accountID,
        market.accounts.Shows (.account held) := fun held read =>
      (shows_of_getAccount own.bearers.account read).1.later released
    have traded : ∀ held ∈ tradedLine start.market.accounts start.offer.accountID
        start.offer.sellAsset, market.accounts.Shows (.trust held) := by
      intro held read
      unfold tradedLine at read
      split_ifs at read with issued
      · obtain ⟨only, apart⟩ := own.sellLine issued
        exact (shows_of_getTrust only apart read).later released
      · simp at read
    refine holds_settleOffer (fun _ _ => trivial) (fun _ _ _ _ _ => trivial) ?_
    intro settled boughtMarket held soldMarket buys sells
    obtain ⟨early, exchangeEarly, offersEarly, accEarly, lineEarly⟩ := buys.standing account traded
    have accountEarly : ∀ copy ∈ settled.1, boughtMarket.accounts.Shows (.account copy) := by
      intro copy copyMem
      obtain ⟨loaded, loadedMem, alike⟩ := accEarly copy copyMem
      exact ((account loaded loadedMem).copy alike).later early
    obtain ⟨late, exchangeLate, offersLate, accLate⟩ := sells.standing accountEarly lineEarly
    have kept : start.market.accounts.SameUpTo Record.standing soldMarket.accounts :=
      released.trans (early.trans late)
    have sameExchange : soldMarket.exchange = start.market.exchange :=
      exchangeLate.trans (exchangeEarly.trans exchange)
    have sameOffers : soldMarket.offers = start.market.offers :=
      offersLate.trans (offersEarly.trans offers)
    have bearers := (own.bearers.of_identity kept.identity_of_standing).filledBy
      (start.traded market amounts).order
    refine (finishOffer_holds bearers am held).mono ?_ (fun _ _ _ => trivial)
    rintro - after finished
    refine ⟨rfl, ?_⟩
    cases finished with
    | deleted acc updated empty counts =>
      obtain ⟨copy, copyMem, alikeLate⟩ := accLate acc rfl
      obtain ⟨loaded, loadedMem, alikeEarly⟩ := accEarly copy copyMem
      have alike := alikeLate.trans alikeEarly
      have shows := ((account loaded loadedMem).copy alike).later (early.trans late)
      have maker : acc.accountID = start.offer.accountID := by
        have sameOwner : acc.accountID = loaded.accountID :=
          Record.owner_of_identity (Record.identity_of_standing alike)
        exact sameOwner.trans (shows_of_getAccount own.bearers.account loadedMem).2
      obtain rfl := eq_add_of_updateEntryCount counts
      refine .usedUp (by rw [← sameExchange]; rfl) (by rw [← sameOffers]; rfl) ?_
      refine (Rewritten.comp kept (shows.recount maker (-1))).mono ?_
      rintro old new ⟨between, same, recounted⟩
      exact .of_standing same recounted
    | saved _ _ nonzero exchangeSaved offersSaved charged =>
      rw [sameExchange] at exchangeSaved
      rw [sameOffers] at offersSaved
      exact .reduced _ exchangeSaved offersSaved (kept.trans (standing_of_chargedFor charged))

end Exchange

section Balances

variable {held : Holdings} {offer : Exchange.Offer} {market : Market}

structure Holdings.Shown (held : Holdings) (accounts : Bucket) : Prop where
  account : accounts.Shows (.account held.acc)
  sellLine : ∀ line ∈ held.sellTrust, accounts.Shows (.trust line)
  buyLine : ∀ line ∈ held.buyTrust, accounts.Shows (.trust line)

theorem Holdings.Shown.later {before after : Bucket} (shown : held.Shown before)
    (same : before.SameUpTo Record.standing after) : held.Shown after :=
  ⟨shown.account.later same, fun line lineMem => (shown.sellLine line lineMem).later same,
    fun line lineMem => (shown.buyLine line lineMem).later same⟩

theorem creditBuyAsset_standing (shown : held.Shown market.accounts) (bought : Int64) :
    (creditBuyAsset held offer bought).Holds market
      (fun later after => after.exchange = market.exchange ∧ after.offers = market.offers ∧
        market.accounts.SameUpTo Record.standing after.accounts ∧ later.Shown after.accounts)
      (fun _ _ => True) := by
  unfold creditBuyAsset wrapFault
  split_ifs
  · simp only [holds_bind, holds_mapFault]
    refine holds_lift (fun updated updates => ?_) (fun _ _ => trivial)
    refine (saveAccount_holds updated market).mono ?_ (fun _ _ _ => trivial)
    rintro - after rfl
    obtain rfl := eq_of_updateBalance updates
    have same := shown.account.write (show (Record.account
      { held.acc with balance := held.acc.balance + bought }).standing = _ from rfl)
    have later := shown.later same
    exact ⟨rfl, rfl, same, later.account.copy rfl, later.sellLine, later.buyLine⟩
  · simp only [holds_bind, holds_mapFault]
    refine holds_lift (fun line loaded => ?_) (fun _ _ => trivial)
    refine holds_lift (fun updated updates => ?_) (fun _ _ => trivial)
    refine (saveTrust_holds updated market).mono ?_ (fun _ _ _ => trivial)
    rintro - after rfl
    obtain rfl := eq_of_updateTrustBalance updates
    have lineMem : line ∈ held.buyTrust := eq_some_of_deref loaded
    have same := (shown.buyLine line lineMem).write (show (Record.trust
      { line with balance := line.balance + bought }).standing = _ from rfl)
    have later := shown.later same
    refine ⟨rfl, rfl, same, later.account, later.sellLine, ?_⟩
    rintro copy ⟨⟩
    exact (later.buyLine line lineMem).copy rfl

theorem debitSellAsset_standing (shown : held.Shown market.accounts) (sold : Int64) :
    (debitSellAsset held offer sold).Holds market
      (fun _ after => after.exchange = market.exchange ∧ after.offers = market.offers ∧
        market.accounts.SameUpTo Record.standing after.accounts)
      (fun _ _ => True) := by
  unfold debitSellAsset wrapFault
  split_ifs
  · simp only [holds_bind, holds_mapFault]
    refine holds_lift (fun updated updates => ?_) (fun _ _ => trivial)
    refine (saveAccount_holds updated market).mono ?_ (fun _ _ _ => trivial)
    rintro - after rfl
    obtain rfl := eq_of_updateBalance updates
    exact ⟨rfl, rfl, shown.account.write rfl⟩
  · simp only [holds_bind, holds_mapFault]
    refine holds_lift (fun line loaded => ?_) (fun _ _ => trivial)
    refine holds_lift (fun updated updates => ?_) (fun _ _ => trivial)
    refine (saveTrust_holds updated market).mono ?_ (fun _ _ _ => trivial)
    rintro - after rfl
    obtain rfl := eq_of_updateTrustBalance updates
    exact ⟨rfl, rfl, (shown.sellLine line (eq_some_of_deref loaded)).write rfl⟩

theorem updateBalances_standing (shown : held.Shown market.accounts) (order : Exchange.Order) :
    (updateBalances held offer order).Holds market
      (fun _ after => after.exchange = market.exchange ∧ after.offers = market.offers ∧
        market.accounts.SameUpTo Record.standing after.accounts)
      (fun _ _ => True) := by
  unfold updateBalances
  split_ifs
  · rw [wrapFault, holds_mapFault, holds_bind]
    refine (creditBuyAsset_standing shown _).imp ?_
    rintro later middle ⟨exchange, offers, same, shownLater⟩
    refine (debitSellAsset_standing shownLater _).imp ?_
    rintro - after ⟨exchangeLate, offersLate, sameLate⟩
    exact ⟨exchangeLate.trans exchange, offersLate.trans offers, same.trans sameLate⟩
  · exact ⟨rfl, rfl, .refl _ _⟩

end Balances

end Ultiledger
