import Ultiledger.ExchangeStanding
import Ultiledger.FinmapTotals

/-! # Entry counts, trust lines and open offers -/

namespace Ultiledger

open AbortingProgram Program Exchange KeyedStore RewrittenMaps MachineIntegers

def Record.lineCount (accountID : String) : Record → Nat
  | .account _ => 0
  | .trust line => if line.accountID = accountID then 1 else 0

section Lines

def Bucket.lines (bucket : Bucket) (accountID : String) : Nat :=
  FinmapTotals.total (Record.lineCount accountID) bucket.records

variable {before after : Bucket} {accountID : String}

theorem Bucket.lines_of_rewritten
    (same : Rewritten (fun old new => new.lineCount accountID = old.lineCount accountID)
      before.get after.get) : after.lines accountID = before.lines accountID := by
  refine FinmapTotals.total_congr fun key => ?_
  change (after.get key).map _ = (before.get key).map _
  cases stood : before.get key with
  | none => rw [(same.eq_none_iff key).mpr stood]
  | some old =>
    obtain ⟨new, stands, alike⟩ := same.new_of_old stood
    rw [stands, Option.map_some, Option.map_some, alike]

theorem Bucket.lines_of_identity (same : before.SameUpTo Record.identity after)
    (accountID : String) : after.lines accountID = before.lines accountID := by
  refine Bucket.lines_of_rewritten (same.mono fun old new alike => ?_)
  cases old <;> cases new <;> simp_all [Record.identity, Record.lineCount]

theorem Bucket.lines_insert {record : Record} (fresh : before.get record.key = none) :
    (before.insert record).lines accountID =
      before.lines accountID + record.lineCount accountID := by
  have total := FinmapTotals.total_insert (Record.lineCount accountID) before.records record.key
    record
  rw [FinmapTotals.held, show before.records.lookup record.key = none from fresh] at total
  exact total

theorem Bucket.lines_delete {key : List UInt8} {record : Record}
    (stored : before.get key = some record) :
    (before.delete key).lines accountID + record.lineCount accountID =
      before.lines accountID := by
  have total := FinmapTotals.total_erase (Record.lineCount accountID) before.records key
  rw [FinmapTotals.held, show before.records.lookup key = some record from stored] at total
  exact total

variable {accounts : Bucket} {acc : Account}

theorem Bucket.SameUpTo.insert_entries (entries : Int32)
    (stored : accounts.get (Record.account acc).key = some (.account acc)) :
    accounts.SameUpTo Record.identity
      (accounts.insert (.account { acc with entryCount := entries })) :=
  (Bucket.SameUpTo.refl _ _).insert stored rfl

theorem Bucket.account_of_get_insert {key : List UInt8} {found updated : Account}
    (owner : updated.accountID = acc.accountID)
    (stands : (accounts.insert (.account updated)).get key = some (.account found)) :
    found = updated ∨
      accounts.get key = some (.account found) ∧ found.accountID ≠ acc.accountID := by
  rw [Bucket.get_insert] at stands
  split_ifs at stands with here
  · left
    simpa using stands.symm
  · refine .inr ⟨stands, fun same => here ?_⟩
    rw [← accounts.ownKey key _ stands]
    exact congrArg accountKey (same.trans owner.symm)

end Lines

namespace Exchange.Market

def openOffers (market : Market) (accountID : String) : Nat :=
  market.exchange.total fun offer => if offer.accountID = accountID then 1 else 0

def Counted (market : Market) : Prop :=
  ∀ key acc, market.accounts.get key = some (.account acc) →
    acc.entryCount.toInt =
      market.accounts.lines acc.accountID + market.openOffers acc.accountID

instance : DecidablePred Counted := fun market =>
  inferInstanceAs (Decidable (∀ key acc, market.accounts.get key = some (.account acc) → _))

structure Tallied (market : Market) : Prop where
  counted : market.Counted
  agree : ∀ offer, offer ∈ market.offers.values ↔ offer ∈ market.exchange.values

variable {before after : Market}

theorem Counted.recounted {accountID : String} {count : Int32} (counted : before.Counted)
    (small : count = 0 ∨ count = -1)
    (rewritten : Rewritten (Record.Recounted accountID count)
      before.accounts.get after.accounts.get)
    (offers : ∀ owner, (after.openOffers owner : Int) =
      before.openOffers owner + if owner = accountID then count.toInt else 0) :
    after.Counted := by
  intro key new stands
  obtain ⟨old, stood, change⟩ := rewritten.old_of_new stands
  have lines := Bucket.lines_of_identity (rewritten.mono fun _ _ => Record.Recounted.identity)
    new.accountID
  cases old with
  | trust line => simp [Record.Recounted, Record.recount, Record.standing] at change
  | account acc =>
    have entries := counted key acc stood
    have inBook := offers new.accountID
    have owner : new.accountID = acc.accountID := Record.owner_of_identity change.identity
    have below := acc.entryCount.toInt_lt
    simp only [Record.Recounted, Record.recount, Record.standing, Record.account.injEq,
      Account.mk.injEq] at change
    rw [owner] at inBook lines ⊢
    rw [inBook, change.2.2.2.2.1]
    by_cases own : acc.accountID = accountID
    · rw [if_pos own, if_pos own]
      have exact : (acc.entryCount + count).toInt = acc.entryCount.toInt + count.toInt := by
        apply toInt32_add_of_fits <;> rcases small with rfl | rfl <;>
          simp only [Int32.toInt_zero, show (-1 : Int32).toInt = -1 from rfl] <;> omega
      change (acc.entryCount + count).toInt = _
      omega
    · rw [if_neg own, if_neg own]
      omega

theorem Counted.same (counted : before.Counted)
    (alike : before.accounts.SameUpTo Record.standing after.accounts)
    (offers : ∀ owner, after.openOffers owner = before.openOffers owner) : after.Counted := by
  refine counted.recounted (.inl rfl) (alike.mono fun old new same => .zero same "") ?_
  intro owner
  simp [offers owner]

theorem Tallied.same (tallied : before.Tallied) (exchange : after.exchange = before.exchange)
    (offers : after.offers = before.offers)
    (alike : before.accounts.SameUpTo Record.standing after.accounts) : after.Tallied := by
  constructor
  · exact tallied.counted.same alike fun owner => by rw [openOffers, exchange, openOffers]
  · intro offer
    rw [offers, exchange]
    exact tallied.agree offer

theorem Tallied.resize {offer later : Offer} (tallied : before.Tallied)
    (inBook : offer ∈ before.exchange.values)
    (exchange : after.exchange = before.exchange.put later)
    (offers : after.offers = before.offers.put later)
    (sameExchangeKey : offer.exchangeKey = later.exchangeKey)
    (sameOfferKey : offer.offerKey = later.offerKey) (sameAccount : offer.accountID = later.accountID)
    (alike : before.accounts.SameUpTo Record.standing after.accounts) : after.Tallied := by
  have inExchange : before.exchange.get later.exchangeKey = some offer :=
    Store.get_eq_some_iff.mpr ⟨inBook, sameExchangeKey⟩
  have inOffers : before.offers.get later.offerKey = some offer :=
    Store.get_eq_some_iff.mpr ⟨(tallied.agree offer).mpr inBook, sameOfferKey⟩
  constructor
  · refine tallied.counted.same alike fun owner => ?_
    have total := before.exchange.total_put
      (fun other => if other.accountID = owner then 1 else 0) later
    rw [inExchange, Option.elim_some, sameAccount] at total
    rw [openOffers, exchange]
    exact Nat.add_right_cancel total
  · intro other
    rw [exchange, offers, Store.mem_put_iff, Store.mem_put_iff, inExchange, inOffers, tallied.agree]

theorem Tallied.remove {offer : Offer} (tallied : before.Tallied)
    (inBook : offer ∈ before.exchange.values)
    (exchange : after.exchange = before.exchange.delete offer.exchangeKey)
    (offers : after.offers = before.offers.delete offer.offerKey)
    (recounted : Rewritten (Record.Recounted offer.accountID (-1))
      before.accounts.get after.accounts.get) : after.Tallied := by
  have inExchange : before.exchange.get offer.exchangeKey = some offer :=
    Store.get_eq_some_iff.mpr ⟨inBook, rfl⟩
  have inOffers : before.offers.get offer.offerKey = some offer :=
    Store.get_eq_some_iff.mpr ⟨(tallied.agree offer).mpr inBook, rfl⟩
  constructor
  · refine tallied.counted.recounted (.inr rfl) recounted fun owner => ?_
    have total := before.exchange.total_delete
      (fun other => if other.accountID = owner then 1 else 0) offer.exchangeKey
    rw [inExchange] at total
    rw [openOffers, exchange, openOffers, ← total]
    by_cases own : owner = offer.accountID
    · simp [own, show (-1 : Int32).toInt = -1 from rfl]
    · simp [own, Ne.symm own]
  · intro other
    rw [exchange, offers, Store.mem_delete_iff, Store.mem_delete_iff, inExchange, inOffers,
      tallied.agree]

end Exchange.Market

section Crossings

def Record.Spared (accountID : String) (old new : Record) : Prop :=
  new.identity = old.identity ∧ (old.IsAccountOf accountID → new.standing = old.standing)

theorem Record.Spared.trans {accountID : String} {old between new : Record}
    (early : old.Spared accountID between) (late : between.Spared accountID new) :
    old.Spared accountID new := by
  refine ⟨late.1.trans early.1, fun own => ?_⟩
  exact (late.2 ((Record.isAccountOf_of_identity early.1).mpr own)).trans (early.2 own)

namespace Exchange

variable {am : AccountManager} {accountID : String} {before after : Market}

theorem OfferFilled.spared {offer : Offer}
    (filled : OfferFilled offer before after) (apart : offer.accountID ≠ accountID) :
    Rewritten (Record.Spared accountID) before.accounts.get after.accounts.get := by
  cases filled with
  | usedUp exchange offers recounted =>
    refine recounted.mono fun old new change => ⟨change.identity, fun own => ?_⟩
    have other : ¬ old.IsAccountOf offer.accountID := by
      intro maker
      cases old with
      | account acc => exact apart (maker.symm.trans own)
      | trust line => exact own
    rw [Record.Recounted, Record.recount_of_not other] at change
    exact change
  | reduced amount exchange offers same =>
    exact same.mono fun old new alike => ⟨Record.identity_of_standing alike, fun _ => alike⟩

theorem OfferFilled.tallied {offer : Offer} (filled : OfferFilled offer before after)
    (inBook : offer ∈ before.exchange.values) (tallied : before.Tallied) : after.Tallied := by
  cases filled with
  | usedUp exchange offers recounted => exact tallied.remove inBook exchange offers recounted
  | reduced amount exchange offers same =>
    exact tallied.resize inBook exchange offers rfl rfl rfl same

theorem OfferFilled.mem {offer other : Offer}
    (filled : OfferFilled offer before after) (inBook : other ∈ before.exchange.values)
    (apart : other.exchangeKey ≠ offer.exchangeKey) : other ∈ after.exchange.values := by
  cases filled with
  | usedUp exchange offers recounted =>
    rw [exchange]
    exact Store.mem_delete.mpr ⟨inBook, apart⟩
  | reduced amount exchange offers same =>
    rw [exchange]
    exact Store.mem_put.mpr (.inr ⟨inBook, apart⟩)

def Crossing.Sound (crossing : Crossing) : Prop :=
  crossing.error = none ∧ crossing.before.offer.RecordsOwn crossing.before.market.accounts

instance decidableSound (crossing : Crossing) : Decidable crossing.Sound := by
  unfold Crossing.Sound
  infer_instance

theorem Crossing.Called.filled {crossing : Crossing} (called : crossing.Called am)
    (sound : crossing.Sound) :
    crossing.after.order.accountID = crossing.before.order.accountID ∧
      OfferFilled crossing.before.offer crossing.before.market crossing.after.market := by
  cases called with
  | done filled success => exact (holds_of_done filled).mp (fill_filled sound.2)
  | failed message filled failure => exact absurd (failure.symm.trans sound.1) (by simp)

/-- Along successful calls of `Fill` the entries stay counted, and what belongs to the
order's account stays. -/
theorem Crossings.tallied {offers : List Offer} {matching final : Matching}
    {crossings : List Crossing} (run : Crossings am offers matching crossings final)
    (sound : ∀ crossing ∈ crossings, crossing.Sound)
    (inBook : ∀ offer ∈ offers, offer ∈ matching.market.exchange.values)
    (distinct : (offers.map Offer.exchangeKey).Nodup) (tallied : matching.market.Tallied) :
    final.market.Tallied ∧
      Rewritten (Record.Spared matching.order.accountID)
        matching.market.accounts.get final.market.accounts.get ∧
      ∀ offer ∈ matching.market.exchange.values, offer.accountID = matching.order.accountID →
        offer ∈ final.market.exchange.values := by
  have ownStays : ∀ {crossing : Crossing},
      crossing.before.offer.accountID ≠ crossing.before.order.accountID →
      crossing.before.offer ∈ crossing.before.market.exchange.values →
      OfferFilled crossing.before.offer crossing.before.market crossing.after.market →
      ∀ offer ∈ crossing.before.market.exchange.values,
        offer.accountID = crossing.before.order.accountID →
        offer ∈ crossing.after.market.exchange.values := by
    intro crossing apart crossed filled offer offerMem own
    refine filled.mem offerMem fun sameKey => apart ?_
    rw [← Store.eq_of_mem offerMem crossed sameKey, own]
  induction run with
  | stop offers matching =>
    exact ⟨tallied, .refl (fun record => ⟨rfl, fun _ => rfl⟩) _, fun _ offerMem _ => offerMem⟩
  | last rest crossing called apart full =>
    have crossed := inBook crossing.before.offer (.head _)
    obtain ⟨-, filled⟩ := called.filled (sound crossing (.head _))
    exact ⟨filled.tallied crossed tallied, filled.spared apart, ownStays apart crossed filled⟩
  | step rest crossing crossings final called apart later ih =>
    have crossed := inBook crossing.before.offer (.head _)
    obtain ⟨sameAccount, filled⟩ := called.filled (sound crossing (.head _))
    rw [List.map_cons, List.nodup_cons] at distinct
    have restInBook : ∀ offer ∈ rest, offer ∈ crossing.next.market.exchange.values := by
      intro offer offerMem
      refine filled.mem (inBook offer (.tail _ offerMem)) fun sameKey => ?_
      exact distinct.1 (sameKey ▸ List.mem_map_of_mem offerMem)
    obtain ⟨stays, spared, kept⟩ := ih (List.forall_mem_cons.mp sound).2
      restInBook distinct.2 (filled.tallied crossed tallied)
    have nextAccount : crossing.next.order.accountID = crossing.before.order.accountID := sameAccount
    rw [nextAccount] at spared kept
    refine ⟨stays, (filled.spared apart).trans (fun _ _ _ => .trans) spared, ?_⟩
    intro offer offerMem own
    exact kept offer (ownStays apart crossed filled offer offerMem own) own

end Exchange

end Crossings

section Trust

/-- The trust operation finds records of its own, and there is room to count a new line. -/
structure Op.Trust.Tallies (t : Op.Trust) (accounts : Bucket) : Prop where
  findsOwn : (Operation.trust t).FindsOwn accounts
  room : ∀ acc ∈ getAccount accounts t.srcAccountID, ∀ asset ∈ t.asset,
    getTrust accounts t.srcAccountID asset = none → acc.entryCount ≠ Int32.maxValue

namespace Exchange.Market.Counted

variable {before : Market} {accounts : Bucket} {acc : Account} {line : Trust}

theorem relined {change : Int} (counted : before.Counted) (updated : Account)
    (stored : before.accounts.get (Record.account acc).key = some (.account acc))
    (owner : updated.accountID = acc.accountID)
    (entries : updated.entryCount.toInt = acc.entryCount.toInt + change)
    (gets : ∀ key found, accounts.get key = some (.account found) →
      found = updated ∨
        before.accounts.get key = some (.account found) ∧ found.accountID ≠ acc.accountID)
    (lines : ∀ accountID, (accounts.lines accountID : Int) =
      before.accounts.lines accountID + if accountID = acc.accountID then change else 0) :
    { before with accounts := accounts }.Counted := by
  intro key found stands
  have inBook : ∀ accountID, { before with accounts := accounts }.openOffers accountID =
      before.openOffers accountID := fun _ => rfl
  rw [lines, inBook]
  rcases gets key found stands with rfl | ⟨stood, apart⟩
  · have earlier := counted _ acc stored
    rw [if_pos owner, owner]
    omega
  · rw [if_neg apart]
    exact counted key found stood

theorem opened (counted : before.Counted)
    (stored : before.accounts.get (Record.account acc).key = some (.account acc))
    (fresh : before.accounts.get (Record.trust line).key = none)
    (owner : line.accountID = acc.accountID) (room : acc.entryCount ≠ Int32.maxValue) :
    { before with accounts := (before.accounts.insert
        (.account { acc with entryCount := acc.entryCount + 1 })).insert (.trust line) }.Counted := by
  have apart : (Record.trust line).key ≠ (Record.account acc).key := by
    intro same
    rw [same, stored] at fresh
    simp at fresh
  have exact : (acc.entryCount + 1).toInt = acc.entryCount.toInt + 1 := by
    have below := acc.entryCount.toInt_lt
    have above := acc.entryCount.le_toInt
    have notLast : acc.entryCount.toInt ≠ 2 ^ 31 - 1 := fun last => room (Int32.toInt_inj.mp last)
    apply toInt32_add_of_fits <;> simp only [Int32.toInt_one] <;> omega
  refine counted.relined { acc with entryCount := acc.entryCount + 1 } stored rfl exact ?_ ?_
  · intro key found stands
    rw [Bucket.get_insert] at stands
    split_ifs at stands with here
    · simp at stands
    · exact Bucket.account_of_get_insert rfl stands
  · intro accountID
    rw [Bucket.lines_insert, Bucket.lines_of_identity (.insert_entries _ stored), Record.lineCount, owner]
    · by_cases mine : accountID = acc.accountID
      · simp [mine]
      · simp [mine, Ne.symm mine]
    · rw [Bucket.get_insert]
      exact (if_neg apart).trans fresh

theorem closed (counted : before.Counted)
    (stored : before.accounts.get (Record.account acc).key = some (.account acc))
    (held : before.accounts.get (Record.trust line).key = some (.trust line))
    (owner : line.accountID = acc.accountID) :
    { before with accounts := ((before.accounts.delete (Record.trust line).key).insert
        (.account { acc with entryCount := acc.entryCount + -1 })) }.Counted := by
  have apart : (Record.account acc).key ≠ (Record.trust line).key := by
    intro same
    rw [← same, stored] at held
    simp at held
  have storedStill : (before.accounts.delete (Record.trust line).key).get (Record.account acc).key =
      some (.account acc) := by
    rw [Bucket.get_delete, if_neg apart, stored]
  have deleted : ∀ accountID, (before.accounts.delete (Record.trust line).key).lines accountID +
      (if acc.accountID = accountID then 1 else 0) = before.accounts.lines accountID := by
    intro accountID
    rw [← Bucket.lines_delete held, Record.lineCount, owner]
  have exact : (acc.entryCount + -1).toInt = acc.entryCount.toInt + -1 := by
    have entries := counted _ acc stored
    have below := acc.entryCount.toInt_lt
    apply toInt32_add_of_fits <;> simp only [show (-1 : Int32).toInt = -1 from rfl] <;> omega
  refine counted.relined { acc with entryCount := acc.entryCount + -1 } stored rfl exact ?_ ?_
  · intro key found stands
    rcases Bucket.account_of_get_insert rfl stands with same | ⟨stood, other⟩
    · exact .inl same
    · rw [Bucket.get_delete] at stood
      split_ifs at stood
      exact .inr ⟨stood, other⟩
  · intro accountID
    have lines := deleted accountID
    rw [Bucket.lines_of_identity (.insert_entries _ storedStill), ← lines]
    by_cases mine : accountID = acc.accountID
    · simp [mine]
    · simp [mine, Ne.symm mine]

end Exchange.Market.Counted

theorem Op.Trust.Tallies.tallied {am : AccountManager} {t : Op.Trust} {before : Market}
    {accounts : Bucket} (tallies : t.Tallies before.accounts)
    (done : t.apply am before.accounts = .ok accounts) (tallied : before.Tallied) :
    { before with accounts := accounts }.Tallied := by
  refine ⟨?_, tallied.agree⟩
  obtain ⟨asset, srcAcc, given, apart, read, effect⟩ := trust_cases done
  obtain ⟨typed, only⟩ := tallies.findsOwn asset given
  obtain ⟨inPlace, own⟩ := get_of_getAccount typed read
  have stored : before.accounts.get (Record.account srcAcc).key = some (.account srcAcc) := by
    rwa [Record.key_account, own]
  rcases effect with ⟨missing, -, updated, counts, rfl⟩ |
    ⟨line, held, ⟨-, updated, counts, rfl⟩ | ⟨-, -, rfl⟩⟩
  · obtain rfl := eq_add_of_updateEntryCount counts
    have fresh : before.accounts.get (trustKey t.srcAccountID asset) = none := by
      simpa [getTrust, apart] using missing
    exact tallied.counted.opened stored fresh own.symm (tallies.room srcAcc read asset given missing)
  · obtain rfl := eq_add_of_updateEntryCount counts
    have inLine := get_of_getTrust only.noAccountAt apart held
    have key := before.accounts.ownKey _ _ inLine
    rw [← key]
    exact tallied.counted.closed stored (key ▸ inLine) ((line_of_getTrust only held).1.trans own.symm)
  · have inLine := get_of_getTrust only.noAccountAt apart held
    have inPlace : before.accounts.get (Record.trust { line with limit := t.limit }).key =
        some (.trust line) := by
      change before.accounts.get (Record.trust line).key = _
      rwa [before.accounts.ownKey _ _ inLine]
    have rewritten : ∀ accountID, Rewritten
        (fun old new => new.lineCount accountID = old.lineCount accountID) before.accounts.get
        (before.accounts.insert (.trust { line with limit := t.limit })).get := fun accountID =>
      Bucket.rewritten_insert inPlace rfl fun _ _ => rfl
    refine tallied.counted.relined srcAcc stored rfl (add_zero _).symm ?_ ?_
    · intro key found stands
      rw [Bucket.get_insert] at stands
      split_ifs at stands
      · simp at stands
      · by_cases mine : found.accountID = srcAcc.accountID
        · left
          have key := before.accounts.ownKey _ _ stands
          rw [← key, Record.key_account, mine, ← Record.key_account, stored] at stands
          simpa using stands.symm
        · exact .inr ⟨stands, mine⟩
    · intro accountID
      rw [Bucket.lines_of_rewritten (rewritten accountID)]
      simp

end Trust

section Offers

variable {m : Manager} {createID : Except String String} {newOffer : Bool} {held : Holdings}
  {offer : Exchange.Offer} {before after : Market}

theorem Bucket.Shows.spared {accounts later : Bucket} {record : Record} {accountID : String}
    (shows : accounts.Shows record)
    (spared : Rewritten (Record.Spared accountID) accounts.get later.get)
    (own : ∀ acc, record = .account acc → acc.accountID = accountID) : later.Shows record := by
  obtain ⟨stored, stood, alike⟩ := shows
  obtain ⟨current, stands, same, counts⟩ := spared.new_of_old stood
  have identical := Record.identity_of_standing alike
  refine ⟨current, stands, ?_⟩
  cases record with
  | account acc =>
    have mine : stored.IsAccountOf accountID :=
      (Record.isAccountOf_of_identity identical).mpr (own acc rfl)
    exact (counts mine).trans alike
  | trust line =>
    have lineSame := same.trans identical
    cases current with
    | account acc => simp [Record.identity] at lineSame
    | trust other => exact lineSame

theorem Holdings.Shown.spared {accounts later : Bucket} {accountID : String}
    (shown : held.Shown accounts)
    (spared : Rewritten (Record.Spared accountID) accounts.get later.get)
    (own : held.acc.accountID = accountID) : held.Shown later := by
  constructor
  · refine shown.account.spared spared ?_
    rintro acc ⟨⟩
    exact own
  · exact fun line lineMem => (shown.sellLine line lineMem).spared spared (by simp)
  · exact fun line lineMem => (shown.buyLine line lineMem).spared spared (by simp)

theorem Placement.tallied (placement : Placement m createID newOffer held offer before after)
    (stored : newOffer = true →
      before.accounts.get (Record.account held.acc).key = some (.account held.acc))
    (shown : held.Shown before.accounts) (own : held.acc.accountID = offer.accountID)
    (sound : ∀ crossing ∈ placement.crossings, crossing.Sound) (tallied : before.Tallied) :
    placement.booked.Tallied ∧
      before.accounts.SameUpTo Record.identity placement.booked.accounts ∧
      ∀ known ∈ before.exchange.values, known.accountID = offer.accountID →
        known ∈ placement.booked.exchange.values := by
  obtain ⟨sameAcc, limited⟩ := of_getOfferLimits stored placement.limits
  have fills := placement.fills
  have settles := placement.settles
  rw [limited] at fills
  rw [sameAcc] at settles
  have run := (holds_of_done fills).mp (fillOrder_crossings m _ before)
  have arranged := m.sort_perm (offersUnder before offer.buyAsset.assetName offer.sellAsset.assetName)
  have inBook : ∀ known ∈ m.sort (offersUnder before offer.buyAsset.assetName
      offer.sellAsset.assetName), known ∈ before.exchange.values := fun known knownMem =>
    List.mem_of_mem_filter (arranged.mem_iff.mp knownMem)
  have distinct : ((m.sort (offersUnder before offer.buyAsset.assetName
      offer.sellAsset.assetName)).map Offer.exchangeKey).Nodup :=
    (arranged.map _).nodup_iff.mpr
      (before.exchange.distinct.sublist (List.filter_sublist.map _))
  obtain ⟨stays, spared, kept⟩ := run.tallied sound inBook distinct tallied
  obtain ⟨exchange, offers, same⟩ := (holds_of_done settles).mp
    (updateBalances_standing (shown.spared spared own) placement.order)
  refine ⟨stays.same exchange offers same, ?_, ?_⟩
  · exact Bucket.SameUpTo.trans (spared.mono fun _ _ change => change.1) same.identity_of_standing
  · intro known knownMem mine
    rw [exchange]
    exact kept known knownMem mine

/-- Every call of `Fill` succeeds, and nothing of a new offer is put into the book. -/
structure Exchange.Offer.Tallies (m : Manager) (offer : Exchange.Offer) (market : Market) :
    Prop where
  own : offer.RecordsOwn market.accounts
  known : offer.offerID ≠ "" → ∀ old ∈ market.offers.get offer.offerKey,
    old.BearersOwn market.accounts
  fills : offer.amount ≠ 0 → (offer.matched m).Holds market
    (fun result _ => (∀ crossing ∈ result.1, crossing.Sound) ∧
      (offer.offerID = "" → ¬ 0 < result.2))
    (fun _ _ => True)

theorem OfferStep.tallied (effect : OfferStep m createID offer held before after)
    (tallies : offer.Tallies m before) (loads : loadHoldings offer before = .done held before)
    (tallied : before.Tallied) : after.Tallied := by
  obtain ⟨-, read, sells, buys⟩ := of_loadHoldings loads
  obtain ⟨accShown, own⟩ := shows_of_getAccount tallies.own.bearers.account read
  have shown : held.Shown before.accounts :=
    ⟨accShown, fun line given => shows_of_loadSellTrust tallies.own (sells.trans (congrArg _ given)),
      fun line given => shows_of_loadBuyTrust tallies.own.bearers (buys.trans (congrArg _ given))⟩
  cases effect with
  | idle new empty => exact tallied
  | placed _ new nonempty placement =>
    obtain ⟨sound, nothing⟩ := placement.of_matched new loads (tallies.fills nonempty)
    have inPlace := (get_of_getAccount tallies.own.bearers.account read).1
    rw [← own] at inPlace
    obtain ⟨stays, -, -⟩ := placement.tallied (fun _ => inPlace) shown own sound tallied
    rwa [placement.ends (nothing new)] at stays
  | cancelled old released _ known empty found release cancels =>
    obtain ⟨inOffers, sameAccount, -⟩ := keys_of_getOffer found
    obtain ⟨exchange, offers, charged⟩ := (holds_of_done release).mp
      (updateOfferLiability_holds (tallies.known known old inOffers) false)
    have alike : before.accounts.SameUpTo Record.standing released.accounts :=
      standing_of_chargedFor charged
    have inBook : old ∈ released.exchange.values := by
      rw [exchange]
      exact (tallied.agree old).mp (Store.get_eq_some_iff.mp inOffers).1
    unfold cancelOffer wrapFault at cancels
    simp only [bind_eq_done, mapFault_eq_done, lift_eq_done] at cancels
    obtain ⟨_, deleted, deletes, updated, _, ⟨counts, rfl⟩, saves⟩ := cancels
    obtain rfl : _ = deleted := (Outcome.done.inj deletes).2
    obtain rfl := eq_add_of_updateEntryCount counts
    obtain rfl := of_saveAccount saves
    refine (tallied.same exchange offers alike).remove inBook rfl rfl ?_
    exact (accShown.later alike).recount (own.trans sameAccount.symm) (-1)
  | changed old released _ known nonempty found release placement =>
    obtain ⟨inOffers, sameAccount, sameKey⟩ := keys_of_getOffer found
    obtain ⟨exchange, offers, charged⟩ := (holds_of_done release).mp
      (updateOfferLiability_holds (tallies.known known old inOffers) false)
    have alike : before.accounts.SameUpTo Record.standing released.accounts :=
      standing_of_chargedFor charged
    obtain ⟨sound, -⟩ := (holds_of_done (placement.matched_eq known loads found release)).mp
      (tallies.fills nonempty)
    obtain ⟨stays, identical, kept⟩ := placement.tallied (by simp) (shown.later alike) own sound
      (tallied.same exchange offers alike)
    by_cases positive : 0 < placement.amount
    · obtain ⟨offerID, saved, -, sameID, saves, charges⟩ := of_restOffer (placement.rests positive)
      obtain rfl := sameID rfl
      obtain ⟨accounts, exchangeSaved, offersSaved⟩ :=
        (holds_of_done saves).mp (saveOffer_holds _ placement.booked)
      have bearers : offer.BearersOwn saved.accounts := accounts ▸
        tallies.own.bearers.of_identity (alike.identity_of_standing.trans identical)
      obtain ⟨exchangeLate, offersLate, acquired⟩ := (holds_of_done charges).mp
        (updateOfferLiability_holds (bearers.resized _ _) true)
      have inBook : old ∈ placement.booked.exchange.values := by
        refine kept old ?_ sameAccount
        rw [exchange]
        exact (tallied.agree old).mp (Store.get_eq_some_iff.mp inOffers).1
      refine stays.resize inBook (exchangeLate.trans exchangeSaved) (offersLate.trans offersSaved)
        sameKey (Store.get_eq_some_iff.mp inOffers).2 sameAccount ?_
      exact accounts ▸ standing_of_chargedFor acquired
    · rwa [placement.ends positive] at stays

end Offers

inductive TallyingStep (m : Manager) : Market → Market → Prop
  | trust (t : Op.Trust) (before : Market) (accounts : Bucket) (tallies : t.Tallies before.accounts)
      (done : t.apply m.am before.accounts = .ok accounts) :
      TallyingStep m before { before with accounts := accounts }
  | offer (createID : Except String String) (of : Op.Offer) (offer : Exchange.Offer)
      (before after : Market) (valid : of.validate = .ok offer) (tallies : offer.Tallies m before)
      (done : of.apply m createID before = .done () after) : TallyingStep m before after

theorem TallyingStep.tallied {m : Manager} {before after : Market} (step : TallyingStep m before after)
    (tallied : before.Tallied) : after.Tallied := by
  cases step with
  | trust t before accounts tallies done => exact tallies.tallied done tallied
  | offer createID of offer before after valid tallies done =>
    obtain ⟨found, held, validToo, loads, effect⟩ := OfferStep.of_done done
    cases valid.symm.trans validToo
    exact effect.tallied tallies loads tallied

/-- Along operations that keep the entries counted every account counts its lines and its
open offers. -/
theorem counted_of_steps (m : Manager) {start final : Market} (tallied : start.Tallied)
    (run : Relation.ReflTransGen (TallyingStep m) start final) : final.Counted := by
  have stays : final.Tallied := by
    induction run with
    | refl => exact tallied
    | tail _ step ih => exact step.tallied ih
  exact stays.counted

section Samples

private def zinc : Asset := ⟨.custom, "ZN", "mint"⟩
private def iron : Asset := ⟨.custom, "FE", "mint"⟩
private def cobalt : Asset := ⟨.custom, "CO", "mint"⟩

private def teller : Manager := .unsorted ⟨100⟩

private def bobsZinc : Exchange.Offer := ⟨"first", "bob", zinc, iron, 100, ⟨1, 1⟩, 0⟩

private def countedBook : Market where
  accounts :=
    .ofRecords [.trader "mint" 0, .trader "alice" 2, .holding "alice" zinc,
      .holding "alice" iron, .trader "bob" 3, .holding "bob" zinc,
      .trust ⟨"bob", some iron, 1000, 10000, some ⟨100, 100⟩, 1⟩]
  exchange := (Store.empty _).put bobsZinc
  offers := (Store.empty _).put bobsZinc

private theorem countedBook_tallied : countedBook.Tallied := by
  exact ⟨by decide +kernel, fun offer => Iff.rfl⟩

private def aliceTrusts : Op.Trust := ⟨"alice", some cobalt, 50⟩

private def threeLines : Market where
  accounts :=
    (countedBook.accounts.insert (.account ⟨"alice", 1000000, "", 1, 3, some ⟨0, 0⟩⟩)).insert
      (.trust ⟨"alice", some cobalt, 0, 50, some ⟨0, 0⟩, 1⟩)
  exchange := countedBook.exchange
  offers := countedBook.offers

private def aliceBuysZinc : Op.Offer := ⟨"alice", some zinc, some iron, 100, some ⟨1, 1⟩, "", 0⟩

/-- Alice opens a line and then buys all the zinc that Bob offers. -/
theorem counted_of_trust_and_purchase :
    ∃ final,
      aliceTrusts.apply teller.am countedBook.accounts = .ok threeLines.accounts ∧
      aliceBuysZinc.apply teller (.ok "second") threeLines = .done () final ∧
      final.exchange.values = [] ∧
      (getAccount final.accounts "bob").map (fun acc => acc.entryCount) = some 2 ∧
      final.Counted := by
  have opens : aliceTrusts.apply teller.am countedBook.accounts = .ok threeLines.accounts := by rfl
  have buys : aliceBuysZinc.apply teller (.ok "second") threeLines =
      .done () (aliceBuysZinc.apply teller (.ok "second") threeLines).state :=
    Outcome.eq_done (by decide +kernel)
  have first : TallyingStep teller countedBook threeLines := by
    refine .trust aliceTrusts countedBook threeLines.accounts ⟨by decide +kernel, ?_⟩ opens
    decide +kernel
  have second : TallyingStep teller threeLines
      (aliceBuysZinc.apply teller (.ok "second") threeLines).state := by
    refine .offer _ aliceBuysZinc ⟨"", "alice", iron, zinc, 100, ⟨1, 1⟩, 0⟩ _ _ rfl ?_ buys
    exact ⟨by decide +kernel, by simp, fun _ => by decide +kernel⟩
  refine ⟨_, opens, buys, by decide +kernel, by decide +kernel, ?_⟩
  exact counted_of_steps teller countedBook_tallied (.tail (.single first) second)

private def aliceSellsIron (offerID : String) (amount : Int64) : Op.Offer :=
  ⟨"alice", some zinc, some iron, amount, some ⟨2, 1⟩, offerID, 0⟩

private def uncountedOffer : Market :=
  ((aliceSellsIron "" 100).apply teller (.ok "second") countedBook).state

/-- Alice puts an offer into the book and counts two entries as before.  After it is
cancelled Alice counts one entry, for two lines. -/
theorem offer_not_counted :
    countedBook.Tallied ∧
    (aliceSellsIron "" 100).apply teller (.ok "second") countedBook = .done () uncountedOffer ∧
    uncountedOffer.openOffers "alice" = 1 ∧ uncountedOffer.accounts.lines "alice" = 2 ∧
    (getAccount uncountedOffer.accounts "alice").map (fun acc => acc.entryCount) = some 2 ∧
    ¬ uncountedOffer.Counted ∧
    ∃ final, (aliceSellsIron "second" 0).apply teller (.ok "") uncountedOffer = .done () final ∧
      final.openOffers "alice" = 0 ∧ final.accounts.lines "alice" = 2 ∧
      (getAccount final.accounts "alice").map (fun acc => acc.entryCount) = some 1 ∧
      ¬ final.Counted := by
  refine ⟨countedBook_tallied, Outcome.eq_done (by decide +kernel), by decide +kernel,
    by decide +kernel, by decide +kernel, by decide +kernel, _,
    Outcome.eq_done (by decide +kernel), by decide +kernel⟩

end Samples

end Ultiledger
