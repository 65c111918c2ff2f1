import Ultiledger.OfferSteps
import Ultiledger.PanicFreedom

/-! # Balances and limits of trust lines -/

namespace Ultiledger

open AbortingProgram Program Exchange RewrittenMaps MachineIntegers

def Trust.buying (line : Trust) : Int := (Liability.side true line.liability).toInt

def Trust.RoomFor (line : Trust) (balance : Int) : Prop :=
  0 ≤ balance ∧ balance + line.buying ≤ line.limit.toInt

instance decidableRoomFor (line : Trust) (balance : Int) : Decidable (line.RoomFor balance) := by
  unfold Trust.RoomFor
  infer_instance

def Trust.NotIssuer (line : Trust) : Prop := ∀ asset ∈ line.asset, line.accountID ≠ asset.issuer

/-- The line is within its bounds, and what it reserves is not negative. -/
def Trust.Sound (line : Trust) : Prop :=
  line.NotIssuer → line.RoomFor line.balance.toInt ∧ 0 ≤ line.buying

def Bucket.SoundLines (bucket : Bucket) : Prop :=
  ∀ key line, bucket.get key = some (.trust line) → line.Sound

namespace Bucket.SoundLines

variable {bucket : Bucket}

theorem insert_account (sound : bucket.SoundLines) (acc : Account) :
    (bucket.insert (.account acc)).SoundLines := by
  intro key line stands
  rw [Bucket.get_insert] at stands
  split_ifs at stands
  · simp at stands
  · exact sound key line stands

theorem insert_trust (sound : bucket.SoundLines) {written : Trust} (fits : written.Sound) :
    (bucket.insert (.trust written)).SoundLines := by
  intro key line stands
  rw [Bucket.get_insert] at stands
  split_ifs at stands
  · obtain rfl : written = line := by simpa using stands
    exact fits
  · exact sound key line stands

theorem delete (sound : bucket.SoundLines) (removed : List UInt8) :
    (bucket.delete removed).SoundLines := by
  intro key line stands
  rw [Bucket.get_delete] at stands
  split_ifs at stands
  exact sound key line stands

/-- A line that is read is sound, if it is not the issuer's and no account that is taken for
a line. -/
theorem of_getTrust (sound : bucket.SoundLines) {accountID : String} {asset : Asset} {line : Trust}
    (apart : accountID ≠ asset.issuer) (read : getTrust bucket accountID asset = some line)
    (isLine : ∀ acc, line ≠ (Record.account acc).decodeTrust) : line.Sound := by
  unfold getTrust at read
  rw [if_neg apart] at read
  obtain ⟨record, stored, decoded⟩ := Option.map_eq_some_iff.mp read
  cases record with
  | account acc => exact absurd decoded.symm (isLine acc)
  | trust found =>
    obtain rfl : found = line := decoded
    exact sound _ found stored

end Bucket.SoundLines

section Payments

def Bucket.Takes (accounts : Bucket) (accountID : String) (asset : Asset) (amount : Int) : Prop :=
  accountID ≠ asset.issuer → ∀ line ∈ getTrust accounts accountID asset,
    line.RoomFor (line.balance.toInt + amount)

instance decidableTakes (accounts : Bucket) (accountID : String) (asset : Asset) (amount : Int) :
    Decidable (accounts.Takes accountID asset amount) := by
  unfold Bucket.Takes
  infer_instance

def Op.Payment.Fits (p : Op.Payment) (accounts : Bucket) : Prop :=
  p.dstAccountID ≠ p.srcAccountID → ∀ asset ∈ p.asset, asset.assetType ≠ .native →
    accounts.Takes p.dstAccountID asset p.amount.toInt ∧
      accounts.Takes p.srcAccountID asset (-p.amount.toInt)

variable {dt moved : Bucket} {accountID : String} {asset : Asset} {amount : Int64}

theorem Trust.Sound.add {line : Trust} {added : Int64} {change : Int} (sound : line.Sound)
    (room : line.NotIssuer → line.RoomFor (line.balance.toInt + change))
    (signed : added.toInt = change ∨ change = maxInt64 + 1) :
    { line with balance := line.balance + added }.Sound := by
  intro notIssuer
  obtain ⟨bounds, reserved⟩ := sound notIssuer
  obtain ⟨above, below⟩ := room notIssuer
  have limit := le_maxInt64 line.limit
  have start := bounds.1
  have exact : (line.balance + added).toInt = line.balance.toInt + added.toInt := by
    apply toInt_add_of_fits
    · unfold minInt64
      omega
    · omega
  refine ⟨⟨?_, ?_⟩, reserved⟩
  · change 0 ≤ (line.balance + added).toInt
    omega
  · change (line.balance + added).toInt + line.buying ≤ line.limit.toInt
    omega

theorem isLine_of_moveTrust {line : Trust} (done : moveTrust dt accountID asset amount = .ok moved)
    (read : getTrust dt accountID asset = some line) :
    ∀ acc, line ≠ (Record.account acc).decodeTrust := by
  rintro acc rfl
  exact asset_of_moveTrust done read rfl

theorem moveTrust_sound (change : Int) (sound : dt.SoundLines)
    (takes : dt.Takes accountID asset change)
    (signed : amount.toInt = change ∨ change = maxInt64 + 1)
    (done : moveTrust dt accountID asset amount = .ok moved) : moved.SoundLines := by
  obtain ⟨line, read, -, -, rfl⟩ := of_moveTrust done
  refine sound.insert_trust ?_
  by_cases issuer : accountID = asset.issuer
  · unfold getTrust at read
    rw [if_pos issuer] at read
    cases read
    exact fun notIssuer => absurd issuer (notIssuer asset rfl)
  · refine (sound.of_getTrust issuer read (isLine_of_moveTrust done read)).add ?_ signed
    exact fun _ => takes issuer line read

theorem takes_of_moveTrust {other : String} {change : Int} (apart : accountID ≠ other)
    (takes : dt.Takes other asset change)
    (done : moveTrust dt accountID asset amount = .ok moved) : moved.Takes other asset change := by
  obtain ⟨line, read, -, -, rfl⟩ := of_moveTrust done
  have readKey := key_of_moveTrust done read
  have key : (Record.trust { line with balance := line.balance + amount }).key =
      trustKey accountID asset := readKey
  intro notIssuer found foundMem
  refine takes notIssuer found ?_
  unfold getTrust at foundMem ⊢
  rwa [Bucket.get_insert, key, if_neg (trustKey_ne apart asset).symm] at foundMem

theorem moveTrust_back (sound : dt.SoundLines) {back : Bucket}
    (credited : moveTrust dt accountID asset amount = .ok moved)
    (debited : moveTrust moved accountID asset (-amount) = .ok back) : back.SoundLines := by
  by_cases issuer : accountID = asset.issuer
  · have exempt : ∀ (bucket : Bucket) (change : Int), bucket.Takes accountID asset change :=
      fun _ _ notIssuer => absurd issuer notIssuer
    have credit := moveTrust_sound _ sound (exempt _ _) (.inl rfl) credited
    exact moveTrust_sound _ credit (exempt _ _) (.inl rfl) debited
  · obtain ⟨line, read, -, -, rfl⟩ := of_moveTrust credited
    have readKey := key_of_moveTrust credited read
    have key : (Record.trust { line with balance := line.balance + amount }).key =
        trustKey accountID asset := readKey
    obtain ⟨later, readLater, -, -, rfl⟩ := of_moveTrust debited
    obtain rfl : { line with balance := line.balance + amount } = later := by
      unfold getTrust at readLater
      rw [if_neg issuer, Bucket.get_insert, if_pos key.symm] at readLater
      exact Option.some.inj readLater
    have balance : line.balance + amount + -amount = line.balance := by
      rw [Int64.add_assoc, Int64.add_right_neg, Int64.add_zero]
    have restored : (Record.trust { line with balance := line.balance + amount + -amount }) =
        .trust line := by
      rw [balance]
    rw [Bucket.insert_insert _ (by rfl), restored]
    exact sound.insert_trust (sound.of_getTrust issuer read (isLine_of_moveTrust credited read))

theorem Op.Payment.Fits.sound {em : Ultiledger.Exchange} {p : Op.Payment} {paid : Bucket}
    (fits : p.Fits dt) (done : p.apply em dt = .ok paid) (sound : dt.SoundLines) :
    paid.SoundLines := by
  obtain ⟨asset, middle, given, -, credited, debited⟩ := of_payment done
  by_cases native : asset.assetType = .native
  · simp only [creditDst, native, if_true] at credited
    split_ifs at credited
    obtain ⟨dstAcc, -, -, -, rfl⟩ := of_moveNative credited
    simp only [debitSrc, native, if_true] at debited
    obtain ⟨srcAcc, -, -, -, rfl⟩ := of_moveNative debited
    exact (sound.insert_account _).insert_account _
  · obtain ⟨-, credited⟩ := (creditDst_eq_ok native).mp credited
    rw [debitSrc, if_neg native] at debited
    by_cases same : p.dstAccountID = p.srcAccountID
    · rw [← same] at debited
      exact moveTrust_back sound credited debited
    · obtain ⟨dstTakes, srcTakes⟩ := fits same asset given native
      have credit := moveTrust_sound _ sound dstTakes (.inl rfl) credited
      refine moveTrust_sound _ credit (takes_of_moveTrust same srcTakes credited) ?_ debited
      by_cases smallest : p.amount.toInt = minInt64
      · right
        rw [smallest]
        rfl
      · exact .inl (toInt_neg_of_ne smallest)

end Payments

section Trust

theorem trust_sound {am : AccountManager} {t : Op.Trust} {dt managed : Bucket}
    (limit : 0 ≤ t.limit.toInt) (done : t.apply am dt = .ok managed) (sound : dt.SoundLines) :
    managed.SoundLines := by
  obtain ⟨asset, srcAcc, -, apart, -, effect⟩ := trust_cases done
  rcases effect with ⟨-, -, counted, -, rfl⟩ |
    ⟨line, read, ⟨-, counted, -, rfl⟩ | ⟨-, ⟨liability, owed, enough⟩, rfl⟩⟩
  · refine (sound.insert_account counted).insert_trust fun _ => ?_
    exact ⟨⟨le_rfl, limit⟩, le_rfl⟩
  · exact (sound.delete _).insert_account counted
  · refine sound.insert_trust fun notIssuer => ?_
    have isLine : ∀ acc, line ≠ (Record.account acc).decodeTrust := by
      rintro acc rfl
      simp [Record.decodeTrust] at owed
    obtain ⟨⟨above, below⟩, reserved⟩ := sound.of_getTrust apart read isLine notIssuer
    have buying : line.buying = liability.buying.toInt := by simp [Trust.buying, owed, Liability.side]
    have exact : (line.balance + liability.buying).toInt =
        line.balance.toInt + liability.buying.toInt := by
      have last := le_maxInt64 line.limit
      apply toInt_add_of_fits
      · unfold minInt64
        omega
      · omega
    rw [Int64.le_iff_toInt_le] at enough
    refine ⟨⟨above, ?_⟩, reserved⟩
    change line.balance.toInt + line.buying ≤ t.limit.toInt
    omega

end Trust

section Offers

variable {m : Manager} {createID : Except String String} {newOffer : Bool} {held : Holdings}
  {offer : Exchange.Offer} {before after : Market}

/-- The line of the asset that is bought has room for the liability of the offer with the
amount. -/
def Exchange.Offer.FitsLine (offer : Exchange.Offer) (amount : Int64) (accounts : Bucket) : Prop :=
  offer.buyAsset.assetType ≠ .native →
    ∀ line ∈ getTrust accounts offer.accountID offer.buyAsset,
      line.balance.toInt + line.buying + { offer with amount := amount }.liabilityOf true ≤
        line.limit.toInt

instance decidableFitsLine (offer : Exchange.Offer) (amount : Int64) (accounts : Bucket) :
    Decidable (offer.FitsLine amount accounts) := by
  unfold Exchange.Offer.FitsLine
  infer_instance

/-- The offer crosses nothing, an old one has no negative liability, and there is room for
what is put into the book. -/
structure Exchange.Offer.Fits (m : Manager) (offer : Exchange.Offer) (market : Market) : Prop where
  own : offer.BearersOwn market.accounts
  crossesNothing : offer.amount ≠ 0 → offer.CrossesNothing m market
  known : offer.offerID ≠ "" → ∀ old ∈ market.offers.get offer.offerKey,
    old.BearersOwn market.accounts ∧ 0 ≤ old.liabilityOf true
  fits : offer.amount ≠ 0 → (offer.matched m).Holds market
    (fun result booked => 0 < result.2 → offer.FitsLine result.2 booked.accounts)
    (fun _ _ => True)

theorem Bucket.SoundLines.charged {accounts later : Bucket} {acquire : Bool}
    (sound : accounts.SoundLines)
    (charged : Rewritten (Record.ChargedFor offer acquire) accounts.get later.get)
    (room : ∀ key line, accounts.get key = some (.trust line) →
      (Record.trust line).Bears offer true → line.RoomFor line.balance.toInt →
      line.balance.toInt + line.buying +
        (if acquire then offer.liabilityOf true else -offer.liabilityOf true) ≤
          line.limit.toInt) : later.SoundLines := by
  intro key line stands notIssuer
  obtain ⟨old, stood, same, change⟩ := charged.old_of_new stands
  cases old with
  | account acc => simp [Record.unburdened, Record.withLiability] at same
  | trust earlier =>
    simp only [Record.unburdened, Record.withLiability, Record.trust.injEq, Trust.mk.injEq] at same
    have earlierNotIssuer : earlier.NotIssuer := by
      unfold Trust.NotIssuer at *
      rw [← same.1, ← same.2.1]
      exact notIssuer
    obtain ⟨bounds, reserved⟩ := sound key earlier stood earlierNotIssuer
    obtain ⟨buying, stays⟩ := change true reserved
    refine ⟨⟨?_, ?_⟩, stays⟩
    · rw [same.2.2.1]
      exact bounds.1
    · change line.balance.toInt + ((Record.trust line).burden true).toInt ≤ line.limit.toInt
      rw [buying, same.2.2.1, same.2.2.2.1]
      have within := bounds.2
      have fits := room key earlier stood
      change earlier.balance.toInt + (earlier.buying + _) ≤ earlier.limit.toInt
      by_cases bears : (Record.trust earlier).Bears offer true
      · have room := fits bears bounds
        omega
      · rw [if_neg bears]
        omega

theorem Bucket.SoundLines.released {released : Market} {old : Exchange.Offer}
    (sound : before.accounts.SoundLines) (own : old.BearersOwn before.accounts)
    (notNegative : 0 ≤ old.liabilityOf true)
    (release : updateOfferLiability old false before = .done () released) :
    released.accounts.SoundLines ∧ released.exchange = before.exchange ∧
      before.accounts.SameUpTo Record.identity released.accounts := by
  obtain ⟨exchange, -, charged⟩ := (holds_of_done release).mp (updateOfferLiability_holds own false)
  refine ⟨sound.charged charged fun key line _ _ bounds => ?_, exchange,
    charged.mono fun _ _ change => Record.identity_of_unburdened change.1⟩
  have within := bounds.2
  simp only [Bool.false_eq_true, if_false]
  omega

theorem Placement.sound (placement : Placement m createID newOffer held offer before after)
    (stored : newOffer = true →
      before.accounts.get (Record.account held.acc).key = some (.account held.acc))
    (own : offer.BearersOwn before.accounts) (quiet : offer.CrossesNothing m before)
    (fits : 0 < placement.amount → offer.FitsLine placement.amount placement.booked.accounts)
    (sound : before.accounts.SoundLines) : after.accounts.SoundLines := by
  obtain ⟨booked, ⟨-, rfl⟩ | ⟨offerID, saved, positive, -, -, saves, charges⟩⟩ :=
    placement.quiet stored quiet
  · exact sound
  · obtain ⟨accounts, -, -⟩ := (holds_of_done saves).mp (saveOffer_holds _ before)
    have bearers : offer.BearersOwn saved.accounts := accounts ▸ own
    obtain ⟨-, -, charged⟩ := (holds_of_done charges).mp
      (updateOfferLiability_holds (bearers.resized _ _) true)
    have room := fits positive
    rw [booked] at room
    rw [accounts] at charged
    refine sound.charged charged fun key line stands bears _ => ?_
    unfold Record.Bears at bears
    split_ifs at bears with native
    · exact bears.elim
    · have issued : offer.buyAsset.assetType ≠ .native := native
      obtain ⟨lineOwner, lineAsset⟩ : line.accountID = offer.accountID ∧
          line.asset = some offer.buyAsset := bears
      have key : trustKey offer.accountID offer.buyAsset = key := by
        rw [← before.accounts.ownKey _ _ stands]
        simp [Record.key, lineOwner, lineAsset]
      have read : getTrust before.accounts offer.accountID offer.buyAsset = some line := by
        rw [getTrust, if_neg (own.line (.inl issued)).2, key, stands]
        rfl
      exact room issued line read

theorem OfferStep.sound (effect : OfferStep m createID offer held before after)
    (fits : offer.Fits m before) (loads : loadHoldings offer before = .done held before)
    (sound : before.accounts.SoundLines) : after.accounts.SoundLines := by
  cases effect with
  | idle new empty => exact sound
  | placed _ new nonempty placement =>
    obtain ⟨inPlace, own⟩ := get_of_getAccount fits.own.account (of_loadHoldings loads).2.1
    rw [← own] at inPlace
    exact placement.sound (fun _ => inPlace) fits.own (fits.crossesNothing nonempty)
      (placement.of_matched new loads (fits.fits nonempty)) sound
  | cancelled old released _ known empty found release cancels =>
    obtain ⟨oldOwn, notNegative⟩ := fits.known known old (keys_of_getOffer found).1
    obtain ⟨soundReleased, -, -⟩ := sound.released oldOwn notNegative release
    unfold cancelOffer wrapFault at cancels
    simp only [bind_eq_done, mapFault_eq_done, lift_eq_done] at cancels
    obtain ⟨_, deleted, deletes, updated, _, ⟨-, rfl⟩, saves⟩ := cancels
    obtain rfl : _ = deleted := (Outcome.done.inj deletes).2
    obtain rfl := of_saveAccount saves
    exact soundReleased.insert_account updated
  | changed old released _ known nonempty found release placement =>
    obtain ⟨oldOwn, notNegative⟩ := fits.known known old (keys_of_getOffer found).1
    obtain ⟨soundReleased, exchange, identical⟩ := sound.released oldOwn notNegative release
    exact placement.sound (by simp) (fits.own.of_identity identical)
      ((fits.crossesNothing nonempty).of_exchange_eq exchange)
      ((holds_of_done (placement.matched_eq known loads found release)).mp (fits.fits nonempty))
      soundReleased

end Offers

inductive BoundedStep (m : Manager) (em : Ultiledger.Exchange) : Market → Market → Prop
  | payment (p : Op.Payment) (before : Market) (accounts : Bucket) (fits : p.Fits before.accounts)
      (done : p.apply em before.accounts = .ok accounts) :
      BoundedStep m em before { before with accounts := accounts }
  | trust (t : Op.Trust) (before : Market) (accounts : Bucket) (limit : 0 ≤ t.limit.toInt)
      (done : t.apply m.am before.accounts = .ok accounts) :
      BoundedStep m em before { before with accounts := accounts }
  | offer (createID : Except String String) (of : Op.Offer) (offer : Exchange.Offer)
      (before after : Market) (valid : of.validate = .ok offer) (fits : offer.Fits m before)
      (done : of.apply m createID before = .done () after) : BoundedStep m em before after

theorem BoundedStep.sound {m : Manager} {em : Ultiledger.Exchange} {before after : Market}
    (step : BoundedStep m em before after) (sound : before.accounts.SoundLines) :
    after.accounts.SoundLines := by
  cases step with
  | payment p before accounts fits done => exact fits.sound done sound
  | trust t before accounts limit done => exact trust_sound limit done sound
  | offer createID of offer before after valid fits done =>
    obtain ⟨found, held, validToo, loads, effect⟩ := OfferStep.of_done done
    cases valid.symm.trans validToo
    exact effect.sound fits loads sound

theorem sound_of_steps {m : Manager} {em : Ultiledger.Exchange} {start final : Market}
    (run : Relation.ReflTransGen (BoundedStep m em) start final)
    (sound : start.accounts.SoundLines) : final.accounts.SoundLines := by
  induction run with
  | refl => exact sound
  | tail _ step ih => exact step.sound ih

/-- Along operations that keep the lines within their bounds, no balance is negative or
exceeds the limit together with what is reserved for buying. -/
theorem trust_limits_of_steps (m : Manager) (em : Ultiledger.Exchange) {start final : Market}
    (sound : start.accounts.SoundLines) (run : Relation.ReflTransGen (BoundedStep m em) start final)
    (key : List UInt8) (line : Trust) (stored : final.accounts.get key = some (.trust line))
    (notIssuer : ∀ asset ∈ line.asset, line.accountID ≠ asset.issuer) :
    0 ≤ line.balance.toInt ∧ line.balance.toInt + line.buying ≤ line.limit.toInt :=
  (sound_of_steps run sound key line stored notIssuer).1

section Samples

private def nickel : Asset := ⟨.custom, "NI", "mint"⟩
private def cadmium : Asset := ⟨.custom, "CD", "mint"⟩
private def ulu : Asset := ⟨.native, "ULU", ""⟩

private def cashier : Manager := .unsorted ⟨100⟩

private def noExchange : Ultiledger.Exchange := fun _ _ => .error (.failed "not used")

private def nickelMarket : Market where
  accounts :=
    .ofRecords [.trader "mint" 0, .trader "alice" 1, .trader "bob" 1,
      .trust ⟨"bob", some nickel, 0, 100, some ⟨0, 0⟩, 1⟩,
      .trust ⟨"alice", some nickel, 50, 100, some ⟨0, 0⟩, 1⟩]
  exchange := .empty _
  offers := .empty _

private theorem nickelMarket_sound : nickelMarket.accounts.SoundLines := by
  unfold Bucket.SoundLines Trust.Sound Trust.NotIssuer
  decide +kernel

private def alicePays (amount : Int64) : Op.Payment := ⟨"alice", "bob", some nickel, amount⟩

private def aliceWants (amount : Int64) : Op.Offer :=
  ⟨"alice", some nickel, some ulu, amount, some ⟨1, 1⟩, "", 0⟩

private def paidMarket (aliceHas bobHas : Int64) : Market where
  accounts :=
    (nickelMarket.accounts.insert (.trust ⟨"bob", some nickel, bobHas, 100, some ⟨0, 0⟩, 1⟩)).insert
      (.trust ⟨"alice", some nickel, aliceHas, 100, some ⟨0, 0⟩, 1⟩)
  exchange := .empty _
  offers := .empty _

/-- Alice pays 20 units of nickel and then offers to buy 30. -/
theorem trust_limits_of_payment_and_offer :
    ∃ final,
      (alicePays 20).apply noExchange nickelMarket.accounts = .ok (paidMarket 30 20).accounts ∧
      (aliceWants 30).apply cashier (.ok "first") (paidMarket 30 20) = .done () final ∧
      final.accounts.get (trustKey "alice" nickel) =
        some (.trust ⟨"alice", some nickel, 30, 100, some ⟨30, 0⟩, 1⟩) ∧
      0 ≤ (30 : Int64).toInt ∧
      (30 : Int64).toInt + Trust.buying ⟨"alice", some nickel, 30, 100, some ⟨30, 0⟩, 1⟩ ≤
        (100 : Int64).toInt := by
  have pays : (alicePays 20).apply noExchange nickelMarket.accounts =
      .ok (paidMarket 30 20).accounts := by rfl
  have offers : (aliceWants 30).apply cashier (.ok "first") (paidMarket 30 20) =
      .done () ((aliceWants 30).apply cashier (.ok "first") (paidMarket 30 20)).state :=
    Outcome.eq_done (by decide +kernel)
  have first : BoundedStep cashier noExchange nickelMarket (paidMarket 30 20) := by
    refine .payment (alicePays 20) nickelMarket (paidMarket 30 20).accounts ?_ pays
    unfold Op.Payment.Fits
    decide +kernel
  have second : BoundedStep cashier noExchange (paidMarket 30 20)
      ((aliceWants 30).apply cashier (.ok "first") (paidMarket 30 20)).state := by
    refine .offer _ (aliceWants 30) ⟨"", "alice", ulu, nickel, 30, ⟨1, 1⟩, 0⟩ _ _ rfl ?_ offers
    exact ⟨by decide +kernel, fun _ => by decide +kernel, by simp, fun _ => by decide +kernel⟩
  have stored : ((aliceWants 30).apply cashier (.ok "first") (paidMarket 30 20)).state.accounts.get
      (trustKey "alice" nickel) =
        some (.trust ⟨"alice", some nickel, 30, 100, some ⟨30, 0⟩, 1⟩) := by
    decide +kernel
  refine ⟨_, pays, offers, stored, ?_⟩
  exact trust_limits_of_steps cashier noExchange nickelMarket_sound (.tail (.single first) second)
    _ _ stored (by decide)

/-- Alice pays 60 units and has ten less than none.  Bob opens a line with a negative limit.
Alice offers to buy 80 units, for which there is no room. -/
theorem lines_out_of_bounds :
    nickelMarket.accounts.SoundLines ∧
    (∃ paid line, (alicePays 60).apply noExchange nickelMarket.accounts = .ok paid ∧
      paid.get (trustKey "alice" nickel) = some (.trust line) ∧ line.NotIssuer ∧
      line.balance = -10) ∧
    (∃ managed line, Op.Trust.apply cashier.am ⟨"bob", some cadmium, -1⟩ nickelMarket.accounts =
        .ok managed ∧
      managed.get (trustKey "bob" cadmium) = some (.trust line) ∧ line.NotIssuer ∧
      ¬ line.balance.toInt + line.buying ≤ line.limit.toInt) ∧
    ∃ final line, (aliceWants 80).apply cashier (.ok "first") nickelMarket = .done () final ∧
      final.accounts.get (trustKey "alice" nickel) = some (.trust line) ∧ line.NotIssuer ∧
      ¬ line.balance.toInt + line.buying ≤ line.limit.toInt := by
  unfold Trust.NotIssuer
  refine ⟨nickelMarket_sound, ⟨(paidMarket (-10) 60).accounts,
    ⟨"alice", some nickel, -10, 100, some ⟨0, 0⟩, 1⟩, by rfl, by decide +kernel, by decide, rfl⟩,
    ⟨_, ⟨"bob", some cadmium, 0, -1, some ⟨0, 0⟩, 1⟩, by rfl, by decide +kernel, by decide⟩,
    _, ⟨"alice", some nickel, 50, 100, some ⟨80, 0⟩, 1⟩, Outcome.eq_done (by decide +kernel),
    by decide +kernel, by decide⟩

end Samples

end Ultiledger
