import Ultiledger.ProtobufWire
import Ultiledger.TxManager

/-! # Transactions on the wire -/

namespace Ultiledger

open ProtobufWire

/-- A signed number is written as its two's complement. -/
def wireNumber (value : Int64) : Nat := value.toUInt64.toNat

theorem wireNumber_inj {first second : Int64} :
    wireNumber first = wireNumber second ↔ first = second := by
  constructor
  · intro same
    have words : first.toUInt64 = second.toUInt64 := UInt64.toNat_inj.mp same
    have back := congrArg UInt64.toInt64 words
    simpa using back
  · exact fun same => by rw [same]

theorem utf8_inj {first second : String} : utf8 first = utf8 second ↔ first = second :=
  utf8_injective.eq_iff

section Assets

/-- The numbers and lengths that are written for an asset are 64-bit words. -/
structure Asset.Sized (asset : Asset) : Prop where
  assetType : asset.assetType.number < 2 ^ 64
  assetName : (utf8 asset.assetName).length < 2 ^ 64
  issuer : (utf8 asset.issuer).length < 2 ^ 64

theorem AssetType.number_injective : Function.Injective AssetType.number := by
  intro first second same
  cases first <;> cases second <;> simp [AssetType.number] at same ⊢
  all_goals omega

def Asset.slots (asset : Asset) : List Slot :=
  [.ofNumber 1 asset.assetType.number, .ofBytes 2 (utf8 asset.assetName),
    .ofBytes 3 (utf8 asset.issuer)]

def Asset.fields (asset : Asset) : List Field := joinSlots asset.slots

theorem Asset.fields_injective : Function.Injective Asset.fields := by
  apply joinSlots_injective [1, 2, 3] (fun _ => rfl) (by decide)
  rintro ⟨assetType, assetName, issuer⟩ ⟨otherType, otherName, otherIssuer⟩ same
  simpa [Asset.slots, utf8_inj, AssetType.number_injective.eq_iff] using same

theorem map_assetFields_inj {first second : List Asset} :
    first.map Asset.fields = second.map Asset.fields ↔ first = second :=
  List.map_inj_right fun _ _ same => Asset.fields_injective same

theorem toList_inj {α : Type} {first second : Option α} :
    first.toList = second.toList ↔ first = second := by
  cases first <;> cases second <;> simp

end Assets

section Operations

def CreateAccountOp.slots (op : CreateAccountOp) : List Slot :=
  [.ofBytes 1 (utf8 op.accountID), .ofNumber 2 (wireNumber op.balance)]

def PaymentOp.slots (op : PaymentOp) : List Slot :=
  [.ofBytes 1 (utf8 op.accountID), .ofMessages 2 (op.asset.toList.map Asset.fields),
    .ofNumber 3 (wireNumber op.amount)]

def PathPaymentOp.slots (op : PathPaymentOp) : List Slot :=
  [.ofMessages 1 (op.srcAsset.toList.map Asset.fields), .ofNumber 2 (wireNumber op.srcAmount),
    .ofBytes 3 (utf8 op.accountID), .ofMessages 4 (op.dstAsset.toList.map Asset.fields),
    .ofMessages 5 (op.path.map Asset.fields)]

def TrustOp.slots (op : TrustOp) : List Slot :=
  [.ofMessages 2 (op.asset.toList.map Asset.fields), .ofNumber 3 (wireNumber op.limit)]

def OpType.number : OpType → Int32
  | .createAccount => 0
  | .payment => 1
  | .pathPayment => 2
  | .trust => 3
  | .other number _ => number

def TxOp.getCreateAccount (txOp : TxOp) : Option CreateAccountOp :=
  match txOp.op with
  | some (.createAccount op) => some op
  | _ => none

def TxOp.getPayment (txOp : TxOp) : Option PaymentOp :=
  match txOp.op with
  | some (.payment op) => some op
  | _ => none

def TxOp.getPathPayment (txOp : TxOp) : Option PathPaymentOp :=
  match txOp.op with
  | some (.pathPayment op) => some op
  | _ => none

def TxOp.getTrust (txOp : TxOp) : Option TrustOp :=
  match txOp.op with
  | some (.trust op) => some op
  | _ => none

/-- Of the four bodies at most one is there. -/
def TxOp.slots (txOp : TxOp) : List Slot :=
  [.ofNumber 1 (wireNumber txOp.opType.number.toInt64),
    .ofMessages 2 (txOp.getCreateAccount.toList.map fun op => joinSlots op.slots),
    .ofMessages 3 (txOp.getPayment.toList.map fun op => joinSlots op.slots),
    .ofMessages 4 (txOp.getPathPayment.toList.map fun op => joinSlots op.slots),
    .ofMessages 5 (txOp.getTrust.toList.map fun op => joinSlots op.slots)]

theorem createAccountOp_fields_injective :
    Function.Injective fun op : CreateAccountOp => joinSlots op.slots := by
  apply joinSlots_injective [1, 2] (fun _ => rfl) (by decide)
  rintro ⟨accountID, balance⟩ ⟨otherID, otherBalance⟩ same
  simpa [CreateAccountOp.slots, utf8_inj, wireNumber_inj] using same

theorem paymentOp_fields_injective :
    Function.Injective fun op : PaymentOp => joinSlots op.slots := by
  apply joinSlots_injective [1, 2, 3] (fun _ => rfl) (by decide)
  rintro ⟨accountID, asset, amount⟩ ⟨otherID, otherAsset, otherAmount⟩ same
  simpa [PaymentOp.slots, utf8_inj, wireNumber_inj, map_assetFields_inj, toList_inj] using same

theorem pathPaymentOp_fields_injective :
    Function.Injective fun op : PathPaymentOp => joinSlots op.slots := by
  apply joinSlots_injective [1, 2, 3, 4, 5] (fun _ => rfl) (by decide)
  rintro ⟨srcAsset, srcAmount, accountID, dstAsset, path⟩
    ⟨otherSrc, otherAmount, otherID, otherDst, otherPath⟩ same
  simpa [PathPaymentOp.slots, utf8_inj, wireNumber_inj, map_assetFields_inj, toList_inj]
    using same

theorem trustOp_fields_injective : Function.Injective fun op : TrustOp => joinSlots op.slots := by
  apply joinSlots_injective [2, 3] (fun _ => rfl) (by decide)
  rintro ⟨asset, limit⟩ ⟨otherAsset, otherLimit⟩ same
  simpa [TrustOp.slots, wireNumber_inj, map_assetFields_inj, toList_inj] using same

theorem OpType.number_injective : Function.Injective OpType.number := by
  intro first second same
  cases first with
  | other number unknown =>
    cases second with
    | other otherNumber otherUnknown => simpa [OpType.number] using same
    | _ =>
      subst same
      exact absurd (by decide) unknown
  | _ =>
    cases second with
    | other otherNumber otherUnknown =>
      subst same
      exact absurd (by decide) otherUnknown
    | _ => first | rfl | exact absurd same (by decide)

theorem wireNumber_toInt64_inj {first second : Int32} :
    wireNumber first.toInt64 = wireNumber second.toInt64 ↔ first = second := by
  rw [wireNumber_inj]
  constructor
  · intro same
    have back := congrArg Int64.toInt32 same
    simpa using back
  · exact fun same => by rw [same]

theorem TxOp.op_eq {first second : TxOp}
    (createAccount : first.getCreateAccount = second.getCreateAccount)
    (payment : first.getPayment = second.getPayment)
    (pathPayment : first.getPathPayment = second.getPathPayment)
    (trust : first.getTrust = second.getTrust) : first.op = second.op := by
  obtain ⟨firstType, firstBody⟩ := first
  obtain ⟨secondType, secondBody⟩ := second
  rcases firstBody with _ | ⟨op | op | op | op⟩ <;>
    rcases secondBody with _ | ⟨other | other | other | other⟩ <;>
      simp_all [getCreateAccount, getPayment, getPathPayment, getTrust]

theorem txOp_fields_injective : Function.Injective fun txOp : TxOp => joinSlots txOp.slots := by
  apply joinSlots_injective [1, 2, 3, 4, 5] (fun _ => rfl) (by decide)
  intro first second same
  simp only [TxOp.slots, List.cons.injEq, Slot.ofNumber_inj, Slot.ofMessages_inj,
    wireNumber_toInt64_inj, OpType.number_injective.eq_iff,
    List.map_inj_right fun _ _ same => createAccountOp_fields_injective same,
    List.map_inj_right fun _ _ same => paymentOp_fields_injective same,
    List.map_inj_right fun _ _ same => pathPaymentOp_fields_injective same,
    List.map_inj_right fun _ _ same => trustOp_fields_injective same, toList_inj] at same
  obtain ⟨sameType, createAccount, payment, pathPayment, trust, -⟩ := same
  have sameBody := TxOp.op_eq createAccount payment pathPayment trust
  cases first
  simp_all

end Operations

section Transactions

def Tx.slots (tx : Tx) : List Slot :=
  [.ofBytes 1 (utf8 tx.accountID), .ofNumber 2 (wireNumber tx.fee), .ofBytes 3 (utf8 tx.note),
    .ofNumber 4 tx.seqNum.toNat, .ofMessages 5 (tx.opList.map fun txOp => joinSlots txOp.slots)]

def Tx.fields (tx : Tx) : List Field := joinSlots tx.slots

/-- `ultpb.Encode` of a transaction. -/
def Tx.encode (tx : Tx) : List UInt8 := encodeFields tx.fields

theorem Tx.fields_injective : Function.Injective Tx.fields := by
  apply joinSlots_injective [1, 2, 3, 4, 5] (fun _ => rfl) (by decide)
  rintro ⟨accountID, fee, note, seqNum, opList⟩ ⟨otherID, otherFee, otherNote, otherNum, others⟩ same
  simpa [Tx.slots, utf8_inj, wireNumber_inj, UInt64.toNat_inj,
    List.map_inj_right fun _ _ same => txOp_fields_injective same] using same

theorem Tx.marked_fields {tx : Tx} (named : tx.accountID ≠ "") :
    Marked (fun field => field.number = 1) tx.fields := by
  have content : utf8 tx.accountID ≠ [] := by
    intro blank
    exact named (utf8_injective (blank.trans rfl))
  refine @marked_joinSlots (.ofBytes 1 (utf8 tx.accountID)) _
    ⟨1, .bytes (utf8 tx.accountID)⟩ (if_neg content) ?_
  change 1 ∉ [2, 3, 4, 5]
  decide

end Transactions

end Ultiledger
