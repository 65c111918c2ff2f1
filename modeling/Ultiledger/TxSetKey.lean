import Ultiledger.DecreeState
import Ultiledger.TxEncoding

/-!
# The key of a transaction set

`GetTxSetKey` of `ultpb/codec.go`: the hash of the previous ledger hash followed by the
encodings of the transactions in the order of their hashes.  Of the order in which
`sort.Sort` swaps only the result is known.
-/

namespace Ultiledger

open ProtobufWire

section Argsort

variable {α β : Type}

def swapAt (values : List α) (swap : Nat × Nat) : List α :=
  match values[swap.1]?, values[swap.2]? with
  | some first, some second => (values.set swap.1 second).set swap.2 first
  | _, _ => values

variable {hashes : List String} (swaps : List (Nat × Nat)) (values : List α)

theorem swapAt_perm (swap : Nat × Nat) : (swapAt values swap).Perm values := by
  unfold swapAt
  split
  · rename_i first second firstAt secondAt
    obtain ⟨firstIn, rfl⟩ := List.getElem?_eq_some_iff.mp firstAt
    obtain ⟨secondIn, rfl⟩ := List.getElem?_eq_some_iff.mp secondAt
    exact List.set_set_perm firstIn secondIn
  · exact .refl values

theorem map_swapAt (f : α → β) (values : List α) (swap : Nat × Nat) :
    (swapAt values swap).map f = swapAt (values.map f) swap := by
  unfold swapAt
  cases firstAt : values[swap.1]? with
  | none => simp [firstAt]
  | some first =>
    cases secondAt : values[swap.2]? with
    | none => simp [firstAt, secondAt]
    | some second => simp [firstAt, secondAt, List.map_set]

/-- `util.Slice` over strings in ascending order. -/
structure Slice where
  strings : List String
  idx : List Nat

def newStringSlice (hashes : List String) : Slice := ⟨hashes, List.range hashes.length⟩

/-- `Swap`: the strings and the indices are exchanged together. -/
def Slice.swap (s : Slice) (swap : Nat × Nat) : Slice :=
  ⟨swapAt s.strings swap, swapAt s.idx swap⟩

/-- The swaps that `sort.Sort` makes, which depend on the strings alone. -/
structure Sorter where
  swaps : List String → List (Nat × Nat)
  sorts : ∀ hashes, ((swaps hashes).foldl swapAt hashes).Pairwise (· ≤ ·)

theorem swapAt_cons (first : α) (values : List α) (i j : Nat) :
    swapAt (first :: values) (i + 1, j + 1) = first :: swapAt values (i, j) := by
  unfold swapAt
  simp only [List.getElem?_cons_succ]
  split
  · rfl
  · rfl

theorem foldl_swapAt_cons (first : α) (swaps : List (Nat × Nat)) (values : List α) :
    (swaps.map fun swap => (swap.1 + 1, swap.2 + 1)).foldl swapAt (first :: values) =
      first :: swaps.foldl swapAt values := by
  induction swaps generalizing values with
  | nil => rfl
  | cons swap rest ih =>
    rw [List.map_cons, List.foldl_cons, swapAt_cons, ih]
    rfl

theorem exists_swaps {first second : List α} (reordered : first.Perm second) :
    ∃ swaps : List (Nat × Nat), swaps.foldl swapAt first = second := by
  induction reordered with
  | nil => exact ⟨[], rfl⟩
  | cons value _ ih =>
    obtain ⟨swaps, ends⟩ := ih
    exact ⟨_, (foldl_swapAt_cons value swaps _).trans (by rw [ends])⟩
  | swap first second rest => exact ⟨[(0, 1)], rfl⟩
  | trans _ _ firstIH secondIH =>
    obtain ⟨firstSwaps, firstEnds⟩ := firstIH
    obtain ⟨secondSwaps, secondEnds⟩ := secondIH
    exact ⟨firstSwaps ++ secondSwaps, by rw [List.foldl_append, firstEnds, secondEnds]⟩

noncomputable def Sorter.insertion : Sorter where
  swaps hashes :=
    (exists_swaps (List.perm_insertionSort (· ≤ ·) hashes).symm).choose
  sorts hashes := by
    rw [(exists_swaps (List.perm_insertionSort (· ≤ ·) hashes).symm).choose_spec]
    exact List.pairwise_insertionSort (· ≤ ·) hashes

/-- `sort.Sort` of a slice. -/
def Sorter.sort (sorter : Sorter) (s : Slice) : Slice :=
  (sorter.swaps s.strings).foldl Slice.swap s

structure Slice.InStep (s : Slice) (hashes : List String) : Prop where
  indices : s.idx.Perm (List.range hashes.length)
  strings : s.strings.map some = s.idx.map (hashes[·]?)

theorem map_range_getElem? : (List.range values.length).map (values[·]?) = values.map some := by
  apply List.ext_getElem?
  intro i
  by_cases inside : i < values.length
  · simp [inside]
  · simp [inside]

theorem inStep_newStringSlice (hashes : List String) : (newStringSlice hashes).InStep hashes :=
  ⟨.refl _, (map_range_getElem? hashes).symm⟩

theorem Slice.InStep.swap {s : Slice} (inStep : s.InStep hashes) (swap : Nat × Nat) :
    (s.swap swap).InStep hashes := by
  refine ⟨(swapAt_perm s.idx swap).trans inStep.indices, ?_⟩
  change (swapAt s.strings swap).map some = (swapAt s.idx swap).map _
  rw [map_swapAt, map_swapAt, inStep.strings]

theorem Slice.InStep.foldl {s : Slice} (inStep : s.InStep hashes) :
    (swaps.foldl Slice.swap s).InStep hashes := by
  induction swaps generalizing s with
  | nil => exact inStep
  | cons swap rest ih => exact ih (inStep.swap swap)

theorem strings_foldl_swap (s : Slice) :
    (swaps.foldl Slice.swap s).strings = swaps.foldl swapAt s.strings := by
  induction swaps generalizing s with
  | nil => rfl
  | cons swap rest ih => exact ih (s.swap swap)

/-- The values in the order of the sorted hashes; every index is inside. -/
def Sorter.argsorted (sorter : Sorter) (hashes : List String) (values : List α) : List α :=
  (sorter.sort (newStringSlice hashes)).idx.filterMap (values[·]?)

variable (sorter : Sorter)

theorem Sorter.inStep_sort (hashes : List String) :
    (sorter.sort (newStringSlice hashes)).InStep hashes :=
  (inStep_newStringSlice hashes).foldl _

theorem Sorter.argsorted_perm {values : List α} (sameLength : hashes.length = values.length) :
    (sorter.argsorted hashes values).Perm values := by
  have inStep := sorter.inStep_sort hashes
  have whole : (List.range hashes.length).filterMap (values[·]?) = values := by
    have taken := congrArg (List.filterMap id) (map_range_getElem? values)
    rw [sameLength]
    simpa [List.filterMap_map, Function.comp_def] using taken
  have moved := inStep.indices.filterMap (values[·]?)
  rwa [whole] at moved

theorem Sorter.argsorted_sorted (hashOf : α → String) (values : List α) :
    ((sorter.argsorted (values.map hashOf) values).map hashOf).Pairwise (· ≤ ·) := by
  have inStep := sorter.inStep_sort (values.map hashOf)
  have strings : (sorter.argsorted (values.map hashOf) values).map hashOf =
      (sorter.sort (newStringSlice (values.map hashOf))).strings := by
    have taken := congrArg (List.filterMap id) inStep.strings
    unfold Sorter.argsorted
    rw [List.map_filterMap]
    simpa using taken.symm
  rw [strings, Sorter.sort, strings_foldl_swap]
  exact sorter.sorts _

end Argsort

section Keys

/-- What `GetTxSetKey` calls: the encoding of transactions, SHA-256 and base58. -/
structure Hasher where
  marshal : Tx → Except String (List UInt8)
  sha256HashBytes : List UInt8 → List UInt8
  encodeBase58 : List UInt8 → String
  decodeBase58 : String → Except String (List UInt8)
  encodeBase58_injective : Function.Injective encodeBase58
  encode_of_decode : ∀ text bytes, decodeBase58 text = .ok bytes → encodeBase58 bytes = text

variable (hasher : Hasher) (sorter : Sorter)

def Hasher.sha256Hash (bytes : List UInt8) : String :=
  hasher.encodeBase58 (hasher.sha256HashBytes bytes)

def keyTypeTxSet : UInt8 := 4

def Hasher.encodeKey (code : UInt8) (hash : List UInt8) : String :=
  hasher.encodeBase58 (code :: hash)

/-- The first loop of `GetTxSetKey`. -/
def txHashes (txList : List Tx) : Except String (List String) :=
  txList.mapM fun tx =>
    match hasher.marshal tx with
    | .error err => .error ("compute tx hash failed: " ++ err)
    | .ok bytes => .ok (hasher.sha256Hash bytes)

/-- `GetTxSetKey`.  A previous ledger hash that cannot be decoded is no error: the
key is then empty. -/
def getTxSetKey (ts : TxSet) : Except String String :=
  match txHashes hasher ts.txList with
  | .error err => .error err
  | .ok hashes =>
    match hasher.decodeBase58 ts.prevLedgerHash with
    | .error _ => .ok ""
    | .ok prev =>
      match (sorter.argsorted hashes ts.txList).mapM hasher.marshal with
      | .error err => .error err
      | .ok bodies =>
        .ok (hasher.encodeKey keyTypeTxSet
          (hasher.sha256HashBytes (prev ++ bodies.flatten)))

def Hasher.bytesOf (tx : Tx) : List UInt8 := (hasher.marshal tx).toOption.getD []

def Hasher.hashOf (tx : Tx) : String := hasher.sha256Hash (hasher.bytesOf tx)

end Keys

section KeyFacts

variable {hasher : Hasher} {sorter : Sorter} {ts : TxSet}

variable {txs first second : List Tx}

theorem mapM_marshal_of_encodable (encodable : ∀ tx ∈ txs, ∃ bytes, hasher.marshal tx = .ok bytes) :
    txs.mapM hasher.marshal = .ok (txs.map hasher.bytesOf) := by
  induction txs with
  | nil => rfl
  | cons tx rest ih =>
    obtain ⟨bytes, encoded⟩ := encodable tx (.head _)
    have later := ih (List.forall_mem_cons.mp encodable).2
    have body : hasher.bytesOf tx = bytes := by simp [Hasher.bytesOf, encoded, Except.toOption]
    rw [List.mapM_cons, encoded, later, List.map_cons, body]
    rfl

theorem txHashes_of_encodable (encodable : ∀ tx ∈ txs, ∃ bytes, hasher.marshal tx = .ok bytes) :
    txHashes hasher txs = .ok (txs.map hasher.hashOf) := by
  unfold txHashes
  induction txs with
  | nil => rfl
  | cons tx rest ih =>
    obtain ⟨bytes, encoded⟩ := encodable tx (.head _)
    have later := ih (List.forall_mem_cons.mp encodable).2
    have hash : hasher.hashOf tx = hasher.sha256Hash bytes := by
      simp [Hasher.hashOf, Hasher.bytesOf, encoded, Except.toOption]
    rw [List.mapM_cons, later, List.map_cons, hash]
    simp only [encoded]
    rfl

theorem txHashes_of_unencodable {tx : Tx} (txMem : tx ∈ txs) {err : String}
    (fails : hasher.marshal tx = .error err) : ∃ text, txHashes hasher txs = .error text := by
  unfold txHashes
  induction txs with
  | nil => simp at txMem
  | cons first rest ih =>
    rw [List.mapM_cons]
    rcases List.mem_cons.mp txMem with rfl | later
    · exact ⟨_, by simp only [fails]; rfl⟩
    · cases encoded : hasher.marshal first with
      | error text => exact ⟨_, rfl⟩
      | ok bytes =>
        obtain ⟨text, failed⟩ := ih later
        exact ⟨text, by simp only [failed]; rfl⟩

def hashedBytes (hasher : Hasher) (sorter : Sorter) (prev : List UInt8) (txs : List Tx) :
    List UInt8 :=
  prev ++ ((sorter.argsorted (txs.map hasher.hashOf) txs).map hasher.bytesOf).flatten

theorem argsorted_hashes_perm (hasher : Hasher) (sorter : Sorter) (txs : List Tx) :
    (sorter.argsorted (txs.map hasher.hashOf) txs).Perm txs :=
  sorter.argsorted_perm (List.length_map hasher.hashOf)

theorem getTxSetKey_of_encodable {prev : List UInt8}
    (encodable : ∀ tx ∈ ts.txList, ∃ bytes, hasher.marshal tx = .ok bytes)
    (decoded : hasher.decodeBase58 ts.prevLedgerHash = .ok prev) :
    getTxSetKey hasher sorter ts = .ok (hasher.encodeKey keyTypeTxSet
      (hasher.sha256HashBytes (hashedBytes hasher sorter prev ts.txList))) := by
  have sorted := argsorted_hashes_perm hasher sorter ts.txList
  have bodies := mapM_marshal_of_encodable fun tx txMem =>
    encodable tx (sorted.mem_iff.mp txMem)
  simp only [getTxSetKey, txHashes_of_encodable encodable, decoded, bodies, hashedBytes]

theorem map_bytesOf_eq
    (determined : ∀ tx ∈ first, ∀ other ∈ second, hasher.hashOf tx = hasher.hashOf other →
      hasher.bytesOf tx = hasher.bytesOf other)
    (same : first.map hasher.hashOf = second.map hasher.hashOf) :
    first.map hasher.bytesOf = second.map hasher.bytesOf := by
  induction first generalizing second with
  | nil =>
    cases second with
    | nil => rfl
    | cons tx rest => simp at same
  | cons tx rest ih =>
    cases second with
    | nil => simp at same
    | cons other others =>
      obtain ⟨sameHash, sameRest⟩ := List.cons.inj same
      rw [List.map_cons, determined tx (.head _) other (.head _) sameHash]
      congr 1
      exact ih (fun later laterMem also alsoMem => determined later
        (.tail _ laterMem) also (.tail _ alsoMem)) sameRest

/-- Equal hashes of transactions come from equal encodings. -/
def CollisionFree (hasher : Hasher) : Prop :=
  ∀ first second firstBytes secondBytes, hasher.marshal first = .ok firstBytes →
    hasher.marshal second = .ok secondBytes →
      hasher.sha256HashBytes firstBytes = hasher.sha256HashBytes secondBytes →
        firstBytes = secondBytes

theorem CollisionFree.bytesOf_eq (free : CollisionFree hasher) {first second : Tx}
    (firstEncodes : ∃ bytes, hasher.marshal first = .ok bytes)
    (secondEncodes : ∃ bytes, hasher.marshal second = .ok bytes)
    (same : hasher.hashOf first = hasher.hashOf second) :
    hasher.bytesOf first = hasher.bytesOf second := by
  obtain ⟨firstBytes, firstEncoded⟩ := firstEncodes
  obtain ⟨secondBytes, secondEncoded⟩ := secondEncodes
  have digests := hasher.encodeBase58_injective same
  simp only [Hasher.bytesOf, firstEncoded, secondEncoded, Except.toOption,
    Option.getD_some] at digests ⊢
  exact free first second firstBytes secondBytes firstEncoded secondEncoded digests

theorem map_bytesOf_of_sorted (free : CollisionFree hasher)
    (encodable : ∀ tx ∈ first, ∃ bytes, hasher.marshal tx = .ok bytes)
    (reordered : first.Perm second) (firstSorted : (first.map hasher.hashOf).Pairwise (· ≤ ·))
    (secondSorted : (second.map hasher.hashOf).Pairwise (· ≤ ·)) :
    first.map hasher.bytesOf = second.map hasher.bytesOf := by
  have sameHashes : first.map hasher.hashOf = second.map hasher.hashOf :=
    List.Perm.eq_of_pairwise' firstSorted secondSorted (reordered.map _)
  apply map_bytesOf_eq _ sameHashes
  intro tx txMem other otherMem
  exact free.bytesOf_eq (encodable tx txMem) (encodable other (reordered.mem_iff.mpr otherMem))

theorem hashedBytes_perm (free : CollisionFree hasher)
    (encodable : ∀ tx ∈ first, ∃ bytes, hasher.marshal tx = .ok bytes)
    (reordered : first.Perm second) (prev : List UInt8) :
    hashedBytes hasher sorter prev first = hashedBytes hasher sorter prev second := by
  have firstPerm := argsorted_hashes_perm hasher sorter first
  have secondPerm := argsorted_hashes_perm hasher sorter second
  unfold hashedBytes
  congr 2
  apply map_bytesOf_of_sorted free _ ((firstPerm.trans reordered).trans secondPerm.symm)
    (sorter.argsorted_sorted _ _) (sorter.argsorted_sorted _ _)
  exact fun tx txMem => encodable tx (firstPerm.mem_iff.mp txMem)

theorem hashedBytes_of_sorted (free : CollisionFree hasher)
    (encodable : ∀ tx ∈ txs, ∃ bytes, hasher.marshal tx = .ok bytes)
    (sorted : (txs.map hasher.hashOf).Pairwise (· ≤ ·)) (prev : List UInt8) :
    hashedBytes hasher sorter prev txs = prev ++ (txs.map hasher.bytesOf).flatten := by
  have reordered := argsorted_hashes_perm hasher sorter txs
  unfold hashedBytes
  congr 2
  apply map_bytesOf_of_sorted free _ reordered (sorter.argsorted_sorted _ _) sorted
  exact fun tx txMem => encodable tx (reordered.mem_iff.mp txMem)

end KeyFacts

/-- The key of a transaction set does not depend on the order of its list. -/
theorem getTxSetKey_perm (hasher : Hasher) (sorter : Sorter) (free : CollisionFree hasher)
    (prevLedgerHash : String) {first second : List Tx} (reordered : first.Perm second) :
    (getTxSetKey hasher sorter ⟨prevLedgerHash, first⟩).toOption =
      (getTxSetKey hasher sorter ⟨prevLedgerHash, second⟩).toOption := by
  by_cases encodable : ∀ tx ∈ first, ∃ bytes, hasher.marshal tx = .ok bytes
  · have alsoEncodable : ∀ tx ∈ second, ∃ bytes, hasher.marshal tx = .ok bytes :=
      fun tx txMem => encodable tx (reordered.mem_iff.mpr txMem)
    cases decoded : hasher.decodeBase58 prevLedgerHash with
    | error err =>
      simp [getTxSetKey, txHashes_of_encodable encodable, txHashes_of_encodable alsoEncodable,
        decoded]
    | ok prev =>
      have firstKey := @getTxSetKey_of_encodable hasher sorter ⟨prevLedgerHash, first⟩ prev
        encodable decoded
      have secondKey := @getTxSetKey_of_encodable hasher sorter ⟨prevLedgerHash, second⟩ prev
        alsoEncodable decoded
      rw [firstKey, secondKey, hashedBytes_perm free encodable reordered]
  · push Not at encodable
    obtain ⟨tx, txMem, fails⟩ := encodable
    cases encoded : hasher.marshal tx with
    | ok bytes => exact absurd encoded (fails bytes)
    | error err =>
      obtain ⟨firstText, firstFails⟩ := txHashes_of_unencodable txMem encoded
      obtain ⟨secondText, secondFails⟩ :=
        txHashes_of_unencodable (reordered.mem_iff.mp txMem) encoded
      simp [getTxSetKey, firstFails, secondFails, Except.toOption]

theorem toNat_ofNat_byte (byte : UInt8) : (Char.ofNat byte.toNat).toNat = byte.toNat := by
  have small : byte.toNat < 256 := byte.toNat_lt
  have valid : byte.toNat.isValidChar := .inl (by omega)
  rw [Char.ofNat, dif_pos valid]
  rfl

/-- A hasher that hashes nothing and writes a byte as the character of its
number. -/
def Hasher.plain : Hasher where
  marshal tx := .ok tx.encode
  sha256HashBytes bytes := bytes
  encodeBase58 bytes := String.ofList (bytes.map fun byte => Char.ofNat byte.toNat)
  decodeBase58 text :=
    if text = "" then .error "zero length string"
    else if text.toList.all fun char => char.toNat < 256 then
      .ok (text.toList.map fun char => UInt8.ofNat char.toNat)
    else .error "invalid character"
  encodeBase58_injective := by
    intro first second same
    refine List.map_injective_iff.mpr ?_ (String.ofList_injective same)
    intro byte other sameChar
    have numbers := congrArg Char.toNat sameChar
    rw [toNat_ofNat_byte, toNat_ofNat_byte] at numbers
    exact UInt8.toNat_inj.mp numbers
  encode_of_decode := by
    intro text bytes decoded
    split_ifs at decoded with blank small
    cases decoded
    rw [List.map_map, ← String.toList_inj, String.toList_ofList]
    refine (List.map_congr_left ?_).trans (List.map_id _)
    intro char charMem
    have byte : (UInt8.ofNat char.toNat).toNat = char.toNat := by
      rw [UInt8.toNat_ofNat']
      exact Nat.mod_eq_of_lt (of_decide_eq_true (List.all_eq_true.mp small char charMem))
    simp [byte]

/-- Two transactions in either order. -/
theorem getTxSetKey_perm_pair :
    (getTxSetKey .plain .insertion ⟨"x", [⟨"alice", 1, "", 1, []⟩, ⟨"bob", 1, "", 1, []⟩]⟩).toOption =
      (getTxSetKey .plain .insertion
        ⟨"x", [⟨"bob", 1, "", 1, []⟩, ⟨"alice", 1, "", 1, []⟩]⟩).toOption := by
  apply getTxSetKey_perm
  · intro first second firstBytes secondBytes _ _ same
    exact same
  · exact .swap _ _ _

section Binding

variable {hasher : Hasher}

theorem bytesOf_of_wire (wire : ∀ tx, hasher.marshal tx = .ok tx.encode) :
    hasher.bytesOf = Tx.encode := by
  funext tx
  simp [Hasher.bytesOf, wire, Except.toOption]

theorem flatten_encode (txs : List Tx) :
    (txs.map Tx.encode).flatten = encodeFields (txs.map Tx.fields).flatten := by
  induction txs with
  | nil => rfl
  | cons tx rest ih =>
    simp only [List.map_cons, List.flatten_cons, ih, Tx.encode, encodeFields,
      List.flatMap_append]

theorem flatten_encode_inj {first second : List Tx} (firstNamed : ∀ tx ∈ first, tx.accountID ≠ "")
    (secondNamed : ∀ tx ∈ second, tx.accountID ≠ "")
    (same : (first.map Tx.encode).flatten = (second.map Tx.encode).flatten) : first = second := by
  rw [flatten_encode, flatten_encode] at same
  have marked : ∀ {txs : List Tx}, (∀ tx ∈ txs, tx.accountID ≠ "") →
      ∀ block ∈ txs.map Tx.fields, Marked (fun field => field.number = 1) block := by
    intro txs named block blockMem
    obtain ⟨tx, txMem, rfl⟩ := List.mem_map.mp blockMem
    exact tx.marked_fields (named tx txMem)
  have blocks := flatten_injective (marked firstNamed) (marked secondNamed)
    (encodeFields_injective same)
  exact List.map_injective_iff.mpr Tx.fields_injective blocks

theorem hashed_of_getTxSetKey (sorter : Sorter) (wire : ∀ tx, hasher.marshal tx = .ok tx.encode) {ts : TxSet}
    {prev : List UInt8} (decoded : hasher.decodeBase58 ts.prevLedgerHash = .ok prev) :
    ∃ sorted : List Tx, sorted.Perm ts.txList ∧
      getTxSetKey hasher sorter ts = .ok (hasher.encodeKey keyTypeTxSet
        (hasher.sha256HashBytes (prev ++ (sorted.map Tx.encode).flatten))) := by
  refine ⟨_, argsorted_hashes_perm hasher sorter ts.txList, ?_⟩
  rw [getTxSetKey_of_encodable (fun tx _ => ⟨_, wire tx⟩) decoded, hashedBytes,
    bytesOf_of_wire wire]

end Binding

/-- Equal keys come from equal sets if the previous hashes decode to the same number of
bytes and every transaction names its account. -/
theorem getTxSetKey_binding (hasher : Hasher) (firstSorter secondSorter : Sorter)
    (wire : ∀ tx, hasher.marshal tx = .ok tx.encode)
    (collisionFree : Function.Injective hasher.sha256HashBytes) {first second : TxSet}
    {firstPrev secondPrev : List UInt8}
    (firstDecoded : hasher.decodeBase58 first.prevLedgerHash = .ok firstPrev)
    (secondDecoded : hasher.decodeBase58 second.prevLedgerHash = .ok secondPrev)
    (sameLength : firstPrev.length = secondPrev.length)
    (firstNamed : ∀ tx ∈ first.txList, tx.accountID ≠ "")
    (secondNamed : ∀ tx ∈ second.txList, tx.accountID ≠ "") {key : String}
    (firstKey : getTxSetKey hasher firstSorter first = .ok key)
    (secondKey : getTxSetKey hasher secondSorter second = .ok key) :
    first.prevLedgerHash = second.prevLedgerHash ∧ first.txList.Perm second.txList := by
  obtain ⟨firstSorted, firstPerm, firstHashed⟩ :=
    hashed_of_getTxSetKey firstSorter wire firstDecoded
  obtain ⟨secondSorted, secondPerm, secondHashed⟩ :=
    hashed_of_getTxSetKey secondSorter wire secondDecoded
  rw [firstKey, Except.ok.injEq] at firstHashed
  rw [secondKey, Except.ok.injEq, firstHashed] at secondHashed
  have digests := hasher.encodeBase58_injective secondHashed
  have bytes := collisionFree (List.cons.inj digests).2
  obtain ⟨samePrev, sameBodies⟩ := List.append_inj bytes sameLength
  constructor
  · rw [← hasher.encode_of_decode _ _ firstDecoded, ← hasher.encode_of_decode _ _ secondDecoded,
      samePrev]
  · have sameTxs := flatten_encode_inj
      (fun tx txMem => firstNamed tx (firstPerm.mem_iff.mp txMem))
      (fun tx txMem => secondNamed tx (secondPerm.mem_iff.mp txMem)) sameBodies
    exact firstPerm.symm.trans (sameTxs ▸ secondPerm)

private def unnamedTx : Tx := ⟨"", 0, "", 0, []⟩

private def feeOf (accountID : String) (fee : Int64) : Tx := ⟨accountID, fee, "", 0, []⟩

private theorem decoded_x : Hasher.plain.decodeBase58 "x" = .ok [120] := by decide

/-- Two orders of one list have one key, and nothing else has. -/
theorem getTxSetKey_binding_pair :
    (⟨"x", [feeOf "alice" 1, feeOf "bob" 2]⟩ : TxSet).prevLedgerHash =
        (⟨"x", [feeOf "bob" 2, feeOf "alice" 1]⟩ : TxSet).prevLedgerHash ∧
      [feeOf "alice" 1, feeOf "bob" 2].Perm [feeOf "bob" 2, feeOf "alice" 1] := by
  have encodable : ∀ (txs : List Tx), ∀ tx ∈ txs, ∃ bytes, Hasher.plain.marshal tx = .ok bytes :=
    fun _ tx _ => ⟨tx.encode, rfl⟩
  have firstKey := @getTxSetKey_of_encodable .plain .insertion
    ⟨"x", [feeOf "alice" 1, feeOf "bob" 2]⟩ [120] (encodable _) decoded_x
  have secondKey := @getTxSetKey_of_encodable .plain .insertion
    ⟨"x", [feeOf "bob" 2, feeOf "alice" 1]⟩ [120] (encodable _) decoded_x
  rw [← hashedBytes_perm (fun _ _ _ _ _ _ same => same) (encodable _) (.swap _ _ _)] at secondKey
  exact getTxSetKey_binding .plain .insertion .insertion (fun _ => rfl) (fun _ _ same => same)
    decoded_x decoded_x rfl (by decide) (by decide) firstKey secondKey

private theorem getTxSetKey_plain (sorter : Sorter) {prevLedgerHash : String} {prev : List UInt8}
    {txs : List Tx} (decoded : Hasher.plain.decodeBase58 prevLedgerHash = .ok prev)
    (sorted : (txs.map Hasher.plain.hashOf).Pairwise (· ≤ ·)) :
    getTxSetKey .plain sorter ⟨prevLedgerHash, txs⟩ = .ok (Hasher.plain.encodeKey keyTypeTxSet
      (prev ++ (txs.map Tx.encode).flatten)) := by
  have free : CollisionFree .plain := fun _ _ _ _ _ _ same => same
  have encodable : ∀ tx ∈ txs, ∃ bytes, Hasher.plain.marshal tx = .ok bytes :=
    fun tx _ => ⟨_, rfl⟩
  rw [@getTxSetKey_of_encodable .plain sorter ⟨prevLedgerHash, txs⟩ prev encodable decoded,
    hashedBytes_of_sorted free encodable sorted]
  rfl

/-- Sets with one key: a previous hash that does not decode, a transaction without fields,
two transactions that read as one, and one that reads as part of the previous hash. -/
theorem getTxSetKey_collides :
    (∀ sorter, getTxSetKey .plain sorter ⟨"", []⟩ = .ok "" ∧
      getTxSetKey .plain sorter ⟨"", [feeOf "alice" 1]⟩ = .ok "") ∧
    (∀ sorter, ∃ key, getTxSetKey .plain sorter ⟨"x", []⟩ = .ok key ∧
      getTxSetKey .plain sorter ⟨"x", [unnamedTx]⟩ = .ok key) ∧
    (∀ sorter, ∃ key, getTxSetKey .plain sorter ⟨"x", [feeOf "a" 1]⟩ = .ok key ∧
      getTxSetKey .plain sorter ⟨"x", [feeOf "a" 0, feeOf "" 1]⟩ = .ok key) ∧
    ∀ sorter, ∃ key, getTxSetKey .plain sorter ⟨"x", [feeOf "a" 0]⟩ = .ok key ∧
      getTxSetKey .plain sorter ⟨"x\n\x01a", []⟩ = .ok key := by
  refine ⟨fun _ => ⟨by rfl, by rfl⟩, ?_, ?_, ?_⟩
  · intro sorter
    exact ⟨_, getTxSetKey_plain sorter decoded_x (by simp),
      getTxSetKey_plain sorter decoded_x (by simp)⟩
  · intro sorter
    refine ⟨_, getTxSetKey_plain sorter decoded_x (by simp), ?_⟩
    exact getTxSetKey_plain sorter decoded_x (by decide +kernel)
  · intro sorter
    refine ⟨_, getTxSetKey_plain sorter decoded_x (by simp), ?_⟩
    have decoded : Hasher.plain.decodeBase58 "x\n\x01a" = .ok [120, 10, 1, 97] := by decide
    exact getTxSetKey_plain sorter decoded (by simp)

end Ultiledger
