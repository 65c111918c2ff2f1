import Ultiledger.Nomination
import Mathlib.Data.List.MinMax

/-! # The value that balloting starts with

`combineCandidates` takes the first of the heaviest transaction sets in the order in
which Go iterates over the candidates.
-/

namespace Ultiledger

open AbortingProgram Program

/-- An order in which Go goes through a set. -/
structure Iteration where
  order : List String → List String
  perm : ∀ set, (order set).Perm set

def Iteration.startingWith (first : String) : Iteration where
  order set := if first ∈ set then first :: set.erase first else set
  perm set := by
    split_ifs with mem
    · exact (List.perm_cons_erase mem).symm
    · exact .refl set

def World.iterating (world : World) (iteration : Iteration) : World :=
  { world with iterate := iteration.order, iterate_perm := iteration.perm }

section Choice

/-- What `compareTxSet` compares: the size, and then the fees. -/
def TxSet.weight (ts : TxSet) : ℕ ×ₗ ℤ :=
  toLex (ts.txList.length, (totalFees ts.txList).toInt)

instance weightOrder : Preorder (ℕ ×ₗ ℤ) :=
  (@Prod.Lex.instLinearOrder ℕ ℤ Nat.instLinearOrder Int.instLinearOrder).toPreorder

theorem compareTxSet_iff (ctx : DecreeContext) (ltsHash : String) (lts : TxSet) (rtsHash : String)
    (rts : TxSet) :
    ∃ heavier, compareTxSet ctx ltsHash lts rtsHash rts "" = .ok heavier ∧
      (heavier = true ↔ lts.weight < rts.weight) := by
  unfold compareTxSet TxSet.weight
  rw [lessBytesOr_empty, Prod.Lex.toLex_lt_toLex, ← Int64.lt_iff_toInt_lt]
  split_ifs with fewer more cheaper dearer
  · exact ⟨true, rfl, by simp [fewer]⟩
  · refine ⟨false, rfl, ?_⟩
    simp only [Bool.false_eq_true, false_iff, not_or, not_and]
    omega
  · have same : lts.txList.length = rts.txList.length := by omega
    exact ⟨true, rfl, by simp [same, cheaper]⟩
  · exact ⟨false, rfl, by simp [fewer, cheaper]⟩
  · exact ⟨false, rfl, by simp [fewer, cheaper]⟩

def eligibleTxSet (getTxSet : String → Except String (Option TxSet)) (headerHash : String)
    (cv : ConsensusValue) : Option TxSet :=
  match getTxSet cv.txSetHash with
  | .ok (some ts) => if ts.prevLedgerHash = headerHash then some ts else none
  | _ => none

section

variable (ctx : DecreeContext) (getTxSet : String → Except String (Option TxSet))
  (headerHash : String)

theorem considerTxSet_eq (chosen : Option (String × TxSet)) (cv : ConsensusValue) :
    ∃ next, considerTxSet ctx getTxSet headerHash "" chosen cv = .ok next ∧
      next.map Prod.snd =
        match eligibleTxSet getTxSet headerHash cv with
        | none => chosen.map Prod.snd
        | some ts => List.argAux (fun ts txset : TxSet => txset.weight < ts.weight)
            (chosen.map Prod.snd) ts := by
  unfold considerTxSet eligibleTxSet
  rcases getTxSet cv.txSetHash with err | _ | ts
  · exact ⟨chosen, rfl, rfl⟩
  · exact ⟨chosen, rfl, rfl⟩
  dsimp only
  by_cases onTop : ts.prevLedgerHash = headerHash
  · rw [if_neg (not_not.mpr onTop), if_pos onTop]
    rcases chosen with _ | ⟨txsetHash, txset⟩
    · exact ⟨_, rfl, rfl⟩
    · obtain ⟨heavier, compared, iff⟩ := compareTxSet_iff ctx txsetHash txset cv.txSetHash ts
      dsimp only
      rw [compared]
      refine ⟨_, rfl, ?_⟩
      cases heavier with
      | true => simp [List.argAux, iff.mp rfl]
      | false => simp [List.argAux, mt iff.mpr (by simp)]
  · rw [if_pos onTop, if_neg onTop]
    exact ⟨chosen, rfl, rfl⟩

theorem chooseTxSet_eq_argmax (vals : List ConsensusValue) :
    ∃ chosen, chooseTxSet ctx getTxSet headerHash "" vals = .ok chosen ∧
      chosen.map Prod.snd =
        (vals.filterMap (eligibleTxSet getTxSet headerHash)).argmax TxSet.weight := by
  have goesOn : ∀ start : Option (String × TxSet), ∃ chosen,
      vals.foldlM (considerTxSet ctx getTxSet headerHash "") start = .ok chosen ∧
        chosen.map Prod.snd = (vals.filterMap (eligibleTxSet getTxSet headerHash)).foldl
          (List.argAux fun ts txset : TxSet => txset.weight < ts.weight) (start.map Prod.snd) := by
    induction vals with
    | nil => exact fun start => ⟨start, rfl, rfl⟩
    | cons cv rest ih =>
      intro start
      obtain ⟨next, considered, value⟩ := considerTxSet_eq ctx getTxSet headerHash start cv
      obtain ⟨chosen, ended, same⟩ := ih next
      refine ⟨chosen, by rw [List.foldlM_cons, considered]; exact ended, ?_⟩
      rw [same, value]
      cases eligible : eligibleTxSet getTxSet headerHash cv with
      | none => rw [List.filterMap_cons_none eligible]
      | some ts => rw [List.filterMap_cons_some eligible, List.foldl_cons]
  exact goesOn none

end

end Choice

section Combination

variable (ctx : DecreeContext) (world : World) (d : DecreeState)

def candidateValue (cand : String) : Option ConsensusValue :=
  (decodeValue ctx "decode candidate failed: " "decode consensus value failed: " cand).toOption

def candidateTxSet (cand : String) : Option TxSet :=
  (candidateValue ctx cand).bind
    (eligibleTxSet (d.getTxSet world) world.currLedgerHeaderHash)

def latestProposeTime : Int :=
  ((d.candidates.filterMap (candidateValue ctx)).map (·.proposeTime)).foldl max 0

/-- The first of the heaviest sets that are proposed, in the given order of the
candidates. -/
def firstHeaviest (order : List String) : Option TxSet :=
  (order.filterMap (candidateTxSet ctx world d)).argmax TxSet.weight

/-- A proposed transaction set than which none is heavier. -/
structure Heaviest (ts : TxSet) : Prop where
  proposed : ts ∈ d.candidates.filterMap (candidateTxSet ctx world d)
  bound : ∀ other ∈ d.candidates.filterMap (candidateTxSet ctx world d), other.weight ≤ ts.weight

structure PublishedAs (ts : TxSet) (key : String) : Prop where
  hashed : ctx.getTxSetKey ts = .ok key
  stored : world.addTxSet key ts = .ok ()
  encoded : ∃ text, ctx.encodeConsensusValue ⟨key, latestProposeTime ctx d⟩ = .ok text

/-- The string that `combineCandidates` returns, if it does not fail. -/
def combinedValue : Option String :=
  match combineCandidates ctx world d with
  | .done (.ok text) _ => some text
  | _ => none

end Combination

section Canonicity

variable {ctx : DecreeContext} {world : World} {d : DecreeState} {ts : TxSet}

theorem decodeCandidates_cons (cand : String) (rest : List String) :
    (∃ err, decodeCandidates ctx "" (cand :: rest) = .ok (.error err) ∧
        candidateValue ctx cand = none) ∨
      ∃ cv, candidateValue ctx cand = some cv ∧ decodeCandidates ctx "" (cand :: rest) = (do
        match ← decodeCandidates ctx "" rest with
        | .error err => .ok (.error err)
        | .ok (mask, vals) => .ok (.ok (mask, cv :: vals))) := by
  unfold candidateValue decodeValue
  rw [decodeCandidates]
  cases ctx.decodeBase58 cand with
  | error err => exact .inl ⟨_, rfl, rfl⟩
  | ok canb =>
    dsimp only
    rw [bytesOr_empty]
    cases ctx.decodeConsensusValue canb with
    | error err => exact .inl ⟨_, rfl, rfl⟩
    | ok cv => exact .inr ⟨cv, rfl, rfl⟩

theorem decodeCandidates_of_readable {cands : List String}
    (readable : ∀ cand ∈ cands, candidateValue ctx cand ≠ none) :
    decodeCandidates ctx "" cands = .ok (.ok ("", cands.filterMap (candidateValue ctx))) := by
  induction cands with
  | nil => rfl
  | cons cand rest ih =>
    have later := ih (List.forall_mem_cons.mp readable).2
    rcases @decodeCandidates_cons ctx cand rest with ⟨err, -, unreadable⟩ | ⟨cv, value, decoded⟩
    · exact absurd unreadable (readable cand (.head _))
    · rw [decoded, later, List.filterMap_cons_some value]
      rfl

theorem decodeCandidates_of_unreadable {cands : List String} {cand : String}
    (candMem : cand ∈ cands) (unreadable : candidateValue ctx cand = none) :
    ∃ err, decodeCandidates ctx "" cands = .ok (.error err) := by
  induction cands with
  | nil => simp at candMem
  | cons first rest ih =>
    rcases @decodeCandidates_cons ctx first rest with ⟨err, failed, -⟩ | ⟨cv, value, decoded⟩
    · exact ⟨err, failed⟩
    rcases List.mem_cons.mp candMem with rfl | later
    · simp [value] at unreadable
    · obtain ⟨err, failed⟩ := ih later
      exact ⟨err, by rw [decoded, failed]; rfl⟩

theorem combinedValue_of_unreadable {cand : String} (candMem : cand ∈ d.candidates)
    (unreadable : candidateValue ctx cand = none) : combinedValue ctx world d = none := by
  obtain ⟨err, failed⟩ := decodeCandidates_of_unreadable
    ((world.iterate_perm d.candidates).mem_iff.mpr candMem) unreadable
  have stops : combineCandidates ctx world d = .done (.error err) d := by
    have start : combineCandidates ctx world d = _ := bind_of_done rfl
    rw [start, failed]
    rfl
  rw [combinedValue, stops]

theorem encodeComposite_iff (ts : TxSet) (text : String) :
    (∃ final, encodeComposite ctx world (latestProposeTime ctx d) ts d = .done (.ok text) final) ↔
      ∃ key, PublishedAs ctx world d ts key ∧
        ctx.encodeConsensusValue ⟨key, latestProposeTime ctx d⟩ = .ok text := by
  constructor
  · rintro ⟨final, ended⟩
    have holds : (encodeComposite ctx world (latestProposeTime ctx d) ts).Holds d
        (fun result _ => result = .ok text → ∃ key, PublishedAs ctx world d ts key ∧
          ctx.encodeConsensusValue ⟨key, latestProposeTime ctx d⟩ = .ok text)
        (fun _ _ => True) := by
      unfold encodeComposite
      cases hashed : ctx.getTxSetKey ts with
      | error err => simp
      | ok key =>
        cases stored : world.addTxSet key ts with
        | error err => simp [stored]
        | ok done =>
          simp only [stored, holds_bind, holds_modify]
          cases encoded : ctx.encodeConsensusValue ⟨key, latestProposeTime ctx d⟩ with
          | error err => simp
          | ok candStr =>
            intro same
            obtain rfl := Except.ok.inj same
            exact ⟨key, ⟨hashed, stored, candStr, encoded⟩, encoded⟩
    rw [holds_of_done ended] at holds
    exact holds rfl
  · rintro ⟨key, published, encoded⟩
    refine ⟨{ d with txSets := (key, ts) :: d.txSets }, ?_⟩
    unfold encodeComposite
    rw [published.hashed]
    dsimp only
    rw [published.stored]
    rw [encoded]
    rfl

theorem latestProposeTime_eq (world : World) :
    (((world.iterate d.candidates).filterMap (candidateValue ctx)).map
      (·.proposeTime)).foldl max 0 = latestProposeTime ctx d :=
  (((world.iterate_perm d.candidates).filterMap _).map _).foldl_op_eq

theorem combinedValue_eq_some_iff (readable : ∀ cand ∈ d.candidates, candidateValue ctx cand ≠ none)
    (text : String) :
    combinedValue ctx world d = some text ↔
      ∃ ts, firstHeaviest ctx world d (world.iterate d.candidates) = some ts ∧
        ∃ key, PublishedAs ctx world d ts key ∧
          ctx.encodeConsensusValue ⟨key, latestProposeTime ctx d⟩ = .ok text := by
  have decoded : decodeCandidates ctx "" (world.iterate d.candidates) =
      .ok (.ok ("", (world.iterate d.candidates).filterMap (candidateValue ctx))) :=
    decodeCandidates_of_readable fun cand candMem =>
      readable cand ((world.iterate_perm _).mem_iff.mp candMem)
  obtain ⟨chosen, choice, heaviest⟩ := chooseTxSet_eq_argmax ctx (d.getTxSet world)
    world.currLedgerHeaderHash ((world.iterate d.candidates).filterMap (candidateValue ctx))
  have same : firstHeaviest ctx world d (world.iterate d.candidates) = chosen.map Prod.snd := by
    rw [heaviest, List.filterMap_filterMap]
    rfl
  have combined : combineCandidates ctx world d =
      match chosen.map Prod.snd with
      | none => .done (.error "txset is nil after candidate combination.") d
      | some txset => encodeComposite ctx world (latestProposeTime ctx d) txset d := by
    have start : combineCandidates ctx world d = _ := bind_of_done rfl
    rw [start, decoded, ← latestProposeTime_eq world]
    refine (bind_of_done rfl).trans ?_
    dsimp only
    rw [choice]
    rcases chosen with _ | ⟨txsetHash, txset⟩ <;> rfl
  rw [combinedValue, combined, same]
  simp only [← encodeComposite_iff]
  cases chosen.map Prod.snd with
  | none => simp
  | some ts =>
    simp only [Option.some.injEq, exists_eq_left']
    rcases encodeComposite ctx world (latestProposeTime ctx d) ts d with
      ⟨err | value, final⟩ | ⟨fault, final⟩ <;> simp

theorem combinedValue_iterating_iff
    (readable : ∀ cand ∈ d.candidates, candidateValue ctx cand ≠ none) (iteration : Iteration)
    (text : String) :
    combinedValue ctx (world.iterating iteration) d = some text ↔
      ∃ ts, firstHeaviest ctx world d (iteration.order d.candidates) = some ts ∧
        ∃ key, PublishedAs ctx world d ts key ∧
          ctx.encodeConsensusValue ⟨key, latestProposeTime ctx d⟩ = .ok text := by
  have published : ∀ ts key, PublishedAs ctx (world.iterating iteration) d ts key ↔
      PublishedAs ctx world d ts key := fun ts key =>
    ⟨fun ⟨hashed, stored, encoded⟩ => ⟨hashed, stored, encoded⟩,
      fun ⟨hashed, stored, encoded⟩ => ⟨hashed, stored, encoded⟩⟩
  rw [combinedValue_eq_some_iff readable]
  simp only [published]
  rfl

theorem Heaviest.of_first {order : List String} (reordered : order.Perm d.candidates)
    (chosen : firstHeaviest ctx world d order = some ts) : Heaviest ctx world d ts := by
  have sets := reordered.filterMap (candidateTxSet ctx world d)
  refine ⟨sets.mem_iff.mp (List.argmax_mem chosen), fun other otherMem => ?_⟩
  exact List.le_of_mem_argmax (sets.mem_iff.mpr otherMem) chosen

theorem exists_first {first second : List String} (reordered : first.Perm second)
    (chosen : firstHeaviest ctx world d first = some ts) :
    ∃ other, firstHeaviest ctx world d second = some other := by
  have mem := (reordered.filterMap (candidateTxSet ctx world d)).mem_iff.mp
    (List.argmax_mem chosen)
  apply Option.ne_none_iff_exists'.mp
  intro nothing
  rw [firstHeaviest, List.argmax_eq_none] at nothing
  simp [nothing] at mem

theorem Heaviest.exists_iteration (heaviest : Heaviest ctx world d ts) :
    ∃ iteration : Iteration,
      firstHeaviest ctx world d (iteration.order d.candidates) = some ts := by
  obtain ⟨cand, candMem, proposes⟩ := List.mem_filterMap.mp heaviest.proposed
  refine ⟨.startingWith cand, ?_⟩
  have order : (Iteration.startingWith cand).order d.candidates =
      cand :: d.candidates.erase cand := if_pos candMem
  rw [order, firstHeaviest, List.filterMap_cons_some proposes, List.argmax_cons]
  cases chosen : ((d.candidates.erase cand).filterMap (candidateTxSet ctx world d)).argmax
      TxSet.weight with
  | none => rfl
  | some other =>
    obtain ⟨otherCand, otherMem, otherProposes⟩ :=
      List.mem_filterMap.mp (List.argmax_mem (Option.mem_def.mpr chosen))
    have bound := heaviest.bound other
      (List.mem_filterMap.mpr ⟨otherCand, List.mem_of_mem_erase otherMem, otherProposes⟩)
    simp [not_lt.mpr bound]

end Canonicity

/-- The combined value does not depend on the order exactly if some candidate cannot be
read, or all heaviest transaction sets are published under one key. -/
theorem combineCandidates_canonical_iff (ctx : DecreeContext) (world : World) (d : DecreeState)
    (codec : ∀ first second text, ctx.encodeConsensusValue first = .ok text →
      ctx.encodeConsensusValue second = .ok text → first.txSetHash = second.txSetHash) :
    (∀ first second : Iteration,
      combinedValue ctx (world.iterating first) d =
        combinedValue ctx (world.iterating second) d) ↔
      (∃ cand ∈ d.candidates, candidateValue ctx cand = none) ∨
        ∀ one other, Heaviest ctx world d one → Heaviest ctx world d other → ∀ key,
          PublishedAs ctx world d one key → PublishedAs ctx world d other key := by
  by_cases unreadable : ∃ cand ∈ d.candidates, candidateValue ctx cand = none
  · obtain ⟨cand, candMem, fails⟩ := unreadable
    refine iff_of_true (fun first second => ?_) (.inl ⟨cand, candMem, fails⟩)
    rw [combinedValue_of_unreadable candMem fails, combinedValue_of_unreadable candMem fails]
  have readable : ∀ cand ∈ d.candidates, candidateValue ctx cand ≠ none :=
    fun cand candMem fails => unreadable ⟨cand, candMem, fails⟩
  rw [or_iff_right unreadable]
  constructor
  · intro same one other oneHeaviest otherHeaviest key published
    obtain ⟨first, firstChosen⟩ := oneHeaviest.exists_iteration
    obtain ⟨second, secondChosen⟩ := otherHeaviest.exists_iteration
    obtain ⟨text, encoded⟩ := published.encoded
    have value : combinedValue ctx (world.iterating first) d = some text :=
      (combinedValue_iterating_iff readable first text).mpr
        ⟨one, firstChosen, key, published, encoded⟩
    rw [same first second, combinedValue_iterating_iff readable] at value
    obtain ⟨ts, chosen, otherKey, otherPublished, otherEncoded⟩ := value
    cases secondChosen.symm.trans chosen
    obtain rfl : key = otherKey := codec _ _ _ encoded otherEncoded
    exact otherPublished
  · intro agree
    have onward : ∀ (first second : Iteration) (text : String),
        combinedValue ctx (world.iterating first) d = some text →
          combinedValue ctx (world.iterating second) d = some text := by
      intro first second text value
      obtain ⟨ts, chosen, key, published, encoded⟩ :=
        (combinedValue_iterating_iff readable first text).mp value
      have reordered := (first.perm d.candidates).trans (second.perm d.candidates).symm
      obtain ⟨other, otherChosen⟩ := exists_first reordered chosen
      refine (combinedValue_iterating_iff readable second text).mpr
        ⟨other, otherChosen, key, ?_, encoded⟩
      exact agree ts other (Heaviest.of_first (first.perm _) chosen)
        (Heaviest.of_first (second.perm _) otherChosen) key published
    intro first second
    apply Option.ext
    exact fun text => ⟨onward first second text, onward second first text⟩

private def someContext : DecreeContext :=
  .plain 1 "alice" (.mk 1 [] []) (fun _ => none) fun _ => 0

private def withCandidates (candidates : List String) : DecreeState :=
  { newDecree someContext with candidates := candidates }

private def note (text : String) : Tx := ⟨"", 0, text, 0, []⟩

private def oneBigSet : World :=
  { World.plain with
    getTxSet := fun txsetHash =>
      .ok (some ⟨"", if txsetHash = "big" then [note "big", note ""] else [note txsetHash]⟩) }

/-- With one heaviest set the order does not matter. -/
theorem combineCandidates_canonical_of_one_heaviest :
    combinedValue someContext oneBigSet (withCandidates ["small", "big"]) = some "big" ∧
      ∀ first second : Iteration,
        combinedValue someContext (oneBigSet.iterating first) (withCandidates ["small", "big"]) =
          combinedValue someContext (oneBigSet.iterating second)
            (withCandidates ["small", "big"]) := by
  have codec : ∀ first second text, someContext.encodeConsensusValue first = .ok text →
      someContext.encodeConsensusValue second = .ok text →
        first.txSetHash = second.txSetHash := by
    intro first second text firstText secondText
    exact (Except.ok.inj firstText).trans (Except.ok.inj secondText).symm
  refine ⟨by decide +kernel, ?_⟩
  refine (combineCandidates_canonical_iff someContext oneBigSet _ codec).mpr (.inr ?_)
  have proposals : (withCandidates ["small", "big"]).candidates.filterMap
      (candidateTxSet someContext oneBigSet (withCandidates ["small", "big"])) =
        [⟨"", [note "small"]⟩, ⟨"", [note "big", note ""]⟩] := by
    decide +kernel
  have unique : ∀ ts, Heaviest someContext oneBigSet (withCandidates ["small", "big"]) ts →
      ts = ⟨"", [note "big", note ""]⟩ := by
    rintro ts ⟨proposed, bound⟩
    rw [proposals] at proposed bound
    rcases List.mem_pair.mp proposed with rfl | rfl
    · exact absurd (bound ⟨"", [note "big", note ""]⟩ (by simp)) (by decide +kernel)
    · rfl
  intro one other oneHeaviest otherHeaviest key published
  rw [unique other otherHeaviest, ← unique one oneHeaviest]
  exact published

private def backwards : Iteration := ⟨List.reverse, List.reverse_perm⟩

private def forwards : Iteration := ⟨id, List.Perm.refl⟩

/-- Two candidates with sets of one transaction and equal fees: each order of
iteration starts balloting on another value. -/
theorem combineCandidates_depends_on_order :
    combinedValue someContext (World.plain.iterating forwards) (withCandidates ["x", "y"]) =
        some "x" ∧
      combinedValue someContext (World.plain.iterating backwards) (withCandidates ["x", "y"]) =
        some "y" := by
  exact ⟨by decide +kernel, by decide +kernel⟩

end Ultiledger
