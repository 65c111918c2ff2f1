import Ultiledger.NormalizedQuorums
import Ultiledger.OwnBallots

/-! # Stored ballots move forward -/

namespace Ultiledger

open AbortingProgram Program Relation

section Order

/-- `isNewerBallot` for two statements as they arrive, both of which may lack parts. -/
def isNewerStatement (lb rb : Statement) : Except Fault Bool :=
  if lb.statementType ≠ rb.statementType then
    .ok (decide (lb.statementType.rank < rb.statementType.rank))
  else
    match rb.statementType with
    | .prepare =>
      match lb.getPrepare, rb.getPrepare with
      | some lp, some rp => .ok (isNewerPrepare lp rp)
      | _, _ => .error (.nilDereference "prepare")
    | .confirm =>
      match lb.getConfirm, rb.getConfirm with
      | some lc, some rc =>
        match compareBallots lc.B rc.B with
        | .lt => .ok true
        | .gt => .ok false
        | .eq =>
          if lc.PC = rc.PC then .ok (decide (lc.HC < rc.HC))
          else .ok (decide (lc.PC < rc.PC))
      | _, _ => .error (.nilDereference "confirm")
    | .externalize => .ok false
    | .nominate => .error (.fatal errUnknownStmtType)
    | .other => .error (.fatal errUnknownStmtType)

theorem isNewerStatement_statement (pledge : Pledge) (nodeID : String) (index : Nat)
    (stmt : Statement) :
    isNewerStatement (pledge.statement nodeID index) stmt = isNewerBallot pledge stmt := by
  have ownType : (pledge.statement nodeID index).statementType = pledge.statementType := rfl
  unfold isNewerStatement isNewerBallot
  rw [ownType]
  by_cases sameType : pledge.statementType = stmt.statementType
  · rw [← sameType]
    cases pledge with
    | prepare message => cases received : stmt.getPrepare <;> rfl
    | confirm B PC LC HC quorumHash => cases received : stmt.getConfirm <;> rfl
    | externalize B HC quorumHash => rfl
  · rw [if_pos sameType, if_pos sameType]

/-- A ballot in the order in which a nil ballot is the bottom. -/
def ballotLevel : Option Ballot → WithBot Ballot
  | none => ⊥
  | some b => b

theorem compareBallots_eq_compare (first second : Option Ballot) :
    compareBallots first second = compare (ballotLevel first) (ballotLevel second) := by
  cases first with
  | none =>
    cases second with
    | none => exact (compare_eq_iff_eq.mpr rfl).symm
    | some b => exact (compare_lt_iff_lt.mpr (WithBot.bot_lt_coe b)).symm
  | some a =>
    cases second with
    | none => exact (compare_gt_iff_gt.mpr (WithBot.bot_lt_coe a)).symm
    | some b =>
      rw [compareBallots_some]
      rcases lt_trichotomy a b with below | same | above
      · rw [compare_lt_iff_lt.mpr below]
        exact (compare_lt_iff_lt.mpr (WithBot.coe_lt_coe.mpr below)).symm
      · rw [compare_eq_iff_eq.mpr same]
        exact (compare_eq_iff_eq.mpr (WithBot.coe_inj.mpr same)).symm
      · rw [compare_gt_iff_gt.mpr above]
        exact (compare_gt_iff_gt.mpr (WithBot.coe_lt_coe.mpr above)).symm

theorem toLex_ballotLevel_lt_iff {β : Type*} [LT β] {first second : Option Ballot} {x y : β} :
    toLex (ballotLevel first, x) < toLex (ballotLevel second, y) ↔
      compareBallots first second = .lt ∨ compareBallots first second = .eq ∧ x < y := by
  rw [Prod.Lex.toLex_lt_toLex, compareBallots_eq_compare, compare_lt_iff_lt, compare_eq_iff_eq]

def Prepare.progress (message : Prepare) :
    WithBot Ballot ×ₗ WithBot Ballot ×ₗ WithBot Ballot ×ₗ Nat :=
  toLex (ballotLevel message.B,
    toLex (ballotLevel message.P, toLex (ballotLevel message.Q, message.HC)))

def Confirm.progress (message : Confirm) : WithBot Ballot ×ₗ Nat ×ₗ Nat :=
  toLex (ballotLevel message.B, toLex (message.PC, message.HC))

theorem isNewerPrepare_iff {lp rp : Prepare} :
    isNewerPrepare lp rp = true ↔ lp.progress < rp.progress := by
  unfold Prepare.progress isNewerPrepare
  rw [toLex_ballotLevel_lt_iff, toLex_ballotLevel_lt_iff, toLex_ballotLevel_lt_iff]
  cases compareBallots lp.B rp.B with
  | lt => simp
  | gt => simp
  | eq =>
    cases compareBallots lp.P rp.P with
    | lt => simp
    | gt => simp
    | eq => cases compareBallots lp.Q rp.Q <;> simp

theorem isNewerConfirm_iff {lc rc : Confirm} :
    (match compareBallots lc.B rc.B with
      | .lt => (.ok true : Except Fault Bool)
      | .gt => .ok false
      | .eq =>
        if lc.PC = rc.PC then .ok (decide (lc.HC < rc.HC))
        else .ok (decide (lc.PC < rc.PC))) = .ok true ↔ lc.progress < rc.progress := by
  unfold Confirm.progress
  rw [toLex_ballotLevel_lt_iff, Prod.Lex.toLex_lt_toLex]
  cases compareBallots lc.B rc.B with
  | lt => simp
  | gt => simp
  | eq =>
    split_ifs with same
    · simp [same]
    · simp [same]

/-- The second of two statements is newer if its type is later, or if it has the same type
and says more. -/
theorem isNewerStatement_iff {lb rb : Statement} :
    isNewerStatement lb rb = .ok true ↔
      lb.statementType.rank < rb.statementType.rank ∨
        lb.statementType = rb.statementType ∧
          ((rb.statementType = .prepare ∧ ∃ lp rp, lb.getPrepare = some lp ∧
              rb.getPrepare = some rp ∧ lp.progress < rp.progress) ∨
            rb.statementType = .confirm ∧ ∃ lc rc, lb.getConfirm = some lc ∧
              rb.getConfirm = some rc ∧ lc.progress < rc.progress) := by
  unfold isNewerStatement
  by_cases sameType : lb.statementType = rb.statementType
  · rw [sameType]
    cases rb.statementType with
    | prepare =>
      cases lb.getPrepare <;> cases rb.getPrepare <;> simp [isNewerPrepare_iff]
    | confirm =>
      cases lb.getConfirm with
      | none => simp
      | some lc =>
        cases rb.getConfirm with
        | none => simp
        | some rc => simp [isNewerConfirm_iff]
    | externalize => simp
    | nominate => simp
    | other => simp
  · simp [sameType]

theorem not_isNewerStatement_self (stmt : Statement) : isNewerStatement stmt stmt ≠ .ok true := by
  intro newer
  rcases isNewerStatement_iff.mp newer with below | ⟨-, ⟨-, lp, rp, left, right, below⟩ |
    ⟨-, lc, rc, left, right, below⟩⟩
  · exact lt_irrefl _ below
  · cases left.symm.trans right
    exact lt_irrefl _ below
  · cases left.symm.trans right
    exact lt_irrefl _ below

theorem isNewerStatement_trans {first second third : Statement}
    (early : isNewerStatement first second = .ok true)
    (late : isNewerStatement second third = .ok true) :
    isNewerStatement first third = .ok true := by
  rw [isNewerStatement_iff] at early late ⊢
  rcases early with below | ⟨same, parts⟩
  · rcases late with above | ⟨same, -⟩
    · exact .inl (below.trans above)
    · exact .inl (same ▸ below)
  · rcases late with above | ⟨same', parts'⟩
    · exact .inl (same ▸ above)
    · refine .inr ⟨same.trans same', ?_⟩
      rcases parts with ⟨prepare, lp, rp, left, right, below⟩ | ⟨confirm, lc, rc, left, right, below⟩
      · rcases parts' with ⟨prepare', lp', rp', left', right', below'⟩ | ⟨confirm', -⟩
        · cases right.symm.trans left'
          exact .inl ⟨prepare', lp, rp', left, right', below.trans below'⟩
        · rw [← same', prepare] at confirm'
          cases confirm'
      · rcases parts' with ⟨prepare', -⟩ | ⟨confirm', lc', rc', left', right', below'⟩
        · rw [← same', confirm] at prepare'
          cases prepare'
        · cases right.symm.trans left'
          exact .inr ⟨confirm', lc, rc', left, right', below.trans below'⟩

end Order

def StoredForward (d d' : DecreeState) : Prop :=
  ∀ nodeID known, d.ballots.lookup nodeID = some known →
    ∃ later, d'.ballots.lookup nodeID = some later ∧
      (later = known ∨ ∀ index,
        isNewerStatement (known.statement nodeID index) (later.statement nodeID index) = .ok true)

def OwnQuorumSane (ctx : DecreeContext) (d : DecreeState) : Prop :=
  d.ownIsAssembled = true → ∀ message, d.ballots.lookup ctx.nodeID = some (.prepare message) →
    validateSource ctx d (.hash ctx.quorumHash) = .ok none

section Stores

variable {ctx : DecreeContext} {world : World} {heard : String → Pledge → Prop}
  {proposed : String → Prop} {d d' : DecreeState}

theorem StoredForward.of_same (same : d'.ballots = d.ballots) : StoredForward d d' := by
  intro nodeID known found
  exact ⟨known, by rw [same, found], .inl rfl⟩

theorem StoredForward.trans {d'' : DecreeState} (early : StoredForward d d')
    (late : StoredForward d' d'') : StoredForward d d'' := by
  intro nodeID known found
  obtain ⟨between, foundBetween, newer⟩ := early nodeID known found
  obtain ⟨later, foundLater, newerLater⟩ := late nodeID between foundBetween
  refine ⟨later, foundLater, ?_⟩
  rcases newer with rfl | newer
  · exact newerLater
  · rcases newerLater with rfl | newerLater
    · exact .inr newer
    · exact .inr fun index => isNewerStatement_trans (newer index) (newerLater index)

variable {b : BallotState} {stmt : Statement} {cb : Ballot} {pledge : Pledge} {assembled : Bool}
  {hb : Ballot}

theorem Admitted.forward (admitted : Admitted ctx world d stmt pledge) (assembled : Bool) :
    StoredForward d (d.storeBallot ctx.nodeID stmt.nodeID pledge assembled) := by
  intro nodeID known found
  unfold DecreeState.storeBallot
  by_cases sender : nodeID = stmt.nodeID
  · subst sender
    refine ⟨pledge, AList.lookup_insert _, .inr ?_⟩
    intro index
    have news := admitted.news
    rw [found, (validateBallot_cases admitted.valid).2.1] at news
    rw [isNewerStatement_statement]
    exact news
  · exact ⟨known, by rw [AList.lookup_insert_ne sender, found], .inl rfl⟩

theorem Delivered.forward (delivered : Delivered ctx world d stmt assembled d') :
    StoredForward d d' := by
  cases delivered with
  | refused reason => exact .of_same rfl
  | stored admitted => exact admitted.forward assembled

/-- Clearing q reaches no stored statement but the decree's own prepare statement. -/
theorem lookup_resetQ {nodeID : String} {known : Pledge}
    (found : d.ballots.lookup nodeID = some known) (own : String) :
    (d.resetQ own).ballots.lookup nodeID = some known ∨
      nodeID = own ∧ d.ownIsAssembled = true ∧ ∃ message left, known = .prepare message ∧
        (d.resetQ own).ballots.lookup own = some (.prepare left) := by
  unfold DecreeState.resetQ
  cases d.ballot.qBallot with
  | none => exact .inl found
  | some q =>
    cases assembled : d.ownIsAssembled with
    | false => exact .inl found
    | true =>
      cases ownCase : d.ballots.lookup own with
      | none => exact .inl found
      | some pledge =>
        by_cases isOwn : nodeID = own
        · subst isOwn
          cases found.symm.trans ownCase
          cases known with
          | prepare message =>
            exact .inr ⟨rfl, rfl, message, _, rfl, AList.lookup_insert _⟩
          | confirm B PC LC HC quorumHash => exact .inl (AList.lookup_insert _)
          | externalize B HC quorumHash => exact .inl (AList.lookup_insert _)
        · exact .inl (by rw [AList.lookup_insert_ne isOwn, found])

theorem assembleBallot_entry (inOrder : (b.entry cb hb).InOrder)
    (built : assembleBallot ctx (b.entry cb hb) = .ok (some pledge)) :
    ∃ B PC LC HC, pledge = .confirm B PC LC HC ctx.quorumHash ∧ B.value = hb.value := by
  obtain ⟨current, shared, shape⟩ := b.entry_eq cb hb
  obtain ⟨B, isCurrent, -, sameValue⟩ := inOrder.high hb (by rw [shape])
  rw [shape] at built isCurrent
  cases isCurrent
  cases pCase : b.pBallot with
  | none => simp [assembleBallot, pCase] at built
  | some p =>
    simp only [assembleBallot, pCase, Option.map_some, Except.ok.injEq, Option.some.injEq]
      at built
    exact ⟨current, p.counter, cb.counter, hb.counter, built.symm, sameValue.symm⟩

/-- The order in which nested quorums stand does not matter for the check of the decree's
own quorum. -/
theorem validateSource_own (sane : validateSource ctx d (.hash ctx.quorumHash) = .ok none)
    (quorum : d'.quorum = d.quorum ∨
      ∃ world : World, d'.quorum = settleQuorum world.arrange d.quorum) :
    validateSource ctx d' (.hash ctx.quorumHash) = .ok none := by
  have kept : validateQuorum d.quorum 0 false = .ok () →
      validateQuorum d'.quorum 0 false = .ok () := by
    rcases quorum with same | ⟨world, settled⟩
    · rw [same]
      exact id
    · rw [settled]
      exact (validateQuorum_settleQuorum world.arrange_perm false d.quorum 0).mpr
  simp only [validateSource, getStatementQuorum, DecreeState.voting, DecreeState.getQuorum,
    if_true] at sane ⊢
  split_ifs at sane ⊢
  cases known : ctx.getQuorum ctx.quorumHash with
  | none => simp [known] at sane
  | some _ =>
    simp only [known, Option.map_some] at sane ⊢
    cases valid : validateQuorum d.quorum 0 false with
    | error err => simp [valid] at sane
    | ok _ => simp [kept valid]

theorem validateBallot_entry (valid : validateConsensusValue ctx world d hb.value = .ok ())
    (inOrder : (d.ballot.entry cb hb).InOrder)
    (built : assembleBallot ctx (d.ballot.entry cb hb) = .ok (some pledge))
    (sane : validateSource ctx d (.hash ctx.quorumHash) = .ok none) (index : Nat) :
    validateBallot ctx world (entered ctx d cb hb) (pledge.statement ctx.nodeID index) =
      .ok (.ok pledge) := by
  have phase := phase_entry d.ballot cb hb
  have shaped : pledge.WellShaped :=
    wellShaped_of_moved inOrder (by simp [phase]) (by simp [phase]) built
  obtain ⟨B, PC, LC, HC, rfl, sameValue⟩ := assembleBallot_entry inOrder built
  have same : SameNominations d (entered ctx d cb hb) := .entered cb hb
  have saneEntered := validateSource_own sane (.inl same.quorum)
  refine (validateBallot_iff_wellShaped index (by simp) saneEntered ?_).mpr shaped
  rw [valuesProblem_eq_none_iff]
  have txSets : (entered ctx d cb hb).txSets = d.txSets := txSets_resetQ ctx.nodeID
  simp only [Pledge.values, List.mem_singleton, forall_eq]
  rw [validateConsensusValue_congr txSets, sameValue, valid]

/-- The entry to the confirm phase moves the stored statements forward: where it has cleared
the q of the decree's own prepare statement, a confirm statement takes its place. -/
theorem forward_enter (own : OwnQuorumSane ctx d)
    (valid : validateConsensusValue ctx world d hb.value = .ok ())
    (inOrder : (d.ballot.entry cb hb).InOrder)
    (built : assembleBallot ctx (d.ballot.entry cb hb) = .ok (some pledge))
    (delivered : (entered ctx d cb hb).ballots.lookup ctx.nodeID = some pledge ∧
        d' = entered ctx d cb hb ∨
      Delivered ctx world (entered ctx d cb hb) (pledge.statement ctx.nodeID ctx.index) true d') :
    StoredForward d d' := by
  have after : StoredForward (entered ctx d cb hb) d' := by
    rcases delivered with ⟨-, rfl⟩ | delivered
    · exact .of_same rfl
    · exact delivered.forward
  intro nodeID known found
  rcases lookup_resetQ found ctx.nodeID with kept | ⟨rfl, assembled, message, left, rfl, cleared⟩
  · exact after nodeID known kept
  · have sane := own assembled message found
    have passes := validateBallot_entry valid inOrder built sane ctx.index
    obtain ⟨B, PC, LC, HC, rfl, -⟩ := assembleBallot_entry inOrder built
    rcases delivered with ⟨known, rfl⟩ | delivered
    · cases cleared.symm.trans known
    · cases delivered with
      | refused reason =>
        rcases reason with indices | old | ⟨err, invalid⟩ | externalized
        · exact absurd rfl indices
        · change isNews ((d.resetQ ctx.nodeID).ballots.lookup ctx.nodeID) _ = _ at old
          rw [cleared] at old
          cases old
        · cases passes.symm.trans invalid
        · cases (phase_entry d.ballot cb hb).symm.trans externalized
      | stored admitted =>
        obtain rfl := Pledge.eq_of_statement (validateBallot_cases admitted.valid).2.1
        exact ⟨_, AList.lookup_insert _, .inr fun _ => rfl⟩

theorem quorumHash_assembleBallot {message : Prepare}
    (built : assembleBallot ctx b = .ok (some (.prepare message))) :
    message.quorumHash = ctx.quorumHash := by
  obtain ⟨phase, current, p, q, h, c, shared⟩ := b
  cases phase with
  | prepare =>
    simp only [assembleBallot, Except.ok.injEq, Option.map_eq_some_iff] at built
    obtain ⟨B, -, same⟩ := built
    cases same
    rfl
  | confirm => cases p <;> cases c <;> cases h <;> cases current <;> simp [assembleBallot] at built
  | externalize => cases c <;> cases h <;> simp [assembleBallot] at built

theorem OwnQuorumSane.of_same (own : OwnQuorumSane ctx d) (ballots : d'.ballots = d.ballots)
    (ownIsAssembled : d'.ownIsAssembled = d.ownIsAssembled)
    (quorum : d'.quorum = d.quorum ∨
      ∃ world : World, d'.quorum = settleQuorum world.arrange d.quorum) : OwnQuorumSane ctx d' := by
  intro assembled message found
  rw [ownIsAssembled] at assembled
  rw [ballots] at found
  exact validateSource_own (own assembled message found) quorum

theorem OwnQuorumSane.store (own : OwnQuorumSane ctx d)
    (admitted : Admitted ctx world d stmt pledge)
    (built : assembled = true → assembleBallot ctx d.ballot = .ok (some pledge)) :
    OwnQuorumSane ctx (d.storeBallot ctx.nodeID stmt.nodeID pledge assembled) := by
  intro isAssembled message found
  simp only [DecreeState.storeBallot] at isAssembled found
  by_cases sender : stmt.nodeID = ctx.nodeID
  · rw [if_pos sender] at isAssembled
    rw [sender, AList.lookup_insert] at found
    cases found
    rw [← quorumHash_assembleBallot (built isAssembled)]
    exact (validateBallot_cases admitted.valid).1
  · rw [if_neg sender] at isAssembled
    rw [AList.lookup_insert_ne (Ne.symm sender)] at found
    exact own isAssembled message found

theorem OwnQuorumSane.resetQ (own : OwnQuorumSane ctx d) :
    OwnQuorumSane ctx (d.resetQ ctx.nodeID) := by
  intro assembled message found
  obtain ⟨clearedQ, ballots, latestBallot, shape⟩ := d.resetQ_eq ctx.nodeID
  have assembledBefore : d.ownIsAssembled = true := by rwa [shape] at assembled
  have quorum : (d.resetQ ctx.nodeID).quorum = d.quorum := by rw [shape]
  cases known : d.ballots.lookup ctx.nodeID with
  | none =>
    have unchanged : (d.resetQ ctx.nodeID).ballots = d.ballots := by
      unfold DecreeState.resetQ
      cases d.ballot.qBallot <;> simp [known]
    rw [unchanged, known] at found
    cases found
  | some pledge =>
    rcases lookup_resetQ known ctx.nodeID with kept | ⟨-, -, before, left, rfl, -⟩
    · cases found.symm.trans kept
      exact validateSource_own (own assembledBefore message known) (.inl quorum)
    · exact validateSource_own (own assembledBefore before known) (.inl quorum)

def StoresForward (ctx : DecreeContext) (d d' : DecreeState) : Prop :=
  OwnQuorumSane ctx d → StoredForward d d' ∧ OwnQuorumSane ctx d'

theorem StoresForward.of_same (ballots : d'.ballots = d.ballots)
    (ownIsAssembled : d'.ownIsAssembled = d.ownIsAssembled)
    (quorum : d'.quorum = d.quorum ∨
      ∃ world : World, d'.quorum = settleQuorum world.arrange d.quorum) : StoresForward ctx d d' :=
  fun own => ⟨.of_same ballots, own.of_same ballots ownIsAssembled quorum⟩

theorem BallotTransition.storesForward (transition : BallotTransition ctx world heard d d') :
    StoresForward ctx d d' := by
  cases transition with
  | count ballotMsgCount => exact .of_same rfl rfl (.inl rfl)
  | limit => exact .of_same rfl rfl (.inl rfl)
  | idle move nextValue => exact .of_same rfl rfl (.inl rfl)
  | move move inOrder nextValue => exact .of_same rfl rfl (.inl rfl)
  | @enter _ stmt pledge cb hb waiting found valid inOrder built delivered =>
    intro own
    refine ⟨forward_enter own valid inOrder built delivered, ?_⟩
    have ownEntered : OwnQuorumSane ctx (entered ctx d cb hb) :=
      own.resetQ.of_same rfl rfl (.inl rfl)
    rcases delivered with ⟨-, rfl⟩ | delivered
    · exact ownEntered
    · cases delivered with
      | refused reason => exact ownEntered
      | stored admitted =>
        obtain rfl := Pledge.eq_of_statement (validateBallot_cases admitted.valid).2.1
        exact ownEntered.store admitted fun _ => built
  | store admitted origin =>
    intro own
    refine ⟨admitted.forward _, own.store admitted ?_⟩
    rintro rfl
    rcases origin with ⟨external, -⟩ | ⟨-, -, -, built⟩
    · cases external
    · exact built
  | announce pledge vouched => exact .of_same rfl rfl (.inl rfl)
  | resend => exact .of_same rfl rfl (.inl rfl)
  | stopNomination => exact .of_same rfl rfl (.inl rfl)
  | externalize c phase commit first => exact .of_same rfl rfl (.inl rfl)

theorem DecreeTransition.storesForward
    (transition : DecreeTransition ctx world heard proposed d d') : StoresForward ctx d d' := by
  rcases transition.ballot_or_same with transition | ⟨-, -, ballots, ownIsAssembled⟩
  · exact transition.storesForward
  · exact .of_same ballots ownIsAssembled (transition.quorum.imp_right fun settled => ⟨world, settled⟩)

end Stores

section Runs

variable {ctx : DecreeContext}

def ForwardRun (ctx : DecreeContext) : DecreeState → DecreeState → Prop :=
  ReflTransGen fun d d' =>
    (∃ world proposed, DecreeTransition ctx world (fun _ _ => True) proposed d d') ∧
      StoredForward d d'

theorem DecreeRun.forward {d d' : DecreeState} (run : DecreeRun ctx d d')
    (own : OwnQuorumSane ctx d) :
    ForwardRun ctx d d' ∧ StoredForward d d' ∧ OwnQuorumSane ctx d' := by
  induction run with
  | refl => exact ⟨.refl, .of_same rfl, own⟩
  | tail _ transition ih =>
    obtain ⟨path, forward, ownBefore⟩ := ih
    obtain ⟨world, proposed, step⟩ := transition
    obtain ⟨further, ownAfter⟩ := step.storesForward ownBefore
    exact ⟨path.tail ⟨⟨world, proposed, step⟩, further⟩, forward.trans further, ownAfter⟩

end Runs

/-- `isNewerBallot` is a strict order of statements, and along every sequence of calls a
stored statement is replaced by newer ones only. -/
theorem stored_ballots_move_forward (ctx : DecreeContext) :
    (∀ stmt, isNewerStatement stmt stmt ≠ .ok true) ∧
      (∀ first second third, isNewerStatement first second = .ok true →
        isNewerStatement second third = .ok true → isNewerStatement first third = .ok true) ∧
      ∀ early late d d', runTurns ctx early (newDecree ctx) = .done () d →
        runTurns ctx late d = .done () d' → ForwardRun ctx d d' ∧ StoredForward d d' := by
  refine ⟨not_isNewerStatement_self, fun _ _ _ => isNewerStatement_trans, ?_⟩
  intro early late d d' reached ended
  have run : DecreeRun ctx (newDecree ctx) d := decreeRun_of_reached reached
  have own : OwnQuorumSane ctx d := (run.forward (by simp [OwnQuorumSane, newDecree])).2.2
  have further : DecreeRun ctx d d' :=
    (turnsRun_of_ended (run.sound (soundDecree_newDecree ctx)) ended).decreeRun
  exact ⟨(further.forward own).1, (further.forward own).2.1⟩

private def twoPeers : Quorum := .mk (2 / 3) ["b", "c"] []

private def twoPeersContext : DecreeContext :=
  .plain 7 "n" twoPeers (fun _ => some twoPeers) (fun _ => 0)

private def pledgeTurn (nodeID : String) (pledge : Pledge) : Turn where
  call := .recv (some (pledge.statement nodeID 7))
  world := .plain
  fuel := 12

private def preparingTurns : List Turn :=
  [pledgeTurn "b" (.prepare ⟨some ⟨1, "u"⟩, none, none, 0, 0, "b"⟩),
    pledgeTurn "c" (.prepare ⟨some ⟨1, "u"⟩, none, none, 0, 0, "c"⟩),
    pledgeTurn "b" (.prepare ⟨some ⟨2, "w"⟩, some ⟨2, "w"⟩, none, 0, 0, "b"⟩),
    pledgeTurn "c" (.prepare ⟨some ⟨2, "w"⟩, some ⟨2, "w"⟩, none, 0, 0, "c"⟩)]

private def confirmingTurns : List Turn := [pledgeTurn "b" (.confirm ⟨2, "w"⟩ 2 2 2 "b")]

private def preparingDecree : DecreeState :=
  (runTurns twoPeersContext preparingTurns (newDecree twoPeersContext)).state

private def confirmingDecree : DecreeState :=
  (runTurns twoPeersContext confirmingTurns preparingDecree).state

/-- A statement of b takes the decree to the confirm phase while its own prepare statement
holds q. -/
theorem stored_ballots_move_forward_clearing :
    preparingDecree.ballots.lookup "n" =
        some (.prepare ⟨some ⟨2, "w"⟩, some ⟨2, "w"⟩, some ⟨1, "u"⟩, 2, 2, "n"⟩) ∧
      confirmingDecree.clearedQ = some ⟨1, "u"⟩ ∧
      confirmingDecree.ballots.lookup "n" = some (.confirm ⟨2, "w"⟩ maxUint32 2 2 "n") ∧
      StoredForward preparingDecree confirmingDecree := by
  refine ⟨by decide +kernel, by decide +kernel, by decide +kernel, ?_⟩
  have reached : runTurns twoPeersContext preparingTurns (newDecree twoPeersContext) =
      .done () preparingDecree := Outcome.eq_done (by decide +kernel)
  have ended : runTurns twoPeersContext confirmingTurns preparingDecree =
      .done () confirmingDecree := Outcome.eq_done (by decide +kernel)
  exact ((stored_ballots_move_forward twoPeersContext).2.2 _ _ _ _ reached ended).2

end Ultiledger
