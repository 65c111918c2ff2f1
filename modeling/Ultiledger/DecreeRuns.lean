import Ultiledger.BallotRuns

/-! # The transitions of a decree, and every call as a sequence of them

A call is a sequence of nomination transitions followed by transitions of the ballot
protocol, and so a sequence of steps.
-/

namespace Ultiledger

open AbortingProgram Program Relation

section Transitions

variable (ctx : DecreeContext) (world : World) (heard : String → Pledge → Prop)
  (proposed : String → Prop)

/-- The value is valid, or some nomination accepted it when it was not. -/
def DecreeState.Lists (d : DecreeState) (value : String) : Prop :=
  validateConsensusValue ctx world d value = .ok () ∨
    ∃ reception ∈ d.receptions, value ∈ reception.invalid

/-- The transitions of the nomination protocol.  A vote is the decree's own
proposal or has been validated. -/
inductive NominationTransition : DecreeState → DecreeState → Prop
  | round {d : DecreeState} (nominationStart : Bool) (nominationRound renomCount : Nat)
      (prevConsensusValue : String) :
      NominationTransition d { d with
        nominationStart := nominationStart
        nominationRound := nominationRound
        renomCount := renomCount
        prevConsensusValue := prevConsensusValue }
  | leaders {d : DecreeState} (nominationLeaders : List String) :
      NominationTransition d { d with
        quorum := settleQuorum world.arrange d.quorum
        nominationLeaders := nominationLeaders }
  | vote {d : DecreeState} (value : String)
      (origin : proposed value ∨ validateConsensusValue ctx world d value = .ok ()) :
      NominationTransition d (d.addValue ctx world .votes value)
  | accept {d : DecreeState} (value : String)
      (valid : validateConsensusValue ctx world d value = .ok ()) :
      NominationTransition d ((d.addValue ctx world .votes value).addValue ctx world .accepts value)
  | candidate {d : DecreeState} (value : String)
      (ratified : federatedRatify (d.voting ctx) Nominate.quorumSource (acceptFilter value)
        d.nominations = .ok true) (listed : d.Lists ctx world value) :
      NominationTransition d (d.addValue ctx world .candidates value)
  | store {d : DecreeState} (nodeID : String) (nom : Nominate) :
      NominationTransition d (d.storeNomination ctx world nodeID nom)

inductive BallotingTransition : DecreeState → DecreeState → Prop
  | ballot {d d' : DecreeState} (transition : BallotTransition ctx world heard d d') :
      BallotingTransition d d'
  | txSet {d : DecreeState} (txSetHash : String) (txset : TxSet) :
      BallotingTransition d { d with txSets := (txSetHash, txset) :: d.txSets }
  | composite {d : DecreeState} (value : String) :
      BallotingTransition d { d with latestComposite := value }
  | announce {d : DecreeState} (nom : Nominate) :
      BallotingTransition d { d with
        latestNomination := some nom
        statementChan := d.statementChan ++
          [⟨.nominate, ctx.nodeID, ctx.index, some (.nominate nom)⟩] }

inductive DecreeTransition (d d' : DecreeState) : Prop
  | nomination (transition : NominationTransition ctx world proposed d d')
  | balloting (transition : BallotingTransition ctx world heard d d')

/-- What the ballot protocol leaves alone. -/
structure SameNominations (d d' : DecreeState) : Prop where
  quorum : d'.quorum = d.quorum
  votes : d'.votes = d.votes
  accepts : d'.accepts = d.accepts
  candidates : d'.candidates = d.candidates
  nominations : d'.nominations = d.nominations
  additions : d'.additions = d.additions
  receptions : d'.receptions = d.receptions

def Gathering : DecreeState → DecreeState → Prop :=
  ReflTransGen (NominationTransition ctx world proposed)

def Balloting : DecreeState → DecreeState → Prop :=
  ReflTransGen (BallotingTransition ctx world heard)

def CallRun (d d' : DecreeState) : Prop :=
  ∃ middle, Gathering ctx world proposed d middle ∧ Balloting ctx world heard middle d'

/-- The loops of `promoteVotes`, which receive nothing and add no transaction set. -/
def Promoting (d d' : DecreeState) : Prop :=
  Gathering ctx world proposed d d' ∧ d'.receptions = d.receptions ∧ d'.txSets = d.txSets

def CallHalted (d d' : DecreeState) : Prop :=
  ∃ last, ReflTransGen (DecreeTransition ctx world heard proposed) d last ∧ SameOutputs last d' ∧
    ∃ rest, d'.trace = last.trace ++ rest ∧ Confirming ctx rest

end Transitions

section Facts

variable {ctx : DecreeContext} {world : World} {heard : String → Pledge → Prop}
  {proposed : String → Prop} {d d' : DecreeState}

theorem NominationTransition.progress (transition : NominationTransition ctx world proposed d d') :
    Progress ctx heard d d' := by
  cases transition with
  | round nominationStart nominationRound renomCount prevConsensusValue =>
    exact .of_private rfl rfl rfl rfl rfl rfl
  | leaders nominationLeaders =>
    exact .single (.aside ⟨rfl, rfl, rfl, rfl, ⟨[], by simp, by simp⟩,
      .inr ⟨world, rfl⟩⟩)
  | vote value origin => exact .of_private rfl rfl rfl rfl rfl rfl
  | accept value valid => exact .of_private rfl rfl rfl rfl rfl rfl
  | candidate value ratified listed => exact .of_private rfl rfl rfl rfl rfl rfl
  | store nodeID nom => exact .of_private rfl rfl rfl rfl rfl rfl

theorem BallotingTransition.progress (sound : SoundDecree ctx d)
    (transition : BallotingTransition ctx world heard d d') : Progress ctx heard d d' := by
  cases transition with
  | ballot transition => exact transition.progress sound
  | txSet txSetHash txset => exact .of_private rfl rfl rfl rfl rfl rfl
  | composite value => exact .of_private rfl rfl rfl rfl rfl rfl
  | announce nom =>
    exact .single (.aside ⟨rfl, rfl, rfl, rfl, ⟨_, rfl, by simp⟩, .inl rfl⟩)

theorem DecreeTransition.progress (sound : SoundDecree ctx d)
    (transition : DecreeTransition ctx world heard proposed d d') : Progress ctx heard d d' := by
  cases transition with
  | nomination transition => exact transition.progress
  | balloting transition => exact transition.progress sound

/-- Whatever is not a transition of the ballot protocol leaves its state alone. -/
theorem DecreeTransition.ballot_or_same
    (transition : DecreeTransition ctx world heard proposed d d') :
    BallotTransition ctx world heard d d' ∨
      (d'.trace = d.trace ∧ d'.ballot = d.ballot ∧ d'.ballots = d.ballots ∧
        d'.ownIsAssembled = d.ownIsAssembled) := by
  cases transition with
  | nomination transition => cases transition <;> exact .inr ⟨rfl, rfl, rfl, rfl⟩
  | balloting transition =>
    cases transition with
    | ballot transition => exact .inl transition
    | _ => exact .inr ⟨rfl, rfl, rfl, rfl⟩

theorem SameNominations.entered (cb hb : Ballot) : SameNominations d (entered ctx d cb hb) := by
  obtain ⟨clearedQ, ballots, latestBallot, shape⟩ := d.resetQ_eq ctx.nodeID
  unfold Ultiledger.entered
  rw [shape]
  exact ⟨rfl, rfl, rfl, rfl, rfl, rfl, rfl⟩

theorem BallotTransition.sameNominations (transition : BallotTransition ctx world heard d d') :
    SameNominations d d' := by
  cases transition with
  | @enter _ stmt pledge cb hb waiting found valid inOrder built delivered =>
    have same : SameNominations d (entered ctx d cb hb) := .entered cb hb
    rcases delivered with ⟨-, rfl⟩ | delivered
    · exact same
    · cases delivered with
      | refused reason => exact same
      | stored admitted =>
        exact ⟨same.quorum, same.votes, same.accepts, same.candidates, same.nominations,
          same.additions, same.receptions⟩
  | _ => exact ⟨rfl, rfl, rfl, rfl, rfl, rfl, rfl⟩

theorem BallotingTransition.sameNominations
    (transition : BallotingTransition ctx world heard d d') : SameNominations d d' := by
  cases transition with
  | ballot transition => exact transition.sameNominations
  | _ => exact ⟨rfl, rfl, rfl, rfl, rfl, rfl, rfl⟩

theorem DecreeTransition.quorum (transition : DecreeTransition ctx world heard proposed d d') :
    d'.quorum = d.quorum ∨ d'.quorum = settleQuorum world.arrange d.quorum := by
  cases transition with
  | balloting transition => exact .inl transition.sameNominations.quorum
  | nomination transition =>
    cases transition with
    | leaders nominationLeaders => exact .inr rfl
    | _ => exact .inl rfl

theorem progress_of_transitions (sound : SoundDecree ctx d)
    (path : ReflTransGen (DecreeTransition ctx world heard proposed) d d') :
    Progress ctx heard d d' := by
  induction path with
  | refl => exact .refl
  | tail _ transition ih => exact ih.trans (transition.progress (sound.progress ih))

theorem Gathering.transitions (run : Gathering ctx world proposed d d') :
    ReflTransGen (DecreeTransition ctx world heard proposed) d d' :=
  ReflTransGen.mono (fun _ _ transition => .nomination transition) _ _ run

theorem Balloting.transitions (run : Balloting ctx world heard d d') :
    ReflTransGen (DecreeTransition ctx world heard proposed) d d' :=
  ReflTransGen.mono (fun _ _ transition => .balloting transition) _ _ run

theorem CallRun.transitions (run : CallRun ctx world heard proposed d d') :
    ReflTransGen (DecreeTransition ctx world heard proposed) d d' := by
  obtain ⟨middle, gathering, balloting⟩ := run
  exact gathering.transitions.trans balloting.transitions

variable {middle : DecreeState}

theorem CallHalted.resume (run : ReflTransGen (DecreeTransition ctx world heard proposed) d middle)
    (halted : CallHalted ctx world heard proposed middle d') :
    CallHalted ctx world heard proposed d d' := by
  obtain ⟨last, further, rest⟩ := halted
  exact ⟨last, run.trans further, rest⟩

theorem CallHalted.halt : CallHalted ctx world heard proposed d d :=
  ⟨d, .refl, ⟨rfl, rfl⟩, [], by simp, by simp [Confirming]⟩

theorem callJourney {step : DecreeState → DecreeState → Prop}
    (within : ∀ d d', step d d' → DecreeTransition ctx world heard proposed d d') :
    Journey (SoundDecree ctx) (ReflTransGen step) (CallHalted ctx world heard proposed) where
  refl _ := .refl
  trans _ _ _ early late := early.trans late
  keeps _ _ sound run :=
    sound.progress (progress_of_transitions sound (ReflTransGen.mono within _ _ run))
  halt _ := .halt
  resume _ _ _ run halted := .resume (ReflTransGen.mono within _ _ run) halted

theorem gatheringJourney (ctx : DecreeContext) (world : World) (heard : String → Pledge → Prop)
    (proposed : String → Prop) :
    Journey (SoundDecree ctx) (Gathering ctx world proposed) (CallHalted ctx world heard proposed) :=
  callJourney fun _ _ => .nomination

theorem ballotingJourney (ctx : DecreeContext) (world : World) (heard : String → Pledge → Prop)
    (proposed : String → Prop) :
    Journey (SoundDecree ctx) (Balloting ctx world heard) (CallHalted ctx world heard proposed) :=
  callJourney fun _ _ => .balloting

theorem DecreeState.Lists.frame {value : String} (listed : d.Lists ctx world value)
    (receptions : d'.receptions = d.receptions) (txSets : d'.txSets = d.txSets) :
    d'.Lists ctx world value := by
  rwa [DecreeState.Lists, validateConsensusValue_congr txSets, receptions]

theorem promotingJourney (ctx : DecreeContext) (world : World) (heard : String → Pledge → Prop)
    (proposed : String → Prop) (values : List String) :
    Journey (fun d => SoundDecree ctx d ∧ ∀ value ∈ values, d.Lists ctx world value)
      (Promoting ctx world proposed) (CallHalted ctx world heard proposed) where
  refl _ := ⟨.refl, rfl, rfl⟩
  trans _ _ _ early late :=
    ⟨early.1.trans late.1, late.2.1.trans early.2.1, late.2.2.trans early.2.2⟩
  keeps _ _ sound run :=
    ⟨(gatheringJourney ctx world heard proposed).keeps _ _ sound.1 run.1,
      fun value mem => (sound.2 value mem).frame run.2.1 run.2.2⟩
  halt _ := .halt
  resume _ _ _ run halted := .resume run.1.transitions halted

theorem CallRun.of_gathering (run : Gathering ctx world proposed d d') :
    CallRun ctx world heard proposed d d' :=
  ⟨d', run, .refl⟩

theorem CallRun.of_balloting (run : Balloting ctx world heard d d') :
    CallRun ctx world heard proposed d d' :=
  ⟨d, .refl, run⟩

theorem CallRun.after (early : Gathering ctx world proposed d middle)
    (run : CallRun ctx world heard proposed middle d') : CallRun ctx world heard proposed d d' := by
  obtain ⟨turn, gathering, balloting⟩ := run
  exact ⟨turn, early.trans gathering, balloting⟩

theorem CallRun.andThen (run : CallRun ctx world heard proposed d middle)
    (late : Balloting ctx world heard middle d') : CallRun ctx world heard proposed d d' := by
  obtain ⟨turn, gathering, balloting⟩ := run
  exact ⟨turn, gathering, balloting.trans late⟩

theorem CallRun.sound (sound : SoundDecree ctx d) (run : CallRun ctx world heard proposed d d') :
    SoundDecree ctx d' :=
  sound.progress (progress_of_transitions sound run.transitions)

/-- A call of the decree, and one that only takes ballots on. -/
abbrev CallLeads (ctx : DecreeContext) (world : World) (heard : String → Pledge → Prop)
    (proposed : String → Prop) {Value : Type} (program : DecreeM Value) : Prop :=
  Leads (SoundDecree ctx) (CallRun ctx world heard proposed) (CallHalted ctx world heard proposed)
    program

abbrev TurnLeads (ctx : DecreeContext) (world : World) (heard : String → Pledge → Prop)
    (proposed : String → Prop) {Value : Type} (program : DecreeM Value) : Prop :=
  Leads (SoundDecree ctx) (Balloting ctx world heard) (CallHalted ctx world heard proposed) program

theorem leads_balloting {Value : Type} {program : DecreeM Value}
    (leads : BallotLeads ctx world heard program) : TurnLeads ctx world heard proposed program := by
  intro d sound
  refine (leads d sound).mono ?_ ?_
  · exact fun _ _ run => ReflTransGen.mono (fun _ _ transition => .ballot transition) _ _ run
  · rintro _ final ⟨last, path, rest⟩
    refine ⟨last, ReflTransGen.mono ?_ _ _ path, rest⟩
    exact fun _ _ transition => .balloting (.ballot transition)

end Facts

section Nominating

variable {ctx : DecreeContext} {world : World} {heard : String → Pledge → Prop}
  {proposed : String → Prop}

theorem eq_ok_of_isOk {ε : Type} {result : Except ε Unit} (ok : result.isOk = true) :
    result = .ok () := by
  cases result with
  | error err => simp [Except.isOk, Except.toBool] at ok
  | ok _ => rfl

variable {values : List String}

theorem promoteToAccepts_leads (votes : List String) :
    Leads (fun d => SoundDecree ctx d ∧ ∀ value ∈ values, d.Lists ctx world value)
      (Promoting ctx world proposed) (CallHalted ctx world heard proposed)
      (promoteToAccepts ctx world votes) := by
  have journey := promotingJourney ctx world heard proposed values
  induction votes with
  | nil => exact journey.pure false
  | cons vote rest ih =>
    intro d sound
    simp only [promoteToAccepts, holds_bind, holds_get]
    split_ifs
    · exact ih d sound
    · rw [holds_bind]
      cases federatedAccept (d.voting ctx) Nominate.quorumSource (voteFilter vote)
          (acceptFilter vote) d.nominations with
      | error fault => exact journey.halt d
      | ok accepted =>
        rw [holds_lift_ok]
        split_ifs with passed
        · have added : Promoting ctx world proposed d
              ((d.addValue ctx world .votes vote).addValue ctx world .accepts vote) :=
            ⟨.single (.accept vote (eq_ok_of_isOk passed.2)), rfl, rfl⟩
          rw [holds_bind]
          apply journey.extend added
          exact journey.bind ih (fun _ => journey.pure true) _ (journey.keeps _ _ sound added)
        · exact ih d sound

theorem promoteToCandidates_leads (accepts : List String) (within : accepts ⊆ values) :
    Leads (fun d => SoundDecree ctx d ∧ ∀ value ∈ values, d.Lists ctx world value)
      (Promoting ctx world proposed) (CallHalted ctx world heard proposed)
      (promoteToCandidates ctx world accepts) := by
  have journey := promotingJourney ctx world heard proposed values
  induction accepts with
  | nil => exact journey.pure false
  | cons accept rest ih =>
    have ih := ih (List.subset_of_cons_subset within)
    intro d sound
    simp only [promoteToCandidates, holds_bind, holds_get]
    split_ifs
    · exact ih d sound
    · rw [holds_bind]
      rcases ratifies : federatedRatify (d.voting ctx) Nominate.quorumSource
        (acceptFilter accept) d.nominations with fault | _ | _
      · exact journey.halt d
      · exact ih d sound
      · have added : Promoting ctx world proposed d (d.addValue ctx world .candidates accept) :=
          ⟨.single (.candidate accept ratifies
            (sound.2 accept (within (.head _)))), rfl, rfl⟩
        rw [holds_lift_ok, if_pos rfl, holds_bind]
        apply journey.extend added
        exact journey.bind ih (fun _ => journey.pure true) _ (journey.keeps _ _ sound added)

theorem modify_ballots {change : DecreeState → DecreeState}
    (transition : ∀ d, BallotingTransition ctx world heard d (change d)) :
    TurnLeads ctx world heard proposed (modify change : DecreeM Unit) :=
  fun d _ => .single (transition d)

theorem encodeComposite_leads (proposeTime : Int) (txset : TxSet) :
    TurnLeads ctx world heard proposed (encodeComposite ctx world proposeTime txset) := by
  have journey := ballotingJourney ctx world heard proposed
  unfold encodeComposite
  cases ctx.getTxSetKey txset with
  | error err => exact journey.pure _
  | ok newTxSetHash =>
    dsimp only
    cases world.addTxSet newTxSetHash txset with
    | error err => exact journey.pure _
    | ok _ =>
      apply journey.bind (modify_ballots fun d => .txSet newTxSetHash txset)
      intro _
      cases ctx.encodeConsensusValue ⟨newTxSetHash, proposeTime⟩ with
      | error err => exact journey.pure _
      | ok candStr => exact journey.pure _

theorem combineCandidates_leads :
    TurnLeads ctx world heard proposed (combineCandidates ctx world) := by
  have journey := ballotingJourney ctx world heard proposed
  intro d sound
  simp only [combineCandidates, holds_bind, holds_get]
  rcases decodeCandidates ctx "" (world.iterate d.candidates) with fault | err | ⟨hash, vals⟩
  · exact journey.halt d
  · exact journey.refl d
  rw [holds_lift_ok, holds_bind]
  rcases chooseTxSet ctx (d.getTxSet world) world.currLedgerHeaderHash hash vals with
    fault | _ | ⟨txsetHash, txset⟩
  · exact journey.halt d
  · exact journey.refl d
  · exact encodeComposite_leads _ txset d sound

variable {deliver : Statement → DecreeM (Except String Unit)} (fuel : Nat) {currHash : String}

theorem startBallot_leads : TurnLeads ctx world heard proposed (startBallot ctx world fuel) := by
  have journey := ballotingJourney ctx world heard proposed
  apply journey.bind combineCandidates_leads
  rintro (err | compValue)
  · exact journey.pure _
  · apply journey.bind (modify_ballots fun d => .composite compValue)
    intro _
    apply journey.bind (leads_balloting
      (updateBallotPhase_leads (recvBallot_delivers ctx world heard fuel) compValue false))
    exact fun _ => journey.pure _

theorem sendNomination_leads
    (delivers : ∀ stmt, CallLeads ctx world heard proposed (deliver stmt)) :
    CallLeads ctx world heard proposed (sendNomination ctx world deliver) := by
  intro d sound
  simp only [sendNomination, holds_bind, holds_get]
  refine (delivers _ d sound).imp ?_
  rintro (err | _) middle run
  · exact run
  · simp only [holds_bind, holds_get]
    split_ifs
    · exact run.andThen (.single (.announce _))
    · exact run

theorem receiveNomination_leads
    (delivers : ∀ stmt, CallLeads ctx world heard proposed (deliver stmt)) (fuel : Nat)
    (stmt : Statement) :
    CallLeads ctx world heard proposed (receiveNomination ctx world deliver fuel stmt) := by
  have journey := gatheringJourney ctx world heard proposed
  intro d sound
  unfold receiveNomination
  cases stmt.getNominate with
  | none => exact .halt
  | some nom =>
    dsimp only
    split_ifs
    · exact .of_gathering .refl
    have stored : Gathering ctx world proposed d (d.storeNomination ctx world stmt.nodeID nom) :=
      .single (.store stmt.nodeID nom)
    have listed : ∀ value ∈ nom.acceptList,
        (d.storeNomination ctx world stmt.nodeID nom).Lists ctx world value := by
      intro value mem
      cases valid : (validateConsensusValue ctx world d value).isOk with
      | true => exact .inl (eq_ok_of_isOk valid)
      | false =>
        refine .inr ⟨_, List.mem_append_right _ (.head _), List.mem_filter.mpr ⟨mem, ?_⟩⟩
        rw [valid]
        rfl
    simp only [holds_bind, holds_modify, holds_get]
    split_ifs
    · exact .of_gathering stored
    have soundStored := journey.keeps _ _ sound stored
    have promotes := promotingJourney ctx world heard proposed nom.acceptList
    rw [holds_bind]
    refine (promoteToAccepts_leads nom.voteList _ ⟨soundStored, listed⟩).mono ?_
      (fun _ _ halted => .resume stored.transitions halted)
    intro acceptUpdated first accepted
    rw [holds_bind]
    refine (promotes.extend accepted (promoteToCandidates_leads nom.acceptList
      (.refl _) _ (promotes.keeps _ _ ⟨soundStored, listed⟩ accepted))).mono ?_
        (fun _ _ halted => .resume stored.transitions halted)
    rintro candidateUpdated second ⟨promoted, -⟩
    have gathered : Gathering ctx world proposed d second := stored.trans promoted
    have soundSecond := journey.keeps _ _ sound gathered
    have starts : ∀ last, CallRun ctx world heard proposed d last →
        (startBallot ctx world fuel).Holds last (fun _ => CallRun ctx world heard proposed d)
          (fun _ => CallHalted ctx world heard proposed d) := by
      intro last come
      have leads : TurnLeads ctx world heard proposed (startBallot ctx world fuel) :=
        startBallot_leads fuel
      refine (leads last (come.sound sound)).mono ?_ ?_
      · exact fun _ _ run => come.andThen run
      · exact fun _ _ halted => .resume come.transitions halted
    have sends : (sendNomination ctx world deliver).Holds second
        (fun _ => CallRun ctx world heard proposed d)
          (fun _ => CallHalted ctx world heard proposed d) := by
      refine (sendNomination_leads delivers second soundSecond).mono ?_ ?_
      · exact fun _ _ run => .after gathered run
      · exact fun _ _ halted => .resume gathered.transitions halted
    cases acceptUpdated <;> cases candidateUpdated
    · exact .of_gathering gathered
    · exact starts second (.of_gathering gathered)
    · exact (holds_bind _ _).mpr sends
    · exact (holds_bind _ _).mpr (sends.mono (fun _ last come => starts last come)
        (fun _ _ halted => halted))

theorem recvNomination_leads (stmt : Statement) :
    CallLeads ctx world heard proposed (recvNomination ctx world fuel stmt) := by
  induction fuel generalizing stmt with
  | zero => exact fun _ _ => .halt
  | succ fuel ih => exact receiveNomination_leads ih fuel stmt

theorem valid_getConsensusValue {d : DecreeState} {nom : Nominate}
    (chosen : getConsensusValue ctx world d nom ≠ "") :
    validateConsensusValue ctx world d (getConsensusValue ctx world d nom) = .ok () := by
  have kept : ∀ (votes : List String) (best : Nat × String),
      (best.2 ≠ "" → validateConsensusValue ctx world d best.2 = .ok ()) →
        let last := votes.foldl (fun best vote =>
          if (validateConsensusValue ctx world d vote).isOk = false ∨ vote ∈ d.votes then best
          else
            let hashVal := getConsensusValueHash (d.seed ctx) vote
            if hashVal > best.1 then (hashVal, vote) else best) best
        last.2 ≠ "" → validateConsensusValue ctx world d last.2 = .ok () := by
    intro votes
    induction votes with
    | nil => exact fun best holds => holds
    | cons vote rest ih =>
      intro best holds
      apply ih
      dsimp only
      split_ifs with skipped higher
      · exact holds
      · intro _
        push Not at skipped
        exact eq_ok_of_isOk (by simpa using skipped.1)
      · exact holds
  exact kept nom.voteList (0, "") (by simp) chosen

theorem followLeaders_leads (own : proposed currHash) (leaders : List String) :
    Leads (SoundDecree ctx) (Gathering ctx world proposed) (CallHalted ctx world heard proposed)
      (followLeaders ctx world currHash leaders) := by
  have journey := gatheringJourney ctx world heard proposed
  induction leaders with
  | nil => exact journey.pure false
  | cons leader rest ih =>
    intro d sound
    rw [followLeaders, holds_bind, holds_get]
    have voting : ∀ vote, (proposed vote ∨ validateConsensusValue ctx world d vote = .ok ()) →
        (do
          modify fun d => d.addValue ctx world .votes vote
          let _ ← followLeaders ctx world currHash rest
          pure true : DecreeM Bool).Holds d (fun _ => Gathering ctx world proposed d)
            (fun _ => CallHalted ctx world heard proposed d) := by
      intro vote origin
      have added : Gathering ctx world proposed d (d.addValue ctx world .votes vote) :=
        .single (.vote vote origin)
      rw [holds_bind]
      apply journey.extend added
      exact journey.bind ih (fun _ => journey.pure true) _ (journey.keeps _ _ sound added)
    split_ifs with isSelf voted
    · exact ih d sound
    · exact voting currHash (.inl own)
    · cases d.nominations.lookup leader with
      | none => exact ih d sound
      | some nom =>
        dsimp only
        split_ifs with chosen
        · exact voting _ (.inr (valid_getConsensusValue chosen))
        · exact ih d sound

theorem nominate_leads (prevHash : String) (own : proposed currHash) (isRenominate : Bool) :
    CallLeads ctx world heard proposed
      (nominate ctx world fuel prevHash currHash isRenominate) := by
  have journey := gatheringJourney ctx world heard proposed
  intro d sound
  simp only [nominate, holds_bind, holds_get]
  split_ifs
  · exact .of_gathering .refl
  rw [holds_bind, holds_modify]
  have begun : Gathering ctx world proposed d { d with
      nominationStart := true
      nominationRound := d.nominationRound + 1
      prevConsensusValue := prevHash } :=
    .single (.round true (d.nominationRound + 1) d.renomCount prevHash)
  generalize ({ d with
      nominationStart := true
      nominationRound := d.nominationRound + 1
      prevConsensusValue := prevHash } : DecreeState) = first at begun ⊢
  have led := begun.tail (.leaders (first.nominationLeaders ∪
    roundLeaders (first.seed ctx) ctx.nodeID world.arrange first.quorum))
  simp only [updateRoundLeaders, holds_bind, holds_modify, holds_get]
  refine (journey.extend led (followLeaders_leads own _ _ (journey.keeps _ _ sound led))).mono ?_
    (fun _ _ halted => halted)
  intro updated middle followed
  have counted : Gathering ctx world proposed d
      (if middle.nominationStart = false ∨ middle.renomCount > maxRenomCount then middle
        else { middle with renomCount := middle.renomCount + 1 }) := by
    split_ifs
    · exact followed
    · exact followed.tail (.round middle.nominationStart middle.nominationRound _
        middle.prevConsensusValue)
  cases updated with
  | false => exact .of_gathering counted
  | true =>
    have sends : CallLeads ctx world heard proposed
        (sendNomination ctx world (recvNomination ctx world fuel)) :=
      sendNomination_leads (recvNomination_leads fuel)
    refine (holds_bind _ _).mpr ((sends _ (journey.keeps _ _ sound counted)).mono ?_ ?_)
    · rintro (err | _) final run
      · exact .after counted run
      · exact .after counted run
    · exact fun _ _ halted => .resume counted.transitions halted

end Nominating

def Turn.Hears (heard : String → Pledge → Prop) (turn : Turn) : Prop :=
  ∀ stmt, turn.call = .recv (some stmt) →
    ∀ pledge, stmt = pledge.statement stmt.nodeID stmt.index → heard stmt.nodeID pledge

def Turn.proposes (turn : Turn) (value : String) : Prop :=
  ∃ prevHash isRenominate, turn.call = .nominate prevHash value isRenominate

section Calls

variable {ctx : DecreeContext} {heard : String → Pledge → Prop}

theorem recv_leads {world : World} {proposed : String → Prop} (fuel : Nat)
    (stmt : Option Statement)
    (hears : ∀ given, stmt = some given → ∀ pledge,
      given = pledge.statement given.nodeID given.index → heard given.nodeID pledge) :
    CallLeads ctx world heard proposed (recv ctx world fuel stmt) := by
  intro d sound
  cases stmt with
  | none => exact .of_gathering .refl
  | some stmt =>
    have delivered : (recvBallot ctx world fuel stmt false).Holds d
        (fun _ => CallRun ctx world heard proposed d)
          (fun _ => CallHalted ctx world heard proposed d) := by
      have leads : TurnLeads ctx world heard proposed (recvBallot ctx world fuel stmt false) :=
        leads_balloting (recvBallot_leads fuel (hears stmt rfl))
      exact (leads d sound).mono (fun _ _ run => .of_balloting run) (fun _ _ halted => halted)
    have received : ∀ next : Except String Unit → DecreeM (Except String Unit),
        (∀ result, ∃ answer, next result = pure answer) →
          (recvBallot ctx world fuel stmt false >>= next).Holds d
            (fun _ => CallRun ctx world heard proposed d)
              (fun _ => CallHalted ctx world heard proposed d) := by
      intro next answers
      refine (holds_bind _ _).mpr (delivered.imp ?_)
      intro result final run
      obtain ⟨answer, same⟩ := answers result
      rw [same]
      exact run
    simp only [recv]
    cases stmt.statementType with
    | nominate =>
      refine (holds_bind _ _).mpr ((recvNomination_leads fuel stmt d sound).mono ?_
        (fun _ _ halted => halted))
      rintro (err | _) final run
      · exact run
      · exact run
    | other => exact .of_gathering .refl
    | _ =>
      apply received
      rintro (err | _) <;> exact ⟨_, rfl⟩

theorem runTurn_calls {turn : Turn} (hears : turn.Hears heard) :
    CallLeads ctx turn.world heard turn.proposes (runTurn ctx turn) := by
  intro d sound
  unfold runTurn
  cases called : turn.call with
  | nominate prevHash currHash isRenominate =>
    have own : turn.proposes currHash := ⟨prevHash, isRenominate, called⟩
    exact (holds_bind _ _).mpr (nominate_leads turn.fuel prevHash own isRenominate d sound)
  | stopNomination =>
    exact .of_balloting (.single (.ballot .stopNomination))
  | recv stmt =>
    refine (holds_bind _ _).mpr (recv_leads turn.fuel stmt ?_ d sound)
    rintro given rfl
    exact hears given called

theorem runTurn_leads {turn : Turn} (hears : turn.Hears heard) :
    Leads (SoundDecree ctx) (Progress ctx heard) (Stopped ctx heard) (runTurn ctx turn) := by
  intro d sound
  refine (runTurn_calls hears d sound).mono ?_ ?_
  · exact fun _ _ run => progress_of_transitions sound run.transitions
  · rintro _ final ⟨last, path, same, -⟩
    exact ⟨last, progress_of_transitions sound path, same⟩

theorem runTurns_leads {turns : List Turn} (hears : ∀ turn ∈ turns, turn.Hears heard) :
    Leads (SoundDecree ctx) (Progress ctx heard) (Stopped ctx heard) (runTurns ctx turns) := by
  have journey := decreeJourney ctx heard
  induction turns with
  | nil => exact journey.pure ()
  | cons turn rest ih =>
    apply journey.bind (runTurn_leads (hears turn (.head _)))
    exact fun _ => ih fun later laterMem => hears later (.tail turn laterMem)

end Calls

theorem soundDecree_newDecree (ctx : DecreeContext) : SoundDecree ctx (newDecree ctx) where
  inOrder moved := absurd rfl moved
  externalized sent := absurd rfl sent

theorem progress_of_runTurns {ctx : DecreeContext} {turns : List Turn} {d d' : DecreeState}
    (sound : SoundDecree ctx d) (ended : runTurns ctx turns d = .done () d') :
    Progress ctx (fun _ _ => True) d d' :=
  (holds_of_done ended).mp (runTurns_leads (fun _ _ _ _ _ _ => trivial) d sound)

theorem SoundDecree.lockedOn {ctx : DecreeContext} {d : DecreeState} {value : String}
    (sound : SoundDecree ctx d) (locked : d.ballot.lock = some value) :
    d.ballot.LockedOn value := by
  have moved : d.ballot.currentPhase ≠ .prepare := by
    intro waiting
    simp [lock_prepare waiting] at locked
  obtain ⟨other, lock, holds⟩ := (sound.inOrder moved).locked moved
  cases lock.symm.trans locked
  exact holds

/-- Value lock and single externalization, for a state `d` that some calls lead
to and a state `d'` that further calls lead to. -/
theorem runTurns_locked (ctx : DecreeContext) {first second : List Turn} {d d' : DecreeState}
    (early : runTurns ctx first (newDecree ctx) = .done () d)
    (late : runTurns ctx second d = .done () d') :
    d.ballot.currentPhase.rank ≤ d'.ballot.currentPhase.rank ∧
      (d.ballot.currentPhase ≠ .prepare →
        ∃ value, d.ballot.LockedOn value ∧ d'.ballot.LockedOn value) ∧
      d.externalizeChan.length ≤ 1 ∧
      (∀ sent ∈ d.externalizeChan, sent.index = ctx.index ∧ d.ballot.LockedOn sent.value) ∧
      (d.externalizeChan ≠ [] → d'.externalizeChan = d.externalizeChan ∧
        d'.ballot.currentBallot = d.ballot.currentBallot ∧
        d'.ballot.hBallot = d.ballot.hBallot ∧ d'.ballot.cBallot = d.ballot.cBallot) := by
  have sound := (soundDecree_newDecree ctx).progress
    (progress_of_runTurns (soundDecree_newDecree ctx) early)
  have run := progress_of_runTurns sound late
  refine ⟨run.forward, ?_, ?_, ?_, ?_⟩
  · intro moved
    obtain ⟨value, locked, holds⟩ := (sound.inOrder moved).locked moved
    exact ⟨value, holds, (sound.progress run).lockedOn (run.lock locked)⟩
  · by_cases sent : d.externalizeChan = []
    · simp [sent]
    · obtain ⟨-, value, -, single⟩ := sound.externalized sent
      simp [single]
  · intro sent sentMem
    obtain ⟨-, value, locked, single⟩ := sound.externalized (List.ne_nil_of_mem sentMem)
    rw [single, List.mem_singleton] at sentMem
    subst sentMem
    exact ⟨rfl, sound.lockedOn locked⟩
  · intro sent
    have frozen := run.frozen (sound.externalized sent).1
    exact ⟨run.externalizeChan sent, by rw [frozen], by rw [frozen], by rw [frozen]⟩

private def halfQuorum : Quorum := .mk (1 / 2) ["a", "b"] []

private def halfContext : DecreeContext :=
  .plain 7 "n" halfQuorum (fun _ => some halfQuorum) (fun _ => 0)

private def confirmTurn (nodeID : String) : Turn where
  call := .recv (some ((Pledge.confirm ⟨1, "v"⟩ 1 1 1 nodeID).statement nodeID 7))
  world := .plain
  fuel := 12

private def confirmed : DecreeState :=
  (runTurns halfContext [confirmTurn "a"] (newDecree halfContext)).state

private def confirmedTwice : DecreeState :=
  (runTurns halfContext [confirmTurn "b"] confirmed).state

/-- One confirm statement takes the decree to the externalize phase, and a
second one changes nothing there. -/
theorem runTurns_locked_after_confirm :
    confirmed.externalizeChan = [⟨7, "v"⟩] ∧ confirmedTwice.externalizeChan = [⟨7, "v"⟩] ∧
      ∃ value, confirmed.ballot.LockedOn value ∧ confirmedTwice.ballot.LockedOn value := by
  have sent : confirmed.externalizeChan = [⟨7, "v"⟩] := by decide +kernel
  have early : runTurns halfContext [confirmTurn "a"] (newDecree halfContext) =
      .done () confirmed := Outcome.eq_done (by decide +kernel)
  have late : runTurns halfContext [confirmTurn "b"] confirmed = .done () confirmedTwice :=
    Outcome.eq_done (by decide +kernel)
  obtain ⟨-, locked, -, -, frozen⟩ := runTurns_locked halfContext early late
  exact ⟨sent, (frozen (by simp [sent])).1.trans sent, locked (by decide +kernel)⟩

end Ultiledger
