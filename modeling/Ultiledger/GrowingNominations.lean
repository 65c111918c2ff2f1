import Ultiledger.BallotHistory

/-! # Nominations that are received and stored -/

namespace Ultiledger

open AbortingProgram Program Relation

section Comparison

/-- The elements of a list are among those of another list, which has more of them. -/
def ProperlyWithin (a b : List String) : Prop := a ⊆ b ∧ ¬ b ⊆ a

/-- Every value that is voted for or accepted is so in the other nomination. -/
def Nominate.Within (anom bnom : Nominate) : Prop :=
  anom.voteList ⊆ bnom.voteList ∧ anom.acceptList ⊆ bnom.acceptList

def Nominate.GrowsInto (anom bnom : Nominate) : Prop :=
  anom.Within bnom ∧ (ProperlyWithin anom.voteList bnom.voteList ∨
    ProperlyWithin anom.acceptList bnom.acceptList)

def GrowsVisibly (a b : List String) : Prop := a.length ≤ b.length ∧ ProperlyWithin a b

instance (a b : List String) : Decidable (ProperlyWithin a b) :=
  inferInstanceAs (Decidable (_ ∧ _))

instance (anom bnom : Nominate) : Decidable (anom.Within bnom) :=
  inferInstanceAs (Decidable (_ ∧ _))

instance (anom bnom : Nominate) : Decidable (anom.GrowsInto bnom) :=
  inferInstanceAs (Decidable (_ ∧ _))

theorem isProperSubset_iff {a b : List String} : isProperSubset a b = true ↔ GrowsVisibly a b := by
  unfold isProperSubset GrowsVisibly ProperlyWithin
  split_ifs with shorter
  · simp [not_le.mpr shorter]
  · rw [decide_eq_true_iff, Finset.ssubset_def, and_iff_right (not_lt.mp shorter)]
    simp only [Finset.subset_iff, List.mem_toFinset, List.subset_def]

theorem isNewerNomination_iff {anom bnom : Nominate} :
    isNewerNomination (some anom) bnom = true ↔
      GrowsVisibly anom.voteList bnom.voteList ∨ GrowsVisibly anom.acceptList bnom.acceptList := by
  rw [isNewerNomination, Bool.or_eq_true, isProperSubset_iff, isProperSubset_iff]

theorem growsVisibly_iff {a b : List String} (distinct : a.Nodup) :
    GrowsVisibly a b ↔ ProperlyWithin a b :=
  and_iff_right_of_imp fun grows => (List.subperm_of_subset distinct grows.1).length_le

theorem isNewerNomination_agrees_iff {anom bnom : Nominate} (votes : anom.voteList.Nodup)
    (accepts : anom.acceptList.Nodup) :
    (isNewerNomination (some anom) bnom = true ↔ anom.GrowsInto bnom) ↔
      anom.Within bnom ∨ ¬ ProperlyWithin anom.voteList bnom.voteList ∧
        ¬ ProperlyWithin anom.acceptList bnom.acceptList := by
  rw [isNewerNomination_iff, growsVisibly_iff votes, growsVisibly_iff accepts, Nominate.GrowsInto]
  tauto

end Comparison

def NominationsKept (stored stored' : StatementMap Nominate) : Prop :=
  ∀ nodeID known, stored.lookup nodeID = some known →
    ∃ later, stored'.lookup nodeID = some later ∧ known.Within later

/-- A nomination in which a list of the stored one has grown contains the stored one. -/
def Reception.Extends (reception : Reception) (stored : StatementMap Nominate) : Prop :=
  ∀ known, stored.lookup reception.nodeID = some known →
    GrowsVisibly known.voteList reception.nom.voteList ∨
      GrowsVisibly known.acceptList reception.nom.acceptList → known.Within reception.nom

/-- The nominations that are stored after all of the receptions. -/
def storedBy (receptions : List Reception) : StatementMap Nominate :=
  receptions.foldl (fun stored reception => storedAfter stored reception.nodeID reception.nom) ∅

section Kept

theorem Nominate.Within.refl (nom : Nominate) : nom.Within nom :=
  ⟨.refl _, .refl _⟩

theorem Nominate.Within.trans {first second third : Nominate} (early : first.Within second)
    (late : second.Within third) : first.Within third :=
  ⟨List.Subset.trans early.1 late.1, List.Subset.trans early.2 late.2⟩

theorem NominationsKept.refl (stored : StatementMap Nominate) : NominationsKept stored stored :=
  fun _ known found => ⟨known, found, .refl known⟩

theorem NominationsKept.trans {first second third : StatementMap Nominate}
    (early : NominationsKept first second) (late : NominationsKept second third) :
    NominationsKept first third := by
  intro nodeID known found
  obtain ⟨between, foundBetween, within⟩ := early nodeID known found
  obtain ⟨later, foundLater, withinLater⟩ := late nodeID between foundBetween
  exact ⟨later, foundLater, within.trans withinLater⟩

variable {nodeID : String}

theorem nominationsKept_insert_iff {stored : StatementMap Nominate}
    {known nom : Nominate} (found : stored.lookup nodeID = some known) :
    NominationsKept stored (stored.insert nodeID nom) ↔ known.Within nom := by
  constructor
  · intro kept
    obtain ⟨later, foundLater, within⟩ := kept nodeID known found
    rw [AList.lookup_insert, Option.some.injEq] at foundLater
    rwa [foundLater]
  · intro within other otherKnown foundOther
    by_cases same : other = nodeID
    · subst same
      cases found.symm.trans foundOther
      exact ⟨nom, AList.lookup_insert _, within⟩
    · exact ⟨otherKnown, by rw [AList.lookup_insert_ne same, foundOther], .refl _⟩

theorem nominationsKept_insert_new {stored : StatementMap Nominate}
    (unknown : stored.lookup nodeID = none) (nom : Nominate) :
    NominationsKept stored (stored.insert nodeID nom) := by
  intro other known found
  have different : other ≠ nodeID := by
    rintro rfl
    rw [unknown] at found
    cases found
  exact ⟨known, by rw [AList.lookup_insert_ne different, found], .refl _⟩

theorem Reception.kept_iff (reception : Reception) (stored : StatementMap Nominate) :
    NominationsKept stored (storedAfter stored reception.nodeID reception.nom) ↔
      reception.Extends stored := by
  unfold storedAfter Reception.Extends
  cases found : stored.lookup reception.nodeID with
  | none => exact iff_of_true (nominationsKept_insert_new found _) (by simp)
  | some known =>
    simp only [Option.some.injEq, forall_eq', ← isNewerNomination_iff]
    split_ifs with newer
    · rw [nominationsKept_insert_iff found]
      simp [newer]
    · exact iff_of_true (.refl _) fun isNewer => absurd isNewer newer

theorem storedBy_append (receptions : List Reception) (reception : Reception) :
    storedBy (receptions ++ [reception]) =
      storedAfter (storedBy receptions) reception.nodeID reception.nom := by
  rw [storedBy, List.foldl_append]
  rfl

/-- No reception loses what is stored exactly if every reception extends what it finds. -/
theorem storedBy_kept_iff (receptions : List Reception) :
    (∀ early late, early <+: late → late <+: receptions →
        NominationsKept (storedBy early) (storedBy late)) ↔
      ∀ early reception, early ++ [reception] <+: receptions →
        reception.Extends (storedBy early) := by
  constructor
  · intro kept early reception made
    have step := kept early (early ++ [reception]) (List.prefix_append _ _) made
    rw [storedBy_append] at step
    exact (reception.kept_iff _).mp step
  · rintro extended early _ ⟨between, rfl⟩ made
    induction between using List.reverseRecOn with
    | nil =>
      rw [List.append_nil]
      exact .refl _
    | append_singleton between reception ih =>
      rw [← List.append_assoc] at made ⊢
      rw [storedBy_append]
      exact (ih ((List.prefix_append _ _).trans made)).trans
        ((reception.kept_iff _).mpr (extended _ reception made))

theorem exists_reception {receptions : List Reception} {known : Nominate}
    (found : (storedBy receptions).lookup nodeID = some known) :
    ∃ reception ∈ receptions, reception.nodeID = nodeID ∧ reception.nom = known := by
  induction receptions using List.reverseRecOn with
  | nil => simp [storedBy] at found
  | append_singleton early reception ih =>
    have earlier : (storedBy early).lookup nodeID = some known →
        ∃ reception' ∈ early ++ [reception], reception'.nodeID = nodeID ∧ reception'.nom = known := by
      intro old
      obtain ⟨first, firstMem, facts⟩ := ih old
      exact ⟨first, List.mem_append_left _ firstMem, facts⟩
    have inserted : ((storedBy early).insert reception.nodeID reception.nom).lookup nodeID =
        some known →
        ∃ reception' ∈ early ++ [reception], reception'.nodeID = nodeID ∧ reception'.nom = known := by
      intro new
      by_cases same : nodeID = reception.nodeID
      · subst same
        rw [AList.lookup_insert, Option.some.injEq] at new
        exact ⟨reception, List.mem_append_right _ (.head _), rfl, new⟩
      · rw [AList.lookup_insert_ne same] at new
        exact earlier new
    rw [storedBy_append, storedAfter] at found
    split at found
    · exact inserted found
    · split_ifs at found
      · exact inserted found
      · exact earlier found

/-- Nominations that contain those received from the node before extend what is stored. -/
theorem extends_of_growing {receptions : List Reception}
    (growing : receptions.Pairwise fun early late =>
      early.nodeID = late.nodeID → early.nom.Within late.nom)
    (early : List Reception) (reception : Reception) (made : early ++ [reception] <+: receptions) :
    reception.Extends (storedBy early) := by
  intro known found _
  obtain ⟨first, firstMem, sender, rfl⟩ := exists_reception found
  have ordered := (List.pairwise_append.mp (growing.sublist made.sublist)).2.2
  exact ordered first firstMem reception (.head _) sender

end Kept

section Runs

variable {ctx : DecreeContext} {d d' : DecreeState}

theorem DecreeTransition.receives {world : World} {heard : String → Pledge → Prop}
    {proposed : String → Prop} (transition : DecreeTransition ctx world heard proposed d d') :
    d'.nominations = d.nominations ∧ d'.receptions = d.receptions ∨
      ∃ reception, d'.nominations = storedAfter d.nominations reception.nodeID reception.nom ∧
        d'.receptions = d.receptions ++ [reception] := by
  cases transition with
  | balloting transition =>
    exact .inl ⟨transition.sameNominations.nominations, transition.sameNominations.receptions⟩
  | nomination transition =>
    cases transition with
    | store nodeID nom => exact .inr ⟨_, rfl, rfl⟩
    | _ => exact .inl ⟨rfl, rfl⟩

theorem DecreeRun.receptions_prefix (run : DecreeRun ctx d d') :
    d.receptions <+: d'.receptions := by
  induction run with
  | refl => exact List.prefix_rfl
  | tail _ transition ih =>
    obtain ⟨world, proposed, step⟩ := transition
    rcases step.receives with ⟨-, same⟩ | ⟨reception, -, grown⟩
    · rwa [same]
    · rw [grown]
      exact ih.trans (List.prefix_append _ _)

theorem DecreeRun.nominations_eq (run : DecreeRun ctx d d')
    (start : d.nominations = storedBy d.receptions) : d'.nominations = storedBy d'.receptions := by
  induction run with
  | refl => exact start
  | tail _ transition ih =>
    obtain ⟨world, proposed, step⟩ := transition
    rcases step.receives with ⟨nominations, receptions⟩ | ⟨reception, nominations, receptions⟩
    · rw [nominations, receptions, ih]
    · rw [nominations, receptions, storedBy_append, ih]

end Runs

/-- `isNewerNomination` holds exactly if a list has grown and is not shorter, which is the
growth of both sets exactly where the lists grow together.  What is stored follows from
the nominations that were received, and never loses an element exactly if every nomination
extends the stored one; it does so if each node's nominations grow. -/
theorem stored_nominations_grow_iff (ctx : DecreeContext) :
    (∀ anom bnom, isNewerNomination (some anom) bnom = true ↔
        GrowsVisibly anom.voteList bnom.voteList ∨ GrowsVisibly anom.acceptList bnom.acceptList) ∧
      (∀ anom bnom : Nominate, anom.voteList.Nodup → anom.acceptList.Nodup →
        ((isNewerNomination (some anom) bnom = true ↔ anom.GrowsInto bnom) ↔
          anom.Within bnom ∨ ¬ ProperlyWithin anom.voteList bnom.voteList ∧
            ¬ ProperlyWithin anom.acceptList bnom.acceptList)) ∧
      ∀ early late d d', runTurns ctx early (newDecree ctx) = .done () d →
        runTurns ctx late d = .done () d' →
          d.receptions <+: d'.receptions ∧ d.nominations = storedBy d.receptions ∧
          d'.nominations = storedBy d'.receptions ∧
          ((∀ first second, first <+: second → second <+: d'.receptions →
              NominationsKept (storedBy first) (storedBy second)) ↔
            ∀ first reception, first ++ [reception] <+: d'.receptions →
              reception.Extends (storedBy first)) ∧
          ((d'.receptions.Pairwise fun first second =>
              first.nodeID = second.nodeID → first.nom.Within second.nom) →
            NominationsKept d.nominations d'.nominations) := by
  refine ⟨fun _ _ => isNewerNomination_iff, fun _ _ => isNewerNomination_agrees_iff, ?_⟩
  intro early late d d' reached ended
  have run : DecreeRun ctx (newDecree ctx) d := decreeRun_of_reached reached
  have further : DecreeRun ctx d d' :=
    (turnsRun_of_ended (run.sound (soundDecree_newDecree ctx)) ended).decreeRun
  have stored := run.nominations_eq rfl
  have storedLater := further.nominations_eq stored
  refine ⟨further.receptions_prefix, stored, storedLater, storedBy_kept_iff _, ?_⟩
  intro growing
  rw [stored, storedLater]
  exact (storedBy_kept_iff _).mpr (extends_of_growing growing) _ _ further.receptions_prefix
    List.prefix_rfl

private def listenerContext : DecreeContext :=
  .plain 7 "n" (.mk 1 ["b"] []) (fun _ => none) (fun _ => 0)

private def nominateTurn (nom : Nominate) : Turn where
  call := .recv (some ⟨.nominate, "b", 7, some (.nominate nom)⟩)
  world := .plain
  fuel := 2

private def afterAccept : DecreeState :=
  (runTurns listenerContext [nominateTurn ⟨["x"], ["y"], "b"⟩] (newDecree listenerContext)).state

private def afterVote : DecreeState :=
  (runTurns listenerContext [nominateTurn ⟨["x", "z"], [], "b"⟩] afterAccept).state

/-- A second vote of b makes its accept forgotten, and a vote in the place of a repeated
one is not seen. -/
theorem stored_nominations_lose_accept :
    runTurns listenerContext [nominateTurn ⟨["x"], ["y"], "b"⟩] (newDecree listenerContext) =
        .done () afterAccept ∧
      runTurns listenerContext [nominateTurn ⟨["x", "z"], [], "b"⟩] afterAccept =
        .done () afterVote ∧
      ¬ NominationsKept afterAccept.nominations afterVote.nominations ∧
      isNewerNomination (some ⟨["x", "x", "x"], [], "b"⟩) ⟨["x", "z"], [], "b"⟩ = false ∧
      Nominate.GrowsInto ⟨["x", "x", "x"], [], "b"⟩ ⟨["x", "z"], [], "b"⟩ := by
  refine ⟨Outcome.eq_done (by decide +kernel), Outcome.eq_done (by decide +kernel), ?_,
    by decide⟩
  intro kept
  have before : afterAccept.nominations.lookup "b" = some ⟨["x"], ["y"], "b"⟩ := by decide +kernel
  have after : afterVote.nominations.lookup "b" = some ⟨["x", "z"], [], "b"⟩ := by decide +kernel
  obtain ⟨later, found, -, accepts⟩ := kept "b" _ before
  cases after.symm.trans found
  exact absurd (accepts (.head _)) List.not_mem_nil

end Ultiledger
