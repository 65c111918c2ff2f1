import Ultiledger.AbortingProgram

/-!
# Buffered writes

A session reads the store as its own pending writes have changed it; a commit applies
them, a rollback drops them, and an aborted program leaves them pending.

`Performs` compares such a program with a function that returns a whole new store or
fails.
-/

namespace BufferedWrites

open AbortingProgram

/-- A store and the writes that wait for a commit, in order. -/
structure Session (Store Write : Type) where
  stored : Store
  pending : List Write

variable {Store Write Fault Value : Type}

def Session.opened (store : Store) : Session Store Write := ⟨store, []⟩

variable (play : Write → Store → Store)

def Session.view (session : Session Store Write) : Store :=
  session.pending.foldl (fun store write => play write store) session.stored

def Session.commit (session : Session Store Write) : Store := session.view play

def Session.rollback (session : Session Store Write) : Store := session.stored

abbrev SessionProgram (Store Write Fault Value : Type) :=
  Program (Session Store Write) Fault Value

def readView : SessionProgram Store Write Fault Store :=
  fun session => .done (session.view play) session

def write (change : Write) : SessionProgram Store Write Fault Unit :=
  Program.modify fun session => { session with pending := session.pending ++ [change] }

@[simp]
theorem view_opened (store : Store) :
    (Session.opened store : Session Store Write).view play = store :=
  rfl

@[simp]
theorem view_write (session : Session Store Write) (change : Write) :
    Session.view play { session with pending := session.pending ++ [change] } =
      play change (session.view play) := by
  simp [Session.view]

/-- Within the session the program does to the view what the result says, and it
leaves the store as it was. -/
def Performs (program : SessionProgram Store Write Fault Unit) (session : Session Store Write)
    (result : Except Fault Store) : Prop :=
  program.Holds session
    (fun _ final => final.stored = session.stored ∧ result = .ok (final.view play))
    (fun fault final => final.stored = session.stored ∧ result = .error fault)

namespace Performs

variable {play} {session : Session Store Write}

theorem pure : Performs play (Pure.pure () : SessionProgram Store Write Fault Unit) session
    (.ok (session.view play)) :=
  ⟨rfl, rfl⟩

theorem abort (fault : Fault) : Performs play (Program.abort fault) session (.error fault) :=
  ⟨rfl, rfl⟩

theorem write (change : Write) :
    Performs play (BufferedWrites.write change : SessionProgram Store Write Fault Unit) session
      (.ok (play change (session.view play))) :=
  ⟨rfl, congrArg Except.ok (view_write play session change).symm⟩

theorem lift {computed : Except Fault Value} {next : Value → SessionProgram Store Write Fault Unit}
    {rest : Value → Except Fault Store}
    (performs : ∀ value, computed = .ok value → Performs play (next value) session (rest value)) :
    Performs play (Program.lift computed >>= next) session (computed >>= rest) := by
  cases computed with
  | ok value => exact performs value rfl
  | error fault => exact .abort fault

variable {program next : SessionProgram Store Write Fault Unit} {result : Except Fault Store}

theorem mapFault {Report : Type} (report : Fault → Report)
    (performs : Performs play program session result) :
    Performs play (program.mapFault report) session (result.mapError report) := by
  unfold Performs at performs ⊢
  rw [Program.holds_mapFault]
  refine performs.mono ?_ ?_
  · rintro _ final ⟨kept, rfl⟩
    exact ⟨kept, rfl⟩
  · rintro fault final ⟨kept, rfl⟩
    exact ⟨kept, rfl⟩

theorem andThen {first : SessionProgram Store Write Fault Unit} {rest : Store → Except Fault Store}
    (performs : Performs play first session result)
    (follows : ∀ later : Session Store Write, Performs play next later (rest (later.view play))) :
    Performs play (first >>= fun _ => next) session (result >>= rest) := by
  unfold Performs at performs ⊢
  rw [Program.holds_bind]
  refine performs.mono ?_ ?_
  · rintro value middle ⟨kept, rfl⟩
    refine (follows middle).mono ?_ ?_
    · rintro _ final ⟨stillKept, shown⟩
      exact ⟨stillKept.trans kept, shown⟩
    · rintro fault final ⟨stillKept, failed⟩
      exact ⟨stillKept.trans kept, failed⟩
  · rintro fault final ⟨kept, rfl⟩
    exact ⟨kept, rfl⟩

theorem afterWrite {change : Write} (follows : ∀ later : Session Store Write,
      later.view play = play change (session.view play) → Performs play next later result) :
    Performs play (BufferedWrites.write change >>= fun _ => next) session result :=
  follows { session with pending := session.pending ++ [change] }
    (view_write play session change)

theorem exists_done {store : Store} (performs : Performs play program session (.ok store)) :
    ∃ final, program session = .done () final ∧ final.commit play = store := by
  have ends : program.Holds session (fun _ final => final.commit play = store)
      (fun _ _ => False) := by
    refine Program.Holds.mono performs ?_ ?_
    · rintro _ final ⟨-, shown⟩
      exact (Except.ok.inj shown).symm
    · rintro fault final ⟨-, failed⟩
      exact absurd failed (by simp)
  obtain ⟨value, final, ended, shown⟩ := ends.exists_done
  exact ⟨final, ended, shown⟩

/-- A program that performs a failure aborts, and a rollback finds the store
untouched. -/
theorem exists_abort {fault : Fault} (performs : Performs play program session (.error fault)) :
    ∃ final, program session = .abort fault final ∧ final.rollback = session.stored := by
  unfold Performs Program.Holds at performs
  cases ended : program session with
  | done value final =>
    rw [ended] at performs
    exact absurd performs.2 (by simp)
  | abort other final =>
    rw [ended] at performs
    obtain ⟨kept, failed⟩ := performs
    cases failed
    exact ⟨final, rfl, kept⟩

end Performs

end BufferedWrites
