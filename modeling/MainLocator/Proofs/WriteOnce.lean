import MainLocator.Proofs.RecognitionStep

/-!
# A program is resolved once

`Recognizer.LawfulStep` says what one look at a procedure may change and when, over the ledger, the
program and all other programs. From it follows what whole runs do, in which recognizers of any
settings take turns at programs that share a ledger: the resolution of a program changes at most
once.
-/

namespace MainLocator

/-! ## One program's share of the ledger -/

namespace Ledger

/-- The ledgers hold the same of every program but one. -/
def AgreesOutside (id : ProgramId) (left right : Ledger) : Prop :=
  ∀ other, other ≠ id →
    left.get other = right.get other ∧ left.isPrimed other = right.isPrimed other

theorem AgreesOutside.refl (id : ProgramId) (ledger : Ledger) :
    AgreesOutside id ledger ledger := by
  intro other _
  exact ⟨rfl, rfl⟩

theorem AgreesOutside.trans
    {id : ProgramId} {first second third : Ledger}
    (left : AgreesOutside id first second) (right : AgreesOutside id second third) :
    AgreesOutside id first third := by
  intro other different
  obtain ⟨leftGet, leftPrimed⟩ := left other different
  obtain ⟨rightGet, rightPrimed⟩ := right other different
  exact ⟨leftGet.trans rightGet, leftPrimed.trans rightPrimed⟩

theorem agreesOutside_resolve (ledger : Ledger) (id : ProgramId) (resolution : Resolution) :
    AgreesOutside id (ledger.resolve id resolution).2 ledger := by
  intro other different
  exact ⟨get_resolve_of_ne ledger id other resolution different,
    isPrimed_resolve_of_ne ledger id other resolution different⟩

theorem agreesOutside_prime (ledger : Ledger) (id : ProgramId) :
    AgreesOutside id (ledger.prime id).2 ledger := by
  intro other different
  exact ⟨get_prime ledger id other, isPrimed_prime_of_ne ledger id other different⟩

end Ledger

namespace Recognizer

/-! ## Resolutions after each exit -/

section Resolutions

variable {workspace : Workspace}

theorem isResolved_eq_isFinal (workspace : Workspace) :
    workspace.isResolved = workspace.resolution.isFinal :=
  rfl

variable (unresolved : workspace.isResolved = false)

include unresolved

theorem resolution_eq_unresolved :
    workspace.resolution = .unresolved :=
  (Ledger.isResolved_eq_false_iff workspace.ledger workspace.program.id).mp unresolved

theorem resolution_resolve (resolution : Resolution) :
    (workspace.resolve resolution).resolution = resolution :=
  Ledger.get_resolve_self workspace.ledger workspace.program.id resolution unresolved

theorem resolution_resolve_primed (resolution : Resolution) :
    ({ workspace with ledger := primedLedger workspace }.resolve resolution).resolution =
      resolution := by
  apply resolution_resolve
  rw [isResolved_primedLedger workspace workspace.program rfl]
  exact unresolved

theorem resolution_resolveFound (recognizer : Recognizer) (address : Word) :
    (recognizer.resolveFound workspace address).resolution = .found address := by
  have written := resolution_resolve unresolved (.found address)
  rw [resolveFound_of_unresolved recognizer address unresolved]
  cases recognizer.settings.definesMain with
  | true => exact written
  | false => exact written

end Resolutions

/-! ## One step -/

/-- What a look at a procedure does to a workspace. Main is found by a verdict on a procedure that
is not the entry, and given up at the entry. Beyond its own resolution and priming, its requests and
inferred symbols, a program changes nothing. -/
structure LawfulStep
    (recognizer : Recognizer) (before : Workspace) (procedure : Procedure)
    (answer : Bool) (after : Workspace) : Prop where
  declines : procedure.platform ≠ recognizer.platform → answer = false ∧ after = before
  answers : procedure.platform = recognizer.platform → (answer = true ↔ after.isResolved = true)
  keepsResolved : before.isResolved = true → after = before
  findsByVerdict :
    ∀ address, after.resolution = .found address → before.resolution ≠ .found address →
      before.resolution = .unresolved ∧
        ∃ entry methods,
          before.program.entryProcedure? = some entry ∧ procedure.start ≠ entry.start ∧
            recognizer.panel.verdict recognizer.settings before.program procedure =
              .found address methods
  givesUpAtEntry :
    ∀ reason, after.resolution = .notFound reason → before.resolution ≠ .notFound reason →
      before.resolution = .unresolved ∧
        ∃ entry,
          before.program.entryProcedure? = some entry ∧ procedure.start = entry.start
  keepsElsewhere :
    answer = false →
      (∀ entry, before.program.entryProcedure? = some entry → procedure.start ≠ entry.start) →
        after = before
  othersKept : Ledger.AgreesOutside before.program.id after.ledger before.ledger
  programKept :
    after.program =
      { before.program with
        inferredSymbols := after.program.inferredSymbols
        requests := after.program.requests }

namespace LawfulStep

variable {recognizer : Recognizer} {before after : Workspace} {procedure entry : Procedure}
  {answer : Bool}

theorem of_unchanged
    (declines : procedure.platform ≠ recognizer.platform → answer = false)
    (answers :
      procedure.platform = recognizer.platform → (answer = true ↔ before.isResolved = true)) :
    LawfulStep recognizer before procedure answer before where
  declines := fun otherPlatform => ⟨declines otherPlatform, rfl⟩
  answers := answers
  keepsResolved := fun _ => rfl
  findsByVerdict := fun _ now previously => absurd now previously
  givesUpAtEntry := fun _ now previously => absurd now previously
  keepsElsewhere := fun _ _ => rfl
  othersKept := .refl _ _
  programKept := rfl

theorem of_considers
    (considers : recognizer.Considers before procedure entry)
    (answers : answer = true ↔ after.isResolved = true)
    (finds :
      ∀ address, after.resolution = .found address →
        procedure.start ≠ entry.start ∧
          ∃ methods,
            recognizer.panel.verdict recognizer.settings before.program procedure =
              .found address methods)
    (givesUp : ∀ reason, after.resolution = .notFound reason → procedure.start = entry.start)
    (waits : answer = false → procedure.start = entry.start)
    (othersKept : Ledger.AgreesOutside before.program.id after.ledger before.ledger)
    (programKept :
      after.program =
        { before.program with
          inferredSymbols := after.program.inferredSymbols
          requests := after.program.requests }) :
    LawfulStep recognizer before procedure answer after where
  declines := fun otherPlatform => absurd considers.platform otherPlatform
  answers := fun _ => answers
  keepsResolved := by
    intro resolved
    rw [considers.unresolved] at resolved
    exact absurd resolved Bool.false_ne_true
  findsByVerdict := by
    intro address now _
    obtain ⟨elsewhere, methods, verdict⟩ := finds address now
    exact ⟨resolution_eq_unresolved considers.unresolved,
      entry, methods, considers.isEntry, elsewhere, verdict⟩
  givesUpAtEntry := by
    intro reason now _
    exact ⟨resolution_eq_unresolved considers.unresolved,
      entry, considers.isEntry, givesUp reason now⟩
  keepsElsewhere := by
    intro negative elsewhere
    exact absurd (waits negative) (elsewhere entry considers.isEntry)
  othersKept := othersKept
  programKept := programKept

theorem of_givesUp
    {reason : String}
    (considers : recognizer.Considers before procedure entry)
    (atEntry : procedure.start = entry.start)
    (resolution : after.resolution = .notFound reason)
    (othersKept : Ledger.AgreesOutside before.program.id after.ledger before.ledger)
    (programKept : after.program = before.program) :
    LawfulStep recognizer before procedure true after := by
  have resolved : after.isResolved = true := by
    rw [isResolved_eq_isFinal, resolution]
    rfl
  refine of_considers considers (iff_of_true rfl resolved) ?_ ?_ ?_ othersKept ?_
  · intro address found
    rw [resolution] at found
    exact absurd found nofun
  · intro _ _
    exact atEntry
  · intro negative
    exact absurd negative nofun
  · rw [programKept]

theorem of_primes
    {requests : List Word}
    (considers : recognizer.Considers before procedure entry)
    (atEntry : procedure.start = entry.start) :
    LawfulStep recognizer before procedure false
      ⟨primedLedger before, { before.program with requests }⟩ := by
  have unresolved :
      Workspace.resolution ⟨primedLedger before, { before.program with requests }⟩ =
        .unresolved := by
    rw [resolution_primedLedger before { before.program with requests } rfl]
    exact resolution_eq_unresolved considers.unresolved
  refine of_considers considers ?_ ?_ ?_ ?_ (Ledger.agreesOutside_prime _ _) rfl
  · rw [isResolved_eq_isFinal, unresolved]
    exact iff_of_false nofun nofun
  · intro address found
    rw [unresolved] at found
    exact absurd found nofun
  · intro _ _
    exact atEntry
  · intro _
    exact atEntry

theorem of_finds
    {address : Word} {methods : List Method}
    (considers : recognizer.Considers before procedure entry)
    (elsewhere : procedure.start ≠ entry.start)
    (verdict :
      recognizer.panel.verdict recognizer.settings before.program procedure =
        .found address methods) :
    LawfulStep recognizer before procedure true (recognizer.resolveFound before address) := by
  have resolution := resolution_resolveFound considers.unresolved recognizer address
  have resolved : (recognizer.resolveFound before address).isResolved = true := by
    rw [isResolved_eq_isFinal, resolution]
    rfl
  refine of_considers considers (iff_of_true rfl resolved) ?_ ?_ ?_ ?_ ?_
  · intro other found
    rw [resolution] at found
    obtain rfl := Resolution.found.inj found
    exact ⟨elsewhere, methods, verdict⟩
  · intro reason notFound
    rw [resolution] at notFound
    exact absurd notFound nofun
  · intro negative
    exact absurd negative nofun
  · rw [resolveFound_of_unresolved recognizer address considers.unresolved]
    exact Ledger.agreesOutside_resolve _ _ _
  · rw [resolveFound_of_unresolved recognizer address considers.unresolved]
    cases recognizer.settings.definesMain with
    | true => rfl
    | false => rfl

end LawfulStep

theorem Exits.lawfulStep
    {recognizer : Recognizer} {before : Workspace} {procedure : Procedure}
    {result : Bool × Workspace}
    (exits : Exits recognizer before procedure result) :
    LawfulStep recognizer before procedure result.1 result.2 := by
  have unchanged_of_unresolved
      (platform : procedure.platform = recognizer.platform)
      (unresolved : before.isResolved = false) :
      LawfulStep recognizer before procedure false before := by
    refine .of_unchanged (fun _ => rfl) (fun _ => ?_)
    rw [unresolved]
  cases exits with
  | declines otherPlatform =>
      exact .of_unchanged (fun _ => rfl) (fun platform => absurd platform otherPlatform)
  | isSettled platform resolved =>
      exact .of_unchanged (absurd platform) (fun _ => iff_of_true rfl resolved)
  | lacksEntry platform unresolved _ =>
      exact unchanged_of_unresolved platform unresolved
  | repeatsEntry considers _ _ _ =>
      exact unchanged_of_unresolved considers.platform considers.unresolved
  | abstains considers _ _ =>
      exact unchanged_of_unresolved considers.platform considers.unresolved
  | rejectsImage considers atEntry _ =>
      exact .of_givesUp considers atEntry
        (resolution_resolve considers.unresolved _)
        (Ledger.agreesOutside_resolve _ _ _) rfl
  | rejectsCallSites considers atEntry _ _ _ =>
      exact .of_givesUp considers atEntry
        (resolution_resolve_primed considers.unresolved _)
        ((Ledger.agreesOutside_resolve _ _ _).trans (Ledger.agreesOutside_prime _ _)) rfl
  | primes considers atEntry _ _ _ =>
      rw [Program.foldl_request]
      exact .of_primes considers atEntry
  | finds considers elsewhere verdict =>
      exact .of_finds considers elsewhere verdict

theorem recognize_lawfulStep
    (recognizer : Recognizer) (workspace : Workspace) (procedure : Procedure) :
    LawfulStep recognizer workspace procedure
      (recognizer.recognize workspace procedure).1
      (recognizer.recognize workspace procedure).2 :=
  (recognize_exits recognizer workspace procedure).lawfulStep

end Recognizer

/-! ## Runs -/

structure Host where
  ledger : Ledger
  programs : List Program

/-- A recognizer's look at a procedure, on behalf of the program at a place. -/
structure Sighting where
  recognizer : Recognizer
  place : Nat
  procedure : Procedure

namespace Host

variable (host : Host) (sighting : Sighting) (sightings : List Sighting) (id : ProgramId)

/-- The host after a sighting. Nothing is seen where there is no program. -/
def present : Host :=
  match host.programs[sighting.place]? with
  | none => host
  | some program =>
      let after := (sighting.recognizer.recognize ⟨host.ledger, program⟩ sighting.procedure).2
      ⟨after.ledger, host.programs.set sighting.place after.program⟩

/-- The host before, between and after the sightings of a run. -/
def states (host : Host) : List Sighting → List Host
  | [] => [host]
  | sighting :: rest => host :: (host.present sighting).states rest

theorem get_present_of_isFinal
    (final : (host.ledger.get id).isFinal = true) :
    (host.present sighting).ledger.get id = host.ledger.get id := by
  unfold present
  cases host.programs[sighting.place]? with
  | none =>
      rfl
  | some program =>
      have lawful :=
        Recognizer.recognize_lawfulStep sighting.recognizer ⟨host.ledger, program⟩
          sighting.procedure
      by_cases same : id = program.id
      · subst same
        exact congrArg (·.ledger.get program.id) (lawful.keepsResolved final)
      · exact (lawful.othersKept id same).1

theorem map_get_states_of_isFinal
    (final : (host.ledger.get id).isFinal = true) :
    (host.states sightings).map (·.ledger.get id) =
      List.replicate (sightings.length + 1) (host.ledger.get id) := by
  induction sightings generalizing host with
  | nil =>
      rfl
  | cons sighting rest inductionHypothesis =>
      have kept := host.get_present_of_isFinal sighting id final
      have laterKept := inductionHypothesis (host.present sighting) (by rwa [kept])
      rw [states, List.map_cons, laterKept, kept]
      rfl

theorem map_get_states :
    ∃ early late final,
      final.isFinal = true ∧
        (host.states sightings).map (·.ledger.get id) =
          List.replicate early .unresolved ++ List.replicate late final := by
  induction sightings generalizing host with
  | nil =>
      cases resolution : host.ledger.get id with
      | unresolved =>
          exact ⟨1, 0, .notFound "", rfl, by simp [states, resolution]⟩
      | found address =>
          exact ⟨0, 1, .found address, rfl, by simp [states, resolution]⟩
      | notFound reason =>
          exact ⟨0, 1, .notFound reason, rfl, by simp [states, resolution]⟩
  | cons sighting rest inductionHypothesis =>
      cases final : (host.ledger.get id).isFinal with
      | true =>
          have kept := host.map_get_states_of_isFinal (sighting :: rest) id final
          refine ⟨0, rest.length + 2, host.ledger.get id, final, ?_⟩
          rw [kept]
          rfl
      | false =>
          have unresolved := (Ledger.isResolved_eq_false_iff host.ledger id).mp final
          obtain ⟨early, late, resolution, isFinal, later⟩ :=
            inductionHypothesis (host.present sighting)
          refine ⟨early + 1, late, resolution, isFinal, ?_⟩
          rw [states, List.map_cons, later, unresolved]
          rfl

end Host

/-- Every look at a procedure is lawful, and over a run of any recognizers at programs that share a
ledger, each program is unresolved for a while and then keeps one final resolution. -/
theorem recognition_is_write_once :
    (∀ (recognizer : Recognizer) (workspace : Workspace) (procedure : Procedure),
      recognizer.LawfulStep workspace procedure
        (recognizer.recognize workspace procedure).1
        (recognizer.recognize workspace procedure).2) ∧
      ∀ (host : Host) (sightings : List Sighting) (id : ProgramId),
        ∃ early late final,
          final.isFinal = true ∧
            (host.states sightings).map (·.ledger.get id) =
              List.replicate early .unresolved ++ List.replicate late final := by
  constructor
  · intro recognizer workspace procedure
    exact recognizer.recognize_lawfulStep workspace procedure
  · intro host sightings id
    exact host.map_get_states sightings id

end MainLocator
