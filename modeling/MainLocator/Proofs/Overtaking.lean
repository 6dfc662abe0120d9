import MainLocator.Proofs.WriteOnce

/-!
# Overtaking the entry point

The entry point may rule out that a program has a main function, but it is heard only when it is
looked at. A procedure with a positive verdict that is looked at before overtakes it, and then main
is found. In every other order main is never found.
-/

namespace MainLocator

namespace Recognizer

/-- Looks at every one of the procedures, also after the program is resolved. -/
def recognizeEach
    (recognizer : Recognizer) (workspace : Workspace) (procedures : List Procedure) : Workspace :=
  procedures.foldl (fun workspace procedure => (recognizer.recognize workspace procedure).2)
    workspace

/-- A program is neither resolved nor primed yet, and its entry point rules out a main function. -/
structure RulesOut (recognizer : Recognizer) (workspace : Workspace) (entry : Procedure) :
    Prop where
  isEntry : workspace.program.entryProcedure? = some entry
  unresolved : workspace.resolution = .unresolved
  unprimed : workspace.ledger.isPrimed workspace.program.id = false
  reason :
    workspace.program.imageKind ≠ .executable ∨
      recognizer.settings.maxEntryCallSites <
        (workspace.program.calls.callSites entry.start).length

section Orders

variable (recognizer : Recognizer) (program : Program) (entry procedure : Procedure)

def Enters : Prop :=
  procedure.platform = recognizer.platform ∧ procedure.start = entry.start

/-- A look at the procedure finds main, unless the program is resolved. -/
def Endorses : Prop :=
  procedure.platform = recognizer.platform ∧ procedure.start ≠ entry.start ∧
    (recognizer.panel.verdict recognizer.settings program procedure).isFound = true

/-- Some procedure that finds main comes before the first look at the entry point. -/
def Overtaken (procedures : List Procedure) : Prop :=
  ∃ early procedure late,
    procedures = early ++ procedure :: late ∧
      (∀ earlier ∈ early, ¬ recognizer.Enters entry earlier) ∧
        recognizer.Endorses program entry procedure

end Orders

variable {recognizer : Recognizer} {program : Program} {entry procedure : Procedure}
  {procedures : List Procedure}

/-- Whatever a recognizer's limit on call sites is, only executables have a main function. -/
theorem rulesOut_of_imageKind_ne
    (recognizer : Recognizer)
    (isEntry : program.entryProcedure? = some entry)
    (notExecutable : program.imageKind ≠ .executable) :
    recognizer.RulesOut ⟨{}, program⟩ entry where
  isEntry := isEntry
  unresolved := rfl
  unprimed := rfl
  reason := .inl notExecutable

theorem not_endorses_of_enters
    (enters : recognizer.Enters entry procedure) :
    ¬ recognizer.Endorses program entry procedure := by
  intro endorses
  exact endorses.2.1 enters.2

theorem not_overtaken_nil :
    ¬ recognizer.Overtaken program entry [] := by
  intro overtaken
  obtain ⟨early, procedure, late, split, _⟩ := overtaken
  simp at split

theorem overtaken_cons_iff
    (head : Procedure) (tail : List Procedure) :
    recognizer.Overtaken program entry (head :: tail) ↔
      ¬ recognizer.Enters entry head ∧
        (recognizer.Endorses program entry head ∨ recognizer.Overtaken program entry tail) := by
  constructor
  · intro overtaken
    obtain ⟨early, procedure, late, split, outside, endorses⟩ := overtaken
    cases early with
    | nil =>
        obtain ⟨rfl, rfl⟩ := List.cons.inj split
        exact ⟨fun enters => not_endorses_of_enters enters endorses, .inl endorses⟩
    | cons first rest =>
        obtain ⟨rfl, tailSplit⟩ := List.cons.inj split
        obtain ⟨headOutside, restOutside⟩ := List.forall_mem_cons.mp outside
        exact ⟨headOutside, .inr ⟨rest, procedure, late, tailSplit, restOutside, endorses⟩⟩
  · intro condition
    obtain ⟨headOutside, endorses | overtaken⟩ := condition
    · exact ⟨[], head, tail, rfl, by simp, endorses⟩
    · obtain ⟨early, procedure, late, rfl, outside, endorses⟩ := overtaken
      exact ⟨head :: early, procedure, late, rfl,
        List.forall_mem_cons.mpr ⟨headOutside, outside⟩, endorses⟩

theorem Overtaken.of_isPrefix
    {early : List Procedure}
    (overtaken : recognizer.Overtaken program entry early)
    (begins : early <+: procedures) :
    recognizer.Overtaken program entry procedures := by
  obtain ⟨earlier, procedure, later, rfl, outside, endorses⟩ := overtaken
  obtain ⟨late, rfl⟩ := begins
  exact ⟨earlier, procedure, later ++ late, by simp, outside, endorses⟩

/-! ## Turns -/

/-- What one look can do while the entry point rules out a main function. -/
inductive Turn
    (recognizer : Recognizer) (before : Workspace) (entry procedure : Procedure)
    (after : Workspace) : Prop where
  | waits :
      ¬ recognizer.Enters entry procedure →
      ¬ recognizer.Endorses before.program entry procedure →
      after = before →
      Turn recognizer before entry procedure after
  | givesUp {reason : String} :
      recognizer.Enters entry procedure →
      after.resolution = .notFound reason →
      after.program = before.program →
      Turn recognizer before entry procedure after
  | finds {address : Word} :
      recognizer.Endorses before.program entry procedure →
      after.resolution = .found address →
      Turn recognizer before entry procedure after

variable {workspace : Workspace}

theorem RulesOut.isResolved_eq_false
    (rulesOut : recognizer.RulesOut workspace entry) :
    workspace.isResolved = false := by
  rw [isResolved_eq_isFinal, rulesOut.unresolved]
  rfl

theorem RulesOut.eq_entry
    (rulesOut : recognizer.RulesOut workspace entry)
    {other : Procedure}
    (considers : recognizer.Considers workspace procedure other) :
    other = entry :=
  Option.some.inj (considers.isEntry.symm.trans rulesOut.isEntry)

theorem RulesOut.turn
    (rulesOut : recognizer.RulesOut workspace entry) (procedure : Procedure) :
    recognizer.Turn workspace entry procedure (recognizer.recognize workspace procedure).2 := by
  have exits := recognizer.recognize_exits workspace procedure
  generalize recognizer.recognize workspace procedure = result at exits
  cases exits with
  | declines otherPlatform =>
      exact .waits (fun enters => otherPlatform enters.1)
        (fun endorses => otherPlatform endorses.1) rfl
  | isSettled _ resolved =>
      rw [rulesOut.isResolved_eq_false] at resolved
      exact absurd resolved Bool.false_ne_true
  | lacksEntry _ _ noEntry =>
      rw [rulesOut.isEntry] at noEntry
      exact absurd noEntry nofun
  | rejectsImage considers atEntry _ =>
      obtain rfl := rulesOut.eq_entry considers
      exact .givesUp ⟨considers.platform, atEntry⟩
        (resolution_resolve considers.unresolved _) rfl
  | repeatsEntry _ _ _ primed =>
      rw [rulesOut.unprimed] at primed
      exact absurd primed Bool.false_ne_true
  | rejectsCallSites considers atEntry _ _ _ =>
      obtain rfl := rulesOut.eq_entry considers
      exact .givesUp ⟨considers.platform, atEntry⟩
        (resolution_resolve_primed considers.unresolved _) rfl
  | primes considers _ isExecutable _ fewCallSites =>
      obtain rfl := rulesOut.eq_entry considers
      rcases rulesOut.reason with notExecutable | manyCallSites
      · exact absurd isExecutable notExecutable
      · exact absurd fewCallSites (Nat.not_le_of_lt manyCallSites)
  | abstains considers elsewhere abstention =>
      obtain rfl := rulesOut.eq_entry considers
      refine .waits (fun enters => elsewhere enters.2) (fun endorses => ?_) rfl
      rw [endorses.2.2] at abstention
      exact absurd abstention.symm Bool.false_ne_true
  | finds considers elsewhere verdict =>
      obtain rfl := rulesOut.eq_entry considers
      refine .finds ⟨considers.platform, elsewhere, ?_⟩
        (resolution_resolveFound considers.unresolved recognizer _)
      rw [verdict]
      rfl

/-! ## Runs -/

theorem recognizeEach_cons
    (recognizer : Recognizer) (workspace : Workspace) (head : Procedure) (tail : List Procedure) :
    recognizer.recognizeEach workspace (head :: tail) =
      recognizer.recognizeEach (recognizer.recognize workspace head).2 tail :=
  rfl

theorem recognizeEach_of_isResolved
    (resolved : workspace.isResolved = true) (procedures : List Procedure) :
    recognizer.recognizeEach workspace procedures = workspace := by
  induction procedures with
  | nil =>
      rfl
  | cons head tail inductionHypothesis =>
      have kept :=
        (recognizer.recognize_lawfulStep workspace head).keepsResolved resolved
      rw [recognizeEach_cons, kept, inductionHypothesis]

theorem recognizeEach_of_resolution
    {resolution : Resolution}
    (resolved : workspace.resolution = resolution) (final : resolution.isFinal = true)
    (procedures : List Procedure) :
    recognizer.recognizeEach workspace procedures = workspace := by
  apply recognizeEach_of_isResolved
  rw [isResolved_eq_isFinal, resolved, final]

theorem RulesOut.exists_found_iff
    (rulesOut : recognizer.RulesOut workspace entry) (procedures : List Procedure) :
    (∃ address, (recognizer.recognizeEach workspace procedures).resolution = .found address) ↔
      recognizer.Overtaken workspace.program entry procedures := by
  induction procedures with
  | nil =>
      refine iff_of_false (fun found => ?_) not_overtaken_nil
      obtain ⟨address, found⟩ := found
      exact absurd (rulesOut.unresolved.symm.trans found) nofun
  | cons head tail inductionHypothesis =>
      rw [recognizeEach_cons, overtaken_cons_iff]
      cases rulesOut.turn head with
      | waits outside unendorsed unchanged =>
          rw [unchanged, inductionHypothesis]
          simp [outside, unendorsed]
      | givesUp enters notFound _ =>
          rw [recognizeEach_of_resolution notFound rfl, notFound]
          simp [enters]
      | finds endorses found =>
          rw [recognizeEach_of_resolution found rfl, found]
          have outside := mt not_endorses_of_enters (not_not_intro endorses)
          simp [outside, endorses]

theorem RulesOut.program_eq_of_not_overtaken
    (rulesOut : recognizer.RulesOut workspace entry)
    (inOrder : ¬ recognizer.Overtaken workspace.program entry procedures) :
    (recognizer.recognizeEach workspace procedures).program = workspace.program := by
  induction procedures with
  | nil =>
      rfl
  | cons head tail inductionHypothesis =>
      rw [overtaken_cons_iff] at inOrder
      rw [recognizeEach_cons]
      cases rulesOut.turn head with
      | waits outside _ unchanged =>
          rw [unchanged]
          apply inductionHypothesis
          intro overtaken
          exact inOrder ⟨outside, .inr overtaken⟩
      | givesUp _ notFound programKept =>
          rw [recognizeEach_of_resolution notFound rfl, programKept]
      | finds endorses _ =>
          have outside := mt not_endorses_of_enters (not_not_intro endorses)
          exact absurd ⟨outside, .inl endorses⟩ inOrder

/-- Main is found against the entry point in those orders in which it is overtaken, and in the
others nothing is ever found, inferred or requested. -/
theorem found_iff_overtaken
    (rulesOut : recognizer.RulesOut workspace entry) (procedures : List Procedure) :
    ((∃ address, (recognizer.recognizeEach workspace procedures).resolution = .found address) ↔
        recognizer.Overtaken workspace.program entry procedures) ∧
      (¬ recognizer.Overtaken workspace.program entry procedures →
        ∀ early, early <+: procedures →
          (∀ address, (recognizer.recognizeEach workspace early).resolution ≠ .found address) ∧
            (recognizer.recognizeEach workspace early).program = workspace.program) := by
  refine ⟨rulesOut.exists_found_iff procedures, ?_⟩
  intro inOrder early begins
  have earlyInOrder : ¬ recognizer.Overtaken workspace.program entry early := by
    intro overtaken
    exact inOrder (overtaken.of_isPrefix begins)
  refine ⟨?_, rulesOut.program_eq_of_not_overtaken earlyInOrder⟩
  intro address found
  exact earlyInOrder ((rulesOut.exists_found_iff early).mp ⟨address, found⟩)

/-! ## A crowded entry point -/

def crowdedEntry : Procedure :=
  ⟨0x140001000, .windowsX64, none, none, none⟩

def wideStarter : Procedure where
  start := 0x140002000
  platform := .windowsX64
  symbol := none
  convention := some .win64
  body :=
    (Body.ofBlocks 0x140002000 [⟨0, 0x140002000, .tailCall ⟨.pointer 0x140004000, [], []⟩⟩]
      [.ofRange .entry 0 1]).toOption

/-- A program whose entry point has three call sites, one of them for the starter. -/
def crowdedProgram : Program :=
  let program : Program :=
    { id := ⟨1⟩
      platform := .windowsX64
      entryPoint := some 0x140001000
      procedures := [crowdedEntry, wideStarter] }
  program
    |>.addSymbol (.plain .function "wmain" 0x140004000)
    |>.addCall 0x140001000 0x140001800 ⟨0x140001000, .direct⟩
    |>.addCall 0x140001000 0x140002000 ⟨0x140001004, .direct⟩
    |>.addCall 0x140001000 0x140001900 ⟨0x140001008, .tail⟩

/-- The crowded program, in an image whose file header marks a library. -/
def crowdedLibrary : Program :=
  crowdedProgram
    |>.addSymbol (.plain .data "__coff_header" 0x140000080)
    |>.addDataVariable 0x140000080
    |>.addSegment ⟨0x140000096, #[0x22, 0x20]⟩

/-- The crowded program, in an image whose optional header marks a driver. -/
def crowdedDriver : Program :=
  crowdedProgram
    |>.addSymbol (.plain .data "__pe64_optional_header" 0x140000098)
    |>.addDataVariable 0x140000098
    |>.addSegment ⟨0x1400000dc, #[0x01, 0x00]⟩

def crowdedRecognizer : Recognizer :=
  ⟨.windowsX64, {}, .standard⟩

/-- A recognizer that three call sites are not too many for. -/
def lenientRecognizer : Recognizer :=
  { crowdedRecognizer with settings := { maxEntryCallSites := 3 } }

theorem rulesOut_crowdedProgram :
    crowdedRecognizer.RulesOut ⟨{}, crowdedProgram⟩ crowdedEntry where
  isEntry := rfl
  unresolved := by decide +kernel
  unprimed := by decide +kernel
  reason := .inr (by decide +kernel)

theorem imageKind_crowdedLibrary :
    crowdedLibrary.imageKind = .library :=
  (crowdedLibrary.imageKind_eq_iff .library).mpr (by decide +kernel)

theorem imageKind_crowdedDriver :
    crowdedDriver.imageKind = .driver :=
  (crowdedDriver.imageKind_eq_iff .driver).mpr (by decide +kernel)

theorem rulesOut_crowdedLibrary (recognizer : Recognizer) :
    recognizer.RulesOut ⟨{}, crowdedLibrary⟩ crowdedEntry := by
  apply rulesOut_of_imageKind_ne recognizer rfl
  rw [imageKind_crowdedLibrary]
  nofun

theorem rulesOut_crowdedDriver (recognizer : Recognizer) :
    recognizer.RulesOut ⟨{}, crowdedDriver⟩ crowdedEntry := by
  apply rulesOut_of_imageKind_ne recognizer rfl
  rw [imageKind_crowdedDriver]
  nofun

/-- Looking at the entry point first, main is never found, because of the call sites or, where these
are not too many, because of the image. -/
theorem not_found_after_crowdedEntry :
    crowdedRecognizer.RulesOut ⟨{}, crowdedProgram⟩ crowdedEntry ∧
      (∀ early, early <+: [crowdedEntry, wideStarter] →
        (∀ address,
            (crowdedRecognizer.recognizeEach ⟨{}, crowdedProgram⟩ early).resolution ≠
              .found address) ∧
          (crowdedRecognizer.recognizeEach ⟨{}, crowdedProgram⟩ early).program =
            crowdedProgram) ∧
        lenientRecognizer.RulesOut ⟨{}, crowdedLibrary⟩ crowdedEntry ∧
          (∀ early, early <+: [crowdedEntry, wideStarter] →
            (∀ address,
                (lenientRecognizer.recognizeEach ⟨{}, crowdedLibrary⟩ early).resolution ≠
                  .found address) ∧
              (lenientRecognizer.recognizeEach ⟨{}, crowdedLibrary⟩ early).program =
                crowdedLibrary) ∧
            ∃ address,
              (lenientRecognizer.recognizeEach ⟨{}, crowdedLibrary⟩
                [wideStarter, crowdedEntry]).resolution = .found address := by
  have notOvertaken (recognizer : Recognizer) (program : Program)
      (platform : recognizer.platform = .windowsX64) :
      ¬ recognizer.Overtaken program crowdedEntry [crowdedEntry, wideStarter] := by
    rw [overtaken_cons_iff]
    intro overtaken
    exact overtaken.1 ⟨platform.symm, rfl⟩
  have libraryRulesOut := rulesOut_crowdedLibrary lenientRecognizer
  have overtaken :
      lenientRecognizer.Overtaken crowdedLibrary crowdedEntry [wideStarter, crowdedEntry] :=
    ⟨[], wideStarter, [crowdedEntry], rfl, by simp, rfl, by decide, by decide +kernel⟩
  refine ⟨rulesOut_crowdedProgram, ?_, libraryRulesOut, ?_, ?_⟩
  · exact (found_iff_overtaken rulesOut_crowdedProgram _).2 (notOvertaken _ _ rfl)
  · exact (found_iff_overtaken libraryRulesOut _).2 (notOvertaken _ _ rfl)
  · exact (found_iff_overtaken libraryRulesOut _).1.mpr overtaken

/-- Looking at the starter first, main is found although the entry point rules it out. -/
theorem exists_found_against_entry :
    ¬ ∀ (recognizer : Recognizer) (workspace : Workspace) (entry : Procedure),
        recognizer.RulesOut workspace entry →
          ∀ procedures : List Procedure,
            (∀ procedure ∈ procedures, procedure.platform = recognizer.platform) →
              (∀ address,
                (recognizer.recognizeEach workspace procedures).resolution ≠ .found address) ∧
                (recognizer.recognizeEach workspace procedures).program.inferredSymbols =
                  workspace.program.inferredSymbols := by
  intro neverFound
  have never :=
    neverFound crowdedRecognizer ⟨{}, crowdedProgram⟩ crowdedEntry rulesOut_crowdedProgram
      [wideStarter, crowdedEntry] (by decide)
  exact never.1 0x140004000 (by decide +kernel)

end Recognizer

end MainLocator
