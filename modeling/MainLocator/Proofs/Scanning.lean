import MainLocator.Proofs.Overtaking

/-!
# Scanning

A scan looks at the procedures that start at the entry point first, and stops at the first look
after which the program is resolved. It leaves behind what looks at all procedures leave behind.
If the entry point decides nothing, the scan is a search for the first procedure with a positive
verdict, and if the entry point rules out a main function, nothing else of the scan matters.
-/

namespace MainLocator

namespace Program

variable (program : Program)

/-! ## The two parts of a scan -/

def startingAtEntry (procedures : List Procedure) : List Procedure :=
  procedures.filter fun procedure => some procedure.start = program.entryPoint

def startingElsewhere (procedures : List Procedure) : List Procedure :=
  procedures.filter fun procedure => ¬ some procedure.start = program.entryPoint

variable {program} {entry procedure : Procedure} {procedures : List Procedure}

theorem entryPoint_of_entryProcedure?
    (isEntry : program.entryProcedure? = some entry) :
    program.entryPoint = some entry.start := by
  obtain ⟨address, isEntryPoint, isProcedure⟩ := Option.bind_eq_some_iff.mp isEntry
  have atAddress : entry ∈ program.proceduresAt address := List.mem_of_find?_eq_some isProcedure
  have startEq : entry.start = address := by
    simpa using (List.mem_filter.mp atAddress).2
  rw [isEntryPoint, startEq]

theorem mem_startingAtEntry_iff
    (isEntry : program.entryProcedure? = some entry) :
    procedure ∈ program.startingAtEntry procedures ↔
      procedure ∈ procedures ∧ procedure.start = entry.start := by
  simp [startingAtEntry, entryPoint_of_entryProcedure? isEntry]

theorem start_ne_of_mem_startingElsewhere
    (isEntry : program.entryProcedure? = some entry)
    (member : procedure ∈ program.startingElsewhere procedures) :
    procedure.start ≠ entry.start := by
  have elsewhere := (List.mem_filter.mp member).2
  simpa [entryPoint_of_entryProcedure? isEntry] using elsewhere

end Program

namespace Recognizer

variable {recognizer : Recognizer} {workspace : Workspace} {entry procedure : Procedure}
  {procedures : List Procedure}

/-! ## Stopping early -/

theorem isResolved_of_recognize_fst
    (positive : (recognizer.recognize workspace procedure).1 = true) :
    (recognizer.recognize workspace procedure).2.isResolved = true := by
  have lawful := recognizer.recognize_lawfulStep workspace procedure
  by_cases platform : procedure.platform = recognizer.platform
  · exact (lawful.answers platform).mp positive
  · have negative := (lawful.declines platform).1
    rw [positive] at negative
    exact absurd negative.symm Bool.false_ne_true

theorem recognizeEach_append
    (recognizer : Recognizer) (workspace : Workspace) (early late : List Procedure) :
    recognizer.recognizeEach workspace (early ++ late) =
      recognizer.recognizeEach (recognizer.recognizeEach workspace early) late :=
  List.foldl_append

theorem recognizeUntilResolved_cons
    (recognizer : Recognizer) (workspace : Workspace) (head : Procedure) (tail : List Procedure) :
    recognizer.recognizeUntilResolved workspace (head :: tail) =
      if (recognizer.recognize workspace head).1 then recognizer.recognize workspace head
      else recognizer.recognizeUntilResolved (recognizer.recognize workspace head).2 tail := by
  rw [recognizeUntilResolved]
  obtain ⟨answer, after⟩ := recognizer.recognize workspace head
  cases answer with
  | true => rfl
  | false => rfl

theorem isResolved_of_recognizeUntilResolved_fst
    (positive : (recognizer.recognizeUntilResolved workspace procedures).1 = true) :
    (recognizer.recognizeUntilResolved workspace procedures).2.isResolved = true := by
  induction procedures generalizing workspace with
  | nil =>
      exact absurd positive Bool.false_ne_true
  | cons head tail inductionHypothesis =>
      rw [recognizeUntilResolved_cons] at positive ⊢
      by_cases answer : (recognizer.recognize workspace head).1 = true
      · rw [if_pos answer]
        exact isResolved_of_recognize_fst answer
      · rw [if_neg answer] at positive ⊢
        exact inductionHypothesis positive

theorem recognizeUntilResolved_snd
    (recognizer : Recognizer) (workspace : Workspace) (procedures : List Procedure) :
    (recognizer.recognizeUntilResolved workspace procedures).2 =
      recognizer.recognizeEach workspace procedures := by
  induction procedures generalizing workspace with
  | nil =>
      rfl
  | cons head tail inductionHypothesis =>
      rw [recognizeUntilResolved_cons, recognizeEach_cons]
      by_cases answer : (recognizer.recognize workspace head).1 = true
      · have resolved := isResolved_of_recognize_fst answer
        rw [if_pos answer, recognizeEach_of_isResolved resolved]
      · rw [if_neg answer, inductionHypothesis]

/-- The other procedures are looked at when none at the entry point answered. -/
theorem scan_snd_eq_ite
    (recognizer : Recognizer) (workspace : Workspace) (procedures : List Procedure) :
    (recognizer.scan workspace procedures).2 =
      let entryScan :=
        recognizer.recognizeUntilResolved workspace (workspace.program.startingAtEntry procedures)
      if entryScan.1 then entryScan.2
      else
        (recognizer.recognizeUntilResolved entryScan.2
          (workspace.program.startingElsewhere procedures)).2 := by
  unfold scan Program.startingAtEntry Program.startingElsewhere
  dsimp only
  split
  · next after answered =>
      rw [answered]
      rfl
  · next after answered =>
      rw [answered]
      rfl

theorem scan_snd
    (recognizer : Recognizer) (workspace : Workspace) (procedures : List Procedure) :
    (recognizer.scan workspace procedures).2 =
      recognizer.recognizeEach workspace
        (workspace.program.startingAtEntry procedures ++
          workspace.program.startingElsewhere procedures) := by
  have atEntry :=
    recognizer.recognizeUntilResolved_snd workspace (workspace.program.startingAtEntry procedures)
  rw [scan_snd_eq_ite, recognizeEach_append, ← atEntry]
  dsimp only
  by_cases answered :
      (recognizer.recognizeUntilResolved workspace
        (workspace.program.startingAtEntry procedures)).1 = true
  · -- The scan ends here, and further looks change nothing.
    have resolved := isResolved_of_recognizeUntilResolved_fst answered
    rw [if_pos answered, recognizeEach_of_isResolved resolved]
  · rw [if_neg answered, recognizeUntilResolved_snd]

/-! ## Searching for main -/

/-- The address that a look at the procedure resolves the program with. -/
def addressFor? (recognizer : Recognizer) (program : Program) (procedure : Procedure) :
    Option Word :=
  if procedure.platform = recognizer.platform then
    (recognizer.panel.verdict recognizer.settings program procedure).address?
  else none

theorem addressFor?_requests
    (recognizer : Recognizer) (program : Program) (requests : List Word) :
    recognizer.addressFor? { program with requests := requests } =
      recognizer.addressFor? program := by
  funext procedure
  rw [addressFor?, addressFor?, Panel.verdict_requests]

theorem recognize_of_no_entry
    (noEntry : workspace.program.entryProcedure? = none) :
    (recognizer.recognize workspace procedure).2 = workspace := by
  have not_considers (entry : Procedure) :
      ¬ recognizer.Considers workspace procedure entry := by
    intro considers
    rw [considers.isEntry] at noEntry
    exact absurd noEntry nofun
  have exits := recognizer.recognize_exits workspace procedure
  generalize recognizer.recognize workspace procedure = result at exits
  cases exits with
  | declines _ => rfl
  | isSettled _ _ => rfl
  | lacksEntry _ _ _ => rfl
  | repeatsEntry _ _ _ _ => rfl
  | abstains _ _ _ => rfl
  | rejectsImage considers _ _ => exact absurd considers (not_considers _)
  | rejectsCallSites considers _ _ _ _ => exact absurd considers (not_considers _)
  | primes considers _ _ _ _ => exact absurd considers (not_considers _)
  | finds considers _ _ => exact absurd considers (not_considers _)

theorem recognize_elsewhere
    (unresolved : workspace.isResolved = false)
    (isEntry : workspace.program.entryProcedure? = some entry)
    (elsewhere : procedure.start ≠ entry.start) :
    (recognizer.addressFor? workspace.program procedure = none ∧
        (recognizer.recognize workspace procedure).2 = workspace) ∨
      ∃ address, recognizer.addressFor? workspace.program procedure = some address ∧
        (recognizer.recognize workspace procedure).2.resolution = .found address := by
  have not_atEntry {other : Procedure}
      (considers : recognizer.Considers workspace procedure other) :
      procedure.start ≠ other.start := by
    have sameEntry := considers.isEntry.symm.trans isEntry
    rwa [Option.some.inj sameEntry]
  have exits := recognizer.recognize_exits workspace procedure
  generalize recognizer.recognize workspace procedure = result at exits
  cases exits with
  | declines otherPlatform =>
      exact .inl ⟨if_neg otherPlatform, rfl⟩
  | isSettled _ resolved =>
      rw [unresolved] at resolved
      exact absurd resolved Bool.false_ne_true
  | lacksEntry _ _ noEntry =>
      rw [isEntry] at noEntry
      exact absurd noEntry nofun
  | rejectsImage considers atEntry _ => exact absurd atEntry (not_atEntry considers)
  | repeatsEntry considers atEntry _ _ => exact absurd atEntry (not_atEntry considers)
  | rejectsCallSites considers atEntry _ _ _ => exact absurd atEntry (not_atEntry considers)
  | primes considers atEntry _ _ _ => exact absurd atEntry (not_atEntry considers)
  | abstains considers _ abstention =>
      left
      rw [addressFor?, if_pos considers.platform]
      cases verdict : recognizer.panel.verdict recognizer.settings workspace.program procedure with
      | found address methods =>
          rw [verdict] at abstention
          exact absurd abstention.symm Bool.false_ne_true
      | noProposals => exact ⟨rfl, rfl⟩
      | conflict => exact ⟨rfl, rfl⟩
  | @finds _ address _ considers _ verdict =>
      right
      refine ⟨address, ?_, resolution_resolveFound considers.unresolved recognizer address⟩
      rw [addressFor?, if_pos considers.platform, verdict]
      rfl

theorem recognizeEach_of_no_entry
    (noEntry : workspace.program.entryProcedure? = none) (procedures : List Procedure) :
    recognizer.recognizeEach workspace procedures = workspace := by
  induction procedures with
  | nil =>
      rfl
  | cons head tail inductionHypothesis =>
      rw [recognizeEach_cons, recognize_of_no_entry noEntry, inductionHypothesis]

theorem resolution_recognizeEach_elsewhere
    (unresolved : workspace.isResolved = false)
    (isEntry : workspace.program.entryProcedure? = some entry)
    (elsewhere : ∀ procedure ∈ procedures, procedure.start ≠ entry.start) :
    (recognizer.recognizeEach workspace procedures).resolution =
      ((procedures.findSome? (recognizer.addressFor? workspace.program)).elim
        .unresolved .found) := by
  induction procedures with
  | nil =>
      exact resolution_eq_unresolved unresolved
  | cons head tail inductionHypothesis =>
      obtain ⟨headElsewhere, tailElsewhere⟩ := List.forall_mem_cons.mp elsewhere
      rw [recognizeEach_cons, List.findSome?_cons]
      rcases recognize_elsewhere unresolved isEntry headElsewhere with
        ⟨nothing, unchanged⟩ | ⟨address, something, found⟩
      · rw [unchanged, nothing]
        exact inductionHypothesis tailElsewhere
      · rw [recognizeEach_of_resolution found rfl, found, something]
        rfl

/-! ## What looks at the entry point leave unchanged -/

theorem program_recognize_of_unresolved
    (unresolved : (recognizer.recognize workspace procedure).2.isResolved = false) :
    (recognizer.recognize workspace procedure).2.program =
      { workspace.program with
        requests := (recognizer.recognize workspace procedure).2.program.requests } := by
  have exits := recognizer.recognize_exits workspace procedure
  generalize recognizer.recognize workspace procedure = result at exits unresolved
  cases exits with
  | declines _ => rfl
  | isSettled _ _ => rfl
  | lacksEntry _ _ _ => rfl
  | repeatsEntry _ _ _ _ => rfl
  | abstains _ _ _ => rfl
  | rejectsImage _ _ _ => rfl
  | rejectsCallSites _ _ _ _ _ => rfl
  | primes _ _ _ _ _ =>
      simp only [Program.foldl_request]
  | finds considers _ _ =>
      rw [isResolved_eq_isFinal, resolution_resolveFound considers.unresolved] at unresolved
      exact absurd unresolved.symm Bool.false_ne_true

theorem exists_requests_recognizeEach
    (unresolved : (recognizer.recognizeEach workspace procedures).isResolved = false) :
    ∃ requests,
      (recognizer.recognizeEach workspace procedures).program =
        { workspace.program with requests := requests } := by
  induction procedures generalizing workspace with
  | nil =>
      exact ⟨workspace.program.requests, rfl⟩
  | cons head tail inductionHypothesis =>
      rw [recognizeEach_cons] at unresolved ⊢
      have headUnresolved : (recognizer.recognize workspace head).2.isResolved = false := by
        apply Bool.eq_false_iff.mpr
        intro resolved
        rw [recognizeEach_of_isResolved resolved, resolved] at unresolved
        exact absurd unresolved.symm Bool.false_ne_true
      obtain ⟨requests, tailProgram⟩ := inductionHypothesis unresolved
      have headProgram := program_recognize_of_unresolved headUnresolved
      refine ⟨requests, ?_⟩
      rw [tailProgram, headProgram]

/-- A scan with early stop leaves behind what looks at all procedures do, first at those that start
at the entry point. Where these leave the program unresolved, it finds what the first of the others
with a positive verdict names, and verdicts on the program as it was before the scan decide. -/
theorem scan_is_search
    (recognizer : Recognizer) (workspace : Workspace) (procedures : List Procedure) :
    (recognizer.scan workspace procedures).2 =
        recognizer.recognizeEach workspace
          (workspace.program.startingAtEntry procedures ++
            workspace.program.startingElsewhere procedures) ∧
      ((recognizer.recognizeEach workspace
            (workspace.program.startingAtEntry procedures)).resolution = .unresolved →
        (recognizer.scan workspace procedures).1 =
          match workspace.program.entryProcedure?,
            (workspace.program.startingElsewhere procedures).findSome?
              (recognizer.addressFor? workspace.program) with
          | some _, some address => .found address
          | _, _ => .unresolved) := by
  refine ⟨recognizer.scan_snd workspace procedures, ?_⟩
  intro undecided
  change (recognizer.scan workspace procedures).2.resolution = _
  rw [scan_snd, recognizeEach_append]
  cases isEntry : workspace.program.entryProcedure? with
  | none =>
      rw [recognizeEach_of_no_entry isEntry] at undecided ⊢
      rw [recognizeEach_of_no_entry isEntry]
      exact undecided
  | some entry =>
      have unresolved := (Ledger.isResolved_eq_false_iff _ _).mpr undecided
      obtain ⟨requests, programKept⟩ := exists_requests_recognizeEach unresolved
      have entryKept :
          (recognizer.recognizeEach workspace
            (workspace.program.startingAtEntry procedures)).program.entryProcedure? =
              some entry := by
        rw [programKept]
        exact isEntry
      rw [resolution_recognizeEach_elsewhere unresolved entryKept
        fun procedure member => Program.start_ne_of_mem_startingElsewhere isEntry member]
      rw [programKept, addressFor?_requests]
      cases (workspace.program.startingElsewhere procedures).findSome?
          (recognizer.addressFor? workspace.program) with
      | none => rfl
      | some address => rfl

/-- With one more call site allowed, the scan passes the crowded entry point and finds the main
function that the starter leads to. -/
theorem scan_crowdedProgram_leniently :
    (lenientRecognizer.recognizeEach ⟨{}, crowdedProgram⟩
          (crowdedProgram.startingAtEntry [wideStarter, crowdedEntry])).resolution = .unresolved ∧
      (lenientRecognizer.scan ⟨{}, crowdedProgram⟩ [wideStarter, crowdedEntry]).1 =
        .found 0x140004000 := by
  have undecided :
      (lenientRecognizer.recognizeEach ⟨{}, crowdedProgram⟩
        (crowdedProgram.startingAtEntry [wideStarter, crowdedEntry])).resolution =
          .unresolved := by
    decide +kernel
  have searched :=
    (scan_is_search lenientRecognizer ⟨{}, crowdedProgram⟩ [wideStarter, crowdedEntry]).2
      undecided
  refine ⟨undecided, searched.trans ?_⟩
  decide +kernel

/-! ## Entry points that rule main out -/

theorem RulesOut.recognizeEntry_eq
    (rulesOut : recognizer.RulesOut workspace entry) :
    recognizer.recognizeEntry workspace entry =
      if workspace.program.imageKind = .executable then
        { workspace with ledger := primedLedger workspace }.resolve
          (.notFound (callSiteReason (workspace.program.calls.callSites entry.start).length))
      else workspace.resolve (.notFound (imageReason workspace.program.imageKind)) := by
  have primes :
      workspace.ledger.prime workspace.program.id = (true, primedLedger workspace) := by
    refine Prod.ext ?_ rfl
    exact Ledger.prime_fst_of_not_isPrimed _ _ rulesOut.isResolved_eq_false rulesOut.unprimed
  unfold recognizeEntry
  by_cases isExecutable : workspace.program.imageKind = .executable
  · have tooMany := rulesOut.reason.resolve_left (not_not_intro isExecutable)
    simp only [isExecutable, primes, tooMany, ne_eq, not_true_eq_false, if_false, if_true]
  · simp only [isExecutable, ne_eq, not_false_eq_true, if_true, if_false]

theorem RulesOut.resolution_recognizeEntry
    (rulesOut : recognizer.RulesOut workspace entry) :
    (recognizer.recognizeEntry workspace entry).resolution =
      .notFound
        (if workspace.program.imageKind = .executable then
          callSiteReason (workspace.program.calls.callSites entry.start).length
        else imageReason workspace.program.imageKind) := by
  rw [rulesOut.recognizeEntry_eq]
  by_cases isExecutable : workspace.program.imageKind = .executable
  · rw [if_pos isExecutable, if_pos isExecutable]
    exact resolution_resolve_primed rulesOut.isResolved_eq_false _
  · rw [if_neg isExecutable, if_neg isExecutable]
    exact resolution_resolve rulesOut.isResolved_eq_false _

theorem RulesOut.program_recognizeEntry
    (rulesOut : recognizer.RulesOut workspace entry) :
    (recognizer.recognizeEntry workspace entry).program = workspace.program := by
  rw [rulesOut.recognizeEntry_eq]
  by_cases isExecutable : workspace.program.imageKind = .executable
  · rw [if_pos isExecutable]
    rfl
  · rw [if_neg isExecutable]
    rfl

theorem RulesOut.recognize_of_enters
    (rulesOut : recognizer.RulesOut workspace entry)
    (enters : recognizer.Enters entry procedure) :
    (recognizer.recognize workspace procedure).2 = recognizer.recognizeEntry workspace entry := by
  unfold recognize
  simp only [enters.1, enters.2, rulesOut.isResolved_eq_false, rulesOut.isEntry, ne_eq,
    not_true_eq_false, Bool.false_eq_true, if_true, if_false]

theorem RulesOut.recognizeEach_atEntry
    (rulesOut : recognizer.RulesOut workspace entry)
    (atEntry : ∀ procedure ∈ procedures, procedure.start = entry.start)
    (seen : ∃ procedure ∈ procedures, procedure.platform = recognizer.platform) :
    recognizer.recognizeEach workspace procedures = recognizer.recognizeEntry workspace entry := by
  induction procedures with
  | nil =>
      obtain ⟨procedure, member, _⟩ := seen
      exact absurd member List.not_mem_nil
  | cons head tail inductionHypothesis =>
      obtain ⟨headAtEntry, tailAtEntry⟩ := List.forall_mem_cons.mp atEntry
      rw [recognizeEach_cons]
      by_cases platform : head.platform = recognizer.platform
      · rw [rulesOut.recognize_of_enters ⟨platform, headAtEntry⟩]
        exact recognizeEach_of_resolution rulesOut.resolution_recognizeEntry rfl tail
      · -- Procedures of other platforms in front are declined.
        have declined :=
          ((recognizer.recognize_lawfulStep workspace head).declines platform).2
        have tailSeen : ∃ procedure ∈ tail, procedure.platform = recognizer.platform := by
          simpa [platform] using seen
        rw [declined]
        exact inductionHypothesis tailAtEntry tailSeen

theorem RulesOut.scan_snd_eq
    (rulesOut : recognizer.RulesOut workspace entry)
    (seen : ∃ procedure ∈ procedures, recognizer.Enters entry procedure) :
    (recognizer.scan workspace procedures).2 = recognizer.recognizeEntry workspace entry := by
  obtain ⟨procedure, member, platform, start⟩ := seen
  have atEntry : ∀ other ∈ workspace.program.startingAtEntry procedures,
      other.start = entry.start := by
    intro other otherMember
    exact ((Program.mem_startingAtEntry_iff rulesOut.isEntry).mp otherMember).2
  have seenAtEntry : ∃ other ∈ workspace.program.startingAtEntry procedures,
      other.platform = recognizer.platform :=
    ⟨procedure, (Program.mem_startingAtEntry_iff rulesOut.isEntry).mpr ⟨member, start⟩, platform⟩
  rw [scan_snd, recognizeEach_append, rulesOut.recognizeEach_atEntry atEntry seenAtEntry]
  exact recognizeEach_of_resolution rulesOut.resolution_recognizeEntry rfl _

/-- A scan in which the entry point is seen, wherever in the list, gives up for the reason that the
entry point has. The kind of the image counts before the call sites, nothing is inferred or
requested, and neither the heuristics nor the rest of the list make a difference. -/
theorem scan_gives_up
    (rulesOut : recognizer.RulesOut workspace entry)
    (seen : ∃ procedure ∈ procedures, recognizer.Enters entry procedure) :
    (workspace.program.imageKind ≠ .executable →
        (recognizer.scan workspace procedures).1 =
          .notFound (imageReason workspace.program.imageKind)) ∧
      (workspace.program.imageKind = .executable →
        (recognizer.scan workspace procedures).1 =
          .notFound (callSiteReason (workspace.program.calls.callSites entry.start).length)) ∧
      (recognizer.scan workspace procedures).2.program = workspace.program ∧
      ∀ panel others, (∃ procedure ∈ others, recognizer.Enters entry procedure) →
        { recognizer with panel := panel }.scan workspace others =
          recognizer.scan workspace procedures := by
  have after := rulesOut.scan_snd_eq seen
  have resolution :
      (recognizer.scan workspace procedures).1 =
        (recognizer.recognizeEntry workspace entry).resolution :=
    congrArg Workspace.resolution after
  refine ⟨?_, ?_, ?_, ?_⟩
  · intro notExecutable
    rw [resolution, rulesOut.resolution_recognizeEntry, if_neg notExecutable]
  · intro isExecutable
    rw [resolution, rulesOut.resolution_recognizeEntry, if_pos isExecutable]
  · rw [after, rulesOut.program_recognizeEntry]
  · intro panel others othersSeen
    have otherRulesOut : { recognizer with panel := panel }.RulesOut workspace entry :=
      ⟨rulesOut.isEntry, rulesOut.unresolved, rulesOut.unprimed, rulesOut.reason⟩
    have otherAfter := otherRulesOut.scan_snd_eq othersSeen
    have sameAfter := otherAfter.trans after.symm
    exact Prod.ext (congrArg Workspace.resolution sameAfter) sameAfter

/-- The crowded entry point ends the scan although the starter comes first in the list. So do the
headers of a library, which count before the call sites, and those of a driver, which count where
the call sites are not too many. -/
theorem scan_crowdedProgram :
    (∃ procedure ∈ [wideStarter, crowdedEntry],
        crowdedRecognizer.Enters crowdedEntry procedure) ∧
      crowdedRecognizer.RulesOut ⟨{}, crowdedProgram⟩ crowdedEntry ∧
      (crowdedRecognizer.scan ⟨{}, crowdedProgram⟩ [wideStarter, crowdedEntry]).1 =
        .notFound "entry point has 3 call sites" ∧
      crowdedRecognizer.RulesOut ⟨{}, crowdedLibrary⟩ crowdedEntry ∧
      (crowdedRecognizer.scan ⟨{}, crowdedLibrary⟩ [wideStarter, crowdedEntry]).1 =
        .notFound "image is a DLL" ∧
      lenientRecognizer.RulesOut ⟨{}, crowdedDriver⟩ crowdedEntry ∧
      (lenientRecognizer.scan ⟨{}, crowdedDriver⟩ [wideStarter, crowdedEntry]).1 =
        .notFound "image is a driver" := by
  have seen (recognizer : Recognizer) (platform : recognizer.platform = .windowsX64) :
      ∃ procedure ∈ [wideStarter, crowdedEntry], recognizer.Enters crowdedEntry procedure :=
    ⟨crowdedEntry, by simp, platform.symm, rfl⟩
  have strictlySeen := seen crowdedRecognizer rfl
  have lenientlySeen := seen lenientRecognizer rfl
  have libraryRulesOut := rulesOut_crowdedLibrary crowdedRecognizer
  have driverRulesOut := rulesOut_crowdedDriver lenientRecognizer
  refine ⟨strictlySeen, rulesOut_crowdedProgram, ?_, libraryRulesOut, ?_, driverRulesOut, ?_⟩
  · have givesUp := (scan_gives_up rulesOut_crowdedProgram strictlySeen).2.1 (by decide +kernel)
    refine givesUp.trans ?_
    decide +kernel
  · have givesUp := (scan_gives_up libraryRulesOut strictlySeen).1
    rw [imageKind_crowdedLibrary] at givesUp
    exact givesUp nofun
  · have givesUp := (scan_gives_up driverRulesOut lenientlySeen).1
    rw [imageKind_crowdedDriver] at givesUp
    exact givesUp nofun

end Recognizer

end MainLocator
