import MainLocator.Recognition.Recognizer

/-!
# One look at a procedure

All ways in which `Recognizer.recognize` ends, each with the conditions under which it does and the
workspace that it leaves behind. What later modules say of recognition is a case analysis on these
exits, and does not look at the code again.
-/

namespace MainLocator

/-! ## Writing to the ledger -/

namespace Ledger

variable (ledger : Ledger) (id other : ProgramId) (resolution : Resolution)

theorem isResolved_eq_false_iff :
    ledger.isResolved id = false ↔ ledger.get id = .unresolved := by
  unfold isResolved
  cases ledger.get id with
  | unresolved => exact iff_of_true rfl rfl
  | found address => exact iff_of_false nofun nofun
  | notFound reason => exact iff_of_false nofun nofun

theorem get_resolve_self
    (unresolved : ledger.isResolved id = false) :
    (ledger.resolve id resolution).2.get id = resolution := by
  rw [get_resolve, if_pos ⟨rfl, unresolved⟩]

theorem get_resolve_of_ne
    (different : other ≠ id) :
    (ledger.resolve id resolution).2.get other = ledger.get other := by
  rw [get_resolve, if_neg]
  intro same
  exact different same.1.symm

theorem isPrimed_resolve_of_ne
    (different : other ≠ id) :
    (ledger.resolve id resolution).2.isPrimed other = ledger.isPrimed other := by
  rw [isPrimed_resolve]
  simp [Ne.symm different]

theorem isPrimed_prime_of_ne
    (different : other ≠ id) :
    (ledger.prime id).2.isPrimed other = ledger.isPrimed other := by
  rw [isPrimed_prime]
  simp [Ne.symm different]

theorem prime_of_isPrimed
    (primed : ledger.isPrimed id = true) :
    ledger.prime id = (false, ledger) := by
  unfold prime
  rw [primed, Bool.or_true, if_pos rfl]

theorem prime_fst_of_not_isPrimed
    (unresolved : ledger.isResolved id = false) (unprimed : ledger.isPrimed id = false) :
    (ledger.prime id).1 = true := by
  unfold prime
  rw [unresolved, unprimed]
  rfl

end Ledger

/-! ## Requests -/

theorem Program.foldl_request (program : Program) (addresses : List Word) :
    addresses.foldl Program.request program =
      { program with requests := program.requests ++ addresses } := by
  induction addresses generalizing program with
  | nil =>
      simp
  | cons address rest inductionHypothesis =>
      rw [List.foldl_cons, inductionHypothesis]
      simp [Program.request]

/-! ## Exits -/

namespace Recognizer

/-- The procedure is looked at, in an unresolved program with the given entry procedure. -/
structure Considers
    (recognizer : Recognizer) (workspace : Workspace) (procedure entry : Procedure) : Prop where
  platform : procedure.platform = recognizer.platform
  unresolved : workspace.isResolved = false
  isEntry : workspace.program.entryProcedure? = some entry

/-- The ledger of a workspace, with its program primed. -/
def primedLedger (workspace : Workspace) : Ledger :=
  (workspace.ledger.prime workspace.program.id).2

/-- How a look at a procedure ends: the answer, and the workspace afterwards. -/
inductive Exits (recognizer : Recognizer) (workspace : Workspace) (procedure : Procedure) :
    Bool × Workspace → Prop where
  | declines :
      procedure.platform ≠ recognizer.platform →
      Exits recognizer workspace procedure (false, workspace)
  | isSettled :
      procedure.platform = recognizer.platform →
      workspace.isResolved = true →
      Exits recognizer workspace procedure (true, workspace)
  | lacksEntry :
      procedure.platform = recognizer.platform →
      workspace.isResolved = false →
      workspace.program.entryProcedure? = none →
      Exits recognizer workspace procedure (false, workspace)
  | rejectsImage {entry : Procedure} :
      recognizer.Considers workspace procedure entry →
      procedure.start = entry.start →
      workspace.program.imageKind ≠ .executable →
      Exits recognizer workspace procedure
        (true, workspace.resolve (.notFound (imageReason workspace.program.imageKind)))
  | repeatsEntry {entry : Procedure} :
      recognizer.Considers workspace procedure entry →
      procedure.start = entry.start →
      workspace.program.imageKind = .executable →
      workspace.ledger.isPrimed workspace.program.id = true →
      Exits recognizer workspace procedure (false, workspace)
  | rejectsCallSites {entry : Procedure} :
      recognizer.Considers workspace procedure entry →
      procedure.start = entry.start →
      workspace.program.imageKind = .executable →
      workspace.ledger.isPrimed workspace.program.id = false →
      recognizer.settings.maxEntryCallSites <
        (workspace.program.calls.callSites entry.start).length →
      Exits recognizer workspace procedure
        (true,
          { workspace with ledger := primedLedger workspace }.resolve
            (.notFound
              (callSiteReason (workspace.program.calls.callSites entry.start).length)))
  | primes {entry : Procedure} :
      recognizer.Considers workspace procedure entry →
      procedure.start = entry.start →
      workspace.program.imageKind = .executable →
      workspace.ledger.isPrimed workspace.program.id = false →
      (workspace.program.calls.callSites entry.start).length ≤
        recognizer.settings.maxEntryCallSites →
      Exits recognizer workspace procedure
        (false,
          ⟨primedLedger workspace,
            (workspace.program.priorityCallees entry.start).foldl Program.request
              workspace.program⟩)
  | abstains {entry : Procedure} :
      recognizer.Considers workspace procedure entry →
      procedure.start ≠ entry.start →
      (recognizer.panel.verdict recognizer.settings workspace.program procedure).isFound = false →
      Exits recognizer workspace procedure (false, workspace)
  | finds {entry : Procedure} {address : Word} {methods : List Method} :
      recognizer.Considers workspace procedure entry →
      procedure.start ≠ entry.start →
      recognizer.panel.verdict recognizer.settings workspace.program procedure =
        .found address methods →
      Exits recognizer workspace procedure (true, recognizer.resolveFound workspace address)

variable {recognizer : Recognizer} {workspace : Workspace} {procedure entry : Procedure}

theorem resolution_primedLedger (workspace : Workspace) (program : Program)
    (sameId : program.id = workspace.program.id) :
    Workspace.resolution ⟨primedLedger workspace, program⟩ = workspace.resolution := by
  unfold Workspace.resolution primedLedger
  rw [Ledger.get_prime, sameId]

theorem isResolved_primedLedger (workspace : Workspace) (program : Program)
    (sameId : program.id = workspace.program.id) :
    Workspace.isResolved ⟨primedLedger workspace, program⟩ = workspace.isResolved :=
  congrArg Resolution.isFinal (resolution_primedLedger workspace program sameId)

theorem isResolved_resolve_notFound (workspace : Workspace) (reason : String) :
    (workspace.resolve (.notFound reason)).isResolved = true := by
  unfold Workspace.resolve Workspace.isResolved Ledger.isResolved
  rw [Ledger.get_resolve]
  split
  · rfl
  · rename_i kept
    simpa [Ledger.isResolved] using kept

theorem exits_of_start_eq
    (considers : recognizer.Considers workspace procedure entry)
    (atEntry : procedure.start = entry.start) :
    Exits recognizer workspace procedure
      ((recognizer.recognizeEntry workspace entry).isResolved,
        recognizer.recognizeEntry workspace entry) := by
  unfold recognizeEntry
  by_cases isExecutable : workspace.program.imageKind = .executable
  · cases primed : workspace.ledger.isPrimed workspace.program.id with
    | true =>
        have prime := workspace.ledger.prime_of_isPrimed _ primed
        simp only [isExecutable, prime, ne_eq, not_true_eq_false, if_false]
        rw [considers.unresolved]
        exact .repeatsEntry considers atEntry isExecutable primed
    | false =>
        have isFirst :=
          workspace.ledger.prime_fst_of_not_isPrimed _ considers.unresolved primed
        have prime :
            workspace.ledger.prime workspace.program.id = (true, primedLedger workspace) :=
          Prod.ext isFirst rfl
        simp only [isExecutable, prime, ne_eq, not_true_eq_false, if_false]
        by_cases tooMany :
            recognizer.settings.maxEntryCallSites <
              (workspace.program.calls.callSites entry.start).length
        · rw [if_pos tooMany, isResolved_resolve_notFound]
          exact .rejectsCallSites considers atEntry isExecutable primed tooMany
        · rw [if_neg tooMany]
          have stillOpen :
              Workspace.isResolved
                ⟨primedLedger workspace,
                  (workspace.program.priorityCallees entry.start).foldl Program.request
                    workspace.program⟩ = false := by
            rw [Program.foldl_request, isResolved_primedLedger]
            · exact considers.unresolved
            · rfl
          rw [stillOpen]
          exact .primes considers atEntry isExecutable primed (Nat.le_of_not_lt tooMany)
  · simp only [isExecutable, ne_eq, not_false_eq_true, if_true]
    rw [isResolved_resolve_notFound]
    exact .rejectsImage considers atEntry isExecutable

theorem recognize_exits
    (recognizer : Recognizer) (workspace : Workspace) (procedure : Procedure) :
    Exits recognizer workspace procedure (recognizer.recognize workspace procedure) := by
  unfold recognize
  by_cases platform : procedure.platform = recognizer.platform
  · rw [if_neg (not_not_intro platform)]
    cases resolved : workspace.isResolved with
    | true =>
        exact .isSettled platform resolved
    | false =>
        rw [if_neg Bool.false_ne_true]
        cases isEntry : workspace.program.entryProcedure? with
        | none =>
            exact .lacksEntry platform resolved isEntry
        | some entry =>
            have considers : recognizer.Considers workspace procedure entry :=
              ⟨platform, resolved, isEntry⟩
            by_cases atEntry : procedure.start = entry.start
            · simp only [atEntry, if_true]
              exact exits_of_start_eq considers atEntry
            · simp only [atEntry, if_false]
              cases verdict :
                  recognizer.panel.verdict recognizer.settings workspace.program procedure with
              | found address methods =>
                  exact .finds considers atEntry verdict
              | noProposals | conflict =>
                  exact .abstains considers atEntry (by rw [verdict]; rfl)
  · rw [if_pos platform]
    exact .declines platform

/-! ## Attempts to resolve -/

theorem resolve_eq_stored
    (unresolved : workspace.isResolved = false) (resolution : Resolution) :
    workspace.ledger.resolve workspace.program.id resolution =
      (.stored, (workspace.ledger.resolve workspace.program.id resolution).2) := by
  refine Prod.ext ?_ rfl
  rw [Ledger.resolve_fst, if_neg]
  exact Bool.eq_false_iff.mp unresolved

/-- A look attempts to resolve a program only when it is unresolved, before or after it is primed.
So the ledger never answers a look that the program is resolved already. -/
theorem Considers.resolve_fst
    (considers : recognizer.Considers workspace procedure entry) (resolution : Resolution) :
    (workspace.ledger.resolve workspace.program.id resolution).1 = .stored ∧
      ((primedLedger workspace).resolve workspace.program.id resolution).1 = .stored := by
  have stillOpen :
      Workspace.isResolved { workspace with ledger := primedLedger workspace } = false := by
    rw [isResolved_primedLedger workspace workspace.program rfl]
    exact considers.unresolved
  exact ⟨congrArg Prod.fst (resolve_eq_stored considers.unresolved resolution),
    congrArg Prod.fst (resolve_eq_stored stillOpen resolution)⟩

/-- In an unresolved program a positive verdict is stored, and named where the settings say so. -/
theorem resolveFound_of_unresolved
    (recognizer : Recognizer) (address : Word)
    (unresolved : workspace.isResolved = false) :
    recognizer.resolveFound workspace address =
      ⟨(workspace.ledger.resolve workspace.program.id (.found address)).2,
        if recognizer.settings.definesMain then
          workspace.program.infer (.plain .function mainSymbol address)
        else workspace.program⟩ := by
  unfold resolveFound
  rw [resolve_eq_stored unresolved]
  cases recognizer.settings.definesMain with
  | true => rfl
  | false => rfl

/-- After a positive verdict the ledger is the one that stored it. The branch of `resolveFound` for
programs that are resolved already is not taken by any look. -/
theorem recognize_stores_verdict
    {address : Word} {methods : List Method}
    (considers : recognizer.Considers workspace procedure entry)
    (elsewhere : procedure.start ≠ entry.start)
    (verdict :
      recognizer.panel.verdict recognizer.settings workspace.program procedure =
        .found address methods) :
    workspace.ledger.resolve workspace.program.id (.found address) =
      (.stored, (recognizer.recognize workspace procedure).2.ledger) := by
  have looked :
      recognizer.recognize workspace procedure =
        (true, recognizer.resolveFound workspace address) := by
    unfold recognize
    simp only [considers.platform, considers.unresolved, considers.isEntry, elsewhere, verdict,
      ne_eq, not_true_eq_false, Bool.false_eq_true, if_false]
  rw [looked, resolveFound_of_unresolved recognizer address considers.unresolved]
  exact resolve_eq_stored considers.unresolved (.found address)

end Recognizer

end MainLocator
