import MainLocator.Proofs.Scanning

/-!
# What recognition adds to a program

Recognizers of any settings look at procedures and scan, on behalf of programs that share a ledger.
However often they do, a program gains at most one symbol, for the main function that was found,
and at most one batch of requests, for the callees of its entry point.
-/

namespace MainLocator

/-! ## The batch -/

namespace CallGraph

variable (graph : CallGraph)

/-- Some call of `caller` at `address` goes to `callee`. -/
def Calls (caller address callee : Word) : Prop :=
  ∃ site, (callee, site) ∈ graph.callees caller ∧ site.address = address

theorem mem_callSites_iff (caller address : Word) :
    address ∈ graph.callSites caller ↔ ∃ callee, graph.Calls caller address callee := by
  unfold callSites Calls
  simp only [Word.mem_ascending_iff, List.mem_map, Prod.exists]

theorem mem_calleesAt_iff (address callee : Word) :
    callee ∈ graph.calleesAt address ↔ ∃ caller, graph.Calls caller address callee := by
  have mem_outgoing_iff (caller : Word) (calls : List (Word × CallSite)) :
      (caller, calls) ∈ graph.outgoing.toList ↔ graph.outgoing[caller]? = some calls :=
    Std.TreeMap.mem_toList_iff_getElem?_eq_some
  unfold calleesAt Calls callees
  simp only [Word.mem_ascending_iff, List.mem_map, List.mem_filter, List.mem_flatMap,
    decide_eq_true_eq, Std.TreeMap.getD_eq_getD_getElem?]
  constructor
  · intro condition
    obtain ⟨⟨_, site⟩, ⟨⟨⟨caller, calls⟩, isEntry, member⟩, atAddress⟩, rfl⟩ := condition
    have found := (mem_outgoing_iff caller calls).mp isEntry
    exact ⟨caller, site, by simpa [found] using member, atAddress⟩
  · intro condition
    obtain ⟨caller, site, member, atAddress⟩ := condition
    cases found : graph.outgoing[caller]? with
    | none =>
        simp [found] at member
    | some calls =>
        have isEntry := (mem_outgoing_iff caller calls).mpr found
        exact ⟨(callee, site),
          ⟨⟨(caller, calls), isEntry, by simpa [found] using member⟩, atAddress⟩, rfl⟩

end CallGraph

namespace Program

variable (program : Program) (entry : Procedure)

/-- The batch has the procedures that are called where the entry point makes a call and that have
been analysed for the program's own platform, by strictly ascending address. -/
structure IsEntryBatch (batch : List Word) : Prop where
  ascends : batch.Pairwise (· < ·)
  mem_iff :
    ∀ callee, callee ∈ batch ↔
      (∃ address caller other,
          program.calls.Calls entry.start address other ∧
            program.calls.Calls caller address callee) ∧
        ∃ procedure ∈ program.procedures,
          procedure.start = callee ∧ procedure.platform = program.platform

theorem isSome_ownProcedureAt?_iff (address : Word) :
    (program.ownProcedureAt? address).isSome = true ↔
      ∃ procedure ∈ program.procedures,
        procedure.start = address ∧ procedure.platform = program.platform := by
  unfold ownProcedureAt? procedureAt? proceduresAt
  simp only [List.find?_isSome, List.mem_filter, decide_eq_true_eq, and_assoc]

theorem isEntryBatch_priorityCallees :
    program.IsEntryBatch entry (program.priorityCallees entry.start) where
  ascends := (Word.pairwise_ascending _).filter _
  mem_iff := by
    intro callee
    unfold priorityCallees
    simp only [List.mem_filter, Word.mem_ascending_iff, List.mem_flatMap,
      CallGraph.mem_callSites_iff, CallGraph.mem_calleesAt_iff, isSome_ownProcedureAt?_iff]
    apply and_congr_left
    intro _
    constructor
    · intro condition
      obtain ⟨address, ⟨other, fromEntry⟩, caller, toCallee⟩ := condition
      exact ⟨address, caller, other, fromEntry, toCallee⟩
    · intro condition
      obtain ⟨address, caller, other, fromEntry, toCallee⟩ := condition
      exact ⟨address, ⟨other, fromEntry⟩, caller, toCallee⟩

end Program

/-! ## What a program has gained -/

/-- The program is `original` but for symbols and requests, of which it has at most those that one
success and one first look at the entry point leave behind. -/
structure Records (original : Program) (ledger : Ledger) (program : Program) : Prop where
  kept :
    program =
      { original with
        inferredSymbols := program.inferredSymbols
        requests := program.requests }
  symbols :
    program.inferredSymbols = [] ∨
      ∃ address,
        program.inferredSymbols = [.plain .function Recognizer.mainSymbol address] ∧
          ledger.get original.id = .found address
  requests :
    program.requests = [] ∨
      (ledger.isResolved original.id = true ∨ ledger.isPrimed original.id = true) ∧
        ∃ entry,
          original.entryProcedure? = some entry ∧
            program.requests = original.priorityCallees entry.start

namespace Records

variable {original program : Program} {ledger later : Ledger}

theorem id_eq (records : Records original ledger program) :
    program.id = original.id := by
  rw [records.kept]

theorem entryProcedure?_eq (records : Records original ledger program) :
    program.entryProcedure? = original.entryProcedure? := by
  rw [records.kept]
  rfl

theorem priorityCallees_eq (records : Records original ledger program) :
    program.priorityCallees = original.priorityCallees := by
  rw [records.kept]
  rfl

theorem inferredSymbols_eq_nil
    (records : Records original ledger program)
    (unresolved : ledger.isResolved original.id = false) :
    program.inferredSymbols = [] := by
  rcases records.symbols with none | ⟨address, _, found⟩
  · exact none
  · have notFound := (Ledger.isResolved_eq_false_iff ledger original.id).mp unresolved
    rw [notFound] at found
    exact absurd found nofun

theorem requests_eq_nil
    (records : Records original ledger program)
    (unresolved : ledger.isResolved original.id = false)
    (unprimed : ledger.isPrimed original.id = false) :
    program.requests = [] := by
  rcases records.requests with none | ⟨resolved | primed, _⟩
  · exact none
  · exact absurd (unresolved.symm.trans resolved) Bool.false_ne_true
  · exact absurd (unprimed.symm.trans primed) Bool.false_ne_true

theorem of_nil
    (noSymbols : original.inferredSymbols = []) (noRequests : original.requests = []) :
    Records original ledger original where
  kept := rfl
  symbols := .inl noSymbols
  requests := .inl noRequests

/-- Only the ledger's share of the program counts. -/
theorem of_agree
    (records : Records original ledger program)
    (getAgrees : later.get original.id = ledger.get original.id)
    (primedAgrees : later.isPrimed original.id = ledger.isPrimed original.id) :
    Records original later program where
  kept := records.kept
  symbols := by
    rw [getAgrees]
    exact records.symbols
  requests := by
    have resolvedAgrees : later.isResolved original.id = ledger.isResolved original.id :=
      congrArg Resolution.isFinal getAgrees
    rw [resolvedAgrees, primedAgrees]
    exact records.requests

theorem of_isResolved
    (records : Records original ledger program)
    (unresolved : ledger.isResolved original.id = false)
    (resolved : later.isResolved original.id = true) :
    Records original later program where
  kept := records.kept
  symbols := .inl (records.inferredSymbols_eq_nil unresolved)
  requests := by
    rcases records.requests with none | ⟨_, batch⟩
    · exact .inl none
    · exact .inr ⟨.inl resolved, batch⟩

end Records

/-! ## One look -/

namespace Recognizer

variable {recognizer : Recognizer} {original : Program} {workspace : Workspace}
  {procedure entry : Procedure}

theorem records_primes
    (records : Records original workspace.ledger workspace.program)
    (considers : recognizer.Considers workspace procedure entry)
    (unprimed : workspace.ledger.isPrimed workspace.program.id = false) :
    Records original (primedLedger workspace)
      ((workspace.program.priorityCallees entry.start).foldl Program.request
        workspace.program) := by
  have unresolved : workspace.ledger.isResolved original.id = false := by
    rw [← records.id_eq]
    exact considers.unresolved
  have noSymbols := records.inferredSymbols_eq_nil unresolved
  have noRequests := records.requests_eq_nil unresolved (records.id_eq ▸ unprimed)
  have primed : (primedLedger workspace).isPrimed original.id = true := by
    rw [primedLedger, Ledger.isPrimed_prime, records.id_eq, unresolved]
    simp
  have isEntry := records.entryProcedure?_eq.symm.trans considers.isEntry
  rw [Program.foldl_request, noRequests, List.nil_append, records.priorityCallees_eq]
  refine ⟨?_, .inl noSymbols, .inr ⟨.inr primed, entry, isEntry, rfl⟩⟩
  rw [records.kept]

theorem records_resolveFound
    (records : Records original workspace.ledger workspace.program)
    (unresolved : workspace.isResolved = false) (address : Word) :
    Records original (recognizer.resolveFound workspace address).ledger
      (recognizer.resolveFound workspace address).program := by
  have unresolvedId : workspace.ledger.isResolved original.id = false := by
    rw [← records.id_eq]
    exact unresolved
  have found :
      (workspace.ledger.resolve original.id (.found address)).2.get original.id =
        .found address :=
    Ledger.get_resolve_self _ _ _ unresolvedId
  have resolved :
      (workspace.ledger.resolve original.id (.found address)).2.isResolved original.id = true :=
    congrArg Resolution.isFinal found
  have noSymbols := records.inferredSymbols_eq_nil unresolvedId
  have unnamed := records.of_isResolved unresolvedId resolved
  rw [resolveFound_of_unresolved recognizer address unresolved, records.id_eq]
  by_cases definesMain : recognizer.settings.definesMain = true
  · rw [if_pos definesMain]
    refine ⟨?_, .inr ⟨address, ?_, found⟩, unnamed.requests⟩
    · rw [records.kept]
      rfl
    · change workspace.program.inferredSymbols ++ _ = _
      rw [noSymbols, List.nil_append]
  · rw [if_neg definesMain]
    exact unnamed

theorem records_recognize
    (records : Records original workspace.ledger workspace.program)
    (procedure : Procedure) :
    Records original (recognizer.recognize workspace procedure).2.ledger
      (recognizer.recognize workspace procedure).2.program := by
  have givesUp {after : Workspace} {reason : String}
      (unresolved : workspace.isResolved = false)
      (resolution : after.resolution = .notFound reason)
      (programKept : after.program = workspace.program) :
      Records original after.ledger after.program := by
    have resolved : after.isResolved = true := congrArg Resolution.isFinal resolution
    rw [programKept]
    apply records.of_isResolved
    · rw [← records.id_eq]
      exact unresolved
    · rw [← records.id_eq, ← programKept]
      exact resolved
  have exits := recognizer.recognize_exits workspace procedure
  generalize recognizer.recognize workspace procedure = result at exits
  cases exits with
  | declines _ => exact records
  | isSettled _ _ => exact records
  | lacksEntry _ _ _ => exact records
  | repeatsEntry _ _ _ _ => exact records
  | abstains _ _ _ => exact records
  | rejectsImage considers _ _ =>
      exact givesUp considers.unresolved (resolution_resolve considers.unresolved _) rfl
  | rejectsCallSites considers _ _ _ _ =>
      exact givesUp considers.unresolved (resolution_resolve_primed considers.unresolved _) rfl
  | primes considers _ _ unprimed _ =>
      exact records_primes records considers unprimed
  | finds considers _ _ =>
      exact records_resolveFound records considers.unresolved _

/-! ## Many looks -/

theorem records_recognizeEach
    (recognizer : Recognizer) (workspace : Workspace) (procedures : List Procedure)
    (records : Records original workspace.ledger workspace.program) :
    Records original (recognizer.recognizeEach workspace procedures).ledger
      (recognizer.recognizeEach workspace procedures).program := by
  induction procedures generalizing workspace with
  | nil =>
      exact records
  | cons head tail inductionHypothesis =>
      rw [recognizeEach_cons]
      exact inductionHypothesis _ (records_recognize records head)

theorem id_recognizeEach
    (recognizer : Recognizer) (workspace : Workspace) (procedures : List Procedure) :
    (recognizer.recognizeEach workspace procedures).program.id = workspace.program.id := by
  induction procedures generalizing workspace with
  | nil =>
      rfl
  | cons head tail inductionHypothesis =>
      have headKept := (recognizer.recognize_lawfulStep workspace head).programKept
      rw [recognizeEach_cons, inductionHypothesis, headKept]

theorem agreesOutside_recognizeEach
    (recognizer : Recognizer) (workspace : Workspace) (procedures : List Procedure) :
    Ledger.AgreesOutside workspace.program.id
      (recognizer.recognizeEach workspace procedures).ledger workspace.ledger := by
  induction procedures generalizing workspace with
  | nil =>
      exact .refl _ _
  | cons head tail inductionHypothesis =>
      have headLawful := recognizer.recognize_lawfulStep workspace head
      have sameId : (recognizer.recognize workspace head).2.program.id = workspace.program.id :=
        id_recognizeEach recognizer workspace [head]
      have tailAgrees := inductionHypothesis (recognizer.recognize workspace head).2
      rw [sameId] at tailAgrees
      rw [recognizeEach_cons]
      exact tailAgrees.trans headLawful.othersKept

end Recognizer

/-! ## Runs -/

/-- What a recognizer is asked to do for a program. -/
inductive Act where
  | look (procedure : Procedure)
  | scan (procedures : List Procedure)

namespace Act

def perform (recognizer : Recognizer) (workspace : Workspace) : Act → Workspace
  | look procedure => (recognizer.recognize workspace procedure).2
  | scan procedures => (recognizer.scan workspace procedures).2

theorem exists_perform_eq_recognizeEach
    (act : Act) (recognizer : Recognizer) (workspace : Workspace) :
    ∃ procedures, act.perform recognizer workspace =
      recognizer.recognizeEach workspace procedures := by
  cases act with
  | look procedure => exact ⟨[procedure], rfl⟩
  | scan procedures => exact ⟨_, recognizer.scan_snd workspace procedures⟩

end Act

/-- An act of a recognizer for the program at a place. -/
structure Errand where
  recognizer : Recognizer
  place : Nat
  act : Act

namespace Host

def perform (host : Host) (errand : Errand) : Host :=
  match host.programs[errand.place]? with
  | none => host
  | some program =>
      let after := errand.act.perform errand.recognizer ⟨host.ledger, program⟩
      ⟨after.ledger, host.programs.set errand.place after.program⟩

def performAll (host : Host) (errands : List Errand) : Host :=
  errands.foldl perform host

/-- No program at another place shares the identity. -/
def IsAlone (host : Host) (place : Nat) (id : ProgramId) : Prop :=
  ∀ other program, host.programs[other]? = some program → program.id = id → other = place

/-- The program at a place has grown out of `original`. -/
structure Tracks (host : Host) (place : Nat) (original : Program) : Prop where
  records : ∃ program,
    host.programs[place]? = some program ∧ Records original host.ledger program
  isAlone : host.IsAlone place original.id

variable {host : Host} {place : Nat} {original : Program}

theorem Tracks.perform
    (tracks : host.Tracks place original) (errand : Errand) :
    (host.perform errand).Tracks place original := by
  unfold Host.perform
  cases isThere : host.programs[errand.place]? with
  | none =>
      exact tracks
  | some acting =>
      obtain ⟨procedures, looks⟩ :=
        errand.act.exists_perform_eq_recognizeEach errand.recognizer ⟨host.ledger, acting⟩
      have sameId := errand.recognizer.id_recognizeEach ⟨host.ledger, acting⟩ procedures
      have inBounds : errand.place < host.programs.length :=
        (List.getElem?_eq_some_iff.mp isThere).1
      obtain ⟨program, isHere, records⟩ := tracks.records
      simp only [looks]
      refine ⟨?_, ?_⟩
      · by_cases samePlace : errand.place = place
        · subst samePlace
          obtain rfl := Option.some.inj (isThere.symm.trans isHere)
          refine ⟨_, List.getElem?_set_self inBounds, ?_⟩
          exact errand.recognizer.records_recognizeEach ⟨host.ledger, acting⟩ procedures records
        · have otherId : original.id ≠ acting.id := by
            intro shared
            exact samePlace (tracks.isAlone errand.place acting isThere shared.symm)
          obtain ⟨getAgrees, primedAgrees⟩ :=
            errand.recognizer.agreesOutside_recognizeEach ⟨host.ledger, acting⟩ procedures
              original.id otherId
          refine ⟨program, ?_, records.of_agree getAgrees primedAgrees⟩
          rw [List.getElem?_set_ne samePlace]
          exact isHere
      · intro other found isFound shared
        by_cases acts : errand.place = other
        · subst acts
          rw [List.getElem?_set_self inBounds] at isFound
          obtain rfl := Option.some.inj isFound
          exact tracks.isAlone errand.place acting isThere (sameId.symm.trans shared)
        · rw [List.getElem?_set_ne acts] at isFound
          exact tracks.isAlone other found isFound shared

theorem Tracks.performAll
    (tracks : host.Tracks place original) (errands : List Errand) :
    (host.performAll errands).Tracks place original := by
  induction errands generalizing host with
  | nil =>
      exact tracks
  | cons errand rest inductionHypothesis =>
      exact inductionHypothesis (tracks.perform errand)

/-- A program without symbols and requests of its own gains, over any run, no symbol or the one of
the main function that the ledger has then, and no request or the one batch for its entry point.
The looks of a scan may also come one by one, so this holds inside of scans, too. -/
theorem additions_are_made_once
    (isThere : host.programs[place]? = some original)
    (isAlone : host.IsAlone place original.id)
    (noSymbols : original.inferredSymbols = []) (noRequests : original.requests = [])
    (errands : List Errand) :
    ∃ program, (host.performAll errands).programs[place]? = some program ∧
      (program.inferredSymbols = [] ∨
        ∃ address,
          program.inferredSymbols = [.plain .function "main" address] ∧
            (host.performAll errands).ledger.get original.id = .found address) ∧
      (program.requests = [] ∨
        ∃ entry,
          original.entryProcedure? = some entry ∧
            original.IsEntryBatch entry program.requests) := by
  have tracks : host.Tracks place original :=
    ⟨⟨original, isThere, .of_nil noSymbols noRequests⟩, isAlone⟩
  obtain ⟨program, isHere, records⟩ := (tracks.performAll errands).records
  refine ⟨program, isHere, records.symbols, ?_⟩
  rcases records.requests with none | ⟨_, entry, isEntry, batch⟩
  · exact .inl none
  · right
    refine ⟨entry, isEntry, ?_⟩
    rw [batch]
    exact original.isEntryBatch_priorityCallees entry

def crowdedHost : Host :=
  ⟨{}, [Recognizer.crowdedProgram]⟩

/-- The entry point passes the first recognizer, and is no longer heard by the second. -/
def crowdedErrands : List Errand :=
  [⟨Recognizer.lenientRecognizer, 0, .look Recognizer.crowdedEntry⟩,
    ⟨Recognizer.crowdedRecognizer, 0, .look Recognizer.crowdedEntry⟩,
    ⟨Recognizer.lenientRecognizer, 0,
      .scan [Recognizer.wideStarter, Recognizer.crowdedEntry]⟩,
    ⟨Recognizer.crowdedRecognizer, 0, .look Recognizer.crowdedEntry⟩]

theorem additions_crowdedHost :
    crowdedHost.programs[0]? = some Recognizer.crowdedProgram ∧
      crowdedHost.IsAlone 0 Recognizer.crowdedProgram.id ∧
      Recognizer.crowdedProgram.inferredSymbols = [] ∧
      Recognizer.crowdedProgram.requests = [] ∧
      (∃ program, (crowdedHost.performAll crowdedErrands).programs[0]? = some program ∧
        program.inferredSymbols = [.plain .function "main" 0x140004000] ∧
        program.requests = [0x140002000]) ∧
      Recognizer.crowdedProgram.IsEntryBatch Recognizer.crowdedEntry [0x140002000] := by
  have isThere : crowdedHost.programs[0]? = some Recognizer.crowdedProgram := rfl
  have isAlone : crowdedHost.IsAlone 0 Recognizer.crowdedProgram.id := by
    intro other program isOther _
    cases other with
    | zero => rfl
    | succ other => simp [crowdedHost] at isOther
  have gained :
      (crowdedHost.performAll crowdedErrands).programs.map
          (fun program => (program.inferredSymbols, program.requests)) =
        [([.plain .function "main" 0x140004000], [0x140002000])] := by
    decide +kernel
  obtain ⟨program, isHere, symbols, requests⟩ :=
    additions_are_made_once isThere isAlone rfl rfl crowdedErrands
  have gainedHere :
      (program.inferredSymbols, program.requests) =
        ([.plain .function "main" 0x140004000], [0x140002000]) := by
    have atPlace := congrArg (·[0]?) gained
    simpa [isHere] using atPlace
  obtain ⟨symbolGained, requestGained⟩ := Prod.mk.inj gainedHere
  refine ⟨isThere, isAlone, rfl, rfl, ⟨program, isHere, symbolGained, requestGained⟩, ?_⟩
  rw [requestGained] at requests
  rcases requests with none | ⟨entry, isEntry, batch⟩
  · exact absurd none (List.cons_ne_nil _ _)
  · obtain rfl := Option.some.inj (isEntry.symm.trans Recognizer.rulesOut_crowdedProgram.isEntry)
    exact batch

end Host

end MainLocator
