import MainLocator.Detection.Panel
import MainLocator.Proofs.TailCalls

/-!
# Procedures that the entry point does not call

What is said about a procedure that the entry point does not call comes from one heuristic, and that
one asks of the procedure only whether it is the start-up routine. So two procedures that neither
are called from there nor start the program get one verdict, whatever their code. If it is positive,
it names the place that a trampoline of the program leads to.
-/

namespace MainLocator

namespace Program

/-- No call from the entry point goes to the procedure, and its own symbol does not say that it is
the start-up routine. -/
structure IsApart (program : Program) (procedure : Procedure) : Prop where
  notCalled : ∀ reference ∈ program.referencesTo procedure.start,
    program.entryPoint ≠ some reference.procedure
  notStarter : ∀ symbol, procedure.symbol = some symbol → symbol.rawName ≠ "invoke_main"

/-- Some code of the program is a single tail call, with the constant target `target`. -/
def HasTrampoline (program : Program) (target : Word) : Prop :=
  ∃ place procedure body instruction operands,
    program.ownProcedureAt? place = some procedure ∧ procedure.body = some body ∧
      body.instructions = #[instruction] ∧ instruction.operation = .tailCall operands ∧
        body.valueOf? operands.target = some target

variable {program : Program} {procedure : Procedure}

theorem IsApart.isEntryCallee_eq_false
    (isApart : program.IsApart procedure) :
    program.isEntryCallee procedure.start = false := by
  rw [isEntryCallee]
  cases entryPoint : program.entryPoint with
  | none =>
      rfl
  | some entry =>
      simp only [List.any_eq_false, decide_eq_true_eq]
      intro reference isReference isEntry
      refine isApart.notCalled reference isReference ?_
      rw [entryPoint, isEntry]

end Program

/-! ## Heuristics without a gate -/

namespace Panel

/-- Only heuristics without a gate apply to a procedure that the entry point does not call. -/
theorem applicable_of_not_isEntryCallee
    (panel : Panel) {program : Program} {procedure : Procedure}
    (notCalled : program.isEntryCallee procedure.start = false) :
    panel.applicable program procedure = panel.heuristics.filter (!·.isGated) := by
  simp only [applicable, notCalled, Bool.false_or]

theorem proposals_standard_of_isApart
    (settings : Settings) {program : Program} {procedure : Procedure}
    (isApart : program.IsApart procedure) :
    standard.proposals settings program procedure =
      Heuristic.proposeEntryTrampoline settings program procedure := by
  have ungated : standard.heuristics.filter (!·.isGated) = [Heuristic.entryTrampoline] := rfl
  rw [proposals, applicable_of_not_isEntryCallee _ isApart.isEntryCallee_eq_false, ungated,
    List.flatMap_singleton]
  rfl

end Panel

/-! ## Trampolines -/

namespace Heuristic

theorem trampolineTarget?_eq_some_iff
    (body : Body) (target : Word) :
    trampolineTarget? body = some target ↔
      ∃ instruction operands,
        body.instructions = #[instruction] ∧ instruction.operation = .tailCall operands ∧
          body.valueOf? operands.target = some target := by
  have isLast :
      ∀ instruction, body.instructions = #[instruction] ↔
        body.size = 1 ∧ body.last? = some instruction := by
    intro instruction
    constructor
    · intro isSingle
      rw [Body.size, Body.last?, isSingle]
      exact ⟨rfl, rfl⟩
    · intro ends
      obtain ⟨isOne, last⟩ := ends
      obtain ⟨only, isSingle⟩ := Array.size_eq_one_iff.mp isOne
      rw [Body.last?, isSingle] at last
      cases last
      exact isSingle
  simp only [isLast, trampolineTarget?]
  split
  · rename_i isOne
    simp only [isOne, true_and, Body.finalTailCall?_eq_some_iff]
  · rename_i notOne
    simp [notOne]

/-- The target of a start-up routine is that of a trampoline. -/
theorem hasTrampoline_of_starterTarget?
    {program : Program} {starter : Body} {target : Word}
    (isTarget : starterTarget? program starter = some target) :
    program.HasTrampoline target := by
  simp only [starterTarget?, Option.bind_eq_bind, Option.bind_eq_some_iff] at isTarget
  obtain ⟨_, _, _, _, place, _, procedure, isProcedure, body, isBody, isTrampoline⟩ := isTarget
  obtain ⟨instruction, operands, isSingle, operation, isValue⟩ :=
    (trampolineTarget?_eq_some_iff body target).mp isTrampoline
  exact ⟨place, procedure, body, instruction, operands, isProcedure, isBody, isSingle, operation,
    isValue⟩

theorem mem_proposeEntryTrampoline
    {settings : Settings} {program : Program} {procedure : Procedure} {proposal : Proposal}
    (isProposed : proposal ∈ proposeEntryTrampoline settings program procedure) :
    proposal.method = .entryTrampoline ∧ program.HasTrampoline proposal.address := by
  obtain ⟨target, isTarget, rfl⟩ := List.mem_map.mp isProposed
  obtain ⟨starter, _, starts⟩ :=
    List.exists_of_findSome?_eq_some (Option.mem_toList.mp isTarget)
  exact ⟨rfl, hasTrampoline_of_starterTarget? starts⟩

/-- Of a procedure whose symbol does not name the start-up routine, nothing else is asked. -/
theorem starterBodies_of_isApart
    {program : Program} {left right : Procedure}
    (leftApart : program.IsApart left) (rightApart : program.IsApart right) :
    starterBodies program left = starterBodies program right := by
  have unnamed :
      ∀ {procedure : Procedure}, program.IsApart procedure →
        ¬ procedure.symbol.any (·.rawName = starterSymbol) = true := by
    intro procedure isApart isNamed
    obtain ⟨symbol, isSymbol, isStarter⟩ := (Option.any_eq_true _ _).mp isNamed
    exact isApart.notStarter symbol isSymbol (of_decide_eq_true isStarter)
  rw [starterBodies, if_neg (unnamed leftApart), starterBodies, if_neg (unnamed rightApart)]

end Heuristic

/-! ## Verdicts -/

namespace Panel

theorem verdict_standard_of_isApart
    (settings : Settings) {program : Program} {left right : Procedure}
    (leftApart : program.IsApart left) (rightApart : program.IsApart right) :
    standard.verdict settings program left = standard.verdict settings program right := by
  rw [verdict, proposals_standard_of_isApart settings leftApart, verdict,
    proposals_standard_of_isApart settings rightApart, Heuristic.proposeEntryTrampoline,
    Heuristic.starterBodies_of_isApart leftApart rightApart]
  rfl

/-- Procedures that the entry point does not call, and that do not start the program, share their
verdict. Only the heuristic without a gate is behind it, and it finds targets of trampolines. -/
theorem uncalled_procedures_share_verdict
    (settings : Settings) {program : Program} {left right : Procedure}
    (leftApart : program.IsApart left) (rightApart : program.IsApart right) :
    standard.verdict settings program left = standard.verdict settings program right ∧
      (∀ method ∈ (standard.verdict settings program left).methods, method = .entryTrampoline) ∧
        ∀ address methods,
          standard.verdict settings program left = .found address methods →
            program.HasTrampoline address := by
  have isEntryTrampoline :
      ∀ proposal ∈ standard.proposals settings program left,
        proposal.method = .entryTrampoline ∧ program.HasTrampoline proposal.address := by
    rw [proposals_standard_of_isApart settings leftApart]
    exact fun _ => Heuristic.mem_proposeEntryTrampoline
  refine ⟨verdict_standard_of_isApart settings leftApart rightApart, ?_, ?_⟩
  · intro method isMethod
    cases verdict : standard.verdict settings program left with
    | found address methods =>
        obtain ⟨_, _, rfl⟩ := (Verdict.ofProposals_eq_found_iff _ _ _).mp verdict
        rw [verdict] at isMethod
        obtain ⟨_, isBehind⟩ := List.mem_filter.mp isMethod
        obtain ⟨proposal, isProposal, rfl⟩ := List.mem_map.mp (of_decide_eq_true isBehind)
        exact (isEntryTrampoline proposal isProposal).1
    | noProposals | conflict =>
        rw [verdict] at isMethod
        cases isMethod
  · intro address methods verdict
    obtain ⟨nonempty, agree, _⟩ := (Verdict.ofProposals_eq_found_iff _ _ _).mp verdict
    obtain ⟨proposal, isProposal⟩ := List.exists_mem_of_ne_nil _ nonempty
    rw [← agree proposal isProposal]
    exact (isEntryTrampoline proposal isProposal).2

/-- It returns what a function named `wmain` returns, and is called from elsewhere. -/
def returningHelper : Procedure where
  start := 0x5000
  platform := .windowsX64
  symbol := some (.plain .function "helper" 0x5000)
  convention := some .win64
  body :=
    (Body.ofBlocks 0x5000
      [⟨0, 0x5000, .call ⟨.pointer 0x7000, [⟨.rax, 1⟩], []⟩⟩,
        ⟨0, 0x5004, .ret (.register ⟨.rax, 1⟩)⟩]
      [.ofRange .entry 0 2]).toOption

/-- Nothing but its place and platform is known. -/
def unliftedHelper : Procedure :=
  ⟨0x6000, .windowsArm64, none, none, none⟩

/-- The start-up routine reaches `0x4000` through a trampoline, and one helper calls the other. -/
def trampolineProgram : Program :=
  let starter : Procedure :=
    { start := 0x2000
      platform := .windowsX64
      symbol := none
      convention := some .win64
      body :=
        (Body.ofBlocks 0x2000 [⟨0, 0x2000, .call ⟨.pointer 0x3000, [], []⟩⟩]
          [.ofRange .entry 0 1]).toOption }
  let program : Program :=
    { id := ⟨1⟩
      platform := .windowsX64
      entryPoint := some 0x1000
      procedures := [starter, Program.stubTo 0x3000 0x4000, returningHelper] }
  program
    |>.addSymbol (.plain .function "invoke_main" 0x2000)
    |>.addSymbol (.plain .function "wmain" 0x7000)
    |>.addCall 0x1000 0x2000 ⟨0x1004, .direct⟩
    |>.addCall 0x6000 0x5000 ⟨0x6008, .direct⟩

theorem verdict_trampolineProgram :
    trampolineProgram.IsApart returningHelper ∧ trampolineProgram.IsApart unliftedHelper ∧
      standard.verdict {} trampolineProgram returningHelper = .found 0x4000 [.entryTrampoline] ∧
        standard.verdict {} trampolineProgram unliftedHelper = .found 0x4000 [.entryTrampoline] ∧
          trampolineProgram.HasTrampoline 0x4000 := by
  have helperApart : trampolineProgram.IsApart returningHelper := by
    refine ⟨by decide +kernel, fun symbol isSymbol => ?_⟩
    cases isSymbol
    decide
  have unliftedApart : trampolineProgram.IsApart unliftedHelper :=
    ⟨by decide +kernel, nofun⟩
  obtain ⟨same, _, hasTrampoline⟩ :=
    uncalled_procedures_share_verdict {} helperApart unliftedApart
  have verdict :
      standard.verdict {} trampolineProgram returningHelper = .found 0x4000 [.entryTrampoline] := by
    decide +kernel
  exact ⟨helperApart, unliftedApart, verdict, same.symm.trans verdict, hasTrampoline _ _ verdict⟩

end Panel

end MainLocator
