import Mathlib.Data.Option.Basic
import MainLocator.Detection.Heuristic
import MainLocator.Proofs.ExitValues
import MainLocator.Proofs.Flow

/-!
# Calls whose result ends the process

What the heuristic of the returned value proposes, from end to end: one address for each call that
has a constant target which is a main function by name, or whose result flows on to a value that the
process ends with. Constants, exit routines, the values that end the process and flow are all said
by rules here, and none of them by a search.
-/

namespace MainLocator

namespace Program

section Rules

variable (program : Program) (settings : Settings) (body : Body) (convention : CallingConvention)

/-- The symbol at an address has the name of a main function. -/
def NamesMain (address : Word) : Prop :=
  ∃ symbol, program.symbolAt? address = some symbol ∧ symbol.rawName ∈ settings.mainNames

/-- The process ends with the version: an exit call names it, or it reaches an end. Arguments have
to go in registers. -/
def EndsWith (version : RegisterVersion) : Prop :=
  convention.firstArgument?.isSome ∧
    (program.IsExitArgument settings body version ∨
      program.ReachesEnd settings body convention version)

/-- What the call returns flows, in one or more steps, on to a version that the process ends
with. -/
def ReturnsIntoEnd (operands : CallOperands) : Prop :=
  ∃ result ∈ operands.results,
    result.register = convention.returnRegister ∧
      ∃ ending,
        program.EndsWith settings body convention ending ∧
          Relation.TransGen body.FlowsTo result ending

/-- The call or tail call at a position has the constant target `callee`, which is main by its name
or by what becomes of its result. -/
def IsMainCall (position : Nat) (callee : Word) : Prop :=
  ∃ operands,
    (body.PerformsAt position (.call operands) ∨ body.PerformsAt position (.tailCall operands)) ∧
      body.Evaluates operands.target callee ∧
        (program.NamesMain settings callee ∨
          program.ReturnsIntoEnd settings body convention operands)

end Rules

variable {program : Program} {settings : Settings} {body : Body} {convention : CallingConvention}

theorem mem_exitValues_iff_endsWith
    (accepted : body.Accepted) (version : RegisterVersion) :
    version ∈ program.exitValues settings body convention ↔
      program.EndsWith settings body convention version := by
  rw [EndsWith]
  cases isFirst : convention.firstArgument? with
  | none =>
      rw [exitValues_of_no_firstArgument isFirst]
      simp
  | some firstArgument =>
      simp [mem_exitValues_iff accepted isFirst]

end Program

namespace Heuristic

variable {program : Program} {settings : Settings} {body : Body} {convention : CallingConvention}

theorem isNamedMain_iff (address : Word) :
    isNamedMain settings program address = true ↔ program.NamesMain settings address := by
  simp [isNamedMain, Program.NamesMain, Settings.isMainName, Option.any_eq_true]

theorem resultFlowsInto_iff
    (accepted : body.Accepted) (operands : CallOperands) :
    resultFlowsInto body (program.exitValues settings body convention) convention.returnRegister
        operands = true ↔
      program.ReturnsIntoEnd settings body convention operands := by
  simp only [resultFlowsInto, Program.ReturnsIntoEnd, List.any_eq_true, List.mem_filter,
    decide_eq_true_eq, accepted.flowsInto_eq_true_iff, Program.mem_exitValues_iff_endsWith accepted,
    and_assoc]

/-- The address that a single instruction makes the heuristic propose. -/
def mainCallee?
    (settings : Settings) (program : Program) (body : Body) (convention : CallingConvention)
    (instruction : Instruction) : Option Word := do
  let operands ← instruction.operation.callOperands?
  let callee ← body.valueOf? operands.target
  guard (isNamedMain settings program callee ||
    resultFlowsInto body (program.exitValues settings body convention) convention.returnRegister
      operands)
  return callee

/-- The calls that make the heuristic propose an address, with their positions. -/
def mainCalls
    (settings : Settings) (program : Program) (body : Body) (convention : CallingConvention) :
    List (Nat × Word) :=
  body.instructions.toList.filterMap fun instruction =>
    (mainCallee? settings program body convention instruction).map (instruction.index, ·)

theorem proposeReturnFlow_eq
    {procedure : Procedure}
    (hasBody : procedure.body = some body)
    (hasConvention : procedure.convention = some convention) :
    proposeReturnFlow settings program procedure =
      (mainCalls settings program body convention).map fun call => ⟨.returnFlow, call.2⟩ := by
  rw [proposeReturnFlow, hasBody, hasConvention, mainCalls, List.map_filterMap]
  refine List.filterMap_congr fun instruction _ => ?_
  simp only [mainCallee?, Option.bind_eq_bind, Option.map_bind, Function.comp_def, Option.pure_def,
    Option.map_some]

theorem pairwise_mainCalls
    (accepted : body.Accepted) :
    (mainCalls settings program body convention).Pairwise fun left right => left.1 < right.1 := by
  have ascending :
      body.instructions.toList.Pairwise fun left right => left.index < right.index := by
    rw [← List.pairwise_map, accepted.map_index]
    exact List.pairwise_lt_range
  refine ascending.filterMap _ fun left right inOrder leftCall isLeft rightCall isRight => ?_
  obtain ⟨_, _, rfl⟩ := Option.map_eq_some_iff.mp isLeft
  obtain ⟨_, _, rfl⟩ := Option.map_eq_some_iff.mp isRight
  exact inOrder

theorem mainCallee?_eq_some_iff
    (accepted : body.Accepted)
    {position : Nat} {instruction : Instruction}
    (found : body.instructions[position]? = some instruction) (callee : Word) :
    mainCallee? settings program body convention instruction = some callee ↔
      program.IsMainCall settings body convention position callee := by
  have isCall :
      ∀ operands, instruction.operation.callOperands? = some operands ↔
        body.PerformsAt position (.call operands) ∨
          body.PerformsAt position (.tailCall operands) := by
    intro operands
    simp only [Body.performsAt_iff_of_found found]
    cases instruction.operation with
    | call performed | tailCall performed =>
        simp [Operation.callOperands?]
    | _ =>
        simp [Operation.callOperands?]
  simp only [mainCallee?, Program.IsMainCall, Option.bind_eq_bind, Option.bind_eq_some_iff,
    accepted.valueOf?_eq_some_iff, ← isCall, ← resultFlowsInto_iff accepted, ← isNamedMain_iff]
  simp [Option.guard_eq_some']

theorem mem_mainCalls_iff
    (accepted : body.Accepted) (position : Nat) (callee : Word) :
    (position, callee) ∈ mainCalls settings program body convention ↔
      program.IsMainCall settings body convention position callee := by
  simp only [mainCalls, List.mem_filterMap, Array.mem_toList_iff, Option.map_eq_some_iff,
    Prod.mk.injEq]
  constructor
  · intro listed
    obtain ⟨instruction, member, address, isCallee, rfl, rfl⟩ := listed
    exact (mainCallee?_eq_some_iff accepted (accepted.getElem?_index member) address).mp isCallee
  · intro isMainCall
    have isPlace : ∃ operation, body.PerformsAt position operation := by
      obtain ⟨operands, performs | performs, _⟩ := isMainCall
      · exact ⟨_, performs⟩
      · exact ⟨_, performs⟩
    obtain ⟨operation, instruction, found, _⟩ := isPlace
    exact ⟨instruction, Array.mem_of_getElem? found, callee,
      (mainCallee?_eq_some_iff accepted found callee).mpr isMainCall, accepted.index_eq found, rfl⟩

/-- The proposals of a procedure are its calls of main, each once and in the order of the body. They
are none where its code or its convention is unknown. -/
theorem return_flow_lists_main_calls
    (settings : Settings) (program : Program) {procedure : Procedure}
    (accepted : ∀ body, procedure.body = some body → body.Accepted) :
    (procedure.body = none ∨ procedure.convention = none →
        proposeReturnFlow settings program procedure = []) ∧
      ∀ body convention,
        procedure.body = some body → procedure.convention = some convention →
          (∀ version,
              version ∈ program.exitValues settings body convention ↔
                program.EndsWith settings body convention version) ∧
            ∃ calls : List (Nat × Word),
              calls.Pairwise (fun left right => left.1 < right.1) ∧
                (∀ position callee,
                  (position, callee) ∈ calls ↔
                    program.IsMainCall settings body convention position callee) ∧
                  proposeReturnFlow settings program procedure =
                    calls.map fun call => ⟨.returnFlow, call.2⟩ := by
  constructor
  · intro unknown
    rw [proposeReturnFlow]
    rcases unknown with noBody | noConvention
    · rw [noBody]
    · rw [noConvention]
      cases procedure.body with
      | none => rfl
      | some body => rfl
  · intro body convention hasBody hasConvention
    have isAccepted := accepted body hasBody
    exact ⟨Program.mem_exitValues_iff_endsWith isAccepted,
      mainCalls settings program body convention, pairwise_mainCalls isAccepted,
      mem_mainCalls_iff isAccepted, proposeReturnFlow_eq hasBody hasConvention⟩

/-- The result of the first call is copied and handed to `exit`, that of the third is dropped, and
the last call goes to a function named `wmain`. -/
def startUpCode : List Instruction :=
  [⟨0, 0x1000, .call ⟨.pointer 0x4000, [⟨.rax, 1⟩], []⟩⟩,
    ⟨0, 0x1004, .assign ⟨.rcx, 1⟩ (.zeroExtend (.register ⟨.rax, 1⟩))⟩,
    ⟨0, 0x1008, .call ⟨.pointer 0x5000, [⟨.rax, 2⟩], []⟩⟩,
    ⟨0, 0x100c, .call ⟨.pointer 0x6000, [⟨.rax, 3⟩], []⟩⟩,
    ⟨0, 0x1010, .tailCall ⟨.pointer 0x7000, [], []⟩⟩]

def startUpProgram : Program :=
  Program.namedExit.addSymbol (.plain .function "wmain" 0x7000)

def startUp (body : Body) : Procedure :=
  ⟨0x1000, .windowsX64, none, some .win64, some body⟩

theorem proposals_startUp :
    ∃ body,
      Body.ofBlocks 0x1000 startUpCode [.ofRange .entry 0 5] = .ok body ∧
        proposeReturnFlow {} startUpProgram (startUp body) =
          [⟨.returnFlow, 0x4000⟩, ⟨.returnFlow, 0x7000⟩] ∧
          (∃ position, startUpProgram.IsMainCall {} body .win64 position 0x4000) ∧
            ∀ position, ¬ startUpProgram.IsMainCall {} body .win64 position 0x6000 := by
  have proposed :
      (Body.ofBlocks 0x1000 startUpCode [.ofRange .entry 0 5]).toOption.map
          (fun body => proposeReturnFlow {} startUpProgram (startUp body)) =
        some [⟨.returnFlow, 0x4000⟩, ⟨.returnFlow, 0x7000⟩] := by
    decide +kernel
  obtain ⟨body, built, proposals⟩ := Body.exists_ofBlocks_of_map_toOption proposed
  have accepted : ∀ other, (startUp body).body = some other → other.Accepted := by
    intro other isBody
    cases isBody
    exact ⟨_, _, _, built⟩
  obtain ⟨_, calls, _, isCall, listed⟩ :=
    (return_flow_lists_main_calls {} startUpProgram accepted).2 body .win64 rfl rfl
  have addresses : calls.map Prod.snd = [0x4000, 0x7000] := by
    have same := congrArg (List.map Proposal.address) (listed.symm.trans proposals)
    rwa [List.map_map] at same
  refine ⟨body, built, proposals, ?_, fun position isMain => ?_⟩
  · have member : (0x4000 : Word) ∈ calls.map Prod.snd := by
      rw [addresses]
      decide
    obtain ⟨⟨position, callee⟩, isListed, rfl⟩ := List.mem_map.mp member
    exact ⟨position, (isCall position _).mp isListed⟩
  · have member : (0x6000 : Word) ∈ calls.map Prod.snd :=
      List.mem_map.mpr ⟨_, (isCall position 0x6000).mpr isMain, rfl⟩
    rw [addresses] at member
    revert member
    decide

end Heuristic

end MainLocator
