import MainLocator.Code.Flow
import MainLocator.Detection.ExitValues
import MainLocator.Detection.Proposal

/-!
# Heuristics

A heuristic looks at one procedure of a program and proposes addresses of the main function. The
three standard ones know how start-up code calls it: the result of main ends the process, main is
called after the argument count is fetched, and a trampoline of one instruction leads to main.
-/

namespace MainLocator

structure Heuristic where
  method : Method
  /-- Whether the heuristic applies only to procedures that the entry point calls. -/
  isGated : Bool
  propose : Settings → Program → Procedure → List Proposal
  /-- Heuristics are not shown what was requested. -/
  ignoresRequests :
    ∀ settings program requests,
      propose settings { program with requests := requests } = propose settings program

namespace Heuristic

/-- A heuristic that proposes the same addresses for every procedure. -/
def always (method : Method) (isGated : Bool) (addresses : List Word) : Heuristic where
  method := method
  isGated := isGated
  propose _ _ _ := addresses.map fun address => ⟨method, address⟩
  ignoresRequests _ _ _ := rfl

/-! ## The result of main ends the process -/

/-- Whether the symbol at an address names a main function. -/
def isNamedMain (settings : Settings) (program : Program) (address : Word) : Bool :=
  (program.symbolAt? address).any fun symbol => settings.isMainName symbol.rawName

/-- Whether the value that a call returns flows into one of `targets`. -/
def resultFlowsInto
    (body : Body) (targets : RegisterSet) (returnRegister : Register)
    (operands : CallOperands) : Bool :=
  (operands.results.filter (·.register = returnRegister)).any (body.flowsInto targets)

/-- The calls of main functions known by name, and those whose result the process ends with. -/
def proposeReturnFlow
    (settings : Settings) (program : Program) (procedure : Procedure) : List Proposal :=
  match procedure.body, procedure.convention with
  | some body, some convention =>
      let targets := program.exitValues settings body convention
      body.instructions.toList.filterMap fun instruction => do
        let operands ← instruction.operation.callOperands?
        let callee ← body.valueOf? operands.target
        guard (isNamedMain settings program callee ||
          resultFlowsInto body targets convention.returnRegister operands)
        return ⟨.returnFlow, callee⟩
  | _, _ => []

theorem proposeReturnFlow_requests
    (settings : Settings) (program : Program) (requests : List Word) :
    proposeReturnFlow settings { program with requests := requests } =
      proposeReturnFlow settings program := by
  funext procedure
  unfold proposeReturnFlow
  cases procedure.body with
  | none => rfl
  | some body =>
      cases procedure.convention with
      | none => rfl
      | some convention =>
          dsimp only
          rw [Program.exitValues_requests]
          rfl

/-! ## Main is called after the argument count is fetched -/

/-- The short name of the routine that fetches the argument count. -/
def argumentCountSymbol : String := "__p___argc"

/-- Whether the instruction at a position is a call that fetches the argument count. -/
def fetchesArgumentCount (program : Program) (body : Body) (position : Nat) : Bool :=
  match Instruction.operation <$> body.instructions[position]? with
  | some (.call operands) =>
      ((body.valueOf? operands.target).bind program.symbolAt?).any
        fun symbol => symbol.shortName = argumentCountSymbol
  | _ => false

/-- The operands of the call at a position, if there is a call that returns. -/
def callAt? (body : Body) (position : Nat) : Option CallOperands :=
  match Instruction.operation <$> body.instructions[position]? with
  | some (.call operands) => some operands
  | _ => none

/-- The next call in the block behind the first that fetches the argument count. A callee whose
symbol names something else is no main function. -/
def proposeArgumentProbe
    (settings : Settings) (program : Program) (procedure : Procedure) : List Proposal :=
  Option.toList do
    let body ← procedure.body
    let probe ← (body.blocks.flatMap Block.positions).find? (fetchesArgumentCount program body)
    let block ← body.blockAt? probe
    let behind := List.range' (probe + 1) (block.stop - (probe + 1))
    let operands ← behind.findSome? (callAt? body)
    let callee ← body.valueOf? operands.target
    guard ((program.symbolAt? callee).all fun symbol => settings.isMainName symbol.rawName)
    return ⟨.argumentProbe, callee⟩

/-! ## A trampoline leads to main -/

/-- The raw name of the start-up routine that calls main through a trampoline. -/
def starterSymbol : String := "invoke_main"

/-- The target of a body that consists of one tail call. -/
def trampolineTarget? (body : Body) : Option Word :=
  if body.size = 1 then body.finalTailCall? else none

/-- The target of the trampoline that the last call of `starter` goes to. -/
def starterTarget? (program : Program) (starter : Body) : Option Word := do
  let call ← starter.instructions.toList.reverse.find? (·.operation.isCall)
  let trampoline ← starter.valueOf? (← call.operation.callOperands?).target
  trampolineTarget? (← (← program.ownProcedureAt? trampoline).body)

/-- The bodies of the start-up routine: that of the procedure if its own symbol says that it is the
one, and otherwise those at the address of the symbol. -/
def starterBodies (program : Program) (procedure : Procedure) : List Body :=
  if procedure.symbol.any (·.rawName = starterSymbol) then procedure.body.toList
  else
    match program.symbolNamed? starterSymbol with
    | some symbol => (program.proceduresAt symbol.address).filterMap Procedure.body
    | none => []

/-- The target of the first start-up routine that has one. -/
def proposeEntryTrampoline
    (_ : Settings) (program : Program) (procedure : Procedure) : List Proposal :=
  ((starterBodies program procedure).findSome? (starterTarget? program)).toList.map
    fun target => ⟨.entryTrampoline, target⟩

/-! ## The standard heuristics -/

def returnFlow : Heuristic where
  method := .returnFlow
  isGated := true
  propose := proposeReturnFlow
  ignoresRequests := proposeReturnFlow_requests

def argumentProbe : Heuristic where
  method := .argumentProbe
  isGated := true
  propose := proposeArgumentProbe
  ignoresRequests _ _ _ := rfl

/-- The only standard heuristic for procedures that the entry point does not call. -/
def entryTrampoline : Heuristic where
  method := .entryTrampoline
  isGated := false
  propose := proposeEntryTrampoline
  ignoresRequests _ _ _ := rfl

def standard : List Heuristic :=
  [returnFlow, argumentProbe, entryTrampoline]

/-- The standard heuristic of a method. -/
def ofMethod : Method → Heuristic
  | .returnFlow => returnFlow
  | .argumentProbe => argumentProbe
  | .entryTrampoline => entryTrampoline

end Heuristic

end MainLocator
