import MainLocator.Detection.ExitRoutine

/-!
# Values that end the program

The registers whose value the process ends with: the first argument of every call of an exit
routine, and the value returned by every return. Which version of a register reaches a place is
looked up in the block of the place, and failing that in each block in front of it, but no further.
-/

namespace MainLocator

namespace Body

/-- The version that the last assignment or phi of `register` defines, among the instructions of a
block in front of the position `before`. -/
def lastAssignment?
    (body : Body) (block : Block) (register : Register) (before : Nat) :
    Option RegisterVersion :=
  let stop := min before block.stop
  (List.range' block.start (stop - block.start)).reverse.findSome? fun position => do
    let target ← (← body.instructions[position]?).operation.assigned?
    if target.register = register then some target else none

/-- The versions of `register` that reach a position. The terminator of a block in front is not
looked at. -/
def reachingVersions
    (body : Body) (register : Register) (position : Nat) : List RegisterVersion :=
  match body.blockAt? position with
  | none => []
  | some block =>
      match body.lastAssignment? block register position with
      | some version => [version]
      | none =>
          (block.predecessors.filterMap body.block?).filterMap fun predecessor =>
            body.lastAssignment? predecessor register (predecessor.stop - 1)

end Body

namespace Program

/-- Whether a call is one of an exit routine. -/
def callsExit
    (program : Program) (settings : Settings) (body : Body) (operands : CallOperands) : Bool :=
  (body.valueOf? operands.target).any (program.isExitRoutine settings ·)

/-- The versions that an instruction hands to the end of the program. Arguments that are already
resolved count only where they are plain reads of a register. -/
def exitValuesAt
    (program : Program) (settings : Settings) (body : Body)
    (firstArgument returnRegister : Register) (instruction : Instruction) :
    List RegisterVersion :=
  match instruction.operation with
  | .call operands =>
      if program.callsExit settings body operands then
        match operands.arguments with
        | [] => body.reachingVersions firstArgument instruction.index
        | .register version :: _ => [version]
        | _ => []
      else []
  | .ret _ => body.reachingVersions returnRegister instruction.index
  | _ => []

/-- All versions that a body hands to the end of the program. There are none under a convention that
passes no arguments in registers. -/
def exitValues
    (program : Program) (settings : Settings) (body : Body) (convention : CallingConvention) :
    RegisterSet :=
  match convention.firstArgument? with
  | none => ∅
  | some firstArgument =>
      Std.TreeSet.ofList <| body.instructions.toList.flatMap
        (program.exitValuesAt settings body firstArgument convention.returnRegister)

theorem exitValues_requests
    (program : Program) (requests : List Word) (settings : Settings) (body : Body) :
    { program with requests := requests }.exitValues settings body =
      program.exitValues settings body := by
  have callsAgree :
      { program with requests := requests }.callsExit settings body =
        program.callsExit settings body := by
    funext operands
    rw [callsExit, callsExit, isExitRoutine_requests]
  have valuesAgree :
      { program with requests := requests }.exitValuesAt settings body =
        program.exitValuesAt settings body := by
    funext firstArgument returnRegister instruction
    rw [exitValuesAt, exitValuesAt, callsAgree]
  funext convention
  rw [exitValues, exitValues, valuesAgree]

end Program

end MainLocator
