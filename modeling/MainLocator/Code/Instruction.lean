import MainLocator.Code.Expression

/-!
# Instructions

One lifted instruction: what it does, where it came from, and its position in its body. Only
assignments and phis name a register whose value they determine; a call merely overwrites its
results.
-/

namespace MainLocator

structure CallOperands where
  target : Expression
  /-- The register versions that the call overwrites, its return value among them. -/
  results : List RegisterVersion
  /-- The argument expressions, when the lifter already resolved them. -/
  arguments : List Expression
  deriving DecidableEq

namespace CallOperands

def reads (operands : CallOperands) : List RegisterVersion :=
  operands.target.reads ++ operands.arguments.flatMap Expression.reads

/-- The written form, under the given verb. The comma behind the target is always there. -/
def text (operands : CallOperands) (verb : String) : String :=
  let results :=
    if operands.results.isEmpty then ""
    else ", ".intercalate (operands.results.map RegisterVersion.text) ++ " = "
  let arguments := ", ".intercalate (operands.arguments.map Expression.text)
  results ++ verb ++ "(" ++ operands.target.text ++ ", " ++ arguments ++ ")"

end CallOperands

inductive Operation where
  | assign (destination : RegisterVersion) (source : Expression)
  /-- Takes the value of the source that control came from. -/
  | phi (destination : RegisterVersion) (sources : List RegisterVersion)
  | call (operands : CallOperands)
  /-- A call that also ends the body. -/
  | tailCall (operands : CallOperands)
  | store (address value : Expression)
  | ret (value : Expression)
  | jump (target : Expression)
  /-- Continues at another position of the body. -/
  | goto (target : Nat)
  | branch (condition : Expression) (taken skipped : Nat)
  | noReturn
  | nop
  deriving DecidableEq

namespace Operation

def callOperands? : Operation → Option CallOperands
  | call operands | tailCall operands => some operands
  | _ => none

/-- A call that returns. -/
def isCall : Operation → Bool
  | call _ => true
  | _ => false

def isTailCall : Operation → Bool
  | tailCall _ => true
  | _ => false

/-- The register version whose value this operation determines. -/
def assigned? : Operation → Option RegisterVersion
  | assign destination _ | phi destination _ => some destination
  | _ => none

/-- The register versions defined, in the order written. -/
def writes : Operation → List RegisterVersion
  | assign destination _ | phi destination _ => [destination]
  | call operands | tailCall operands => operands.results
  | _ => []

/-- The register versions read, in operand order, with repetitions. -/
def reads : Operation → List RegisterVersion
  | assign _ source => source.reads
  | phi _ sources => sources
  | call operands | tailCall operands => operands.reads
  | store address value => address.reads ++ value.reads
  | ret value => value.reads
  | jump target => target.reads
  | branch condition _ _ => condition.reads
  | goto _ | noReturn | nop => []

def text : Operation → String
  | assign destination source => destination.text ++ " = " ++ source.text
  | phi destination sources =>
      destination.text ++ " = φ(" ++ ", ".intercalate (sources.map RegisterVersion.text) ++ ")"
  | call operands => operands.text "call"
  | tailCall operands => operands.text "tailcall"
  | store address value => "[" ++ address.text ++ "] = " ++ value.text
  | ret value => "ret " ++ value.text
  | jump target => "jump " ++ target.text
  | goto target => "goto " ++ Numeral.decimal target
  | branch condition taken skipped =>
      "if (" ++ condition.text ++ ") then " ++ Numeral.decimal taken ++ " else " ++
        Numeral.decimal skipped
  | noReturn => "noreturn"
  | nop => "nop"

end Operation

structure Instruction where
  /-- The position in the body that holds the instruction. -/
  index : Nat
  address : Word
  operation : Operation
  deriving DecidableEq

end MainLocator
