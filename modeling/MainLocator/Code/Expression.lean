import MainLocator.Code.Register

/-!
# Expressions

The values that lifted instructions compute. `Expression.constant?` evaluates an expression that
reads no register; reading registers through their definitions is the work of `Code.Folding`.
-/

namespace MainLocator

inductive Expression where
  | const (value : Word)
  /-- A constant known to be a code or data address. -/
  | pointer (value : Word)
  | register (source : RegisterVersion)
  /-- Reads only the part of `whole` that the register `part` names. -/
  | partialRegister (whole : RegisterVersion) (part : Register)
  | zeroExtend (operand : Expression)
  | signExtend (operand : Expression)
  | load (address : Expression)
  | add (left right : Expression)
  | subtract (left right : Expression)
  /-- A value that the lifter could not express. -/
  | undefined
  deriving DecidableEq

namespace Expression

/-- Removes one extension, if the expression is one. -/
def stripExtension : Expression → Expression
  | zeroExtend operand | signExtend operand => operand
  | expression => expression

/-- Reads a whole register, or extends a read of a register or of a part of one. -/
def isRegisterCopy : Expression → Bool
  | register _ => true
  | zeroExtend (register _) | signExtend (register _) => true
  | zeroExtend (partialRegister _ _) | signExtend (partialRegister _ _) => true
  | _ => false

/-- The value of an expression that reads neither registers nor memory. Extensions keep it. -/
def constant? : Expression → Option Word
  | const value | pointer value => some value
  | zeroExtend operand | signExtend operand => operand.constant?
  | add left right => do return (← left.constant?) + (← right.constant?)
  | subtract left right => do return (← left.constant?) - (← right.constant?)
  | register _ | partialRegister _ _ | load _ | undefined => none

/-- The register versions read, from left to right, with repetitions. -/
def reads : Expression → List RegisterVersion
  | register source => [source]
  | partialRegister whole _ => [whole]
  | zeroExtend operand | signExtend operand => operand.reads
  | load address => address.reads
  | add left right | subtract left right => left.reads ++ right.reads
  | const _ | pointer _ | undefined => []

def text : Expression → String
  | const value => Word.text value
  | pointer value => "&" ++ Word.text value
  | register source => source.text
  | partialRegister whole part => whole.text ++ "." ++ part.text
  | zeroExtend operand => "zx(" ++ operand.text ++ ")"
  | signExtend operand => "sx(" ++ operand.text ++ ")"
  | load address => "[" ++ address.text ++ "]"
  | add left right => "(" ++ left.text ++ " + " ++ right.text ++ ")"
  | subtract left right => "(" ++ left.text ++ " - " ++ right.text ++ ")"
  | undefined => "undefined"

end Expression

end MainLocator
