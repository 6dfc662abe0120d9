import MainLocator.Code.Body

/-!
# Folding to constants

`Body.valueOf?` evaluates an expression to a constant by following register reads back through their
definitions. A phi has a value when it has sources and all of them have the same value. A register
whose definitions lead back to itself has none.

Every definition is folded at most once: the finished ones are remembered with their result, the
absence of a value included, and one that is met again while it is being folded has no value there.
-/

namespace MainLocator

/-- What a run of folding has done so far. -/
structure Folding where
  /-- The registers whose definitions were folded, the latest first, with their values. -/
  finished : List (RegisterVersion × Option Word) := []
  /-- The registers whose definitions are being folded, the innermost first. -/
  pending : List RegisterVersion := []

namespace Folding

/-- A step of folding: it may have no value, and keeps what it has done in either case. -/
abbrev Step := OptionT (StateM Folding) Word

def give (value : Option Word) : Step :=
  OptionT.mk (pure value)

/-- Starts on the definition of `target`. -/
def enter (target : RegisterVersion) (folding : Folding) : Folding :=
  { folding with pending := target :: folding.pending }

/-- Ends the definition of `target`, which turned out to have `value`. -/
def leave (target : RegisterVersion) (value : Option Word) (folding : Folding) : Folding :=
  ⟨(target, value) :: folding.finished, folding.pending.erase target⟩

end Folding

open Folding (Step)

/-- Folds an expression, given how to fold a register. The right operand is folded only if the left
one has a value. -/
def Expression.fold (resolve : RegisterVersion → Step) : Expression → Step
  | const value | pointer value => pure value
  | zeroExtend operand | signExtend operand => operand.fold resolve
  | add left right => do return (← left.fold resolve) + (← right.fold resolve)
  | subtract left right => do return (← left.fold resolve) - (← right.fold resolve)
  | register source => resolve source
  | partialRegister _ _ | load _ | undefined => failure

namespace Folding

/-- Folds the sources of a phi up to the first that has no value or another value than `agreed`,
the value of those in front of it. -/
def agree
    (resolve : RegisterVersion → Step) (agreed : Option Word) :
    List RegisterVersion → Step
  | [] => give agreed
  | source :: rest => do
      let value ← resolve source
      if agreed.any (· ≠ value) then failure
      else agree resolve (some value) rest

def definition (resolve : RegisterVersion → Step) : Option Operation → Step
  | some (.assign _ source) => source.fold resolve
  | some (.phi _ sources) => agree resolve none sources
  | _ => failure

/-- Folds a register through at most `depth` definitions inside each other. -/
def register (body : Body) : Nat → RegisterVersion → Step
  | 0, _ => failure
  | depth + 1, target => do
      let folding ← get
      match folding.finished.lookup target with
      | some value => give value
      | none =>
          if target ∈ folding.pending then failure
          else
            set (folding.enter target)
            let operation := Instruction.operation <$> body.definition? target
            let value ← OptionT.lift (definition (register body depth) operation).run
            modify (leave target value)
            give value

end Folding

namespace Body

/-- Folds an expression. Definitions inside each other are those of different registers, so there
are never more of them than instructions, and one register more that nothing defines. -/
def fold (body : Body) (expression : Expression) : Step :=
  expression.fold (Folding.register body (body.size + 1))

/-- The constant that an expression always has in the body, if folding finds one. -/
def valueOf? (body : Body) (expression : Expression) : Option Word :=
  ((body.fold expression).run {}).1

end Body

end MainLocator
