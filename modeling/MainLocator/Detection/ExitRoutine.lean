import MainLocator.Code.Folding
import MainLocator.Program.Basic
import MainLocator.Settings

/-!
# Exit routines

A routine ends the process when its symbol says so, or when it is a stub that tail-calls a routine
that does. A stub may lead to a place without a symbol; it is then compared with the place that the
routine named `_exit` leads to.
-/

namespace MainLocator

/-- The target of the tail call that ends a body, if it is constant. -/
def Body.finalTailCall? (body : Body) : Option Word := do
  match (← body.last?).operation with
  | .tailCall operands => body.valueOf? operands.target
  | _ => none

namespace Program

/-- The target of the tail call that ends the procedure at an address. -/
def tailCallFrom? (program : Program) (address : Word) : Option Word := do
  (← (← program.ownProcedureAt? address).body).finalTailCall?

/-- The routine that stubs without a symbol are compared with. -/
def exitAnchor : String := "_exit"

/-- Whether a place without a symbol is the one that the exit anchor leads to. -/
def isAnchoredExit (program : Program) (stub : Word) : Bool :=
  match program.symbolNamed? exitAnchor with
  | some anchor => program.tailCallFrom? anchor.address = some stub
  | none => false

/-- Whether the symbol at an address names an exit routine. -/
def hasExitName (program : Program) (settings : Settings) (address : Word) : Bool :=
  (program.symbolAt? address).any fun symbol => settings.isExitName symbol.shortName

/-- Follows tail calls from `address`, at most once through each address of `unvisited`. -/
def leadsToExit
    (program : Program) (settings : Settings) (unvisited : List Word) (address : Word) : Bool :=
  program.hasExitName settings address ||
    match program.tailCallFrom? address with
    | none => false
    | some stub =>
        if (program.symbolAt? stub).isNone then program.isAnchoredExit stub
        else if address ∈ unvisited then
          program.leadsToExit settings (unvisited.erase address) stub
        else false
termination_by unvisited.length
decreasing_by
  rename_i isUnvisited
  have positive := List.length_pos_of_mem isUnvisited
  simp only [List.length_erase_of_mem isUnvisited]
  omega

/-- Whether the routine at an address ends the process. A chain of stubs that loops does not. -/
def isExitRoutine (program : Program) (settings : Settings) (address : Word) : Bool :=
  program.leadsToExit settings (program.procedures.map Procedure.start) address

theorem leadsToExit_congr
    {left right : Program}
    (symbolsAgree : left.symbolAt? = right.symbolAt?)
    (namesAgree : left.symbolNamed? = right.symbolNamed?)
    (stubsAgree : left.tailCallFrom? = right.tailCallFrom?)
    (settings : Settings) (unvisited : List Word) (address : Word) :
    left.leadsToExit settings unvisited address =
      right.leadsToExit settings unvisited address := by
  induction unvisited, address using leadsToExit.induct with
  | case1 unvisited address inductionHypothesis =>
      have namedAgree : left.hasExitName settings address = right.hasExitName settings address := by
        rw [hasExitName, hasExitName, symbolsAgree]
      have anchoredAgree : left.isAnchoredExit = right.isAnchoredExit := by
        funext stub
        rw [isAnchoredExit, isAnchoredExit, namesAgree, stubsAgree]
      rw [leadsToExit, leadsToExit, namedAgree, stubsAgree]
      cases right.tailCallFrom? address with
      | none =>
          rfl
      | some stub =>
          by_cases isUnvisited : address ∈ unvisited
          · simp [symbolsAgree, anchoredAgree, isUnvisited, inductionHypothesis]
          · simp [symbolsAgree, anchoredAgree, isUnvisited]

theorem isExitRoutine_requests
    (program : Program) (requests : List Word) (settings : Settings) :
    { program with requests := requests }.isExitRoutine settings =
      program.isExitRoutine settings := by
  funext address
  exact @leadsToExit_congr { program with requests := requests } program rfl rfl rfl
    settings _ address

end Program

end MainLocator
