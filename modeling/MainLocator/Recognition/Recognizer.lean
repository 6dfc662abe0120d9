import MainLocator.Detection.Panel
import MainLocator.Program.Image
import MainLocator.Resolution.Ledger

/-!
# Recognizing main functions

A recognizer is shown the procedures of a program one by one, in any order. The procedure at the
entry point is not searched for main: it decides whether the program has a main function at all, and
asks for its callees to be analysed sooner. Any other procedure is put before the panel, and a
positive verdict resolves the program. A resolved program is left alone.
-/

namespace MainLocator

structure Recognizer where
  platform : Platform
  settings : Settings
  panel : Panel := .standard

structure Workspace where
  ledger : Ledger
  program : Program

namespace Workspace

def resolution (workspace : Workspace) : Resolution :=
  workspace.ledger.get workspace.program.id

def isResolved (workspace : Workspace) : Bool :=
  workspace.ledger.isResolved workspace.program.id

def resolve (workspace : Workspace) (resolution : Resolution) : Workspace :=
  { workspace with ledger := (workspace.ledger.resolve workspace.program.id resolution).2 }

end Workspace

/-- The procedures of the program's own platform that the call sites of `caller` call, ascending. -/
def Program.priorityCallees (program : Program) (caller : Word) : List Word :=
  (Word.ascending ((program.calls.callSites caller).flatMap program.calls.calleesAt)).filter
    fun callee => (program.ownProcedureAt? callee).isSome

namespace Recognizer

def mainSymbol : String := "main"

def imageReason (kind : ImageKind) : String :=
  "image is a " ++ kind.description

def callSiteReason (count : Nat) : String :=
  "entry point has " ++ Numeral.decimal count ++ " call sites"

/-- Looks at the entry point. Images that are no executables, and entry points with too many call
sites, have no main function. The callees of other entry points are requested once. -/
def recognizeEntry (recognizer : Recognizer) (workspace : Workspace) (entry : Procedure) :
    Workspace :=
  let program := workspace.program
  if program.imageKind ≠ .executable then
    workspace.resolve (.notFound (imageReason program.imageKind))
  else
    match workspace.ledger.prime program.id with
    | (false, _) => workspace
    | (true, ledger) =>
        let count := (program.calls.callSites entry.start).length
        if recognizer.settings.maxEntryCallSites < count then
          { workspace with ledger }.resolve (.notFound (callSiteReason count))
        else ⟨ledger, (program.priorityCallees entry.start).foldl Program.request program⟩

/-- Resolves the program, and gives the main function a symbol where the settings say so. -/
def resolveFound (recognizer : Recognizer) (workspace : Workspace) (address : Word) : Workspace :=
  match workspace.ledger.resolve workspace.program.id (.found address) with
  | (.alreadyResolved _, _) => workspace
  | (.stored, ledger) =>
      if recognizer.settings.definesMain then
        ⟨ledger, workspace.program.infer (.plain .function mainSymbol address)⟩
      else { workspace with ledger }

/-- Looks at one procedure, and tells whether the program is resolved then. Procedures of other
platforms are declined. -/
def recognize (recognizer : Recognizer) (workspace : Workspace) (procedure : Procedure) :
    Bool × Workspace :=
  if procedure.platform ≠ recognizer.platform then (false, workspace)
  else if workspace.isResolved then (true, workspace)
  else
    match workspace.program.entryProcedure? with
    | none => (false, workspace)
    | some entry =>
        if procedure.start = entry.start then
          let after := recognizer.recognizeEntry workspace entry
          (after.isResolved, after)
        else
          match recognizer.panel.verdict recognizer.settings workspace.program procedure with
          | .found address _ => (true, recognizer.resolveFound workspace address)
          | _ => (false, workspace)

/-! ## Scanning many procedures -/

/-- Looks at procedures in order up to the first after which the program is resolved. -/
def recognizeUntilResolved (recognizer : Recognizer) (workspace : Workspace) :
    List Procedure → Bool × Workspace
  | [] => (false, workspace)
  | procedure :: rest =>
      match recognizer.recognize workspace procedure with
      | (true, after) => (true, after)
      | (false, after) => recognizer.recognizeUntilResolved after rest

/-- Looks at the procedures that start at the entry point, and then at the others. -/
def scan (recognizer : Recognizer) (workspace : Workspace) (procedures : List Procedure) :
    Resolution × Workspace :=
  let isEntry := fun procedure : Procedure => some procedure.start = workspace.program.entryPoint
  let after :=
    match recognizer.recognizeUntilResolved workspace (procedures.filter isEntry) with
    | (true, after) => after
    | (false, after) =>
        (recognizer.recognizeUntilResolved after
          (procedures.filter fun procedure => ¬ isEntry procedure)).2
  (after.resolution, after)

def scanAll (recognizer : Recognizer) (workspace : Workspace) : Resolution × Workspace :=
  recognizer.scan workspace workspace.program.sortedProcedures

end Recognizer

end MainLocator
