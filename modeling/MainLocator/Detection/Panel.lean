import MainLocator.Detection.Heuristic

/-!
# Panels of heuristics

A panel runs the heuristics that apply to a procedure and merges their proposals to one verdict.
-/

namespace MainLocator

/-- Whether some call of a procedure comes from the procedure at the entry point. -/
def Program.isEntryCallee (program : Program) (address : Word) : Bool :=
  match program.entryPoint with
  | some entry => (program.referencesTo address).any (·.procedure = entry)
  | none => false

structure Panel where
  heuristics : List Heuristic

namespace Panel

def standard : Panel := ⟨Heuristic.standard⟩

/-- The heuristics that apply to a procedure. -/
def applicable (panel : Panel) (program : Program) (procedure : Procedure) : List Heuristic :=
  panel.heuristics.filter fun heuristic =>
    program.isEntryCallee procedure.start || !heuristic.isGated

def proposals
    (panel : Panel) (settings : Settings) (program : Program) (procedure : Procedure) :
    List Proposal :=
  (panel.applicable program procedure).flatMap
    fun heuristic => heuristic.propose settings program procedure

def verdict
    (panel : Panel) (settings : Settings) (program : Program) (procedure : Procedure) : Verdict :=
  .ofProposals (panel.proposals settings program procedure)

theorem verdict_requests
    (panel : Panel) (settings : Settings) (program : Program) (requests : List Word) :
    panel.verdict settings { program with requests := requests } =
      panel.verdict settings program := by
  have applicableAgree :
      panel.applicable { program with requests := requests } = panel.applicable program :=
    rfl
  funext procedure
  simp only [verdict, proposals, applicableAgree, Heuristic.ignoresRequests]

end Panel

end MainLocator
