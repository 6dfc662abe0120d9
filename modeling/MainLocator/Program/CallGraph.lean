import Std.Data.TreeMap
import MainLocator.Code.Word

/-!
# Call graphs

Calls between procedures, each with the address of the instruction that makes it. The graph is
indexed by caller and by callee, and both indexes keep calls in the order they were added,
repetitions included.
-/

namespace MainLocator

inductive CallType where
  | direct
  /-- Through a register or memory. -/
  | indirect
  /-- A jump in the place of a call. -/
  | tail
  deriving DecidableEq

structure CallSite where
  /-- The address of the calling instruction. -/
  address : Word
  type : CallType
  deriving DecidableEq

/-- The calls at one end of an edge, each with the procedure at the other end. -/
abbrev CallIndex := Std.TreeMap Word (List (Word × CallSite))

structure CallGraph where
  /-- Callees by caller. -/
  outgoing : CallIndex := ∅
  /-- Callers by callee. -/
  incoming : CallIndex := ∅

namespace CallGraph

/-- Adds a call at the end of the list of `near`. -/
def record (index : CallIndex) (near far : Word) (site : CallSite) : CallIndex :=
  index.insert near (index.getD near [] ++ [(far, site)])

theorem getD_record
    (index : CallIndex) (near far other : Word) (site : CallSite) :
    (record index near far site).getD other [] =
      index.getD other [] ++ if near = other then [(far, site)] else [] := by
  rw [record, Std.TreeMap.getD_insert]
  by_cases same : near = other
  · subst same
    simp
  · simp [same]

def addCall (graph : CallGraph) (caller callee : Word) (site : CallSite) : CallGraph where
  outgoing := record graph.outgoing caller callee site
  incoming := record graph.incoming callee caller site

/-- The procedures that `caller` calls. -/
def callees (graph : CallGraph) (caller : Word) : List (Word × CallSite) :=
  graph.outgoing.getD caller []

/-- The procedures that call `callee`. -/
def callers (graph : CallGraph) (callee : Word) : List (Word × CallSite) :=
  graph.incoming.getD callee []

/-- The addresses of the calling instructions of `caller`, ascending. -/
def callSites (graph : CallGraph) (caller : Word) : List Word :=
  Word.ascending ((graph.callees caller).map fun call => call.2.address)

/-- The procedures that the instruction at `address` calls, whatever procedure it is said to be in,
ascending. -/
def calleesAt (graph : CallGraph) (address : Word) : List Word :=
  let calls := graph.outgoing.toList.flatMap Prod.snd
  Word.ascending ((calls.filter fun call => call.2.address = address).map Prod.fst)

def edgeCount (graph : CallGraph) : Nat :=
  graph.outgoing.foldl (fun count _ calls => count + calls.length) 0

end CallGraph

end MainLocator
