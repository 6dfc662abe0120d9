import MainLocator.Code.Folding

/-!
# Flow of values

Where the value of a register can go: through copies of the register, through phis that have it as
a source, and through memory, from a store that reads it to every load from the same constant
address. `Body.flowsInto` tells whether a value can reach one of a set of registers in one or more
such steps. Every other use ends a path.
-/

namespace MainLocator

/-- One step of flow: the position of the instruction that receives the value, and the register
that it defines. -/
structure FlowStep where
  position : Nat
  receiver : RegisterVersion
  deriving DecidableEq

namespace Body

/-- The loads from a constant address into registers, extended or not, in body order. -/
def loadsFrom (body : Body) (address : Word) : List FlowStep :=
  body.instructions.toList.filterMap fun instruction =>
    match instruction.operation with
    | .assign destination source =>
        match source.stripExtension with
        | .load inner =>
            if body.valueOf? inner = some address then some ⟨instruction.index, destination⟩
            else none
        | _ => none
    | _ => none

/-- The steps that the instruction at `position` lets a value take that it reads. -/
def flowThrough (body : Body) (position : Nat) : List FlowStep :=
  match Instruction.operation <$> body.instructions[position]? with
  | some (.assign destination source) =>
      if source.isRegisterCopy then [⟨position, destination⟩] else []
  | some (.phi destination _) => [⟨position, destination⟩]
  | some (.store address _) =>
      match body.valueOf? address with
      | some address => body.loadsFrom address
      | none => []
  | _ => []

/-- The steps that the value of a register can take, by ascending position of its uses. -/
def flowFrom (body : Body) (source : RegisterVersion) : List FlowStep :=
  (body.usesOf source).flatMap body.flowThrough

end Body

structure FlowSearch where
  /-- The registers reached whose steps are still to be taken, the next one first. -/
  worklist : List RegisterVersion
  /-- The positions that no step has arrived at. -/
  unvisited : List Nat

namespace FlowSearch

/-- Takes a step, unless its position was visited before. -/
def visit (search : FlowSearch) (step : FlowStep) : FlowSearch :=
  if step.position ∈ search.unvisited then
    ⟨step.receiver :: search.worklist, search.unvisited.erase step.position⟩
  else search

/-- Bounds the registers still to be taken from the worklist: a visit adds one, and uses up a
position. -/
def measure (search : FlowSearch) : Nat :=
  2 * search.unvisited.length + search.worklist.length

theorem measure_visit_le
    (search : FlowSearch) (step : FlowStep) :
    (search.visit step).measure ≤ search.measure := by
  unfold visit
  split
  · rename_i isUnvisited
    have positive := List.length_pos_of_mem isUnvisited
    simp only [measure, List.length_cons, List.length_erase_of_mem isUnvisited]
    omega
  · exact Nat.le_refl _

theorem measure_foldl_visit_le
    (search : FlowSearch) (steps : List FlowStep) :
    (steps.foldl visit search).measure ≤ search.measure := by
  induction steps generalizing search with
  | nil => exact Nat.le_refl _
  | cons step rest inductionHypothesis =>
      exact Nat.le_trans (inductionHypothesis _) (measure_visit_le search step)

/-- The registers taken from the worklist until it is empty, in order. -/
def explored (body : Body) : FlowSearch → List RegisterVersion
  | ⟨[], _⟩ => []
  | ⟨source :: rest, unvisited⟩ =>
      source :: explored body ((body.flowFrom source).foldl visit ⟨rest, unvisited⟩)
termination_by search => search.measure
decreasing_by
  refine Nat.lt_of_le_of_lt (measure_foldl_visit_le _ _) ?_
  simp only [measure, List.length_cons]
  omega

end FlowSearch

namespace Body

/-- The registers that hold the value of `source` at some point, `source` itself first. -/
def carriers (body : Body) (source : RegisterVersion) : List RegisterVersion :=
  FlowSearch.explored body ⟨[source], List.range body.size⟩

/-- Whether the value of `source` can reach a register of `targets` in one or more steps. The
source itself counts only if its value flows back into it. -/
def flowsInto (body : Body) (targets : RegisterSet) (source : RegisterVersion) : Bool :=
  (body.carriers source).any fun carrier =>
    (body.flowFrom carrier).any (·.receiver ∈ targets)

end Body

end MainLocator
