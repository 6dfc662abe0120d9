import Mathlib.Logic.Relation
import MainLocator.Detection.ExitRoutine

/-!
# Chains of tail calls

Which routines end the process, said by rules and without an order of visits. A derivation is
finite, so a chain of stubs that comes back to itself derives nothing. This is why
`Program.isExitRoutine` may stop at an address that it has seen before, and agrees with the rules.
-/

namespace MainLocator

namespace Body

theorem finalTailCall?_eq_some_iff
    (body : Body) (target : Word) :
    body.finalTailCall? = some target ↔
      ∃ instruction operands,
        body.last? = some instruction ∧ instruction.operation = .tailCall operands ∧
          body.valueOf? operands.target = some target := by
  rw [finalTailCall?, Option.bind_eq_bind, Option.bind_eq_some_iff]
  constructor
  · intro found
    obtain ⟨instruction, isLast, isValue⟩ := found
    cases operation : instruction.operation with
    | tailCall operands =>
        rw [operation] at isValue
        exact ⟨instruction, operands, isLast, operation, isValue⟩
    | _ =>
        rw [operation] at isValue
        cases isValue
  · intro ends
    obtain ⟨instruction, operands, isLast, operation, isValue⟩ := ends
    refine ⟨instruction, isLast, ?_⟩
    rw [operation]
    exact isValue

end Body

namespace Program

section Rules

variable (program : Program) (settings : Settings)

/-- The code at `address` ends in a tail call with the constant target `target`. -/
def TailCalls (address target : Word) : Prop :=
  ∃ procedure body instruction operands,
    program.ownProcedureAt? address = some procedure ∧ procedure.body = some body ∧
      body.last? = some instruction ∧ instruction.operation = .tailCall operands ∧
        body.valueOf? operands.target = some target

/-- The symbol at an address has the name of an exit routine. -/
def NamesExit (address : Word) : Prop :=
  ∃ symbol, program.symbolAt? address = some symbol ∧ symbol.shortName ∈ settings.exitNames

/-- The place has no symbol, and the routine named `_exit` tail-calls it. -/
def AnchorsExit (place : Word) : Prop :=
  program.symbolAt? place = none ∧
    ∃ anchor, program.symbolNamed? "_exit" = some anchor ∧ program.TailCalls anchor.address place

/-- The routine at an address ends the process by finitely many uses of these rules. -/
inductive EndsProcess : Word → Prop where
  | named {address : Word} :
      program.NamesExit settings address →
      EndsProcess address
  | stub {address target : Word} :
      program.TailCalls address target →
      (program.symbolAt? target).isSome →
      EndsProcess target →
      EndsProcess address
  | anchored {address target : Word} :
      program.TailCalls address target →
      program.AnchorsExit target →
      EndsProcess address

/-- Following the chain goes on from `address` to `target`. -/
def Continues (address target : Word) : Prop :=
  ¬ program.NamesExit settings address ∧ program.TailCalls address target ∧
    (program.symbolAt? target).isSome

end Rules

variable {program : Program} {settings : Settings}

/-! ## Tail calls and names -/

theorem tailCallFrom?_eq_some_iff
    (address target : Word) :
    program.tailCallFrom? address = some target ↔ program.TailCalls address target := by
  simp only [tailCallFrom?, Option.bind_eq_bind, Option.bind_eq_some_iff,
    Body.finalTailCall?_eq_some_iff]
  constructor
  · intro found
    obtain ⟨procedure, isProcedure, body, isBody, instruction, operands, ends⟩ := found
    exact ⟨procedure, body, instruction, operands, isProcedure, isBody, ends⟩
  · intro calls
    obtain ⟨procedure, body, instruction, operands, isProcedure, isBody, ends⟩ := calls
    exact ⟨procedure, isProcedure, body, isBody, instruction, operands, ends⟩

theorem TailCalls.unique
    {address left right : Word}
    (leftCalls : program.TailCalls address left) (rightCalls : program.TailCalls address right) :
    left = right := by
  rw [← tailCallFrom?_eq_some_iff] at leftCalls rightCalls
  rw [leftCalls] at rightCalls
  exact Option.some.inj rightCalls

theorem TailCalls.mem_starts
    {address target : Word}
    (calls : program.TailCalls address target) :
    address ∈ program.procedures.map Procedure.start := by
  obtain ⟨procedure, _, _, _, isProcedure, _⟩ := calls
  rw [ownProcedureAt?, procedureAt?, proceduresAt] at isProcedure
  have member := List.mem_of_find?_eq_some isProcedure
  simp only [List.mem_filter, decide_eq_true_eq] at member
  exact List.mem_map.mpr ⟨procedure, member⟩

theorem hasExitName_iff (address : Word) :
    program.hasExitName settings address = true ↔ program.NamesExit settings address := by
  simp [hasExitName, NamesExit, Settings.isExitName, Option.any_eq_true]

theorem isAnchoredExit_iff
    {place : Word}
    (unnamed : program.symbolAt? place = none) :
    program.isAnchoredExit place = true ↔ program.AnchorsExit place := by
  rw [isAnchoredExit, AnchorsExit, exitAnchor]
  cases program.symbolNamed? "_exit" with
  | none =>
      simp
  | some anchor =>
      simp [unnamed, tailCallFrom?_eq_some_iff]

/-! ## Following a chain -/

theorem endsProcess_of_leadsToExit
    (unvisited : List Word) (address : Word)
    (leads : program.leadsToExit settings unvisited address = true) :
    program.EndsProcess settings address := by
  induction unvisited, address using leadsToExit.induct with
  | case1 unvisited address inductionHypothesis =>
      rw [leadsToExit, Bool.or_eq_true, hasExitName_iff] at leads
      rcases leads with isNamed | leads
      · exact .named isNamed
      · cases calls : program.tailCallFrom? address with
        | none =>
            rw [calls] at leads
            cases leads
        | some target =>
            have tailCalls := (tailCallFrom?_eq_some_iff address target).mp calls
            simp only [calls, Option.isNone_iff_eq_none] at leads
            by_cases unnamed : program.symbolAt? target = none
            · rw [if_pos unnamed, isAnchoredExit_iff unnamed] at leads
              exact .anchored tailCalls leads
            · have isSome := Option.isSome_iff_ne_none.mpr unnamed
              rw [if_neg unnamed] at leads
              by_cases isUnvisited : address ∈ unvisited
              · rw [if_pos isUnvisited] at leads
                exact .stub tailCalls isSome (inductionHypothesis target isUnvisited leads)
              · rw [if_neg isUnvisited] at leads
                cases leads

/-- A chain that ends the process does not come back to itself. The induction is on the derivation,
which moves along the loop with the chain. -/
theorem not_loops_of_endsProcess
    {address : Word}
    (ends : program.EndsProcess settings address) :
    ¬ Relation.TransGen (program.Continues settings) address address := by
  induction ends with
  | named isNamed =>
      intro loop
      obtain ⟨next, ⟨unnamed, _⟩, _⟩ := Relation.TransGen.head'_iff.mp loop
      exact unnamed isNamed
  | stub calls _ _ inductionHypothesis =>
      intro loop
      obtain ⟨next, continues, path⟩ := Relation.TransGen.head'_iff.mp loop
      obtain rfl := calls.unique continues.2.1
      exact inductionHypothesis (.tail' path continues)
  | anchored calls anchors =>
      intro loop
      obtain ⟨next, ⟨_, nextCalls, hasSymbol⟩, _⟩ := Relation.TransGen.head'_iff.mp loop
      rw [← calls.unique nextCalls, anchors.1] at hasSymbol
      cases hasSymbol

/-- The search may forget a start once it has passed it: `isVisited` says that every start it has
passed leads to the address it is at, so that it comes to a forgotten one only on a loop. -/
theorem leadsToExit_of_endsProcess
    {address : Word}
    (ends : program.EndsProcess settings address)
    {unvisited : List Word}
    (isVisited :
      ∀ start ∈ program.procedures.map Procedure.start,
        start ∉ unvisited → Relation.TransGen (program.Continues settings) start address) :
    program.leadsToExit settings unvisited address = true := by
  induction ends generalizing unvisited with
  | named isNamed =>
      rw [leadsToExit, (hasExitName_iff _).mpr isNamed, Bool.true_or]
  | @stub address target calls hasSymbol ends inductionHypothesis =>
      rw [leadsToExit, Bool.or_eq_true, hasExitName_iff]
      by_cases isNamed : program.NamesExit settings address
      · exact .inl isNamed
      · have continues : program.Continues settings address target := ⟨isNamed, calls, hasSymbol⟩
        have isUnvisited : address ∈ unvisited := by
          refine Decidable.byContradiction fun wasVisited => ?_
          have loop := isVisited address calls.mem_starts wasVisited
          exact not_loops_of_endsProcess (.stub calls hasSymbol ends) loop
        have notMissing : ¬ program.symbolAt? target = none :=
          Option.isSome_iff_ne_none.mp hasSymbol
        right
        simp only [(tailCallFrom?_eq_some_iff address target).mpr calls,
          Option.isNone_iff_eq_none, if_neg notMissing, if_pos isUnvisited]
        refine inductionHypothesis fun start isStart notLeft => ?_
        by_cases same : start = address
        · subst same
          exact .single continues
        · have wasVisited : start ∉ unvisited := by
            rwa [List.mem_erase_of_ne same] at notLeft
          exact (isVisited start isStart wasVisited).tail continues
  | @anchored address target calls anchors =>
      rw [leadsToExit, Bool.or_eq_true]
      right
      simp only [(tailCallFrom?_eq_some_iff address target).mpr calls, Option.isNone_iff_eq_none,
        if_pos anchors.1]
      exact (isAnchoredExit_iff anchors.1).mpr anchors

/-- Only a chain that meets the name of an exit routine or the place of the anchor ends the
process. -/
theorem EndsProcess.exists_met
    {address : Word}
    (ends : program.EndsProcess settings address) :
    (∃ met,
        Relation.ReflTransGen program.TailCalls address met ∧
          program.NamesExit settings met) ∨
      ∃ met, Relation.TransGen program.TailCalls address met ∧ program.AnchorsExit met := by
  induction ends with
  | named isNamed =>
      exact .inl ⟨_, .refl, isNamed⟩
  | stub calls _ _ inductionHypothesis =>
      rcases inductionHypothesis with ⟨met, path, isNamed⟩ | ⟨met, path, anchors⟩
      · exact .inl ⟨met, .head calls path, isNamed⟩
      · exact .inr ⟨met, .head calls path, anchors⟩
  | anchored calls anchors =>
      exact .inr ⟨_, .single calls, anchors⟩

theorem isExitRoutine_iff (address : Word) :
    program.isExitRoutine settings address = true ↔ program.EndsProcess settings address := by
  constructor
  · exact endsProcess_of_leadsToExit _ address
  · intro ends
    refine leadsToExit_of_endsProcess ends fun start isStart notStart => ?_
    exact absurd isStart notStart

theorem exit_routines_follow_rules
    (program : Program) (settings : Settings) (address : Word) :
    (program.isExitRoutine settings address = true ↔ program.EndsProcess settings address) ∧
      ((∀ met, Relation.ReflTransGen program.TailCalls address met →
          ¬ program.NamesExit settings met) →
        (∀ met, Relation.TransGen program.TailCalls address met → ¬ program.AnchorsExit met) →
          program.isExitRoutine settings address = false) := by
  refine ⟨isExitRoutine_iff address, fun noName noAnchor => ?_⟩
  rw [← Bool.not_eq_true, isExitRoutine_iff]
  intro ends
  rcases ends.exists_met with ⟨met, path, isNamed⟩ | ⟨met, path, anchors⟩
  · exact noName met path isNamed
  · exact noAnchor met path anchors

def stubTo (address target : Word) : Procedure where
  start := address
  platform := .windowsX64
  symbol := none
  convention := none
  body :=
    (Body.ofBlocks address [⟨0, address, .tailCall ⟨.pointer target, [], []⟩⟩]
      [.ofRange .entry 0 1]).toOption

/-- Two stubs that call each other, and a third that calls the same place as `_exit`. -/
def stubsAroundExit : Program :=
  let program : Program :=
    { id := ⟨1⟩
      platform := .windowsX64
      procedures :=
        [stubTo 0x3000 0x4000, stubTo 0x4000 0x3000, stubTo 0x5000 0x7000,
          stubTo 0x6000 0x7000] }
  program
    |>.addSymbol (.plain .function "first" 0x3000)
    |>.addSymbol (.plain .function "second" 0x4000)
    |>.addSymbol (.plain .function "_exit" 0x5000)

theorem exit_stubsAroundExit :
    stubsAroundExit.isExitRoutine {} 0x3000 = false ∧
      stubsAroundExit.isExitRoutine {} 0x6000 = true := by
  have calls : ∀ {address target : Word}, stubsAroundExit.tailCallFrom? address = some target →
      stubsAroundExit.TailCalls address target :=
    fun isTarget => (tailCallFrom?_eq_some_iff _ _).mp isTarget
  have firstCalls : stubsAroundExit.TailCalls 0x3000 0x4000 := calls (by decide +kernel)
  have secondCalls : stubsAroundExit.TailCalls 0x4000 0x3000 := calls (by decide +kernel)
  have inLoop : ∀ met, Relation.ReflTransGen stubsAroundExit.TailCalls 0x3000 met →
      met = 0x3000 ∨ met = 0x4000 := by
    intro met path
    induction path with
    | refl =>
        exact .inl rfl
    | tail _ nextCalls inductionHypothesis =>
        rcases inductionHypothesis with rfl | rfl
        · exact .inr (nextCalls.unique firstCalls)
        · exact .inl (nextCalls.unique secondCalls)
  constructor
  · refine (exit_routines_follow_rules stubsAroundExit {} 0x3000).2 (fun met path => ?_)
      fun met path anchors => ?_
    · rw [← hasExitName_iff]
      rcases inLoop met path with rfl | rfl
      · decide +kernel
      · decide +kernel
    · have unnamed := anchors.1
      revert unnamed
      rcases inLoop met path.to_reflTransGen with rfl | rfl
      · decide +kernel
      · decide +kernel
  · refine (exit_routines_follow_rules stubsAroundExit {} 0x6000).1.mpr ?_
    have thirdCalls : stubsAroundExit.TailCalls 0x6000 0x7000 := calls (by decide +kernel)
    have anchorCalls : stubsAroundExit.TailCalls 0x5000 0x7000 := calls (by decide +kernel)
    have isAnchor :
        stubsAroundExit.symbolNamed? "_exit" = some (.plain .function "_exit" 0x5000) := by
      decide +kernel
    exact .anchored thirdCalls ⟨by decide +kernel, _, isAnchor, anchorCalls⟩

end Program

end MainLocator
