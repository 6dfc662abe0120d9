import MainLocator.Proofs.TailCalls

/-!
# Stubs of exit routines

A stub that tail-calls an exit routine is one itself if the place it goes to has a symbol. A place
without a symbol is only compared with the one that `_exit` leads to, whatever is found when it is
asked about directly. So the names of the places between decide how far a chain of stubs is
followed, and not its length.
-/

namespace MainLocator

namespace Program

/-- The code at `address` ends in a tail call of a place that has a symbol. -/
def TailCallsNamed (program : Program) (address target : Word) : Prop :=
  program.TailCalls address target ∧ (program.symbolAt? target).isSome

variable {program : Program} {settings : Settings}

/-- One step of a chain of stubs. -/
theorem endsProcess_iff_of_tailCalls
    {address target : Word} (calls : program.TailCalls address target) :
    program.EndsProcess settings address ↔
      program.NamesExit settings address ∨
        (program.symbolAt? target).isSome ∧ program.EndsProcess settings target ∨
          program.AnchorsExit target := by
  constructor
  · intro ends
    cases ends with
    | named isNamed =>
        exact .inl isNamed
    | stub otherCalls hasSymbol targetEnds =>
        rw [calls.unique otherCalls]
        exact .inr (.inl ⟨hasSymbol, targetEnds⟩)
    | anchored otherCalls anchors =>
        rw [calls.unique otherCalls]
        exact .inr (.inr anchors)
  · intro ends
    rcases ends with isNamed | ⟨hasSymbol, targetEnds⟩ | anchors
    · exact .named isNamed
    · exact .stub calls hasSymbol targetEnds
    · exact .anchored calls anchors

/-- The induction is on the chain from its end, where the exit routine is. -/
theorem EndsProcess.of_tailCallsNamed
    {start target : Word}
    (chain : Relation.ReflTransGen program.TailCallsNamed start target)
    (ends : program.EndsProcess settings target) :
    program.EndsProcess settings start := by
  induction chain using Relation.ReflTransGen.head_induction_on with
  | refl =>
      exact ends
  | head step _ inductionHypothesis =>
      exact .stub step.1 step.2 inductionHypothesis

theorem named_stubs_of_exit_routines_are_exit_routines
    {target : Word} (isExit : program.isExitRoutine settings target = true) :
    (∀ address, program.TailCalls address target →
        (program.isExitRoutine settings address = true ↔
          (program.symbolAt? target).isSome ∨ program.NamesExit settings address ∨
            program.AnchorsExit target)) ∧
      ∀ start, Relation.ReflTransGen program.TailCallsNamed start target →
        program.isExitRoutine settings start = true := by
  have ends := (isExitRoutine_iff target).mp isExit
  refine ⟨fun address calls => ?_, fun start chain => ?_⟩
  · rw [isExitRoutine_iff, endsProcess_iff_of_tailCalls calls, and_iff_left ends, or_left_comm]
  · rw [isExitRoutine_iff]
    exact ends.of_tailCallsNamed chain

/-- Two chains of two stubs lead to `exit`. In one the place between has a symbol, in the other it
has none. -/
def stubsBeforeExit : Program :=
  let program : Program :=
    { id := ⟨1⟩
      platform := .windowsX64
      procedures :=
        [stubTo 0x2000 0x3000, stubTo 0x3000 0x5000, stubTo 0x6000 0x4000,
          stubTo 0x4000 0x5000] }
  program
    |>.addSymbol (.plain .function "exit" 0x5000)
    |>.addSymbol (.plain .function "thunk" 0x3000)

theorem exit_stubsBeforeExit :
    stubsBeforeExit.isExitRoutine {} 0x5000 = true ∧
      stubsBeforeExit.TailCalls 0x4000 0x5000 ∧
        stubsBeforeExit.isExitRoutine {} 0x4000 = true ∧
          stubsBeforeExit.isExitRoutine {} 0x2000 = true := by
  have isExit : stubsBeforeExit.isExitRoutine {} 0x5000 = true := by
    decide +kernel
  have calls :
      ∀ {address target : Word}, stubsBeforeExit.tailCallFrom? address = some target →
        stubsBeforeExit.TailCalls address target :=
    fun isTarget => (tailCallFrom?_eq_some_iff _ _).mp isTarget
  have lastCalls : stubsBeforeExit.TailCalls 0x4000 0x5000 := calls (by decide +kernel)
  have firstStep : stubsBeforeExit.TailCallsNamed 0x2000 0x3000 :=
    ⟨calls (by decide +kernel), by decide +kernel⟩
  have secondStep : stubsBeforeExit.TailCallsNamed 0x3000 0x5000 :=
    ⟨calls (by decide +kernel), by decide +kernel⟩
  obtain ⟨oneStub, chains⟩ := named_stubs_of_exit_routines_are_exit_routines isExit
  exact ⟨isExit, lastCalls, (oneStub _ lastCalls).mpr (.inl (by decide +kernel)),
    chains _ (.head firstStep (.single secondStep))⟩

/-- A stub that goes to an exit routine without a symbol is not found to be one. -/
theorem not_exit_stubsBeforeExit :
    stubsBeforeExit.TailCalls 0x6000 0x4000 ∧
      stubsBeforeExit.isExitRoutine {} 0x4000 = true ∧
        stubsBeforeExit.isExitRoutine {} 0x6000 = false :=
  ⟨(tailCallFrom?_eq_some_iff _ _).mp (by decide +kernel), by decide +kernel, by decide +kernel⟩

end Program

end MainLocator
