import MainLocator.Proofs.Flow
import MainLocator.Proofs.Folding

/-!
# More code retracts nothing

One body includes another when it does all that the other does, in whatever order and blocks, and
perhaps more. Rules that give a value, and steps of flow, ask for operations that are there and for
none that are not. So an expression keeps its value in a larger body, and flow keeps its targets,
although positions move, and although places become known that were not.
-/

namespace MainLocator

namespace Body

/-- Whatever `small` does, `large` does too. -/
def Within (small large : Body) : Prop :=
  ∀ operation, small.Performs operation → large.Performs operation

variable {small large : Body}

theorem Evaluates.mono
    (within : small.Within large)
    {expression : Expression} {value : Word}
    (evaluates : small.Evaluates expression value) :
    large.Evaluates expression value :=
  evaluates.of_assignments fun operation _ => within operation

theorem valueOf?_mono
    (smallAccepted : small.Accepted) (largeAccepted : large.Accepted)
    (within : small.Within large)
    {expression : Expression} {value : Word}
    (isValue : small.valueOf? expression = some value) :
    large.valueOf? expression = some value := by
  rw [smallAccepted.valueOf?_eq_some_iff] at isValue
  rw [largeAccepted.valueOf?_eq_some_iff]
  exact isValue.mono within

/-- The two places that a step through memory compares keep their values. -/
theorem FlowsTo.mono
    (smallAccepted : small.Accepted) (largeAccepted : large.Accepted)
    (within : small.Within large)
    {source receiver : RegisterVersion}
    (flows : small.FlowsTo source receiver) :
    large.FlowsTo source receiver := by
  cases flows with
  | copy performs copies =>
      exact .copy (within _ performs) copies
  | merge performs isRead =>
      exact .merge (within _ performs) isRead
  | memory performs isRead isPlace loadPerforms loads isLoaded =>
      have stillPlace := valueOf?_mono smallAccepted largeAccepted within isPlace
      have stillLoaded := valueOf?_mono smallAccepted largeAccepted within isLoaded
      exact .memory (within _ performs) isRead stillPlace (within _ loadPerforms) loads stillLoaded

/-- A larger body gives every value that a smaller one gives, and finds all flow that the smaller
one finds, be it towards more targets. -/
theorem larger_bodies_retract_nothing
    (smallAccepted : small.Accepted) (largeAccepted : large.Accepted)
    (within : small.Within large) :
    (∀ expression value,
      small.valueOf? expression = some value → large.valueOf? expression = some value) ∧
      ∀ (targets wider : RegisterSet) source,
        (∀ target ∈ targets, target ∈ wider) →
          small.flowsInto targets source = true → large.flowsInto wider source = true := by
  refine ⟨fun expression value isValue => ?_, fun targets wider source included flows => ?_⟩
  · exact valueOf?_mono smallAccepted largeAccepted within isValue
  · obtain ⟨target, isTarget, path⟩ :=
      (smallAccepted.flowsInto_eq_true_iff targets source).mp flows
    have largePath : Relation.TransGen large.FlowsTo source target :=
      Relation.TransGen.mono
        (fun _ _ => FlowsTo.mono smallAccepted largeAccepted within) _ _ path
    exact (largeAccepted.flowsInto_eq_true_iff wider source).mpr
      ⟨target, included target isTarget, largePath⟩

/-- A value is stored and loaded again. -/
def throughMemory : List Instruction :=
  [⟨0, 0x1000, .assign ⟨.rcx, 1⟩ (.pointer 0x5000)⟩,
    ⟨0, 0x1004, .store (.register ⟨.rcx, 1⟩) (.register ⟨.rax, 1⟩)⟩,
    ⟨0, 0x1008, .assign ⟨.rdx, 1⟩ (.load (.const 0x5000))⟩]

/-- The same backwards, with a definition of the register that is stored, and a second load. -/
def throughMemoryTwice : List Instruction :=
  [⟨0, 0x1000, .assign ⟨.rdx, 1⟩ (.load (.const 0x5000))⟩,
    ⟨0, 0x1004, .store (.register ⟨.rcx, 1⟩) (.register ⟨.rax, 1⟩)⟩,
    ⟨0, 0x1008, .assign ⟨.rbx, 1⟩ (.zeroExtend (.load (.register ⟨.rcx, 1⟩)))⟩,
    ⟨0, 0x100c, .call ⟨.pointer 0x2000, [⟨.rax, 1⟩], []⟩⟩,
    ⟨0, 0x1010, .assign ⟨.rcx, 1⟩ (.pointer 0x5000)⟩]

theorem retracts_nothing_throughMemoryTwice :
    ∃ small large,
      ofBlocks 0x1000 throughMemory [.ofRange .entry 0 3] = .ok small ∧
        ofBlocks 0x1000 throughMemoryTwice [.ofRange .entry 0 2, .ofRange ⟨1⟩ 2 5] = .ok large ∧
          small.Within large ∧
            large.valueOf? (.subtract (.register ⟨.rcx, 1⟩) (.const 0x1000)) = some 0x4000 ∧
              large.flowsInto (.ofList [(⟨.rdx, 1⟩ : RegisterVersion), ⟨.rsp, 1⟩]) ⟨.rax, 1⟩ =
                true := by
  have smallIsBuilt : (ofBlocks 0x1000 throughMemory [.ofRange .entry 0 3]).isOk = true := by
    decide +kernel
  have largeIsBuilt :
      (ofBlocks 0x1000 throughMemoryTwice [.ofRange .entry 0 2, .ofRange ⟨1⟩ 2 5]).isOk = true := by
    have order :
        [.ofRange .entry 0 2, .ofRange ⟨1⟩ 2 5].mergeSort Block.precedes =
          [.ofRange .entry 0 2, .ofRange ⟨1⟩ 2 5] :=
      List.mergeSort_of_pairwise (by decide)
    rw [ofBlocks, order]
    decide +kernel
  cases smallBuilt : ofBlocks 0x1000 throughMemory [.ofRange .entry 0 3] with
  | error fault =>
      rw [smallBuilt] at smallIsBuilt
      cases smallIsBuilt
  | ok small =>
      cases largeBuilt :
          ofBlocks 0x1000 throughMemoryTwice [.ofRange .entry 0 2, .ofRange ⟨1⟩ 2 5] with
      | error fault =>
          rw [largeBuilt] at largeIsBuilt
          cases largeIsBuilt
      | ok large =>
          have within : small.Within large := by
            intro operation performs
            rw [performs_iff_of_ofBlocks smallBuilt] at performs
            rw [performs_iff_of_ofBlocks largeBuilt]
            simp only [throughMemory, List.map_cons, List.map_nil, List.mem_cons] at performs
            rcases performs with rfl | rfl | rfl | absurdity
            · decide
            · decide
            · decide
            · cases absurdity
          have smallAccepted : small.Accepted := ⟨_, _, _, smallBuilt⟩
          obtain ⟨keepsValues, keepsFlow⟩ :=
            larger_bodies_retract_nothing smallAccepted ⟨_, _, _, largeBuilt⟩ within
          have performs := fun operation => (performs_iff_of_ofBlocks smallBuilt operation).mpr
          have place : small.Evaluates (.register ⟨.rcx, 1⟩) 0x5000 :=
            .assigned (performs (.assign ⟨.rcx, 1⟩ (.pointer 0x5000)) (by decide)) (.pointer _)
          have stored : small.FlowsTo ⟨.rax, 1⟩ ⟨.rdx, 1⟩ :=
            .memory (performs (.store (.register ⟨.rcx, 1⟩) (.register ⟨.rax, 1⟩)) (by decide))
              (by decide) ((smallAccepted.valueOf?_eq_some_iff _ _).mpr place)
              (performs (.assign ⟨.rdx, 1⟩ (.load (.const 0x5000))) (by decide)) (.plain _) rfl
          refine ⟨small, large, rfl, rfl, within, keepsValues _ _ ?_, ?_⟩
          · have difference : (0x4000 : Word) = 0x5000 - 0x1000 := by
              decide
            rw [smallAccepted.valueOf?_eq_some_iff, difference]
            exact .subtract place (.const 0x1000)
          · refine keepsFlow (.ofList [(⟨.rdx, 1⟩ : RegisterVersion)]) _ _ ?_ ?_
            · simp +contextual [Std.TreeSet.mem_ofList]
            · exact (smallAccepted.flowsInto_eq_true_iff _ _).mpr
                ⟨⟨.rdx, 1⟩, by decide +kernel, .single stored⟩

end Body

end MainLocator
