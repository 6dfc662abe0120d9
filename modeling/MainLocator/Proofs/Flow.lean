import Mathlib.Logic.Relation
import MainLocator.Code.Flow
import MainLocator.Proofs.AcceptedBody

/-!
# Flow is reachability

`Body.flowsInto` answers whether a target is reachable along the steps of `Body.FlowsTo`, of which
there is one kind for copies, one for phis and one for memory. The search marks positions of
instructions and not registers; this loses nothing, because all steps that arrive at one position
have the same receiver.
-/

namespace MainLocator

/-! ## Shapes of expressions -/

namespace Expression

/-- A whole register, or one extension of a register or of a part of one. -/
inductive Copies : Expression → RegisterVersion → Prop where
  | whole (source : RegisterVersion) :
      Copies (.register source) source
  | zeroExtended (source : RegisterVersion) :
      Copies (.zeroExtend (.register source)) source
  | signExtended (source : RegisterVersion) :
      Copies (.signExtend (.register source)) source
  | zeroExtendedPart (source : RegisterVersion) (part : Register) :
      Copies (.zeroExtend (.partialRegister source part)) source
  | signExtendedPart (source : RegisterVersion) (part : Register) :
      Copies (.signExtend (.partialRegister source part)) source

/-- A load, or one extension of a load. -/
inductive Loads : Expression → Expression → Prop where
  | plain (address : Expression) :
      Loads (.load address) address
  | zeroExtended (address : Expression) :
      Loads (.zeroExtend (.load address)) address
  | signExtended (address : Expression) :
      Loads (.signExtend (.load address)) address

theorem copies_iff (expression : Expression) (source : RegisterVersion) :
    expression.Copies source ↔
      expression.isRegisterCopy = true ∧ source ∈ expression.reads := by
  constructor
  · intro copies
    cases copies with
    | _ => exact ⟨rfl, List.mem_singleton_self source⟩
  · intro shape
    obtain ⟨isCopy, isRead⟩ := shape
    cases expression with
    | register read =>
        obtain rfl := List.mem_singleton.mp isRead
        exact .whole source
    | zeroExtend operand | signExtend operand =>
        cases operand with
        | register read | partialRegister read part =>
            obtain rfl := List.mem_singleton.mp isRead
            constructor
        | _ => cases isCopy
    | _ => cases isCopy

theorem loads_iff (expression address : Expression) :
    expression.Loads address ↔ expression.stripExtension = .load address := by
  constructor
  · intro loads
    cases loads with
    | _ => rfl
  · intro stripped
    cases expression with
    | zeroExtend operand | signExtend operand =>
        obtain rfl : operand = .load address := stripped
        constructor
    | load inner =>
        cases stripped
        exact .plain address
    | _ => cases stripped

end Expression

/-! ## Steps -/

namespace Body

/-- The value of `source` goes to `receiver` in one step. -/
inductive FlowsTo (body : Body) (source receiver : RegisterVersion) : Prop where
  | copy {expression : Expression} :
      body.Performs (.assign receiver expression) →
      expression.Copies source →
      FlowsTo body source receiver
  | merge {sources : List RegisterVersion} :
      body.Performs (.phi receiver sources) →
      source ∈ sources →
      FlowsTo body source receiver
  | memory {stored value expression loaded : Expression} {place : Word} :
      body.Performs (.store stored value) →
      source ∈ stored.reads ++ value.reads →
      body.valueOf? stored = some place →
      body.Performs (.assign receiver expression) →
      expression.Loads loaded →
      body.valueOf? loaded = some place →
      FlowsTo body source receiver

/-- The instruction at the position of the step defines the receiver. -/
def Lands (body : Body) (step : FlowStep) : Prop :=
  (body.instructions[step.position]?.bind fun instruction => instruction.operation.assigned?) =
    some step.receiver

theorem lands_of_assigned?
    {body : Body} {step : FlowStep} {instruction : Instruction}
    (found : body.instructions[step.position]? = some instruction)
    (assigns : instruction.operation.assigned? = some step.receiver) :
    body.Lands step := by
  rw [Lands, found, Option.bind_some, assigns]

theorem receiver_eq_of_position_eq
    {body : Body} {left right : FlowStep}
    (leftLands : body.Lands left) (rightLands : body.Lands right)
    (same : left.position = right.position) :
    left.receiver = right.receiver := by
  rw [Lands, same] at leftLands
  rw [Lands, leftLands] at rightLands
  exact Option.some.inj rightLands

theorem position_mem_range
    {body : Body} {step : FlowStep} (lands : body.Lands step) :
    step.position ∈ List.range body.size := by
  obtain ⟨instruction, found, _⟩ := Option.bind_eq_some_iff.mp lands
  obtain ⟨inside, _⟩ := Array.getElem?_eq_some_iff.mp found
  exact List.mem_range.mpr inside

namespace Accepted

variable {body : Body}

theorem mem_loadsFrom_iff
    (accepted : body.Accepted) (place : Word) (step : FlowStep) :
    step ∈ body.loadsFrom place ↔
      ∃ instruction,
        body.instructions[step.position]? = some instruction ∧
          ∃ expression loaded,
            instruction.operation = .assign step.receiver expression ∧
              expression.Loads loaded ∧ body.valueOf? loaded = some place := by
  rw [loadsFrom, List.mem_filterMap]
  constructor
  · intro listed
    obtain ⟨instruction, member, isStep⟩ := listed
    have found := accepted.getElem?_index (Array.mem_toList_iff.mp member)
    cases operation : instruction.operation with
    | assign receiver expression =>
        rw [operation] at isStep
        cases stripped : expression.stripExtension with
        | load loaded =>
            simp only [stripped] at isStep
            by_cases isPlace : body.valueOf? loaded = some place
            · rw [if_pos isPlace] at isStep
              cases isStep
              have loads := (expression.loads_iff loaded).mpr stripped
              exact ⟨instruction, found, expression, loaded, operation, loads, isPlace⟩
            · rw [if_neg isPlace] at isStep
              cases isStep
        | _ =>
            simp only [stripped] at isStep
            cases isStep
    | _ =>
        rw [operation] at isStep
        cases isStep
  · intro shape
    obtain ⟨instruction, found, expression, loaded, operation, loads, isPlace⟩ := shape
    refine ⟨instruction, Array.mem_toList_iff.mpr (Array.mem_of_getElem? found), ?_⟩
    have stripped := (expression.loads_iff loaded).mp loads
    rw [operation]
    simp only [stripped, isPlace, if_true, accepted.index_eq found]

theorem flowsTo_and_lands_of_mem_flowFrom
    (accepted : body.Accepted) {source : RegisterVersion} {step : FlowStep}
    (member : step ∈ body.flowFrom source) :
    body.FlowsTo source step.receiver ∧ body.Lands step := by
  obtain ⟨position, isUse, isStep⟩ := List.mem_flatMap.mp member
  obtain ⟨instruction, found, isRead⟩ := (accepted.mem_usesOf_iff source position).mp isUse
  have performs : body.Performs instruction.operation :=
    ⟨instruction, Array.mem_of_getElem? found, rfl⟩
  rw [flowThrough, found, Option.map_eq_map, Option.map_some] at isStep
  cases operation : instruction.operation with
  | assign receiver expression =>
      rw [operation] at performs isStep isRead
      by_cases isCopy : expression.isRegisterCopy = true
      · simp only [isCopy, if_true] at isStep
        obtain rfl := List.mem_singleton.mp isStep
        have copies := (expression.copies_iff source).mpr ⟨isCopy, isRead⟩
        refine ⟨.copy performs copies, lands_of_assigned? found ?_⟩
        rw [operation]
        rfl
      · simp only [isCopy] at isStep
        cases isStep
  | phi receiver sources =>
      rw [operation] at performs isStep isRead
      obtain rfl := List.mem_singleton.mp isStep
      refine ⟨.merge performs isRead, lands_of_assigned? found ?_⟩
      rw [operation]
      rfl
  | store stored value =>
      rw [operation] at performs isStep isRead
      cases isPlace : body.valueOf? stored with
      | none =>
          simp only [isPlace] at isStep
          cases isStep
      | some place =>
          simp only [isPlace] at isStep
          obtain ⟨load, loadFound, expression, loaded, assigns, loads, isLoaded⟩ :=
            (accepted.mem_loadsFrom_iff place step).mp isStep
          have loadPerforms : body.Performs (.assign step.receiver expression) :=
            ⟨load, Array.mem_of_getElem? loadFound, assigns⟩
          refine ⟨.memory performs isRead isPlace loadPerforms loads isLoaded,
            lands_of_assigned? loadFound ?_⟩
          rw [assigns]
          rfl
  | _ =>
      rw [operation] at isStep
      cases isStep

theorem mem_flowFrom_of_mem_flowThrough
    (accepted : body.Accepted)
    {instruction : Instruction} {source : RegisterVersion} {step : FlowStep}
    (member : instruction ∈ body.instructions) (isRead : source ∈ instruction.operation.reads)
    (isStep : step ∈ body.flowThrough instruction.index) :
    step ∈ body.flowFrom source := by
  have isUse : instruction.index ∈ body.usesOf source :=
    (accepted.mem_usesOf_iff source instruction.index).mpr
      ⟨instruction, accepted.getElem?_index member, isRead⟩
  exact List.mem_flatMap.mpr ⟨instruction.index, isUse, isStep⟩

theorem exists_mem_flowFrom_of_flowsTo
    (accepted : body.Accepted) {source receiver : RegisterVersion}
    (flows : body.FlowsTo source receiver) :
    ∃ step ∈ body.flowFrom source, step.receiver = receiver := by
  cases flows with
  | @copy expression performs copies =>
      obtain ⟨instruction, member, operation⟩ := performs
      obtain ⟨isCopy, isRead⟩ := (expression.copies_iff source).mp copies
      refine ⟨⟨instruction.index, receiver⟩, ?_, rfl⟩
      apply accepted.mem_flowFrom_of_mem_flowThrough member
      · rw [operation]
        exact isRead
      · rw [flowThrough, accepted.getElem?_index member, Option.map_eq_map, Option.map_some,
          operation]
        simp only [isCopy, if_true, List.mem_singleton]
  | merge performs isRead =>
      obtain ⟨instruction, member, operation⟩ := performs
      refine ⟨⟨instruction.index, receiver⟩, ?_, rfl⟩
      apply accepted.mem_flowFrom_of_mem_flowThrough member
      · rw [operation]
        exact isRead
      · rw [flowThrough, accepted.getElem?_index member, Option.map_eq_map, Option.map_some,
          operation]
        exact List.mem_singleton_self _
  | @memory stored value expression loaded place performs isRead isPlace loadPerforms loads
      isLoaded =>
      obtain ⟨instruction, member, operation⟩ := performs
      obtain ⟨load, loadMember, assigns⟩ := loadPerforms
      refine ⟨⟨load.index, receiver⟩, ?_, rfl⟩
      apply accepted.mem_flowFrom_of_mem_flowThrough member
      · rw [operation]
        exact isRead
      · rw [flowThrough, accepted.getElem?_index member, Option.map_eq_map, Option.map_some,
          operation]
        simp only [isPlace]
        exact (accepted.mem_loadsFrom_iff place _).mpr
          ⟨load, accepted.getElem?_index loadMember, expression, loaded, assigns, loads, isLoaded⟩

end Accepted

end Body

/-! ## The search -/

namespace FlowSearch

variable {search : FlowSearch}

theorem mem_worklist_visit_of_mem
    {step : FlowStep} {register : RegisterVersion}
    (member : register ∈ search.worklist) :
    register ∈ (search.visit step).worklist := by
  unfold visit
  split
  · exact List.mem_cons_of_mem step.receiver member
  · exact member

theorem mem_worklist_foldl_visit_of_mem
    (steps : List FlowStep) {register : RegisterVersion} (member : register ∈ search.worklist) :
    register ∈ (steps.foldl visit search).worklist := by
  induction steps generalizing search with
  | nil =>
      exact member
  | cons step rest inductionHypothesis =>
      exact inductionHypothesis (mem_worklist_visit_of_mem member)

/-- What is on the worklist was there before, or received a value by one of the steps. -/
theorem mem_worklist_or_exists_of_mem_foldl_visit
    {steps : List FlowStep} {register : RegisterVersion}
    (member : register ∈ (steps.foldl visit search).worklist) :
    register ∈ search.worklist ∨ ∃ step ∈ steps, step.receiver = register := by
  induction steps generalizing search with
  | nil =>
      exact Or.inl member
  | cons step rest inductionHypothesis =>
      rcases inductionHypothesis member with isBefore | isLater
      · unfold visit at isBefore
        split at isBefore
        · rcases List.mem_cons.mp isBefore with rfl | isOld
          · exact Or.inr ⟨step, List.mem_cons_self, rfl⟩
          · exact Or.inl isOld
        · exact Or.inl isBefore
      · obtain ⟨later, isRest, same⟩ := isLater
        exact Or.inr ⟨later, List.mem_cons_of_mem step isRest, same⟩

/-- A position that no step arrives at stays unvisited. Of the steps that arrive at one, some
receiver is put on the worklist. -/
theorem mem_unvisited_or_exists_of_mem
    (steps : List FlowStep) (search : FlowSearch)
    {position : Nat} (isUnvisited : position ∈ search.unvisited) :
    (position ∈ (steps.foldl visit search).unvisited ∧ ∀ step ∈ steps, step.position ≠ position) ∨
      ∃ step ∈ steps,
        step.position = position ∧ step.receiver ∈ (steps.foldl visit search).worklist := by
  induction steps generalizing search with
  | nil =>
      exact Or.inl ⟨isUnvisited, nofun⟩
  | cons step rest inductionHypothesis =>
      by_cases arrives : step.position = position
      · subst arrives
        have isListed : step.receiver ∈ (search.visit step).worklist := by
          unfold visit
          rw [if_pos isUnvisited]
          exact List.mem_cons_self
        exact Or.inr ⟨step, List.mem_cons_self, rfl, mem_worklist_foldl_visit_of_mem rest isListed⟩
      · have stays : position ∈ (search.visit step).unvisited := by
          unfold visit
          split
          · exact (List.mem_erase_of_ne (Ne.symm arrives)).mpr isUnvisited
          · exact isUnvisited
        rcases inductionHypothesis _ stays with untouched | isVisited
        · refine Or.inl ⟨untouched.1, fun other member => ?_⟩
          rcases List.mem_cons.mp member with rfl | isRest
          · exact arrives
          · exact untouched.2 other isRest
        · obtain ⟨later, isRest, same, isListed⟩ := isVisited
          exact Or.inr ⟨later, List.mem_cons_of_mem step isRest, same, isListed⟩

theorem mem_explored_of_mem_worklist
    (body : Body) (search : FlowSearch) :
    ∀ register ∈ search.worklist, register ∈ explored body search := by
  fun_induction explored body search with
  | case1 unvisited =>
      intro register absurdity
      cases absurdity
  | case2 source rest unvisited inductionHypothesis =>
      intro register member
      rcases List.mem_cons.mp member with rfl | isRest
      · exact List.mem_cons_self
      · refine List.mem_cons_of_mem source (inductionHypothesis register ?_)
        exact mem_worklist_foldl_visit_of_mem (body.flowFrom source) isRest

variable {body : Body}

theorem exists_reflTransGen_of_mem_explored
    (accepted : body.Accepted) (search : FlowSearch) :
    ∀ register ∈ explored body search,
      ∃ start ∈ search.worklist, Relation.ReflTransGen body.FlowsTo start register := by
  fun_induction explored body search with
  | case1 unvisited =>
      intro register absurdity
      cases absurdity
  | case2 source rest unvisited inductionHypothesis =>
      intro register member
      rcases List.mem_cons.mp member with rfl | isLater
      · exact ⟨register, List.mem_cons_self, .refl⟩
      · obtain ⟨start, isListed, path⟩ := inductionHypothesis register isLater
        rcases mem_worklist_or_exists_of_mem_foldl_visit isListed with isRest | isReceiver
        · exact ⟨start, List.mem_cons_of_mem source isRest, path⟩
        · obtain ⟨step, isStep, rfl⟩ := isReceiver
          have flows := (accepted.flowsTo_and_lands_of_mem_flowFrom isStep).1
          exact ⟨source, List.mem_cons_self, path.head flows⟩

/-- The registers explored are closed under steps to positions that were unvisited when exploration
began. The invariant holds of every later state of the search; a step to a position that was
visited in between has the receiver of the step that visited it. -/
theorem receiver_mem_explored
    (accepted : body.Accepted) (search : FlowSearch) :
    ∀ register ∈ explored body search, ∀ step ∈ body.flowFrom register,
      step.position ∈ search.unvisited → step.receiver ∈ explored body search := by
  fun_induction explored body search with
  | case1 unvisited =>
      intro register absurdity
      cases absurdity
  | case2 source rest unvisited inductionHypothesis =>
      intro register member step isStep isUnvisited
      have lands := (accepted.flowsTo_and_lands_of_mem_flowFrom isStep).2
      refine List.mem_cons_of_mem source ?_
      have visits :=
        mem_unvisited_or_exists_of_mem (body.flowFrom source) ⟨rest, unvisited⟩ isUnvisited
      rcases visits with untouched | isVisited
      · rcases List.mem_cons.mp member with rfl | isLater
        · exact absurd rfl (untouched.2 step isStep)
        · exact inductionHypothesis register isLater step isStep untouched.1
      · obtain ⟨other, isOther, samePosition, isListed⟩ := isVisited
        have otherLands := (accepted.flowsTo_and_lands_of_mem_flowFrom isOther).2
        rw [← Body.receiver_eq_of_position_eq otherLands lands samePosition]
        exact mem_explored_of_mem_worklist body _ other.receiver isListed

end FlowSearch

namespace Body

variable {body : Body}

theorem Accepted.mem_carriers_iff
    (accepted : body.Accepted) (source register : RegisterVersion) :
    register ∈ body.carriers source ↔ Relation.ReflTransGen body.FlowsTo source register := by
  constructor
  · intro member
    obtain ⟨start, isStart, path⟩ :=
      FlowSearch.exists_reflTransGen_of_mem_explored accepted _ register member
    obtain rfl := List.mem_singleton.mp isStart
    exact path
  · intro path
    induction path with
    | refl =>
        exact FlowSearch.mem_explored_of_mem_worklist body _ source (List.mem_singleton_self source)
    | tail _ flows inductionHypothesis =>
        obtain ⟨step, isStep, rfl⟩ := accepted.exists_mem_flowFrom_of_flowsTo flows
        have lands := (accepted.flowsTo_and_lands_of_mem_flowFrom isStep).2
        exact FlowSearch.receiver_mem_explored accepted _ _ inductionHypothesis step isStep
          (position_mem_range lands)

theorem Accepted.flowsInto_eq_true_iff
    (accepted : body.Accepted) (targets : RegisterSet) (source : RegisterVersion) :
    body.flowsInto targets source = true ↔
      ∃ target ∈ targets, Relation.TransGen body.FlowsTo source target := by
  simp only [flowsInto, List.any_eq_true, decide_eq_true_eq]
  constructor
  · intro reaches
    obtain ⟨carrier, isCarrier, step, isStep, isTarget⟩ := reaches
    have path := (accepted.mem_carriers_iff source carrier).mp isCarrier
    have flows := (accepted.flowsTo_and_lands_of_mem_flowFrom isStep).1
    exact ⟨step.receiver, isTarget, .tail' path flows⟩
  · intro reaches
    obtain ⟨target, isTarget, path⟩ := reaches
    obtain ⟨carrier, toCarrier, flows⟩ := Relation.TransGen.tail'_iff.mp path
    obtain ⟨step, isStep, rfl⟩ := accepted.exists_mem_flowFrom_of_flowsTo flows
    have carries := (accepted.mem_carriers_iff source carrier).mpr toCarrier
    exact ⟨carrier, carries, step, isStep, isTarget⟩

/-- The value of a register flows into a set of targets exactly when a path of one or more steps
leads to one of them. The register itself is reached only along a cycle. -/
theorem flow_is_reachability
    (accepted : body.Accepted) (targets : RegisterSet) (source : RegisterVersion) :
    (body.flowsInto targets source = true ↔
      ∃ target ∈ targets, Relation.TransGen body.FlowsTo source target) ∧
      (body.flowsInto (.ofList [source]) source = true ↔
        Relation.TransGen body.FlowsTo source source) := by
  refine ⟨accepted.flowsInto_eq_true_iff targets source, ?_⟩
  rw [accepted.flowsInto_eq_true_iff]
  simp only [Std.TreeSet.mem_ofList, List.contains_iff_mem, List.mem_singleton, exists_eq_left]

/-- A phi and a copy that read each other, and a way out of their cycle through memory. -/
def loopWithStore : List Instruction :=
  [⟨0, 0x1000, .phi ⟨.rax, 2⟩ [⟨.rax, 1⟩, ⟨.rax, 3⟩]⟩,
    ⟨0, 0x1004, .assign ⟨.rax, 3⟩ (.register ⟨.rax, 2⟩)⟩,
    ⟨0, 0x1008, .store (.pointer 0x5000) (.register ⟨.rax, 3⟩)⟩,
    ⟨0, 0x100c, .assign ⟨.rcx, 1⟩ (.zeroExtend (.load (.const 0x5000)))⟩]

theorem flow_loopWithStore :
    ∃ body,
      ofBlocks 0x1000 loopWithStore [.ofRange .entry 0 4] = .ok body ∧
        body.flowsInto (.ofList [(⟨.rcx, 1⟩ : RegisterVersion)]) ⟨.rax, 1⟩ = true ∧
          body.flowsInto (.ofList [(⟨.rax, 2⟩ : RegisterVersion)]) ⟨.rax, 2⟩ = true ∧
            body.flowsInto (.ofList [(⟨.rax, 1⟩ : RegisterVersion)]) ⟨.rax, 1⟩ = false := by
  have isBuilt : (ofBlocks 0x1000 loopWithStore [.ofRange .entry 0 4]).isOk = true := by
    decide +kernel
  cases built : ofBlocks 0x1000 loopWithStore [.ofRange .entry 0 4] with
  | error fault =>
      rw [built] at isBuilt
      cases isBuilt
  | ok body =>
      have reachability := @flow_is_reachability body ⟨_, _, _, built⟩
      have performs := fun operation => (performs_iff_of_ofBlocks built operation).mpr
      have intoLoop : body.FlowsTo ⟨.rax, 1⟩ ⟨.rax, 2⟩ :=
        .merge (performs (.phi ⟨.rax, 2⟩ [⟨.rax, 1⟩, ⟨.rax, 3⟩]) (by decide)) (by decide)
      have aroundLoop : body.FlowsTo ⟨.rax, 3⟩ ⟨.rax, 2⟩ :=
        .merge (performs (.phi ⟨.rax, 2⟩ [⟨.rax, 1⟩, ⟨.rax, 3⟩]) (by decide)) (by decide)
      have copied : body.FlowsTo ⟨.rax, 2⟩ ⟨.rax, 3⟩ :=
        .copy (performs (.assign ⟨.rax, 3⟩ (.register ⟨.rax, 2⟩)) (by decide)) (.whole _)
      have outOfLoop : body.FlowsTo ⟨.rax, 3⟩ ⟨.rcx, 1⟩ :=
        .memory (performs (.store (.pointer 0x5000) (.register ⟨.rax, 3⟩)) (by decide))
          (by decide) rfl
          (performs (.assign ⟨.rcx, 1⟩ (.zeroExtend (.load (.const 0x5000)))) (by decide))
          (.zeroExtended _) rfl
      refine ⟨body, rfl, ?_, ?_, ?_⟩
      · refine (reachability _ _).1.mpr ⟨⟨.rcx, 1⟩, by decide +kernel, ?_⟩
        exact .tail (.tail (.single intoLoop) copied) outOfLoop
      · exact (reachability ∅ _).2.mpr (.tail (.single copied) aroundLoop)
      · rw [Bool.eq_false_iff]
        intro returns
        obtain ⟨before, _, last⟩ :=
          Relation.TransGen.tail'_iff.mp ((reachability ∅ _).2.mp returns)
        have unassigned : ∀ expression, ¬ body.Performs (.assign ⟨.rax, 1⟩ expression) := by
          intro expression assigns
          have listed := (performs_iff_of_ofBlocks built _).mp assigns
          simp [loopWithStore, Register.rax, Register.rcx] at listed
        have unmerged : ∀ sources, ¬ body.Performs (.phi ⟨.rax, 1⟩ sources) := by
          intro sources merges
          have listed := (performs_iff_of_ofBlocks built _).mp merges
          simp [loopWithStore] at listed
        cases last with
        | copy assigns =>
            exact unassigned _ assigns
        | merge merges =>
            exact unmerged _ merges
        | memory _ _ _ assigns =>
            exact unassigned _ assigns

end Body

end MainLocator
