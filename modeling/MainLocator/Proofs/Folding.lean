import Mathlib.Data.List.Perm.Subperm
import MainLocator.Code.Folding
import MainLocator.Proofs.Evaluation

/-!
# Folding finds the values

`Body.valueOf?` gives exactly the values of `Body.Evaluates`. Folding is a state machine, and what
it remembers in the middle of one definition is used in others. The invariant that makes this
harmless speaks of finished and pending registers together: a finished register is remembered with
its value, and a pending register depends on whatever is being folded. A register that is met while
it is pending thus depends on itself, and has no value in any context.
-/

namespace MainLocator

namespace Folding

/-! ## Runs of steps -/

theorem run_bind (first : Step) (next : Word → Step) (folding : Folding) :
    (first >>= next).run folding =
      match (first.run folding).1 with
      | some word => (next word).run (first.run folding).2
      | none => (none, (first.run folding).2) := by
  simp only [bind, OptionT.bind, OptionT.run, OptionT.mk, StateT.bind]
  cases first folding with
  | mk value after =>
      cases value with
      | none => rfl
      | some word => rfl

theorem run_register
    (body : Body) (depth : Nat) (target : RegisterVersion) (folding : Folding) :
    (register body (depth + 1) target).run folding =
      match folding.finished.lookup target with
      | some value => (value, folding)
      | none =>
          if target ∈ folding.pending then (none, folding)
          else
            let result :=
              (definition (register body depth)
                (Instruction.operation <$> body.definition? target)).run (folding.enter target)
            (result.1, leave target result.1 result.2) := by
  change
    (match folding.finished.lookup target with
      | some value => give value
      | none =>
          if target ∈ folding.pending then failure
          else do
            set (folding.enter target)
            let operation := Instruction.operation <$> body.definition? target
            let value ← OptionT.lift (definition (register body depth) operation).run
            modify (leave target value)
            give value : Step).run folding = _
  cases folding.finished.lookup target with
  | some value =>
      rfl
  | none =>
      by_cases isPending : target ∈ folding.pending
      · rw [if_pos isPending]
        simp only [isPending, if_true]
        rfl
      · simp only [isPending, if_false]
        rfl

/-! ## The invariant -/

/-- What folding remembers is right: a finished register has the value it is remembered with, or
none, and no register is twice among the finished and pending ones. -/
structure Consistent (body : Body) (folding : Folding) : Prop where
  correct :
    ∀ target value, (target, value) ∈ folding.finished →
      ∀ word, value = some word ↔ body.Evaluates (.register target) word
  once : (folding.finished.map Prod.fst ++ folding.pending).Nodup

/-- Run with the given pending registers, the step ends with the word that has the property, or
without a word if none has. What it remembers stays right, and the same registers are pending. -/
def Settles
    (body : Body) (pending : List RegisterVersion) (step : Step) (property : Word → Prop) : Prop :=
  ∀ folding, Consistent body folding → folding.pending = pending →
    (∀ word, (step.run folding).1 = some word ↔ property word) ∧
      Consistent body (step.run folding).2 ∧ (step.run folding).2.pending = pending

theorem consistent_start (body : Body) : Consistent body {} where
  correct := by
    intro target value member
    cases member
  once := List.nodup_nil

variable {body : Body} {pending : List RegisterVersion}

theorem Consistent.eq_some_iff_of_lookup
    {folding : Folding} {target : RegisterVersion} {value : Option Word}
    (consistent : folding.Consistent body)
    (finished : folding.finished.lookup target = some value) (word : Word) :
    value = some word ↔ body.Evaluates (.register target) word := by
  obtain ⟨before, after, entries, _⟩ := List.lookup_eq_some_iff.mp finished
  have member : (target, value) ∈ folding.finished := by
    rw [entries]
    exact List.mem_append_right before List.mem_cons_self
  exact consistent.correct target value member word

theorem Consistent.enter
    {folding : Folding} {target : RegisterVersion}
    (consistent : folding.Consistent body)
    (unfinished : folding.finished.lookup target = none)
    (notPending : target ∉ folding.pending) :
    (folding.enter target).Consistent body where
  correct := consistent.correct
  once := by
    have isNew : target ∉ folding.finished.map Prod.fst ++ folding.pending := by
      intro member
      rcases List.mem_append.mp member with isFinished | isPending
      · obtain ⟨⟨finished, value⟩, entry, rfl⟩ := List.mem_map.mp isFinished
        have different := List.lookup_eq_none_iff.mp unfinished ⟨finished, value⟩ entry
        simp at different
      · exact notPending isPending
    exact (List.perm_middle.nodup_iff).mpr (List.nodup_cons.mpr ⟨isNew, consistent.once⟩)

theorem Consistent.leave
    {folding : Folding} {target : RegisterVersion} {value : Option Word}
    (consistent : folding.Consistent body)
    (innermost : folding.pending = target :: pending)
    (correct : ∀ word, value = some word ↔ body.Evaluates (.register target) word) :
    (leave target value folding).Consistent body ∧
      (leave target value folding).pending = pending := by
  have remaining : folding.pending.erase target = pending := by
    rw [innermost, List.erase_cons_head]
  refine ⟨⟨?_, ?_⟩, remaining⟩
  · intro other otherValue member
    rcases List.mem_cons.mp member with isNew | isOld
    · cases isNew
      exact correct
    · exact consistent.correct other otherValue isOld
  · have once := consistent.once
    rw [innermost, List.perm_middle.nodup_iff] at once
    change (target :: folding.finished.map Prod.fst ++ folding.pending.erase target).Nodup
    rwa [remaining]

/-! ## Combining steps -/

namespace Settles

theorem congr
    {step : Step} {property other : Word → Prop}
    (settles : Settles body pending step property)
    (same : ∀ word, property word ↔ other word) :
    Settles body pending step other := by
  intro folding consistent isPending
  obtain ⟨value, rest⟩ := settles folding consistent isPending
  exact ⟨fun word => (value word).trans (same word), rest⟩

theorem give (value : Option Word) :
    Settles body pending (Folding.give value) fun word => value = some word := by
  intro folding consistent isPending
  exact ⟨fun word => Iff.rfl, consistent, isPending⟩

theorem failure :
    Settles body pending failure fun _ => False := by
  intro folding consistent isPending
  refine ⟨fun word => ?_, consistent, isPending⟩
  constructor
  · intro absurdity
    cases absurdity
  · exact False.elim

/-- Only a word that the first step can end with reaches the next. -/
theorem bind
    {first : Step} {next : Word → Step} {property : Word → Prop} {later : Word → Word → Prop}
    (firstSettles : Settles body pending first property)
    (nextSettles : ∀ word, property word → Settles body pending (next word) (later word)) :
    Settles body pending (first >>= next)
      fun result => ∃ word, property word ∧ later word result := by
  intro folding consistent isPending
  obtain ⟨value, afterConsistent, afterPending⟩ := firstSettles folding consistent isPending
  rw [run_bind]
  cases result : (first.run folding).1 with
  | none =>
      refine ⟨fun word => ?_, afterConsistent, afterPending⟩
      constructor
      · intro absurdity
        cases absurdity
      · rintro ⟨middle, holds, _⟩
        rw [← value middle, result] at holds
        cases holds
  | some word =>
      have holds : property word := (value word).mp result
      obtain ⟨nextValue, rest⟩ := nextSettles word holds _ afterConsistent afterPending
      refine ⟨fun final => ?_, rest⟩
      rw [nextValue]
      constructor
      · intro reached
        exact ⟨word, holds, reached⟩
      · rintro ⟨middle, middleHolds, reached⟩
        rw [← value middle, result] at middleHolds
        cases middleHolds
        exact reached

theorem guarded
    {condition : Prop} [Decidable condition] {step : Step} {property : Word → Prop}
    (settles : Settles body pending step property) :
    Settles body pending (if condition then Alternative.failure else step) fun word =>
      ¬ condition ∧ property word := by
  by_cases holds : condition
  · rw [if_pos holds]
    exact Settles.failure.congr fun word => by simp [holds]
  · rw [if_neg holds]
    exact settles.congr fun word => by simp [holds]

end Settles

/-! ## Expressions, phis and definitions -/

theorem settles_fold
    {resolve : RegisterVersion → Step} (expression : Expression)
    (resolves :
      ∀ source ∈ expression.reads,
        Settles body pending (resolve source) (body.Evaluates (.register source))) :
    Settles body pending (expression.fold resolve) (body.Evaluates expression) := by
  induction expression with
  | const value | pointer value =>
      refine (Settles.give (some value)).congr fun word => ?_
      constructor
      · intro same
        cases same
        constructor
      · intro evaluates
        cases evaluates
        rfl
  | register source =>
      exact resolves source (List.mem_singleton_self source)
  | partialRegister | load | undefined =>
      refine Settles.failure.congr fun word => ?_
      constructor
      · exact False.elim
      · intro evaluates
        cases evaluates
  | zeroExtend operand inductionHypothesis | signExtend operand inductionHypothesis =>
      refine (inductionHypothesis resolves).congr fun word => ?_
      constructor
      · intro evaluates
        constructor
        exact evaluates
      · intro evaluates
        cases evaluates
        assumption
  | add left right leftHypothesis rightHypothesis
  | subtract left right leftHypothesis rightHypothesis =>
      have leftSettles := leftHypothesis fun source isRead =>
        resolves source (List.mem_append_left right.reads isRead)
      have rightSettles := rightHypothesis fun source isRead =>
        resolves source (List.mem_append_right left.reads isRead)
      refine
        (leftSettles.bind fun leftValue _ =>
          rightSettles.bind fun rightValue _ => Settles.give (some _)).congr fun word => ?_
      constructor
      · rintro ⟨leftValue, leftEvaluates, rightValue, rightEvaluates, same⟩
        cases same
        constructor
        · exact leftEvaluates
        · exact rightEvaluates
      · intro evaluates
        cases evaluates
        exact ⟨_, ‹_›, _, ‹_›, rfl⟩

theorem not_any_ne_iff (agreed : Option Word) (value : Word) :
    ¬ agreed.any (· ≠ value) = true ↔ ∀ before ∈ agreed, before = value := by
  cases agreed with
  | none => simp
  | some before => simp

/-- A phi agrees on a word when all sources have it, and those in front of them had it. -/
theorem settles_agree
    {resolve : RegisterVersion → Step} (sources : List RegisterVersion) (agreed : Option Word)
    (resolves :
      ∀ source ∈ sources,
        Settles body pending (resolve source) (body.Evaluates (.register source))) :
    Settles body pending (agree resolve agreed sources) fun word =>
      (∀ source ∈ sources, body.Evaluates (.register source) word) ∧
        (∀ before ∈ agreed, before = word) ∧ (sources = [] → agreed = some word) := by
  induction sources generalizing agreed with
  | nil =>
      refine (Settles.give agreed).congr fun word => ?_
      simp +contextual
  | cons source rest inductionHypothesis =>
      have sourceSettles := resolves source List.mem_cons_self
      have restSettles := fun value : Word => inductionHypothesis (some value) fun other isRead =>
        resolves other (List.mem_cons_of_mem source isRead)
      refine (sourceSettles.bind fun value _ => (restSettles value).guarded).congr fun word => ?_
      constructor
      · rintro ⟨value, evaluates, agrees, restEvaluates, same, _⟩
        obtain rfl : value = word := same value rfl
        refine ⟨?_, (not_any_ne_iff agreed value).mp agrees, nofun⟩
        intro other isRead
        rcases List.mem_cons.mp isRead with rfl | isLater
        · exact evaluates
        · exact restEvaluates other isLater
      · rintro ⟨evaluates, same, _⟩
        refine
          ⟨word, evaluates source List.mem_cons_self, (not_any_ne_iff agreed word).mpr same,
            ?_, ?_, fun _ => rfl⟩
        · intro other isLater
          exact evaluates other (List.mem_cons_of_mem source isLater)
        · intro before isBefore
          exact (Option.some.inj isBefore).symm

theorem settles_definition
    {resolve : RegisterVersion → Step} (operation : Option Operation)
    (resolves :
      ∀ performed ∈ operation, performed.assigned?.isSome →
        ∀ source ∈ performed.reads,
          Settles body pending (resolve source) (body.Evaluates (.register source))) :
    Settles body pending (definition resolve operation) (body.Determines operation) := by
  cases operation with
  | none =>
      exact Settles.failure
  | some performed =>
      cases performed with
      | assign target source =>
          exact settles_fold source (resolves _ rfl rfl)
      | phi target sources =>
          refine (settles_agree sources none (resolves _ rfl rfl)).congr fun word => ?_
          simp [Body.Determines, and_comm]
      | _ =>
          exact Settles.failure

/-! ## Registers -/

/-- Pending registers that lead to a register are all assigned, each by an instruction of its own.
There are no more of them than instructions. -/
theorem length_le_size
    {target : RegisterVersion}
    (nodup : pending.Nodup)
    (leads : ∀ register ∈ pending, Relation.TransGen body.DependsOn register target) :
    pending.length ≤ body.size := by
  have assigned :
      pending ⊆ body.instructions.toList.filterMap fun instruction =>
        instruction.operation.assigned? := by
    intro register isPending
    obtain ⟨source, depends, _⟩ := Relation.TransGen.head'_iff.mp (leads register isPending)
    obtain ⟨operation, ⟨instruction, member, rfl⟩, assigns, _⟩ := depends
    exact List.mem_filterMap.mpr ⟨instruction, Array.mem_toList_iff.mpr member, assigns⟩
  calc
    pending.length ≤
        (body.instructions.toList.filterMap fun instruction =>
          instruction.operation.assigned?).length :=
      (nodup.subperm assigned).length_le
    _ ≤ body.instructions.toList.length := List.length_filterMap_le _ _
    _ = body.size := Array.length_toList

theorem Consistent.length_pending_le
    {folding : Folding} {target : RegisterVersion}
    (consistent : folding.Consistent body)
    (leads : ∀ register ∈ folding.pending, Relation.TransGen body.DependsOn register target) :
    folding.pending.length ≤ body.size :=
  length_le_size (List.nodup_append.mp consistent.once).2.1 leads

/-- The pending registers and the one that they lead to all lead to what its definition reads. -/
theorem leads_cons
    {target source : RegisterVersion}
    (leads : ∀ register ∈ pending, Relation.TransGen body.DependsOn register target)
    (depends : body.DependsOn target source) :
    ∀ register ∈ target :: pending, Relation.TransGen body.DependsOn register source := by
  intro register member
  rcases List.mem_cons.mp member with rfl | isOuter
  · exact .single depends
  · exact (leads register isOuter).tail depends

/-- A register that all pending registers lead to settles on its value. The induction is on the
definitions that may still be entered. -/
theorem settles_register
    (accepted : body.Accepted) (depth : Nat) (target : RegisterVersion)
    (room : pending.length + depth = body.size + 1)
    (leads : ∀ register ∈ pending, Relation.TransGen body.DependsOn register target) :
    Settles body pending (register body depth target) (body.Evaluates (.register target)) := by
  induction depth generalizing pending target with
  | zero =>
      intro folding consistent isPending
      have bound := consistent.length_pending_le (isPending ▸ leads)
      rw [isPending] at bound
      omega
  | succ depth inductionHypothesis =>
      intro folding consistent isPending
      rw [run_register]
      cases finished : folding.finished.lookup target with
      | some value =>
          exact ⟨consistent.eq_some_iff_of_lookup finished, consistent, isPending⟩
      | none =>
          by_cases loops : target ∈ folding.pending
          · -- The register is one of those that lead to it.
            have cycle : body.ReachesCycle target :=
              ⟨target, .refl, leads target (isPending ▸ loops)⟩
            simp only [loops, if_true]
            refine ⟨fun word => ?_, consistent, isPending⟩
            constructor
            · intro absurdity
              cases absurdity
            · intro evaluates
              exact absurd evaluates (accepted.not_evaluates_of_reachesCycle cycle word)
          · have definitionSettles :
                Settles body (target :: pending)
                  (definition (register body depth)
                    (Instruction.operation <$> body.definition? target))
                  (body.Determines (Instruction.operation <$> body.definition? target)) := by
              refine settles_definition _ fun operation isDefined assigns source isRead => ?_
              have depends : body.DependsOn target source :=
                accepted.dependsOn_of_definition? isDefined assigns isRead
              exact inductionHypothesis source (by simp only [List.length_cons]; omega)
                (leads_cons leads depends)
            obtain ⟨value, afterConsistent, afterPending⟩ :=
              definitionSettles (folding.enter target) (consistent.enter finished loops)
                (by rw [enter, isPending])
            have correct := fun word =>
              (value word).trans (accepted.evaluates_register_iff target word).symm
            simp only [loops, if_false]
            exact ⟨correct, afterConsistent.leave afterPending correct⟩

theorem settles_body_fold
    (accepted : body.Accepted) (expression : Expression) :
    Settles body [] (body.fold expression) (body.Evaluates expression) := by
  refine settles_fold expression fun source _ => ?_
  refine settles_register accepted (body.size + 1) source (by simp) ?_
  intro register absurdity
  cases absurdity

end Folding

namespace Body

theorem Accepted.valueOf?_eq_some_iff
    {body : Body} (accepted : body.Accepted) (expression : Expression) (value : Word) :
    body.valueOf? expression = some value ↔ body.Evaluates expression value :=
  (Folding.settles_body_fold accepted expression {} (Folding.consistent_start body) rfl).1 value

theorem Accepted.valueOf?_eq_none_iff
    {body : Body} (accepted : body.Accepted) (expression : Expression) :
    body.valueOf? expression = none ↔ ∀ value, ¬ body.Evaluates expression value := by
  simp only [Option.eq_none_iff_forall_ne_some, ne_eq, accepted.valueOf?_eq_some_iff]

theorem Accepted.eq_none_of_reachesCycle
    {body : Body} (accepted : body.Accepted)
    {target : RegisterVersion} (reaches : body.ReachesCycle target)
    {expression : Expression} {result : Option Word}
    (remembered : (target, result) ∈ ((body.fold expression).run {}).2.finished) :
    result = none := by
  obtain ⟨_, consistent, _⟩ :=
    Folding.settles_body_fold accepted expression {} (Folding.consistent_start body) rfl
  rw [Option.eq_none_iff_forall_ne_some]
  intro value isValue
  have evaluates := (consistent.correct target result remembered value).mp isValue
  exact accepted.not_evaluates_of_reachesCycle reaches value evaluates

/-- Folding finds a value exactly where the rules give one. A register whose definitions reach a
cycle has none, in whatever expression and behind whatever other registers it is read. -/
theorem folding_agrees_with_evaluation
    {body : Body} (accepted : body.Accepted) :
    (∀ expression value,
      body.valueOf? expression = some value ↔ body.Evaluates expression value) ∧
      ∀ target, body.ReachesCycle target →
        body.valueOf? (.register target) = none ∧
          ∀ expression result,
            (target, result) ∈ ((body.fold expression).run {}).2.finished → result = none := by
  refine ⟨accepted.valueOf?_eq_some_iff, fun target reaches => ⟨?_, ?_⟩⟩
  · rw [Option.eq_none_iff_forall_ne_some]
    intro value isValue
    have evaluates := (accepted.valueOf?_eq_some_iff (.register target) value).mp isValue
    exact accepted.not_evaluates_of_reachesCycle reaches value evaluates
  · intro expression result remembered
    exact accepted.eq_none_of_reachesCycle reaches remembered

/-- A phi over one constant, beside a phi and a copy that read each other. -/
def mergeBesideLoop : List Instruction :=
  [⟨0, 0x1000, .assign ⟨.rcx, 1⟩ (.const 4)⟩,
    ⟨0, 0x1004, .phi ⟨.rcx, 2⟩ [⟨.rcx, 1⟩, ⟨.rcx, 1⟩]⟩,
    ⟨0, 0x1008, .phi ⟨.rax, 2⟩ [⟨.rcx, 2⟩, ⟨.rax, 3⟩]⟩,
    ⟨0, 0x100c, .assign ⟨.rax, 3⟩ (.register ⟨.rax, 2⟩)⟩]

theorem folding_mergeBesideLoop :
    ∃ body,
      ofBlocks 0x1000 mergeBesideLoop [.ofRange .entry 0 4] = .ok body ∧
        body.valueOf? (.add (.register ⟨.rcx, 2⟩) (.const 1)) = some 5 ∧
          body.ReachesCycle ⟨.rax, 3⟩ ∧ body.valueOf? (.register ⟨.rax, 3⟩) = none := by
  have isBuilt : (ofBlocks 0x1000 mergeBesideLoop [.ofRange .entry 0 4]).isOk = true := by
    decide +kernel
  cases built : ofBlocks 0x1000 mergeBesideLoop [.ofRange .entry 0 4] with
  | error fault =>
      rw [built] at isBuilt
      cases isBuilt
  | ok body =>
      obtain ⟨values, cycles⟩ := folding_agrees_with_evaluation ⟨_, _, _, built⟩
      have constant : body.Performs (.assign ⟨.rcx, 1⟩ (.const 4)) :=
        (performs_iff_of_ofBlocks built _).mpr (by decide)
      have merge : body.Performs (.phi ⟨.rcx, 2⟩ [⟨.rcx, 1⟩, ⟨.rcx, 1⟩]) :=
        (performs_iff_of_ofBlocks built _).mpr (by decide)
      have loop : body.Performs (.phi ⟨.rax, 2⟩ [⟨.rcx, 2⟩, ⟨.rax, 3⟩]) :=
        (performs_iff_of_ofBlocks built _).mpr (by decide)
      have copy : body.Performs (.assign ⟨.rax, 3⟩ (.register ⟨.rax, 2⟩)) :=
        (performs_iff_of_ofBlocks built _).mpr (by decide)
      have reaches : body.ReachesCycle ⟨.rax, 3⟩ :=
        ⟨⟨.rax, 3⟩, .refl, .tail (.single ⟨_, copy, rfl, by decide⟩) ⟨_, loop, rfl, by decide⟩⟩
      refine ⟨body, rfl, (values _ _).mpr ?_, reaches, (cycles _ reaches).1⟩
      change body.Evaluates _ (4 + 1)
      refine .add ?_ (.const 1)
      refine .merged merge (by decide) ?_
      intro source isRead
      obtain rfl : source = ⟨.rcx, 1⟩ := by
        simpa using isRead
      exact .assigned constant (.const 4)

end Body

end MainLocator
