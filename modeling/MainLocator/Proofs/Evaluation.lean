import Mathlib.Logic.Relation
import MainLocator.Proofs.AcceptedBody

/-!
# Evaluation and dependency

What it means for an expression to have a constant value in a body, said by rules and without an
order of evaluation. A derivation is finite, so a register with a value depends on no register that
depends on itself. This is why a result of folding that was found in the middle of a cycle is final.
-/

namespace MainLocator

namespace Body

/-- The expression has the value by finitely many uses of these rules. Reads of parts, loads and
undefined expressions have none, and neither have registers that no assignment or phi defines. -/
inductive Evaluates (body : Body) : Expression → Word → Prop where
  | const (value : Word) :
      Evaluates body (.const value) value
  | pointer (value : Word) :
      Evaluates body (.pointer value) value
  | zeroExtend {operand : Expression} {value : Word} :
      Evaluates body operand value →
      Evaluates body (.zeroExtend operand) value
  | signExtend {operand : Expression} {value : Word} :
      Evaluates body operand value →
      Evaluates body (.signExtend operand) value
  | add {left right : Expression} {leftValue rightValue : Word} :
      Evaluates body left leftValue →
      Evaluates body right rightValue →
      Evaluates body (.add left right) (leftValue + rightValue)
  | subtract {left right : Expression} {leftValue rightValue : Word} :
      Evaluates body left leftValue →
      Evaluates body right rightValue →
      Evaluates body (.subtract left right) (leftValue - rightValue)
  | assigned {target : RegisterVersion} {source : Expression} {value : Word} :
      body.Performs (.assign target source) →
      Evaluates body source value →
      Evaluates body (.register target) value
  | merged {target : RegisterVersion} {sources : List RegisterVersion} {value : Word} :
      body.Performs (.phi target sources) →
      sources ≠ [] →
      (∀ source ∈ sources, Evaluates body (.register source) value) →
      Evaluates body (.register target) value

/-- The value of the operation that defines a register. -/
def Determines (body : Body) : Option Operation → Word → Prop
  | some (.assign _ source), value => body.Evaluates source value
  | some (.phi _ sources), value =>
      sources ≠ [] ∧ ∀ source ∈ sources, body.Evaluates (.register source) value
  | _, _ => False

/-- The assignment or phi that defines `target` reads `source`. -/
def DependsOn (body : Body) (target source : RegisterVersion) : Prop :=
  ∃ operation,
    body.Performs operation ∧ operation.assigned? = some target ∧ source ∈ operation.reads

/-- The definition of `target` leads to a register that depends on itself. -/
def ReachesCycle (body : Body) (target : RegisterVersion) : Prop :=
  ∃ looping,
    Relation.ReflTransGen body.DependsOn target looping ∧
      Relation.TransGen body.DependsOn looping looping

/-- An expression with a value reads only registers with a value. -/
theorem Evaluates.exists_of_mem_reads
    {body : Body} {expression : Expression} {value : Word}
    (evaluates : body.Evaluates expression value) :
    ∀ source ∈ expression.reads, ∃ word, body.Evaluates (.register source) word := by
  induction evaluates with
  | const | pointer =>
      simp [Expression.reads]
  | zeroExtend _ inductionHypothesis | signExtend _ inductionHypothesis =>
      exact inductionHypothesis
  | add _ _ leftHypothesis rightHypothesis | subtract _ _ leftHypothesis rightHypothesis =>
      intro source isRead
      rcases List.mem_append.mp isRead with isLeft | isRight
      · exact leftHypothesis source isLeft
      · exact rightHypothesis source isRight
  | assigned performs evaluates _ =>
      intro source isRead
      obtain rfl := List.mem_singleton.mp isRead
      exact ⟨_, .assigned performs evaluates⟩
  | merged performs nonempty evaluates _ =>
      intro source isRead
      obtain rfl := List.mem_singleton.mp isRead
      exact ⟨_, .merged performs nonempty evaluates⟩

/-- A derivation of a value uses assignments and phis alone, and can be repeated rule by rule where
they are all there. -/
theorem Evaluates.of_assignments
    {left right : Body}
    (kept : ∀ operation, operation.assigned?.isSome → left.Performs operation →
      right.Performs operation)
    {expression : Expression} {value : Word}
    (evaluates : left.Evaluates expression value) :
    right.Evaluates expression value := by
  induction evaluates with
  | const value =>
      exact .const value
  | pointer value =>
      exact .pointer value
  | zeroExtend _ inductionHypothesis =>
      exact .zeroExtend inductionHypothesis
  | signExtend _ inductionHypothesis =>
      exact .signExtend inductionHypothesis
  | add _ _ leftHypothesis rightHypothesis =>
      exact .add leftHypothesis rightHypothesis
  | subtract _ _ leftHypothesis rightHypothesis =>
      exact .subtract leftHypothesis rightHypothesis
  | assigned performs _ inductionHypothesis =>
      exact .assigned (kept _ rfl performs) inductionHypothesis
  | merged performs nonempty _ inductionHypothesis =>
      exact .merged (kept _ rfl performs) nonempty inductionHypothesis

namespace Accepted

variable {body : Body}

theorem exists_definition?_of_performs
    (accepted : body.Accepted)
    {target : RegisterVersion} {operation : Operation}
    (performs : body.Performs operation) (assigns : operation.assigned? = some target) :
    ∃ instruction,
      body.definition? target = some instruction ∧ instruction.operation = operation := by
  obtain ⟨instruction, member, rfl⟩ := performs
  have isWritten := Operation.mem_writes_of_assigned? assigns
  exact ⟨instruction,
    (accepted.definition?_eq_some_iff target instruction).mpr ⟨member, isWritten⟩, rfl⟩

theorem evaluates_register_iff
    (accepted : body.Accepted) (target : RegisterVersion) (value : Word) :
    body.Evaluates (.register target) value ↔
      body.Determines (Instruction.operation <$> body.definition? target) value := by
  constructor
  · intro evaluates
    cases evaluates with
    | assigned performs evaluates =>
        obtain ⟨instruction, isDefined, same⟩ :=
          accepted.exists_definition?_of_performs performs rfl
        rw [isDefined, Option.map_eq_map, Option.map_some, same]
        exact evaluates
    | merged performs nonempty evaluates =>
        obtain ⟨instruction, isDefined, same⟩ :=
          accepted.exists_definition?_of_performs performs rfl
        rw [isDefined, Option.map_eq_map, Option.map_some, same]
        exact ⟨nonempty, evaluates⟩
  · cases isDefined : body.definition? target with
    | none =>
        exact False.elim
    | some instruction =>
        obtain ⟨member, isWritten⟩ :=
          (accepted.definition?_eq_some_iff target instruction).mp isDefined
        have performs : body.Performs instruction.operation := ⟨instruction, member, rfl⟩
        rw [Option.map_eq_map, Option.map_some]
        cases operation : instruction.operation with
        | assign destination source =>
            rw [operation] at performs isWritten
            obtain rfl : target = destination := List.mem_singleton.mp isWritten
            exact Evaluates.assigned performs
        | phi destination sources =>
            rw [operation] at performs isWritten
            obtain rfl : target = destination := List.mem_singleton.mp isWritten
            rintro ⟨nonempty, evaluates⟩
            exact Evaluates.merged performs nonempty evaluates
        | _ =>
            exact False.elim

theorem dependsOn_iff
    (accepted : body.Accepted)
    {operation : Operation} {target : RegisterVersion}
    (performs : body.Performs operation) (assigns : operation.assigned? = some target)
    (source : RegisterVersion) :
    body.DependsOn target source ↔ source ∈ operation.reads := by
  constructor
  · rintro ⟨other, otherPerforms, otherAssigns, isRead⟩
    have isWritten := Operation.mem_writes_of_assigned? assigns
    rwa [← accepted.eq_of_assigned? otherPerforms performs otherAssigns isWritten]
  · intro isRead
    exact ⟨operation, performs, assigns, isRead⟩

/-- A register with a value depends only on registers with a value. -/
theorem exists_evaluates_of_dependsOn
    (accepted : body.Accepted)
    {target source : RegisterVersion} {value : Word}
    (depends : body.DependsOn target source)
    (evaluates : body.Evaluates (.register target) value) :
    ∃ word, body.Evaluates (.register source) word := by
  cases evaluates with
  | assigned performs evaluates =>
      have isRead := (accepted.dependsOn_iff performs rfl source).mp depends
      exact evaluates.exists_of_mem_reads source isRead
  | merged performs _ evaluates =>
      have isSource := (accepted.dependsOn_iff performs rfl source).mp depends
      exact ⟨value, evaluates source isSource⟩

theorem dependsOn_of_definition?
    (accepted : body.Accepted)
    {operation : Operation} {target source : RegisterVersion}
    (isDefined : operation ∈ Instruction.operation <$> body.definition? target)
    (assigns : operation.assigned?.isSome) (isRead : source ∈ operation.reads) :
    body.DependsOn target source := by
  obtain ⟨instruction, definition, rfl⟩ := Option.map_eq_some_iff.mp isDefined
  obtain ⟨member, isWritten⟩ :=
    (accepted.definition?_eq_some_iff target instruction).mp definition
  obtain ⟨assigned, assigns⟩ := Option.isSome_iff_exists.mp assigns
  rw [Operation.writes_of_assigned? assigns, List.mem_singleton] at isWritten
  subst isWritten
  exact ⟨instruction.operation, ⟨instruction, member, rfl⟩, assigns, isRead⟩

/-- No chain of dependencies that starts at a register of an expression with a value is endless. The
induction is on the derivation of the value, which holds one of each register on such a chain. -/
theorem acc_of_evaluates
    (accepted : body.Accepted)
    {expression : Expression} {value : Word}
    (evaluates : body.Evaluates expression value) :
    ∀ source ∈ expression.reads, Acc (fun left right => body.DependsOn right left) source := by
  induction evaluates with
  | const | pointer =>
      simp [Expression.reads]
  | zeroExtend _ inductionHypothesis | signExtend _ inductionHypothesis =>
      exact inductionHypothesis
  | add _ _ leftHypothesis rightHypothesis | subtract _ _ leftHypothesis rightHypothesis =>
      intro source isRead
      rcases List.mem_append.mp isRead with isLeft | isRight
      · exact leftHypothesis source isLeft
      · exact rightHypothesis source isRight
  | assigned performs _ inductionHypothesis =>
      intro target isRead
      obtain rfl := List.mem_singleton.mp isRead
      refine Acc.intro _ fun source depends => ?_
      exact inductionHypothesis source ((accepted.dependsOn_iff performs rfl source).mp depends)
  | merged performs _ _ inductionHypothesis =>
      intro target isRead
      obtain rfl := List.mem_singleton.mp isRead
      refine Acc.intro _ fun source depends => ?_
      have isSource := (accepted.dependsOn_iff performs rfl source).mp depends
      exact inductionHypothesis source isSource source (List.mem_singleton_self source)

/-- A register whose definitions reach a cycle has no value. -/
theorem not_evaluates_of_reachesCycle
    (accepted : body.Accepted)
    {target : RegisterVersion} (reaches : body.ReachesCycle target) (value : Word) :
    ¬ body.Evaluates (.register target) value := by
  intro evaluates
  obtain ⟨looping, path, loop⟩ := reaches
  have endless : ∀ register,
      Acc (Relation.TransGen fun left right => body.DependsOn right left) register →
        ¬ Relation.TransGen (fun left right => body.DependsOn right left) register register := by
    intro register accessible
    induction accessible with
    | intro register _ inductionHypothesis =>
        intro cycle
        exact inductionHypothesis register cycle cycle
  have start := accepted.acc_of_evaluates evaluates target (List.mem_singleton_self target)
  have accessible : Acc (fun left right => body.DependsOn right left) looping := by
    rcases Relation.reflTransGen_iff_eq_or_transGen.mp path with rfl | steps
    · exact start
    · exact start.inv_of_transGen (Relation.transGen_swap.mpr steps)
  exact endless looping accessible.transGen (Relation.transGen_swap.mpr loop)

end Accepted

end Body

end MainLocator
