import Mathlib.Data.List.Induction
import MainLocator.Proofs.Folding

/-!
# Folding is substitution

The value of an expression in a body is the constant that is left when every register that it reads
is replaced by its own value. So operands are folded independently: what folding has found for one
expression never shows in the value of another.
-/

namespace MainLocator

/-! ## Substitution -/

namespace Expression

/-- The expression that stands for a value, or for the lack of one. -/
def ofValue : Option Word → Expression
  | some value => const value
  | none => undefined

/-- Replaces every read of a whole register. -/
def substitute (replacement : RegisterVersion → Expression) : Expression → Expression
  | const value => const value
  | pointer value => pointer value
  | register source => replacement source
  | partialRegister whole part => partialRegister whole part
  | zeroExtend operand => zeroExtend (operand.substitute replacement)
  | signExtend operand => signExtend (operand.substitute replacement)
  | load address => load (address.substitute replacement)
  | add left right => add (left.substitute replacement) (right.substitute replacement)
  | subtract left right => subtract (left.substitute replacement) (right.substitute replacement)
  | undefined => undefined

/-- The register versions that are read whole, from left to right, with repetitions. -/
def wholeReads : Expression → List RegisterVersion
  | register source => [source]
  | zeroExtend operand | signExtend operand => operand.wholeReads
  | load address => address.wholeReads
  | add left right | subtract left right => left.wholeReads ++ right.wholeReads
  | const _ | pointer _ | partialRegister _ _ | undefined => []

@[simp]
theorem constant?_ofValue (value : Option Word) :
    (ofValue value).constant? = value := by
  cases value with
  | none => rfl
  | some word => rfl

theorem substitute_eq_self
    (replacement : RegisterVersion → Expression) {expression : Expression}
    (closed : expression.wholeReads = []) :
    expression.substitute replacement = expression := by
  induction expression with
  | register source =>
      cases closed
  | const | pointer | partialRegister | undefined =>
      rfl
  | zeroExtend operand inductionHypothesis | signExtend operand inductionHypothesis
  | load operand inductionHypothesis =>
      rw [substitute, inductionHypothesis closed]
  | add left right leftHypothesis rightHypothesis
  | subtract left right leftHypothesis rightHypothesis =>
      obtain ⟨leftClosed, rightClosed⟩ := List.append_eq_nil_iff.mp closed
      rw [substitute, leftHypothesis leftClosed, rightHypothesis rightClosed]

end Expression

namespace Body

/-! ## Values of registers in the place of registers -/

/-- The constant in the place of a register version, which is folded on its own. -/
def constantOf (body : Body) (source : RegisterVersion) : Expression :=
  .ofValue (body.valueOf? (.register source))

variable {body : Body}

theorem Accepted.evaluates_iff_constant?_substitute
    (accepted : body.Accepted) (expression : Expression) (value : Word) :
    body.Evaluates expression value ↔
      (expression.substitute body.constantOf).constant? = some value := by
  induction expression generalizing value with
  | const word | pointer word =>
      rw [Expression.substitute, Expression.constant?, Option.some.injEq]
      constructor
      · intro evaluates
        cases evaluates
        rfl
      · rintro rfl
        constructor
  | register source =>
      rw [Expression.substitute, constantOf, Expression.constant?_ofValue,
        accepted.valueOf?_eq_some_iff]
  | partialRegister | load | undefined =>
      rw [Expression.substitute, Expression.constant?]
      constructor
      · intro evaluates
        cases evaluates
      · intro absurdity
        cases absurdity
  | zeroExtend operand inductionHypothesis | signExtend operand inductionHypothesis =>
      rw [Expression.substitute, Expression.constant?, ← inductionHypothesis]
      constructor
      · intro evaluates
        cases evaluates
        assumption
      · intro evaluates
        constructor
        exact evaluates
  | add left right leftHypothesis rightHypothesis
  | subtract left right leftHypothesis rightHypothesis =>
      simp only [Expression.substitute, Expression.constant?, Option.bind_eq_bind,
        Option.bind_eq_some_iff, ← leftHypothesis, ← rightHypothesis, Option.pure_def,
        Option.some.injEq]
      constructor
      · intro evaluates
        cases evaluates
        exact ⟨_, ‹_›, _, ‹_›, rfl⟩
      · rintro ⟨leftValue, leftEvaluates, rightValue, rightEvaluates, rfl⟩
        constructor
        · exact leftEvaluates
        · exact rightEvaluates

theorem Accepted.valueOf?_eq_constant?_substitute
    (accepted : body.Accepted) (expression : Expression) :
    body.valueOf? expression = (expression.substitute body.constantOf).constant? := by
  apply Option.ext
  intro value
  rw [accepted.valueOf?_eq_some_iff, accepted.evaluates_iff_constant?_substitute]

theorem evaluates_of_constant?
    {expression : Expression} {value : Word} (isConstant : expression.constant? = some value) :
    body.Evaluates expression value := by
  induction expression generalizing value with
  | const word | pointer word =>
      cases isConstant
      constructor
  | register | partialRegister | load | undefined =>
      cases isConstant
  | zeroExtend operand inductionHypothesis | signExtend operand inductionHypothesis =>
      constructor
      exact inductionHypothesis isConstant
  | add left right leftHypothesis rightHypothesis
  | subtract left right leftHypothesis rightHypothesis =>
      simp only [Expression.constant?, Option.bind_eq_bind, Option.bind_eq_some_iff,
        Option.pure_def, Option.some.injEq] at isConstant
      obtain ⟨leftValue, leftConstant, rightValue, rightConstant, rfl⟩ := isConstant
      constructor
      · exact leftHypothesis leftConstant
      · exact rightHypothesis rightConstant

/-! ## One folding after another -/

/-- What folding has done after the given expressions, one after another. -/
def foldEach (body : Body) (expressions : List Expression) : Folding :=
  expressions.foldl (fun folding expression => ((body.fold expression).run folding).2) {}

theorem Accepted.consistent_foldEach
    (accepted : body.Accepted) (expressions : List Expression) :
    (body.foldEach expressions).Consistent body ∧ (body.foldEach expressions).pending = [] := by
  induction expressions using List.reverseRecOn with
  | nil =>
      exact ⟨Folding.consistent_start body, rfl⟩
  | append_singleton earlier last inductionHypothesis =>
      obtain ⟨consistent, nonePending⟩ := inductionHypothesis
      have settles := Folding.settles_body_fold accepted last _ consistent nonePending
      rw [foldEach, List.foldl_concat]
      exact settles.2

/-- Whatever was folded before, an expression has the value that it has when folded alone. -/
theorem Accepted.fold_after_foldEach
    (accepted : body.Accepted) (earlier : List Expression) (expression : Expression) :
    ((body.fold expression).run (body.foldEach earlier)).1 = body.valueOf? expression := by
  obtain ⟨consistent, nonePending⟩ := accepted.consistent_foldEach earlier
  obtain ⟨settles, _⟩ := Folding.settles_body_fold accepted expression _ consistent nonePending
  apply Option.ext
  intro value
  rw [settles, accepted.valueOf?_eq_some_iff]

/-- The value of an expression is the constant that it becomes when each register is replaced by the
value that it has when it is folded alone. So what has a value without registers has it in every
body, and an expression that reads no whole register has no other. What was folded before, the
other operand of a sum for instance, makes no difference. -/
theorem folding_is_substitution
    {body : Body} (accepted : body.Accepted) :
    (∀ expression,
      body.valueOf? expression = (expression.substitute body.constantOf).constant?) ∧
      (∀ expression value,
        expression.constant? = some value → body.valueOf? expression = some value) ∧
        (∀ expression : Expression,
          expression.wholeReads = [] → body.valueOf? expression = expression.constant?) ∧
          ∀ earlier expression,
            ((body.fold expression).run (body.foldEach earlier)).1 =
              body.valueOf? expression := by
  refine ⟨accepted.valueOf?_eq_constant?_substitute, ?_, ?_, accepted.fold_after_foldEach⟩
  · intro expression value isConstant
    exact (accepted.valueOf?_eq_some_iff expression value).mpr (evaluates_of_constant? isConstant)
  · intro expression closed
    rw [accepted.valueOf?_eq_constant?_substitute, Expression.substitute_eq_self _ closed]

/-- Two registers that are each other's value, beside a register that is twice another. -/
def loopBesideSum : List Instruction :=
  [⟨0, 0x1000, .phi ⟨.rax, 1⟩ [⟨.rax, 2⟩]⟩,
    ⟨0, 0x1004, .assign ⟨.rax, 2⟩ (.register ⟨.rax, 1⟩)⟩,
    ⟨0, 0x1008, .assign ⟨.rcx, 1⟩ (.const 3)⟩,
    ⟨0, 0x100c, .assign ⟨.rcx, 2⟩ (.add (.register ⟨.rcx, 1⟩) (.register ⟨.rcx, 1⟩))⟩]

theorem folding_loopBesideSum :
    ∃ body,
      ofBlocks 0x1000 loopBesideSum [.ofRange .entry 0 4] = .ok body ∧
        body.constantOf ⟨.rax, 2⟩ = .undefined ∧
          body.constantOf ⟨.rcx, 2⟩ = .const 6 ∧
            body.valueOf? (.subtract (.register ⟨.rcx, 2⟩) (.const 2)) = some 4 ∧
              body.valueOf? (.add (.register ⟨.rcx, 2⟩) (.register ⟨.rax, 2⟩)) = none ∧
                body.valueOf? (.zeroExtend (.add (.const 1) (.pointer 2))) = some 3 ∧
                  body.valueOf? (.signExtend (.partialRegister ⟨.rcx, 2⟩ .rcx)) = none ∧
                    ((body.fold (.register ⟨.rcx, 2⟩)).run
                      (body.foldEach
                        [.add (.register ⟨.rcx, 1⟩) (.register ⟨.rax, 2⟩),
                          .register ⟨.rax, 1⟩])).1 =
                      some 6 := by
  have observed :
      (ofBlocks 0x1000 loopBesideSum [.ofRange .entry 0 4]).toOption.map
          (fun body =>
            (body.valueOf? (.register ⟨.rax, 2⟩), body.valueOf? (.register ⟨.rcx, 2⟩))) =
        some (none, some 6) := by
    decide +kernel
  obtain ⟨body, built, values⟩ := exists_ofBlocks_of_map_toOption observed
  obtain ⟨loopValue, sumValue⟩ := Prod.mk.inj values
  have loopConstant : body.constantOf ⟨.rax, 2⟩ = .undefined := by
    rw [constantOf, loopValue, Expression.ofValue]
  have sumConstant : body.constantOf ⟨.rcx, 2⟩ = .const 6 := by
    rw [constantOf, sumValue, Expression.ofValue]
  obtain ⟨substitutes, keeps, agrees, independent⟩ := folding_is_substitution ⟨_, _, _, built⟩
  refine ⟨body, built, loopConstant, sumConstant, ?_, ?_, keeps _ _ rfl, agrees _ rfl, ?_⟩
  · simp only [substitutes, Expression.substitute, sumConstant]
    rfl
  · simp only [substitutes, Expression.substitute, sumConstant, loopConstant]
    rfl
  · rw [independent, sumValue]

end Body

end MainLocator
