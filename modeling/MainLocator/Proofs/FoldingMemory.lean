import MainLocator.Proofs.FoldingRuns
import MainLocator.Proofs.Substitution

/-!
# What folding remembers

A folding that goes on from one expression to the next gives every expression the value that it has
alone. It never remembers anything but final values, not even inside a definition whose registers
wait for each other, and whatever it folds, it leaves the pending registers as they were.
-/

namespace MainLocator

namespace Folding

/-! ## Pending registers -/

/-- The step ends with the registers pending that were pending at its start. -/
def KeepsPending (step : Step) : Prop :=
  ∀ folding, (step.run folding).2.pending = folding.pending

theorem keepsPending_perform
    {resolve : RegisterVersion → Step} (keeps : ∀ source, KeepsPending (resolve source))
    (inquiry : Inquiry) :
    KeepsPending (inquiry.perform resolve) := by
  induction inquiry with
  | give value =>
      intro folding
      rfl
  | ask source next inductionHypothesis =>
      intro folding
      rw [Inquiry.perform, run_bind]
      cases ((resolve source).run folding).1 with
      | none => exact keeps source folding
      | some value => exact (inductionHypothesis value _).trans (keeps source folding)

/-- A definition is entered and left in turn, so it is the innermost pending one when it is left. -/
theorem keepsPending_register (body : Body) (depth : Nat) (target : RegisterVersion) :
    KeepsPending (register body depth target) := by
  induction depth generalizing target with
  | zero =>
      intro folding
      rfl
  | succ depth inductionHypothesis =>
      intro folding
      rw [run_register]
      cases folding.finished.lookup target with
      | some value =>
          rfl
      | none =>
          by_cases isPending : target ∈ folding.pending
          · simp only [isPending, if_true]
          · have definitionKeeps :=
              keepsPending_perform inductionHypothesis
                (.ofDefinition (Instruction.operation <$> body.definition? target))
                (folding.enter target)
            rw [Inquiry.perform_ofDefinition] at definitionKeeps
            simp only [isPending, if_false, leave, definitionKeeps]
            simp only [enter, List.erase_cons_head]

/-! ## Finished registers -/

/-- The value that a register is remembered with is the value that it has when folded alone. -/
theorem Consistent.eq_valueOf?
    {body : Body} {folding : Folding} (accepted : body.Accepted)
    (consistent : folding.Consistent body) {target : RegisterVersion} {value : Option Word}
    (remembered : (target, value) ∈ folding.finished) :
    value = body.valueOf? (.register target) := by
  apply Option.ext
  intro word
  rw [consistent.correct target value remembered, accepted.valueOf?_eq_some_iff]

end Folding

namespace Body

/-- Whatever was folded before, an expression has the value that it has alone. From the first moment
of its run to the last, while any registers are pending, each finished register is remembered with
its own value. And every folding, at any depth and from any state, ends with the registers pending
with which it started. -/
theorem memory_holds_final_values
    {body : Body} (accepted : body.Accepted) (earlier : List Expression)
    (expression : Expression) :
    ((body.fold expression).run (body.foldEach earlier)).1 = body.valueOf? expression ∧
      (∃ events,
        (∀ others result,
          Folding.Runs body (body.foldEach earlier) expression.inquiry others result ↔
            others = events ∧ result = body.valueOf? expression) ∧
          ((body.fold expression).run (body.foldEach earlier)).2 =
              (body.foldEach earlier).replay events ∧
            ∀ moment ∈ (body.foldEach earlier).moments events,
              ∀ target value, (target, value) ∈ moment.finished →
                value = body.valueOf? (.register target)) ∧
        ∀ depth (inner : Expression) folding,
          ((inner.fold (Folding.register body depth)).run folding).2.pending =
            folding.pending := by
  obtain ⟨consistent, nonePending⟩ := accepted.consistent_foldEach earlier
  obtain ⟨events, follows⟩ := accepted.exists_follows expression consistent nonePending
  have performs := follows.performs
  rw [Inquiry.perform_inquiry] at performs
  refine ⟨accepted.fold_after_foldEach earlier expression,
    ⟨events, follows.runs_iff, congrArg Prod.snd performs, ?_⟩, ?_⟩
  · intro moment isMoment target value remembered
    exact (follows.consistent moment isMoment).eq_valueOf? accepted remembered
  · intro depth inner folding
    rw [← Inquiry.perform_inquiry]
    exact Folding.keepsPending_perform (Folding.keepsPending_register body depth) _ folding

/-- In the middle of a loop of two registers, the one is remembered without a value while the other
is pending, and what was folded before is remembered too. -/
theorem memory_loopBesideSum :
    ∃ body events moment,
      ofBlocks 0x1000 loopBesideSum [.ofRange .entry 0 4] = .ok body ∧
        Folding.Runs body (body.foldEach [.register ⟨.rcx, 2⟩])
          (Expression.register ⟨.rax, 2⟩).inquiry events none ∧
          moment ∈ (body.foldEach [.register ⟨.rcx, 2⟩]).moments events ∧
            moment.pending = [⟨.rax, 2⟩] ∧ (⟨.rax, 1⟩, none) ∈ moment.finished ∧
              body.valueOf? (.register ⟨.rax, 1⟩) = none ∧
                body.valueOf? (.register ⟨.rcx, 1⟩) = some 3 := by
  have observed :
      (ofBlocks 0x1000 loopBesideSum [.ofRange .entry 0 4]).toOption.map
          (fun body =>
            ((body.foldEach [.register ⟨.rcx, 2⟩]).finished,
              (body.foldEach [.register ⟨.rcx, 2⟩]).pending,
              Instruction.operation <$> body.definition? ⟨.rax, 1⟩,
              Instruction.operation <$> body.definition? ⟨.rax, 2⟩)) =
        some ([(⟨.rcx, 2⟩, some 6), (⟨.rcx, 1⟩, some 3)], [],
          some (.phi ⟨.rax, 1⟩ [⟨.rax, 2⟩]), some (.assign ⟨.rax, 2⟩ (.register ⟨.rax, 1⟩))) := by
    decide +kernel
  obtain ⟨body, built, outcome⟩ := exists_ofBlocks_of_map_toOption observed
  simp only [Prod.mk.injEq] at outcome
  obtain ⟨finished, nonePending, phi, copy⟩ := outcome
  have start :
      body.foldEach [.register ⟨.rcx, 2⟩] = ⟨[(⟨.rcx, 2⟩, some 6), (⟨.rcx, 1⟩, some 3)], []⟩ := by
    rw [← finished, ← nonePending]
  obtain ⟨_, ⟨events, runs_iff, _, memory⟩, _⟩ :=
    memory_holds_final_values ⟨_, _, _, built⟩ [.register ⟨.rcx, 2⟩] (.register ⟨.rax, 2⟩)
  rw [start] at runs_iff memory
  have runs :
      Folding.Runs body ⟨[(⟨.rcx, 2⟩, some 6), (⟨.rcx, 1⟩, some 3)], []⟩
        (Expression.register ⟨.rax, 2⟩).inquiry
        (.enter ⟨.rax, 2⟩ :: (.enter ⟨.rax, 1⟩ :: [] ++ [.leave ⟨.rax, 1⟩ none]) ++
          [.leave ⟨.rax, 2⟩ none])
        none := by
    refine .entered rfl (by decide) ?_ (.give _ none)
    rw [copy]
    refine .entered rfl (by decide) ?_ (.give _ none)
    rw [phi]
    exact .pending rfl (by decide)
  obtain ⟨rfl, _⟩ := (runs_iff _ _).mp runs
  let moment : Folding :=
    ⟨[(⟨.rax, 1⟩, none), (⟨.rcx, 2⟩, some 6), (⟨.rcx, 1⟩, some 3)], [⟨.rax, 2⟩]⟩
  have isMoment :
      moment ∈ Folding.moments ⟨[(⟨.rcx, 2⟩, some 6), (⟨.rcx, 1⟩, some 3)], []⟩
        (.enter ⟨.rax, 2⟩ :: (.enter ⟨.rax, 1⟩ :: [] ++ [.leave ⟨.rax, 1⟩ none]) ++
          [.leave ⟨.rax, 2⟩ none]) := by
    rw [Folding.moments, List.cons_append, List.scanl_cons, List.scanl_append]
    refine List.mem_cons_of_mem _ (List.mem_append_left _ ?_)
    exact Folding.replay_mem_moments _ _
  have remembers := memory moment isMoment
  refine ⟨body, _, moment, built, start ▸ runs, start ▸ isMoment, rfl, List.mem_cons_self, ?_, ?_⟩
  · exact (remembers ⟨.rax, 1⟩ none List.mem_cons_self).symm
  · exact (remembers ⟨.rcx, 1⟩ (some 3) (by simp [moment])).symm

end Body

end MainLocator
