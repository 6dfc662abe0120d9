import MainLocator.Detection.Heuristic
import MainLocator.Proofs.Flow
import MainLocator.Proofs.Folding

/-!
# Flow of undetermined values

The search for flow follows a register through every store that reads it, be it in what is stored or
in the place it is stored at. For a register without a constant value the place makes no difference.
To have no value is kept by every step of flow, and a place that is known reads registers with a
value only. So such a register reaches others by what is stored alone. The results of calls are
registers of this kind, and they are the ones whose flow decides about the calls of main.
-/

namespace MainLocator

namespace Body

/-- The value of `source` goes to `receiver` in one step, where a store passes on what it stores and
nothing of the place that it stores at. -/
inductive FlowsAsValue (body : Body) (source receiver : RegisterVersion) : Prop where
  | copy {expression : Expression} :
      body.Performs (.assign receiver expression) →
      expression.Copies source →
      FlowsAsValue body source receiver
  | merge {sources : List RegisterVersion} :
      body.Performs (.phi receiver sources) →
      source ∈ sources →
      FlowsAsValue body source receiver
  | memory {stored value expression loaded : Expression} {place : Word} :
      body.Performs (.store stored value) →
      source ∈ value.reads →
      body.valueOf? stored = some place →
      body.Performs (.assign receiver expression) →
      expression.Loads loaded →
      body.valueOf? loaded = some place →
      FlowsAsValue body source receiver

variable {body : Body}

theorem FlowsAsValue.flowsTo
    {source receiver : RegisterVersion}
    (flows : body.FlowsAsValue source receiver) :
    body.FlowsTo source receiver := by
  cases flows with
  | copy performs copies =>
      exact .copy performs copies
  | merge performs isRead =>
      exact .merge performs isRead
  | @memory stored _ _ _ _ performs isRead isPlace loadPerforms loads isLoaded =>
      have isPart := List.mem_append_right stored.reads isRead
      exact .memory performs isPart isPlace loadPerforms loads isLoaded

/-! ## Registers without a value -/

/-- No rule gives the register a value. -/
def IsUndetermined (body : Body) (register : RegisterVersion) : Prop :=
  ∀ value, ¬ body.Evaluates (.register register) value

theorem not_evaluates_of_loads
    {expression loaded : Expression}
    (loads : expression.Loads loaded) (value : Word) :
    ¬ body.Evaluates expression value := by
  intro evaluates
  cases loads with
  | plain =>
      cases evaluates
  | zeroExtended =>
      cases evaluates with
      | zeroExtend evaluates =>
          cases evaluates
  | signExtended =>
      cases evaluates with
      | signExtend evaluates =>
          cases evaluates

namespace Accepted

/-- Only assignments and phis give values. -/
theorem isUndetermined_of_performs
    (accepted : body.Accepted)
    {operation : Operation} {target : RegisterVersion}
    (performs : body.Performs operation) (isWritten : target ∈ operation.writes)
    (assignsNothing : operation.assigned? = none) :
    body.IsUndetermined target := by
  intro value evaluates
  cases evaluates with
  | assigned otherPerforms _ | merged otherPerforms _ _ =>
      have same := accepted.eq_of_assigned? otherPerforms performs rfl isWritten
      rw [← same] at assignsNothing
      cases assignsNothing

theorem isUndetermined_of_mem_results
    (accepted : body.Accepted)
    {operation : Operation} {operands : CallOperands} {result : RegisterVersion}
    (performs : body.Performs operation) (isCall : operation.callOperands? = some operands)
    (isResult : result ∈ operands.results) :
    body.IsUndetermined result := by
  cases operation with
  | call performed | tailCall performed =>
      cases isCall
      exact accepted.isUndetermined_of_performs performs isResult rfl
  | _ =>
      cases isCall

theorem isUndetermined_of_dependsOn
    (accepted : body.Accepted)
    {source receiver : RegisterVersion}
    (depends : body.DependsOn receiver source) (undetermined : body.IsUndetermined source) :
    body.IsUndetermined receiver := by
  intro value evaluates
  obtain ⟨word, sourceEvaluates⟩ := accepted.exists_evaluates_of_dependsOn depends evaluates
  exact undetermined word sourceEvaluates

/-- A register that is assigned a load has no value. -/
theorem isUndetermined_of_loads
    (accepted : body.Accepted)
    {receiver : RegisterVersion} {expression loaded : Expression}
    (performs : body.Performs (.assign receiver expression)) (loads : expression.Loads loaded) :
    body.IsUndetermined receiver := by
  intro value evaluates
  cases evaluates with
  | assigned otherPerforms evaluates =>
      have same :=
        accepted.eq_of_assigned? otherPerforms performs rfl (List.mem_singleton_self receiver)
      cases same
      exact not_evaluates_of_loads loads value evaluates
  | merged otherPerforms _ _ =>
      have same :=
        accepted.eq_of_assigned? otherPerforms performs rfl (List.mem_singleton_self receiver)
      cases same

/-- Every step of flow keeps a register without a value from getting one. -/
theorem isUndetermined_of_flowsTo
    (accepted : body.Accepted)
    {source receiver : RegisterVersion}
    (flows : body.FlowsTo source receiver) (undetermined : body.IsUndetermined source) :
    body.IsUndetermined receiver := by
  cases flows with
  | @copy expression performs copies =>
      have isRead := ((expression.copies_iff source).mp copies).2
      exact accepted.isUndetermined_of_dependsOn ⟨_, performs, rfl, isRead⟩ undetermined
  | merge performs isRead =>
      exact accepted.isUndetermined_of_dependsOn ⟨_, performs, rfl, isRead⟩ undetermined
  | memory _ _ _ performs loads _ =>
      exact accepted.isUndetermined_of_loads performs loads

theorem isUndetermined_of_reflTransGen
    (accepted : body.Accepted)
    {source register : RegisterVersion}
    (path : Relation.ReflTransGen body.FlowsTo source register)
    (undetermined : body.IsUndetermined source) :
    body.IsUndetermined register := by
  induction path with
  | refl =>
      exact undetermined
  | tail _ flows inductionHypothesis =>
      exact accepted.isUndetermined_of_flowsTo flows inductionHypothesis

/-! ## Known places -/

/-- A place that is known reads no register without a value. -/
theorem valueOf?_eq_none_of_mem_reads
    (accepted : body.Accepted)
    {register : RegisterVersion} {place : Expression}
    (undetermined : body.IsUndetermined register) (isRead : register ∈ place.reads) :
    body.valueOf? place = none := by
  rw [accepted.valueOf?_eq_none_iff]
  intro value evaluates
  obtain ⟨word, registerEvaluates⟩ := evaluates.exists_of_mem_reads register isRead
  exact undetermined word registerEvaluates

theorem flowsAsValue_of_flowsTo
    (accepted : body.Accepted)
    {source receiver : RegisterVersion}
    (undetermined : body.IsUndetermined source) (flows : body.FlowsTo source receiver) :
    body.FlowsAsValue source receiver := by
  cases flows with
  | copy performs copies =>
      exact .copy performs copies
  | merge performs isRead =>
      exact .merge performs isRead
  | memory performs isRead isPlace loadPerforms loads isLoaded =>
      rcases List.mem_append.mp isRead with inPlace | inValue
      · rw [accepted.valueOf?_eq_none_of_mem_reads undetermined inPlace] at isPlace
        cases isPlace
      · exact .memory performs inValue isPlace loadPerforms loads isLoaded

/-- Behind a register without a value, the two kinds of flow have the same paths. -/
theorem transGen_flowsAsValue_iff
    (accepted : body.Accepted)
    {source : RegisterVersion} (undetermined : body.IsUndetermined source)
    (target : RegisterVersion) :
    Relation.TransGen body.FlowsAsValue source target ↔
      Relation.TransGen body.FlowsTo source target := by
  constructor
  · intro path
    exact Relation.TransGen.mono (fun _ _ => FlowsAsValue.flowsTo) _ _ path
  · intro path
    induction path with
    | single flows =>
        exact .single (accepted.flowsAsValue_of_flowsTo undetermined flows)
    | tail path flows inductionHypothesis =>
        have reached := accepted.isUndetermined_of_reflTransGen path.to_reflTransGen undetermined
        exact inductionHypothesis.tail (accepted.flowsAsValue_of_flowsTo reached flows)

theorem flowsInto_eq_true_iff_of_isUndetermined
    (accepted : body.Accepted)
    {source : RegisterVersion} (undetermined : body.IsUndetermined source)
    (targets : RegisterSet) :
    body.flowsInto targets source = true ↔
      ∃ target ∈ targets, Relation.TransGen body.FlowsAsValue source target := by
  simp only [accepted.flowsInto_eq_true_iff, accepted.transGen_flowsAsValue_iff undetermined]

end Accepted

/-- A register without a value flows only as a value. None of the registers that the search arrives
at is read by the address of a store to a known place. The results of calls have no value, so this
holds of all flow that `Heuristic.resultFlowsInto` looks for. -/
theorem undetermined_registers_flow_as_values
    (accepted : body.Accepted) :
    (∀ source, body.valueOf? (.register source) = none →
      (∀ targets : RegisterSet,
        body.flowsInto targets source = true ↔
          ∃ target ∈ targets, Relation.TransGen body.FlowsAsValue source target) ∧
        ∀ carrier ∈ body.carriers source, ∀ stored value,
          body.Performs (.store stored value) → carrier ∈ stored.reads →
            body.valueOf? stored = none) ∧
      ∀ operation operands,
        body.Performs operation → operation.callOperands? = some operands →
          (∀ result ∈ operands.results, body.valueOf? (.register result) = none) ∧
            ∀ (targets : RegisterSet) returnRegister,
              Heuristic.resultFlowsInto body targets returnRegister operands = true ↔
                ∃ result ∈ operands.results, result.register = returnRegister ∧
                  ∃ target ∈ targets, Relation.TransGen body.FlowsAsValue result target := by
  refine ⟨fun source noValue => ?_, fun operation operands performs isCall => ?_⟩
  · have undetermined : body.IsUndetermined source := (accepted.valueOf?_eq_none_iff _).mp noValue
    refine ⟨accepted.flowsInto_eq_true_iff_of_isUndetermined undetermined, ?_⟩
    intro carrier isCarrier stored value _ isRead
    have path := (accepted.mem_carriers_iff source carrier).mp isCarrier
    have reached := accepted.isUndetermined_of_reflTransGen path undetermined
    exact accepted.valueOf?_eq_none_of_mem_reads reached isRead
  · have undetermined : ∀ result ∈ operands.results, body.IsUndetermined result :=
      fun result => accepted.isUndetermined_of_mem_results performs isCall
    refine ⟨fun result isResult => ?_, fun targets returnRegister => ?_⟩
    · exact (accepted.valueOf?_eq_none_iff _).mpr (undetermined result isResult)
    · rw [Heuristic.resultFlowsInto, List.any_filter, List.any_eq_true]
      refine exists_congr fun result => and_congr_right fun isResult => ?_
      rw [Bool.and_eq_true, decide_eq_true_eq,
        accepted.flowsInto_eq_true_iff_of_isUndetermined (undetermined result isResult)]

/-- The result of a call is stored at the place that one register names, and that register where the
result points to. -/
def storedResult : List Instruction :=
  [⟨0, 0x1000, .call ⟨.pointer 0x2000, [⟨.rax, 1⟩], []⟩⟩,
    ⟨0, 0x1004, .assign ⟨.rcx, 1⟩ (.pointer 0x5000)⟩,
    ⟨0, 0x1008, .store (.register ⟨.rcx, 1⟩) (.register ⟨.rax, 1⟩)⟩,
    ⟨0, 0x100c, .store (.register ⟨.rax, 1⟩) (.register ⟨.rcx, 1⟩)⟩,
    ⟨0, 0x1010, .assign ⟨.rdx, 1⟩ (.signExtend (.load (.const 0x5000)))⟩]

theorem flow_storedResult :
    ∃ body,
      ofBlocks 0x1000 storedResult [.ofRange .entry 0 5] = .ok body ∧
        body.valueOf? (.register ⟨.rax, 1⟩) = none ∧
          body.flowsInto (.ofList [(⟨.rdx, 1⟩ : RegisterVersion)]) ⟨.rax, 1⟩ = true ∧
            body.flowsInto (.ofList [(⟨.rcx, 1⟩ : RegisterVersion)]) ⟨.rax, 1⟩ = false := by
  have isBuilt : (ofBlocks 0x1000 storedResult [.ofRange .entry 0 5]).isOk = true := by
    decide +kernel
  cases built : ofBlocks 0x1000 storedResult [.ofRange .entry 0 5] with
  | error fault =>
      rw [built] at isBuilt
      cases isBuilt
  | ok body =>
      obtain ⟨flow, calls⟩ := @undetermined_registers_flow_as_values body ⟨_, _, _, built⟩
      have performs := fun operation => (performs_iff_of_ofBlocks built operation).mpr
      have noValue : body.valueOf? (.register ⟨.rax, 1⟩) = none :=
        (calls _ _ (performs (.call ⟨.pointer 0x2000, [⟨.rax, 1⟩], []⟩) (by decide)) rfl).1 _
          (List.mem_singleton_self _)
      have place : body.valueOf? (.register ⟨.rcx, 1⟩) = some 0x5000 := by
        refine (Accepted.valueOf?_eq_some_iff ⟨_, _, _, built⟩ _ _).mpr ?_
        exact .assigned (performs (.assign ⟨.rcx, 1⟩ (.pointer 0x5000)) (by decide)) (.pointer _)
      have stored : body.FlowsAsValue ⟨.rax, 1⟩ ⟨.rdx, 1⟩ :=
        .memory (performs (.store (.register ⟨.rcx, 1⟩) (.register ⟨.rax, 1⟩)) (by decide))
          (by decide) place
          (performs (.assign ⟨.rdx, 1⟩ (.signExtend (.load (.const 0x5000)))) (by decide))
          (.signExtended _) rfl
      refine ⟨body, rfl, noValue, ?_, ?_⟩
      · exact ((flow _ noValue).1 _).mpr ⟨⟨.rdx, 1⟩, by decide +kernel, .single stored⟩
      · rw [Bool.eq_false_iff]
        intro reaches
        obtain ⟨target, isTarget, path⟩ := ((flow _ noValue).1 _).mp reaches
        obtain rfl : ⟨.rcx, 1⟩ = target := by
          simpa [Std.TreeSet.mem_ofList] using isTarget
        obtain ⟨before, _, last⟩ := Relation.TransGen.tail'_iff.mp path
        have onlyAssignment :
            ∀ expression, body.Performs (.assign ⟨.rcx, 1⟩ expression) →
              expression = .pointer 0x5000 := by
          intro expression assigns
          have listed := (performs_iff_of_ofBlocks built _).mp assigns
          simpa [storedResult, Register.rcx, Register.rdx] using listed
        cases last with
        | copy assigns copies =>
            rw [onlyAssignment _ assigns] at copies
            cases copies
        | merge merges =>
            have listed := (performs_iff_of_ofBlocks built _).mp merges
            simp [storedResult] at listed
        | memory _ _ _ assigns loads =>
            rw [onlyAssignment _ assigns] at loads
            cases loads

end Body

end MainLocator
