import MainLocator.Proofs.WriteOnce

/-!
# Histories of a ledger

A history is a list of operations on one ledger, for any programs and with queries in between. What
each operation answers follows from the operations in front of it: of the attempts to resolve a
program only the first is stored, and of the attempts to prime it only the first can succeed.
-/

namespace MainLocator

/-- Programs are resolved for good only: as found, or as not found. -/
abbrev FinalResolution :=
  { resolution : Resolution // resolution.isFinal = true }

namespace Ledger

inductive Query where
  | resolution (id : ProgramId)
  | isResolved (id : ProgramId)
  | isPrimed (id : ProgramId)
  | snapshot

inductive Operation where
  | resolve (id : ProgramId) (resolution : FinalResolution)
  | prime (id : ProgramId)
  | query (query : Query)

namespace Operation

/-- The program that an operation can change. -/
def target? : Operation → Option ProgramId
  | resolve id _ | prime id => some id
  | query _ => none

def Resolves (operation : Operation) (id : ProgramId) : Prop :=
  ∃ resolution, operation = .resolve id resolution

end Operation

inductive Answer where
  | outcome (outcome : ResolveOutcome)
  | flag (flag : Bool)
  | resolution (resolution : Resolution)
  | entries (entries : List (ProgramId × Resolution))

def ask (ledger : Ledger) : Query → Answer
  | .resolution id => .resolution (ledger.get id)
  | .isResolved id => .flag (ledger.isResolved id)
  | .isPrimed id => .flag (ledger.isPrimed id)
  | .snapshot => .entries ledger.snapshot

def perform (ledger : Ledger) : Operation → Answer × Ledger
  | .resolve id resolution =>
      (.outcome (ledger.resolve id resolution).1, (ledger.resolve id resolution).2)
  | .prime id => (.flag (ledger.prime id).1, (ledger.prime id).2)
  | .query query => (ledger.ask query, ledger)

def run (ledger : Ledger) (history : List Operation) : Ledger :=
  history.foldl (fun ledger operation => (ledger.perform operation).2) ledger

/-- The answer to an operation behind a history. -/
def answer (ledger : Ledger) (history : List Operation) (operation : Operation) : Answer :=
  ((ledger.run history).perform operation).1

/-! ## Writing and priming -/

section Writing

variable (ledger : Ledger) (id other : ProgramId)

theorem isResolved_resolve (resolution : FinalResolution) :
    (ledger.resolve id resolution).2.isResolved other =
      (ledger.isResolved other || decide (id = other)) := by
  have final := resolution.property
  rw [isResolved, get_resolve]
  by_cases written : id = other ∧ ledger.isResolved id = false
  · rw [if_pos written]
    simp [written.1, final]
  · rw [if_neg written]
    by_cases same : id = other
    · have resolved : ledger.isResolved other = true := by
        simpa [same] using written
      change ledger.isResolved other = _
      simp [resolved]
    · simp [isResolved, same]

theorem isResolved_prime :
    (ledger.prime id).2.isResolved other = ledger.isResolved other :=
  congrArg Resolution.isFinal (ledger.get_prime id other)

theorem prime_fst :
    (ledger.prime id).1 = (!ledger.isResolved id && !ledger.isPrimed id) := by
  unfold prime
  cases ledger.isResolved id with
  | true => rfl
  | false =>
      cases ledger.isPrimed id with
      | true => rfl
      | false => rfl

theorem mem_entries_of_isResolved
    (resolved : ledger.isResolved id = true) :
    id ∈ ledger.entries := by
  apply Decidable.byContradiction
  intro absent
  have unresolved : ledger.get id = .unresolved := Std.TreeMap.getD_eq_fallback absent
  rw [isResolved, unresolved] at resolved
  exact absurd resolved Bool.false_ne_true

theorem mem_entries_resolve_iff (resolution : Resolution) :
    other ∈ (ledger.resolve id resolution).2.entries ↔ other ∈ ledger.entries ∨ id = other := by
  unfold resolve
  by_cases resolved : ledger.isResolved id = true
  · have present := ledger.mem_entries_of_isResolved id resolved
    rw [if_pos resolved]
    constructor
    · exact .inl
    · intro condition
      rcases condition with member | same
      · exact member
      · rwa [← same]
  · rw [if_neg resolved]
    simp [Std.TreeMap.mem_insert, or_comm]

theorem entries_prime :
    (ledger.prime id).2.entries = ledger.entries := by
  unfold prime
  split
  · rfl
  · rfl

end Writing

/-! ## One operation -/

section Steps

variable (ledger : Ledger) (operation : Operation) (id : ProgramId)

theorem isResolved_perform_iff :
    (ledger.perform operation).2.isResolved id = true ↔
      ledger.isResolved id = true ∨ operation.Resolves id := by
  cases operation with
  | resolve target resolution =>
      change (ledger.resolve target resolution).2.isResolved id = true ↔ _
      rw [isResolved_resolve]
      simp [Operation.Resolves]
  | prime target =>
      change (ledger.prime target).2.isResolved id = true ↔ _
      rw [isResolved_prime]
      simp [Operation.Resolves]
  | query query =>
      simp [perform, Operation.Resolves]

theorem mem_entries_perform_iff :
    id ∈ (ledger.perform operation).2.entries ↔
      id ∈ ledger.entries ∨ operation.Resolves id := by
  cases operation with
  | resolve target resolution =>
      change id ∈ (ledger.resolve target resolution).2.entries ↔ _
      rw [mem_entries_resolve_iff]
      simp [Operation.Resolves]
  | prime target =>
      change id ∈ (ledger.prime target).2.entries ↔ _
      rw [entries_prime]
      simp [Operation.Resolves]
  | query query =>
      simp [perform, Operation.Resolves]

theorem get_perform_of_isResolved
    (resolved : ledger.isResolved id = true) :
    (ledger.perform operation).2.get id = ledger.get id := by
  cases operation with
  | resolve target resolution =>
      change (ledger.resolve target resolution).2.get id = _
      rw [get_resolve, if_neg]
      intro written
      rw [written.1, resolved] at written
      exact absurd written.2.symm Bool.false_ne_true
  | prime target =>
      exact ledger.get_prime target id
  | query query =>
      rfl

theorem agreesAt_perform
    (elsewhere : operation.target? ≠ some id) :
    (ledger.perform operation).2.get id = ledger.get id ∧
      (ledger.perform operation).2.isPrimed id = ledger.isPrimed id := by
  cases operation with
  | resolve target resolution =>
      apply ledger.agreesOutside_resolve target resolution
      intro same
      exact elsewhere (congrArg some same.symm)
  | prime target =>
      apply ledger.agreesOutside_prime target
      intro same
      exact elsewhere (congrArg some same.symm)
  | query query =>
      exact ⟨rfl, rfl⟩

theorem isPrimed_perform_iff
    (apart : ledger.isPrimed id = true → ledger.isResolved id = false) :
    (ledger.perform operation).2.isPrimed id = true ↔
      (ledger.perform operation).2.isResolved id = false ∧
        (ledger.isPrimed id = true ∨ operation = .prime id) := by
  cases operation with
  | resolve target resolution =>
      change (ledger.resolve target resolution).2.isPrimed id = true ↔
        (ledger.resolve target resolution).2.isResolved id = false ∧ _
      rw [isPrimed_resolve, isResolved_resolve]
      cases primed : ledger.isPrimed id with
      | false =>
          simp
      | true =>
          have unresolved := apart primed
          by_cases same : target = id
          · simp [same, unresolved]
          · simp [same, unresolved]
  | prime target =>
      change (ledger.prime target).2.isPrimed id = true ↔
        (ledger.prime target).2.isResolved id = false ∧ _
      rw [isResolved_prime, isPrimed_prime]
      cases primed : ledger.isPrimed id with
      | true =>
          simp [apart primed]
      | false =>
          by_cases same : target = id
          · simp [same]
          · simp [same]
  | query query =>
      simpa [perform] using apart

end Steps

/-! ## Whole histories -/

section Histories

variable (ledger : Ledger) (history : List Operation) (id : ProgramId)

theorem run_cons (head : Operation) (tail : List Operation) :
    ledger.run (head :: tail) = (ledger.perform head).2.run tail :=
  rfl

theorem run_append (late : List Operation) :
    ledger.run (history ++ late) = (ledger.run history).run late :=
  List.foldl_append

/-- What one of certain operations brings about for good, a history with one of them does. -/
theorem run_iff_of_perform_iff
    (Holds : Ledger → Prop) (Marks : Operation → Prop)
    (perform_iff : ∀ ledger operation,
      Holds (ledger.perform operation).2 ↔ Holds ledger ∨ Marks operation) :
    Holds (ledger.run history) ↔ Holds ledger ∨ ∃ operation ∈ history, Marks operation := by
  induction history generalizing ledger with
  | nil =>
      simp [run]
  | cons head tail inductionHypothesis =>
      rw [run_cons, inductionHypothesis, perform_iff]
      simp only [List.mem_cons, exists_eq_or_imp, or_assoc]

theorem isResolved_run_iff :
    (ledger.run history).isResolved id = true ↔
      ledger.isResolved id = true ∨ ∃ operation ∈ history, operation.Resolves id :=
  ledger.run_iff_of_perform_iff history (·.isResolved id = true) (·.Resolves id)
    fun ledger operation => ledger.isResolved_perform_iff operation id

theorem isResolved_run_eq_false_iff :
    (ledger.run history).isResolved id = false ↔
      ledger.isResolved id = false ∧ ∀ operation ∈ history, ¬ operation.Resolves id := by
  have resolved_iff := ledger.isResolved_run_iff history id
  rw [← Bool.not_eq_true, ← Bool.not_eq_true, resolved_iff]
  simp

theorem mem_entries_run_iff :
    id ∈ (ledger.run history).entries ↔
      id ∈ ledger.entries ∨ ∃ operation ∈ history, operation.Resolves id :=
  ledger.run_iff_of_perform_iff history (id ∈ ·.entries) (·.Resolves id)
    fun ledger operation => ledger.mem_entries_perform_iff operation id

theorem get_run_of_isResolved
    (resolved : ledger.isResolved id = true) :
    (ledger.run history).get id = ledger.get id := by
  induction history generalizing ledger with
  | nil =>
      rfl
  | cons head tail inductionHypothesis =>
      have stillResolved := (ledger.isResolved_perform_iff head id).mpr (.inl resolved)
      rw [run_cons, inductionHypothesis _ stillResolved,
        ledger.get_perform_of_isResolved head id resolved]

theorem isPrimed_run_iff
    (apart : ledger.isPrimed id = true → ledger.isResolved id = false) :
    (ledger.run history).isPrimed id = true ↔
      (ledger.run history).isResolved id = false ∧
        (ledger.isPrimed id = true ∨ .prime id ∈ history) := by
  induction history generalizing ledger with
  | nil =>
      simpa [run] using apart
  | cons head tail inductionHypothesis =>
      have head_iff := ledger.isPrimed_perform_iff head id apart
      have tail_iff :=
        inductionHypothesis (ledger.perform head).2 fun primed => (head_iff.mp primed).1
      have same_iff : Operation.prime id = head ↔ head = .prime id := eq_comm
      rw [run_cons, tail_iff, head_iff, List.mem_cons, same_iff, ← or_assoc]
      apply and_congr_right
      intro unresolved
      -- What is unresolved in the end has been so after the head.
      have headUnresolved :=
        (((ledger.perform head).2.isResolved_run_eq_false_iff tail id).mp unresolved).1
      simp only [headUnresolved, true_and]

end Histories

/-- What operations answer behind any history that starts at `initial`. -/
structure LawfulHistories (initial : Ledger) : Prop where
  storesFirst :
    ∀ history id resolution,
      (initial.answer history (.resolve id resolution) = .outcome .stored ↔
          initial.answer history (.query (.isResolved id)) = .flag false) ∧
        (initial.answer history (.query (.isResolved id)) = .flag false ↔
          initial.isResolved id = false ∧ ∀ earlier ∈ history, ¬ earlier.Resolves id)
  /-- In particular, no later attempt is stored. -/
  keepsStored :
    ∀ early id resolution late other,
      initial.answer early (.resolve id resolution) = .outcome .stored →
        initial.answer (early ++ .resolve id resolution :: late) (.query (.resolution id)) =
            .resolution resolution ∧
          initial.answer (early ++ .resolve id resolution :: late) (.resolve id other) =
            .outcome (.alreadyResolved resolution)
  keepsInitial :
    ∀ history id other,
      initial.isResolved id = true →
        initial.answer history (.query (.resolution id)) = .resolution (initial.get id) ∧
          initial.answer history (.resolve id other) =
            .outcome (.alreadyResolved (initial.get id))
  neverBoth :
    ∀ history id,
      ¬ (initial.answer history (.query (.isResolved id)) = .flag true ∧
          initial.answer history (.query (.isPrimed id)) = .flag true)
  /-- In particular, at most one attempt succeeds. -/
  primesFirst :
    ∀ history id,
      initial.answer history (.prime id) = .flag true ↔
        .prime id ∉ history ∧
          initial.answer history (.query (.isResolved id)) = .flag false
  othersKept :
    ∀ history operation id,
      operation.target? ≠ some id →
        initial.answer (history ++ [operation]) (.query (.resolution id)) =
            initial.answer history (.query (.resolution id)) ∧
          initial.answer (history ++ [operation]) (.query (.isPrimed id)) =
            initial.answer history (.query (.isPrimed id))
  listsEntries :
    ∀ history, ∃ entries,
      initial.answer history (.query .snapshot) = .entries entries ∧
        entries.Pairwise (fun left right => left.1.number < right.1.number) ∧
        ∀ id resolution,
          (id, resolution) ∈ entries ↔
            (id ∈ initial.entries ∨ ∃ earlier ∈ history, earlier.Resolves id) ∧
              initial.answer history (.query (.resolution id)) = .resolution resolution

section Answers

variable {initial : Ledger} {history early : List Operation} {id : ProgramId}

theorem answer_resolution_eq_iff (resolution : Resolution) :
    initial.answer history (.query (.resolution id)) = .resolution resolution ↔
      (initial.run history).get id = resolution := by
  change Answer.resolution _ = _ ↔ _
  rw [Answer.resolution.injEq]

theorem answer_isResolved_eq_iff (flag : Bool) :
    initial.answer history (.query (.isResolved id)) = .flag flag ↔
      (initial.run history).isResolved id = flag := by
  change Answer.flag _ = _ ↔ _
  rw [Answer.flag.injEq]

theorem answer_isPrimed_eq_iff (flag : Bool) :
    initial.answer history (.query (.isPrimed id)) = .flag flag ↔
      (initial.run history).isPrimed id = flag := by
  change Answer.flag _ = _ ↔ _
  rw [Answer.flag.injEq]

theorem answer_resolve_eq_stored_iff (resolution : FinalResolution) :
    initial.answer history (.resolve id resolution) = .outcome .stored ↔
      (initial.run history).isResolved id = false := by
  change Answer.outcome ((initial.run history).resolve id resolution).1 = _ ↔ _
  rw [resolve_fst, Answer.outcome.injEq]
  cases (initial.run history).isResolved id with
  | true => simp
  | false => simp

theorem answer_resolve_of_isResolved
    (resolved : (initial.run history).isResolved id = true) (resolution : FinalResolution) :
    initial.answer history (.resolve id resolution) =
      .outcome (.alreadyResolved ((initial.run history).get id)) := by
  change Answer.outcome ((initial.run history).resolve id resolution).1 = _
  rw [resolve_fst, if_pos resolved]

theorem get_run_of_stored
    {resolution : FinalResolution}
    (stored : initial.answer early (.resolve id resolution) = .outcome .stored)
    (late : List Operation) :
    (initial.run (early ++ .resolve id resolution :: late)).get id = resolution := by
  have unresolved := (answer_resolve_eq_stored_iff resolution).mp stored
  have written : ((initial.run early).resolve id resolution).2.get id = resolution :=
    get_resolve_self _ id resolution unresolved
  have resolved : ((initial.run early).resolve id resolution).2.isResolved id = true := by
    rw [isResolved, written]
    exact resolution.property
  rw [run_append, run_cons]
  exact (get_run_of_isResolved _ late id resolved).trans written

/-- Where nothing is primed at first, no program is primed and resolved. -/
theorem isPrimed_run_iff_of_unprimed
    (unprimed : ∀ id, initial.isPrimed id = false) :
    (initial.run history).isPrimed id = true ↔
      (initial.run history).isResolved id = false ∧ .prime id ∈ history := by
  have apart (primed : initial.isPrimed id = true) : initial.isResolved id = false :=
    absurd ((unprimed id).symm.trans primed) Bool.false_ne_true
  rw [initial.isPrimed_run_iff history id apart, unprimed id]
  simp

theorem answer_prime_eq_true_iff
    (unprimed : ∀ id, initial.isPrimed id = false) :
    initial.answer history (.prime id) = .flag true ↔
      .prime id ∉ history ∧ (initial.run history).isResolved id = false := by
  have primed_iff :
      (initial.run history).isPrimed id = true ↔
        (initial.run history).isResolved id = false ∧ .prime id ∈ history :=
    isPrimed_run_iff_of_unprimed unprimed
  change Answer.flag ((initial.run history).prime id).1 = _ ↔ _
  rw [prime_fst, Answer.flag.injEq]
  cases resolved : (initial.run history).isResolved id with
  | true =>
      simp
  | false =>
      rw [resolved] at primed_iff
      simpa using not_congr primed_iff

theorem lawfulHistories_of_unprimed
    (unprimed : ∀ id, initial.isPrimed id = false) :
    LawfulHistories initial where
  storesFirst := by
    intro history id resolution
    rw [answer_isResolved_eq_iff]
    exact ⟨answer_resolve_eq_stored_iff resolution,
      initial.isResolved_run_eq_false_iff history id⟩
  keepsStored := by
    intro early id resolution late other stored
    have kept := get_run_of_stored stored late
    have resolved :
        (initial.run (early ++ .resolve id resolution :: late)).isResolved id = true := by
      rw [isResolved, kept]
      exact resolution.property
    refine ⟨(answer_resolution_eq_iff _).mpr kept, ?_⟩
    rw [answer_resolve_of_isResolved resolved, kept]
  keepsInitial := by
    intro history id other resolved
    have kept := initial.get_run_of_isResolved history id resolved
    have stillResolved := (initial.isResolved_run_iff history id).mpr (.inl resolved)
    refine ⟨(answer_resolution_eq_iff _).mpr kept, ?_⟩
    rw [answer_resolve_of_isResolved stillResolved, kept]
  neverBoth := by
    intro history id both
    rw [answer_isResolved_eq_iff, answer_isPrimed_eq_iff] at both
    have unresolved := ((isPrimed_run_iff_of_unprimed unprimed).mp both.2).1
    exact absurd (unresolved.symm.trans both.1) Bool.false_ne_true
  primesFirst := by
    intro history id
    rw [answer_prime_eq_true_iff unprimed, answer_isResolved_eq_iff]
  othersKept := by
    intro history operation id elsewhere
    obtain ⟨getKept, primedKept⟩ :=
      (initial.run history).agreesAt_perform operation id elsewhere
    have lastStep :
        initial.run (history ++ [operation]) = ((initial.run history).perform operation).2 :=
      initial.run_append history [operation]
    refine ⟨congrArg Answer.resolution ?_, congrArg Answer.flag ?_⟩
    · rw [lastStep, getKept]
    · rw [lastStep, primedKept]
  listsEntries := by
    intro history
    refine ⟨(initial.run history).snapshot, rfl, pairwise_snapshot _, ?_⟩
    intro id resolution
    rw [mem_snapshot_iff, mem_entries_run_iff, answer_resolution_eq_iff]

end Answers

/-- Histories are lawful from the empty ledger on, and from any loaded one. -/
theorem histories_are_lawful :
    LawfulHistories {} ∧
      ∀ entries : List (ProgramId × Resolution), LawfulHistories (ofEntries entries) := by
  have lawful (entries : List (ProgramId × Resolution)) :
      LawfulHistories (ofEntries entries) :=
    lawfulHistories_of_unprimed (isPrimed_ofEntries entries)
  exact ⟨lawful [], lawful⟩

end Ledger

end MainLocator
