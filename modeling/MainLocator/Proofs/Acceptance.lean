import Mathlib.Data.List.Nodup
import MainLocator.Proofs.BlockFaults

/-!
# Acceptance

Instructions and blocks form a body just where the blocks fit and no register version is written
twice. Otherwise one fault comes first: blocks before definitions, and among blocks the one that is
first by start and id. `Body.ofBlocks` accepts in the first case, and names that fault in the
second.
-/

namespace MainLocator

namespace Body

/-! ## Repeated definitions -/

/-- The register versions that instructions write, in order and with repetitions. -/
def targets (instructions : List Instruction) : List RegisterVersion :=
  instructions.flatMap fun instruction => instruction.operation.writes

theorem targets_eq_flatMap (instructions : List Instruction) :
    targets instructions =
      (instructions.map Instruction.operation).flatMap Operation.writes := by
  rw [targets, List.flatMap_map]

theorem targets_number (instructions : List Instruction) :
    targets (number instructions) = targets instructions := by
  rw [targets_eq_flatMap, map_operation_number, ← targets_eq_flatMap]

theorem map_fst_written (instructions : List Instruction) :
    (written instructions).map Prod.fst = targets instructions := by
  simp [written, targets, List.map_flatMap, Function.comp_def]

/-- The first register version of the list that is in `done` or in front of itself. -/
def RepeatsFirst (done list : List RegisterVersion) (target : RegisterVersion) : Prop :=
  ∃ front back,
    list = front ++ target :: back ∧ (done ++ front).Nodup ∧ target ∈ done ++ front

theorem not_nodup_of_mem_front
    {front : List RegisterVersion} {target : RegisterVersion}
    (isRepeated : target ∈ front) (back : List RegisterVersion) :
    ¬ (front ++ target :: back).Nodup := by
  rw [List.nodup_middle, List.nodup_cons]
  intro nodup
  exact nodup.1 (List.mem_append_left back isRepeated)

section Repeats

variable {done : List RegisterVersion} {first : RegisterVersion}

theorem repeatsFirst_cons_of_mem
    (nodup : done.Nodup) (known : first ∈ done)
    (others : List RegisterVersion) (target : RegisterVersion) :
    RepeatsFirst done (first :: others) target ↔ target = first := by
  constructor
  · intro repeats
    obtain ⟨front, back, split, frontNodup, _⟩ := repeats
    cases front with
    | nil =>
        exact (List.cons.inj split).1.symm
    | cons head tail =>
        obtain ⟨rfl, _⟩ := List.cons.inj split
        exact absurd frontNodup (not_nodup_of_mem_front known tail)
  · intro isFirst
    subst isFirst
    rw [← List.append_nil done] at nodup known
    exact ⟨[], others, rfl, nodup, known⟩

theorem repeatsFirst_cons_of_notMem
    (unknown : first ∉ done)
    (others : List RegisterVersion) (target : RegisterVersion) :
    RepeatsFirst done (first :: others) target ↔ RepeatsFirst (done ++ [first]) others target := by
  constructor
  · intro repeats
    obtain ⟨front, back, split, frontNodup, isRepeated⟩ := repeats
    cases front with
    | nil =>
        obtain ⟨rfl, _⟩ := List.cons.inj split
        rw [List.append_nil] at isRepeated
        exact absurd isRepeated unknown
    | cons head tail =>
        obtain ⟨rfl, tailSplit⟩ := List.cons.inj split
        rw [List.append_cons] at frontNodup isRepeated
        exact ⟨tail, back, tailSplit, frontNodup, isRepeated⟩
  · intro repeats
    obtain ⟨front, back, split, frontNodup, isRepeated⟩ := repeats
    rw [← List.append_cons] at frontNodup isRepeated
    exact ⟨first :: front, back, congrArg (first :: ·) split, frontNodup, isRepeated⟩

end Repeats

/-- Recording fails at the first register version that is already recorded. The list `done` stands
for the register versions in the table. -/
theorem foldlM_recordWrite_eq_error_iff
    {table : DefinitionTable} {done : List RegisterVersion}
    (recorded : ∀ target, target ∈ table ↔ target ∈ done) (nodup : done.Nodup)
    (writes : List (RegisterVersion × Nat)) (error : BodyError) :
    writes.foldlM recordWrite table = .error error ↔
      ∃ target,
        RepeatsFirst done (writes.map Prod.fst) target ∧ error = .repeatedDefinition target := by
  induction writes generalizing table done with
  | nil =>
      refine iff_of_false nofun ?_
      intro repeats
      obtain ⟨target, ⟨front, back, split, _⟩, _⟩ := repeats
      simp at split
  | cons write others inductionHypothesis =>
      obtain ⟨first, place⟩ := write
      rw [List.foldlM_cons, recordWrite, List.map_cons]
      by_cases known : first ∈ done
      · rw [if_pos ((recorded first).mpr known)]
        simp only [repeatsFirst_cons_of_mem nodup known, exists_eq_left]
        constructor
        · intro isError
          cases isError
          rfl
        · intro isRepeated
          rw [isRepeated]
          rfl
      · rw [if_neg (mt (recorded first).mp known)]
        have nextRecorded : ∀ target,
            target ∈ table.insert first place ↔ target ∈ done ++ [first] := by
          intro target
          rw [Std.TreeMap.mem_insert, Std.LawfulEqCmp.compare_eq_iff_eq, recorded,
            List.mem_append, List.mem_singleton, or_comm, eq_comm]
        have nextNodup : (done ++ [first]).Nodup := by
          rw [← List.concat_eq_append]
          exact nodup.concat known
        simp only [repeatsFirst_cons_of_notMem known]
        exact inductionHypothesis nextRecorded nextNodup

theorem definitionTable_eq_error_iff
    (instructions : List Instruction) (error : BodyError) :
    definitionTable (number instructions) = .error error ↔
      ∃ target,
        RepeatsFirst [] (targets instructions) target ∧ error = .repeatedDefinition target := by
  have nothingRecorded :
      ∀ target, target ∈ (∅ : DefinitionTable) ↔ target ∈ ([] : List RegisterVersion) := by
    simp
  rw [definitionTable_eq_foldlM, foldlM_recordWrite_eq_error_iff nothingRecorded List.nodup_nil,
    map_fst_written, targets_number]

theorem exists_definitionTable_iff (instructions : List Instruction) :
    (∃ definitions, definitionTable (number instructions) = .ok definitions) ↔
      (targets instructions).Nodup := by
  constructor
  · intro isDefined
    obtain ⟨definitions, defined⟩ := isDefined
    rw [definitionTable_eq_foldlM] at defined
    rw [← targets_number, ← map_fst_written]
    exact (getElem?_of_foldlM_recordWrite defined).1.1
  · intro nodup
    cases outcome : definitionTable (number instructions) with
    | ok definitions =>
        exact ⟨definitions, rfl⟩
    | error error =>
        obtain ⟨target, ⟨front, back, split, _, isRepeated⟩, _⟩ :=
          (definitionTable_eq_error_iff instructions error).mp outcome
        rw [split] at nodup
        exact absurd nodup (not_nodup_of_mem_front isRepeated back)

/-! ## Bodies and faults -/

/-- The instructions and blocks form a body. -/
structure WellFormed (instructions : List Instruction) (blocks : List Block) : Prop where
  fits : Fits instructions.length (blocks.map Block.id) blocks
  definesOnce : (targets instructions).Nodup

/-- The error tells the first thing wrong with the instructions and blocks. -/
inductive FirstFault (instructions : List Instruction) (blocks : List Block) :
    BodyError → Prop where
  | ofBlock {earlier later : List Block} {block : Block} {error : BodyError} :
      Block.Arranges blocks (earlier ++ block :: later) →
      Fits instructions.length (blocks.map Block.id) earlier →
      BlockFault instructions.length (blocks.map Block.id) earlier block error →
      FirstFault instructions blocks error
  | ofDefinition {front back : List RegisterVersion} {target : RegisterVersion} :
      Fits instructions.length (blocks.map Block.id) blocks →
      targets instructions = front ++ target :: back →
      front.Nodup →
      target ∈ front →
      FirstFault instructions blocks (.repeatedDefinition target)

section Outcomes

variable (address : Word) (instructions : List Instruction) (blocks : List Block)

theorem ofBlocks_eq_error_iff (error : BodyError) :
    ofBlocks address instructions blocks = .error error ↔
      checkBlocks (number instructions).length
          ((blocks.mergeSort Block.precedes).map Block.id) []
          (blocks.mergeSort Block.precedes) = .error error ∨
        checkBlocks (number instructions).length
            ((blocks.mergeSort Block.precedes).map Block.id) []
            (blocks.mergeSort Block.precedes) = .ok () ∧
          definitionTable (number instructions) = .error error := by
  unfold ofBlocks
  simp only [bind, Except.bind, pure, Except.pure]
  cases checkBlocks (number instructions).length
      ((blocks.mergeSort Block.precedes).map Block.id) [] (blocks.mergeSort Block.precedes) with
  | error fault =>
      simp
  | ok checked =>
      cases definitionTable (number instructions) with
      | error fault =>
          simp
      | ok definitions =>
          simp

/-- The checks in `ofBlocks`, over the stream and the ids as they are given. -/
theorem checkBlocks_number :
    checkBlocks (number instructions).length
        ((blocks.mergeSort Block.precedes).map Block.id) [] (blocks.mergeSort Block.precedes) =
      checkBlocks instructions.length (blocks.map Block.id) []
        (blocks.mergeSort Block.precedes) := by
  rw [number, List.length_mapIdx]
  refine checkBlocks_congr (fun id => ?_) _
  exact ((List.mergeSort_perm blocks Block.precedes).map Block.id).mem_iff

theorem fits_nil (length : Nat) (ids : List BlockId) :
    Fits length ids [] :=
  ⟨nofun, nofun, .nil⟩

theorem checkBlocks_eq_ok_iff_fits :
    checkBlocks instructions.length (blocks.map Block.id) []
        (blocks.mergeSort Block.precedes) = .ok () ↔
      Fits instructions.length (blocks.map Block.id) blocks := by
  rw [checkBlocks_eq_ok_iff (fits_nil _ _), List.nil_append]
  have same := List.mergeSort_perm blocks Block.precedes
  exact ⟨fun fits => fits.perm same, fun fits => fits.perm same.symm⟩

/-- A body is built just from what is well-formed, and an error is the first fault. -/
theorem acceptance_is_wellFormedness :
    ((∃ body, ofBlocks address instructions blocks = .ok body) ↔
        WellFormed instructions blocks) ∧
      ∀ error,
        ofBlocks address instructions blocks = .error error ↔
          FirstFault instructions blocks error := by
  refine ⟨?_, fun error => ?_⟩
  · simp only [ofBlocks_eq_ok_iff, checkBlocks_number, checkBlocks_eq_ok_iff_fits]
    constructor
    · intro isBuilt
      obtain ⟨body, fits, definitions, defined, _⟩ := isBuilt
      exact ⟨fits, (exists_definitionTable_iff instructions).mp ⟨definitions, defined⟩⟩
    · intro wellFormed
      obtain ⟨definitions, defined⟩ :=
        (exists_definitionTable_iff instructions).mpr wellFormed.definesOnce
      exact ⟨_, wellFormed.fits, definitions, defined, rfl⟩
  · rw [ofBlocks_eq_error_iff, checkBlocks_number, checkBlocks_eq_ok_iff_fits,
      checkBlocks_eq_error_iff (fits_nil _ _), definitionTable_eq_error_iff]
    constructor
    · intro failure
      obtain ⟨earlier, block, later, order, fits, fault⟩ |
        ⟨fits, target, ⟨front, back, split, nodup, isRepeated⟩, rfl⟩ := failure
      · have arranges := (Block.arranges_iff blocks _).mpr order.symm
        exact .ofBlock arranges fits fault
      · exact .ofDefinition fits split nodup isRepeated
    · intro firstFault
      cases firstFault with
      | ofBlock arranges fits fault =>
          have order := (Block.arranges_iff blocks _).mp arranges
          exact .inl ⟨_, _, _, order.symm, fits, fault⟩
      | ofDefinition fits split nodup isRepeated =>
          exact .inr ⟨fits, _, ⟨_, _, split, nodup, isRepeated⟩, rfl⟩

end Outcomes

end Body

end MainLocator
