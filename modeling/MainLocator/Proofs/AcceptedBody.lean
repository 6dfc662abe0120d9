import MainLocator.Code.Body

/-!
# Accepted bodies

What holds of every body that `Body.ofBlocks` builds: instructions carry their positions, the table
of uses lists the positions that read a register version, and the table of definitions knows the one
instruction that writes it. Analyses of the code rest on these facts alone.
-/

namespace MainLocator

namespace Operation

theorem writes_of_assigned?
    {operation : Operation} {target : RegisterVersion}
    (assigns : operation.assigned? = some target) :
    operation.writes = [target] := by
  cases operation with
  | assign destination source =>
      cases assigns
      rfl
  | phi destination sources =>
      cases assigns
      rfl
  | _ =>
      cases assigns

theorem mem_writes_of_assigned?
    {operation : Operation} {target : RegisterVersion}
    (assigns : operation.assigned? = some target) :
    target ∈ operation.writes := by
  rw [writes_of_assigned? assigns]
  exact List.mem_singleton_self target

end Operation

namespace Body

/-- Some address, instructions and blocks build the body. -/
def Accepted (body : Body) : Prop :=
  ∃ address instructions blocks, ofBlocks address instructions blocks = .ok body

/-- An instruction of the body has the operation. -/
def Performs (body : Body) (operation : Operation) : Prop :=
  ∃ instruction ∈ body.instructions, instruction.operation = operation

/-! ## The parts of an accepted body -/

theorem getElem?_number (instructions : List Instruction) (position : Nat) :
    (number instructions)[position]? =
      instructions[position]?.map fun instruction => { instruction with index := position } := by
  simp only [number, List.getElem?_mapIdx]

theorem index_of_getElem?_number
    {instructions : List Instruction} {position : Nat} {instruction : Instruction}
    (found : (number instructions)[position]? = some instruction) :
    instruction.index = position := by
  rw [getElem?_number] at found
  obtain ⟨original, _, rfl⟩ := Option.map_eq_some_iff.mp found
  rfl

theorem map_operation_number (instructions : List Instruction) :
    (number instructions).map Instruction.operation = instructions.map Instruction.operation := by
  refine List.ext_getElem? fun position => ?_
  rw [List.getElem?_map, List.getElem?_map, getElem?_number, Option.map_map]
  rfl

/-- A body is accepted with its tables, or not at all. -/
theorem ofBlocks_eq_ok_iff
    (address : Word) (instructions : List Instruction) (blocks : List Block) (body : Body) :
    ofBlocks address instructions blocks = .ok body ↔
      checkBlocks (number instructions).length
          ((blocks.mergeSort Block.precedes).map Block.id) []
          (blocks.mergeSort Block.precedes) = .ok () ∧
        ∃ definitions,
          definitionTable (number instructions) = .ok definitions ∧
            body = {
              address
              instructions := (number instructions).toArray
              blocks := blocks.mergeSort Block.precedes
              uses := useTable (number instructions)
              definitions } := by
  unfold ofBlocks
  simp only [bind, Except.bind, pure, Except.pure]
  cases checkBlocks (number instructions).length
      ((blocks.mergeSort Block.precedes).map Block.id) [] (blocks.mergeSort Block.precedes) with
  | error fault =>
      simp
  | ok checked =>
      cases definitionTable (number instructions) with
      | error fault =>
          simp
      | ok definitions =>
          simp only [Except.ok.injEq, exists_eq_left', true_and]
          exact eq_comm

theorem performs_iff_of_ofBlocks
    {address : Word} {instructions : List Instruction} {blocks : List Block} {body : Body}
    (built : ofBlocks address instructions blocks = .ok body) (operation : Operation) :
    body.Performs operation ↔ operation ∈ instructions.map Instruction.operation := by
  obtain ⟨_, definitions, _, rfl⟩ :=
    (ofBlocks_eq_ok_iff address instructions blocks body).mp built
  rw [← map_operation_number]
  simp [Performs]

/-- What is known of the outcome of a build is known of a body that it accepts. -/
theorem exists_ofBlocks_of_map_toOption
    {α : Type} {address : Word} {instructions : List Instruction} {blocks : List Block}
    {observe : Body → α} {observed : α}
    (known : (ofBlocks address instructions blocks).toOption.map observe = some observed) :
    ∃ body, ofBlocks address instructions blocks = .ok body ∧ observe body = observed := by
  cases built : ofBlocks address instructions blocks with
  | error fault =>
      rw [built] at known
      cases known
  | ok body =>
      rw [built] at known
      exact ⟨body, rfl, Option.some.inj known⟩

theorem accepted_of_toOption
    {address : Word} {instructions : List Instruction} {blocks : List Block} {body : Body}
    (isBuilt : (ofBlocks address instructions blocks).toOption = some body) :
    body.Accepted := by
  cases built : ofBlocks address instructions blocks with
  | error fault =>
      rw [built] at isBuilt
      cases isBuilt
  | ok other =>
      rw [built] at isBuilt
      cases isBuilt
      exact ⟨address, instructions, blocks, built⟩

/-! ## Definitions -/

/-- The register versions that instructions write, each with the position of its instruction. -/
def written (instructions : List Instruction) : List (RegisterVersion × Nat) :=
  instructions.flatMap fun instruction =>
    instruction.operation.writes.map fun target => (target, instruction.index)

def recordWrite
    (definitions : DefinitionTable) (write : RegisterVersion × Nat) :
    Except BodyError DefinitionTable :=
  if write.1 ∈ definitions then .error (.repeatedDefinition write.1)
  else .ok (definitions.insert write.1 write.2)

theorem mem_written_iff
    (instructions : List Instruction) (target : RegisterVersion) (position : Nat) :
    (target, position) ∈ written instructions ↔
      ∃ instruction ∈ instructions,
        target ∈ instruction.operation.writes ∧ instruction.index = position := by
  simp only [written, List.mem_flatMap, List.mem_map, Prod.mk.injEq]
  constructor
  · rintro ⟨instruction, member, target, isWritten, rfl, rfl⟩
    exact ⟨instruction, member, isWritten, rfl⟩
  · rintro ⟨instruction, member, isWritten, rfl⟩
    exact ⟨instruction, member, target, isWritten, rfl, rfl⟩

theorem recordWrites_eq_foldlM
    (definitions : DefinitionTable) (instruction : Instruction) :
    recordWrites definitions instruction =
      (instruction.operation.writes.map fun target => (target, instruction.index)).foldlM
        recordWrite definitions := by
  rw [List.foldlM_map]
  rfl

theorem definitionTable_eq_foldlM (instructions : List Instruction) :
    definitionTable instructions = (written instructions).foldlM recordWrite ∅ := by
  suffices general :
      ∀ table : DefinitionTable,
        instructions.foldlM recordWrites table =
          (written instructions).foldlM recordWrite table from
    general ∅
  induction instructions with
  | nil =>
      intro table
      rfl
  | cons first others inductionHypothesis =>
      intro table
      rw [List.foldlM_cons, written, List.flatMap_cons, List.foldlM_append,
        ← recordWrites_eq_foldlM]
      refine bind_congr fun between => ?_
      exact inductionHypothesis between

/-- Where all writes are recorded, each register version is written once, and is looked up at its
position. -/
theorem getElem?_of_foldlM_recordWrite
    {writes : List (RegisterVersion × Nat)} {before after : DefinitionTable}
    (recorded : writes.foldlM recordWrite before = .ok after) :
    ((writes.map Prod.fst).Nodup ∧ ∀ target ∈ writes.map Prod.fst, target ∉ before) ∧
      ∀ target position,
        after[target]? = some position ↔
          before[target]? = some position ∨ (target, position) ∈ writes := by
  induction writes generalizing before with
  | nil =>
      cases recorded
      simp
  | cons write others inductionHypothesis =>
      obtain ⟨first, place⟩ := write
      rw [List.foldlM_cons, recordWrite] at recorded
      by_cases known : first ∈ before
      · rw [if_pos known] at recorded
        cases recorded
      · rw [if_neg known] at recorded
        obtain ⟨⟨nodup, absent⟩, lookup⟩ := inductionHypothesis recorded
        have different : ∀ target ∈ others.map Prod.fst, first ≠ target ∧ target ∉ before := by
          intro target member
          have outside := absent target member
          simpa [Std.TreeMap.mem_insert] using outside
        refine ⟨⟨?_, ?_⟩, ?_⟩
        · rw [List.map_cons, List.nodup_cons]
          exact ⟨fun member => (different first member).1 rfl, nodup⟩
        · intro target member
          rcases List.mem_cons.mp member with rfl | later
          · exact known
          · exact (different target later).2
        · intro target position
          rw [lookup, Std.TreeMap.getElem?_insert, List.mem_cons, Prod.mk.injEq]
          by_cases same : first = target
          · subst same
            have missing : before[first]? = none :=
              Std.TreeMap.getElem?_eq_none known
            simp [missing, eq_comm]
          · have different : target ≠ first := Ne.symm same
            simp [same, different]

/-! ## What accepted bodies satisfy -/

namespace Accepted

variable {body : Body}

/-- The instructions of an accepted body are the numbered ones, and its tables are theirs. -/
theorem exists_number
    (accepted : body.Accepted) :
    ∃ instructions,
      body.instructions = (number instructions).toArray ∧
        body.uses = useTable (number instructions) ∧
          definitionTable (number instructions) = .ok body.definitions := by
  obtain ⟨address, instructions, blocks, built⟩ := accepted
  obtain ⟨_, definitions, defined, rfl⟩ :=
    (ofBlocks_eq_ok_iff address instructions blocks body).mp built
  exact ⟨instructions, rfl, rfl, defined⟩

theorem index_eq
    (accepted : body.Accepted)
    {position : Nat} {instruction : Instruction}
    (found : body.instructions[position]? = some instruction) :
    instruction.index = position := by
  obtain ⟨instructions, parts, _, _⟩ := accepted.exists_number
  rw [parts, List.getElem?_toArray] at found
  exact index_of_getElem?_number found

theorem getElem?_index
    (accepted : body.Accepted)
    {instruction : Instruction}
    (member : instruction ∈ body.instructions) :
    body.instructions[instruction.index]? = some instruction := by
  obtain ⟨position, found⟩ := Array.getElem?_of_mem member
  rw [accepted.index_eq found]
  exact found

theorem usesOf_eq
    (accepted : body.Accepted) (source : RegisterVersion) :
    body.usesOf source =
      (body.instructions.toList.filter (source ∈ ·.operation.reads)).map Instruction.index := by
  obtain ⟨instructions, parts, uses, _⟩ := accepted.exists_number
  rw [usesOf, uses, parts, getD_useTable]

theorem mem_usesOf_iff
    (accepted : body.Accepted)
    (source : RegisterVersion) (position : Nat) :
    position ∈ body.usesOf source ↔
      ∃ instruction,
        body.instructions[position]? = some instruction ∧
          source ∈ instruction.operation.reads := by
  simp only [accepted.usesOf_eq, List.mem_map, List.mem_filter, Array.mem_toList_iff,
    decide_eq_true_eq]
  constructor
  · rintro ⟨instruction, ⟨member, isRead⟩, rfl⟩
    exact ⟨instruction, accepted.getElem?_index member, isRead⟩
  · rintro ⟨instruction, found, isRead⟩
    exact ⟨instruction, ⟨Array.mem_of_getElem? found, isRead⟩, accepted.index_eq found⟩

theorem getElem?_definitions_iff
    (accepted : body.Accepted)
    (target : RegisterVersion) (position : Nat) :
    body.definitions[target]? = some position ↔
      ∃ instruction,
        body.instructions[position]? = some instruction ∧
          target ∈ instruction.operation.writes := by
  have lookup :
      body.definitions[target]? = some position ↔
        ∃ instruction ∈ body.instructions,
          target ∈ instruction.operation.writes ∧ instruction.index = position := by
    obtain ⟨instructions, parts, _, defined⟩ := accepted.exists_number
    rw [definitionTable_eq_foldlM] at defined
    rw [(getElem?_of_foldlM_recordWrite defined).2, mem_written_iff, parts]
    simp
  rw [lookup]
  constructor
  · rintro ⟨instruction, member, isWritten, rfl⟩
    exact ⟨instruction, accepted.getElem?_index member, isWritten⟩
  · rintro ⟨instruction, found, isWritten⟩
    exact ⟨instruction, Array.mem_of_getElem? found, isWritten, accepted.index_eq found⟩

theorem definition?_eq_some_iff
    (accepted : body.Accepted)
    (target : RegisterVersion) (instruction : Instruction) :
    body.definition? target = some instruction ↔
      instruction ∈ body.instructions ∧ target ∈ instruction.operation.writes := by
  rw [definition?, Option.bind_eq_bind, Option.bind_eq_some_iff]
  constructor
  · rintro ⟨position, isDefined, found⟩
    obtain ⟨definer, sameFound, isWritten⟩ :=
      (accepted.getElem?_definitions_iff target position).mp isDefined
    obtain rfl : definer = instruction := by
      rw [found] at sameFound
      exact (Option.some.inj sameFound).symm
    exact ⟨Array.mem_of_getElem? found, isWritten⟩
  · rintro ⟨member, isWritten⟩
    have found := accepted.getElem?_index member
    exact ⟨instruction.index,
      (accepted.getElem?_definitions_iff target instruction.index).mpr
        ⟨instruction, found, isWritten⟩, found⟩

theorem eq_of_mem_writes
    (accepted : body.Accepted)
    {target : RegisterVersion} {left right : Instruction}
    (leftMember : left ∈ body.instructions) (rightMember : right ∈ body.instructions)
    (leftWrites : target ∈ left.operation.writes)
    (rightWrites : target ∈ right.operation.writes) :
    left = right := by
  have leftDefines :=
    (accepted.definition?_eq_some_iff target left).mpr ⟨leftMember, leftWrites⟩
  have rightDefines :=
    (accepted.definition?_eq_some_iff target right).mpr ⟨rightMember, rightWrites⟩
  rw [leftDefines] at rightDefines
  exact Option.some.inj rightDefines

/-- The operation that assigns a register version is the only one that writes it. -/
theorem eq_of_assigned?
    (accepted : body.Accepted)
    {target : RegisterVersion} {left right : Operation}
    (leftPerforms : body.Performs left) (rightPerforms : body.Performs right)
    (leftAssigns : left.assigned? = some target) (rightWrites : target ∈ right.writes) :
    left = right := by
  obtain ⟨leftInstruction, leftMember, rfl⟩ := leftPerforms
  obtain ⟨rightInstruction, rightMember, rfl⟩ := rightPerforms
  have leftWrites := Operation.mem_writes_of_assigned? leftAssigns
  rw [accepted.eq_of_mem_writes leftMember rightMember leftWrites rightWrites]

end Accepted

end Body

end MainLocator
