import MainLocator.Proofs.BodyTables
import MainLocator.Proofs.DraftLayout

/-!
# Building drafts

The blocks of a draft never clash, so a build can fail only because an edge names a block that was
never opened, or because a register version is written twice, and the edges are looked at first. A
build that succeeds gives a body with a block for each section of the history, and in it the
operations of that section.
-/

namespace MainLocator

/-! ## Bodies from blocks that fit -/

namespace Body

section Fitting

variable {instructions : List Instruction} {blocks : List Block}
  (fits : Fits instructions.length (blocks.map Block.id) blocks) (address : Word)

include fits

theorem ofBlocks_eq_error_iff_of_fits (error : BodyError) :
    ofBlocks address instructions blocks = .error error ↔
      ∃ target,
        RepeatsFirst [] (targets instructions) target ∧ error = .repeatedDefinition target := by
  have passes := (checkBlocks_eq_ok_iff_fits instructions blocks).mpr fits
  rw [ofBlocks_eq_error_iff, checkBlocks_number, passes, definitionTable_eq_error_iff]
  simp

theorem exists_ofBlocks_iff_of_fits :
    (∃ body, ofBlocks address instructions blocks = .ok body) ↔ (targets instructions).Nodup := by
  have passes := (checkBlocks_eq_ok_iff_fits instructions blocks).mpr fits
  simp only [ofBlocks_eq_ok_iff, checkBlocks_number, passes, true_and,
    ← exists_definitionTable_iff]
  exact ⟨fun ⟨_, definitions, defined, _⟩ => ⟨definitions, defined⟩,
    fun ⟨definitions, defined⟩ => ⟨_, definitions, defined, rfl⟩⟩

end Fitting

end Body

namespace Draft

/-! ## What a build comes to -/

section Outcomes

variable {draft : Draft} {address : Word} {sections : List (List Operation)}
  {edges : List (BlockId × BlockId)}

theorem Holds.build_of_firstMissing
    (holds : draft.Holds address sections edges)
    {missing : BlockId} (isMissing : FirstMissing sections.length edges missing) :
    draft.build = .error (.unknownBlock missing) := by
  have fails := foldlM_connect_of_firstMissing isMissing
  simp only [build, close_edges, holds.edges_eq, holds.close_blocks, fails, bind, Except.bind]

theorem Holds.build_of_joins
    (holds : draft.Holds address sections edges)
    (join : ∀ edge ∈ edges, Joins sections.length edge) :
    draft.build =
      Body.ofBlocks address (instructionsAt address sections.flatten) (layout sections edges) := by
  have connects := foldlM_connect_of_joins [] join
  simp only [build, close_edges, holds.edges_eq, holds.close_blocks, connects, bind, Except.bind,
    close_address, holds.address_eq, close_instructions, holds.instructions_eq, List.nil_append]

theorem length_instructionsAt (address : Word) (operations : List Operation) :
    (instructionsAt address operations).length = operations.length :=
  List.length_mapIdx

theorem fits_instructionsAt
    (address : Word) (join : ∀ edge ∈ edges, Joins sections.length edge) :
    Body.Fits (instructionsAt address sections.flatten).length
      ((layout sections edges).map Block.id) (layout sections edges) := by
  rw [length_instructionsAt]
  exact fits_layout join

theorem map_operation_instructionsAt (address : Word) (operations : List Operation) :
    (instructionsAt address operations).map Instruction.operation = operations := by
  refine List.ext_getElem? fun position => ?_
  rw [List.getElem?_map, instructionsAt, List.getElem?_mapIdx, Option.map_map]
  exact Option.map_id'

theorem targets_instructionsAt (address : Word) (operations : List Operation) :
    Body.targets (instructionsAt address operations) = operations.flatMap Operation.writes := by
  rw [Body.targets_eq_flatMap, map_operation_instructionsAt]

/-- The instruction at a position is the stride times the position behind the base, modulo the
number of addresses. -/
theorem address_of_getElem?_number_instructionsAt
    {address : Word} {operations : List Operation} {position : Nat} {instruction : Instruction}
    (found : (Body.number (instructionsAt address operations))[position]? = some instruction) :
    instruction.address.toNat = (address.toNat + 4 * position) % UInt64.size := by
  rw [Body.getElem?_number, instructionsAt, List.getElem?_mapIdx, Option.map_map] at found
  obtain ⟨operation, _, rfl⟩ := Option.map_eq_some_iff.mp found
  have strideValue : stride.toNat = 4 := rfl
  simp only [Function.comp_apply, UInt64.toNat_add, UInt64.toNat_mul, UInt64.toNat_ofNat',
    strideValue, UInt64.size]
  omega

end Outcomes

/-! ## Bodies laid out -/

/-- The body is the layout of the sections, with the edges entered. -/
structure Laid
    (body : Body) (address : Word) (sections : List (List Operation))
    (edges : List (BlockId × BlockId)) : Prop where
  join : ∀ edge ∈ edges, Joins sections.length edge
  address_eq : body.address = address
  instructions_eq :
    body.instructions.toList = Body.number (instructionsAt address sections.flatten)
  blocks_eq : body.blocks = layout sections edges

/-- What a build yields is laid out. Its blocks are in order as they are, so they stay. -/
theorem Holds.laid
    {draft : Draft} {address : Word} {sections : List (List Operation)}
    {edges : List (BlockId × BlockId)} {body : Body}
    (holds : draft.Holds address sections edges) (few : sections.length < UInt32.size)
    (built : draft.build = .ok body) :
    Laid body address sections edges := by
  rcases joins_or_exists_firstMissing sections.length edges with join | ⟨missing, isMissing⟩
  · rw [holds.build_of_joins join] at built
    obtain ⟨_, definitions, _, rfl⟩ := (Body.ofBlocks_eq_ok_iff _ _ _ _).mp built
    have sorted := List.mergeSort_of_pairwise (ascend_layout few edges)
    exact ⟨join, rfl, List.toList_toArray, sorted⟩
  · rw [holds.build_of_firstMissing isMissing] at built
    cases built

namespace Laid

variable {body : Body} {address : Word} {sections : List (List Operation)}
  {edges : List (BlockId × BlockId)}

theorem map_operation
    (laid : Laid body address sections edges) :
    body.instructions.toList.map Instruction.operation = sections.flatten := by
  rw [laid.instructions_eq, Body.map_operation_number, map_operation_instructionsAt]

theorem size_eq
    (laid : Laid body address sections edges) :
    body.size = sections.flatten.length := by
  rw [← laid.map_operation, List.length_map, Array.length_toList, Body.size]

theorem tile
    (laid : Laid body address sections edges) :
    Block.Tile 0 body.blocks body.size := by
  rw [laid.blocks_eq, laid.size_eq]
  exact tile_layout sections edges

theorem flatMap_positions
    (laid : Laid body address sections edges) :
    body.blocks.flatMap Block.positions = List.range body.size := by
  rw [laid.tile.flatMap_positions, Nat.sub_zero, List.range_eq_range']

theorem index_eq_and_address_eq
    (laid : Laid body address sections edges) {position : Nat} {instruction : Instruction}
    (found : body.instructions[position]? = some instruction) :
    instruction.index = position ∧
      instruction.address.toNat = (address.toNat + 4 * position) % UInt64.size := by
  rw [← Array.getElem?_toList, laid.instructions_eq] at found
  exact ⟨Body.index_of_getElem?_number found, address_of_getElem?_number_instructionsAt found⟩

theorem id_eq_and_predecessors_eq
    (laid : Laid body address sections edges) (few : sections.length < UInt32.size)
    {number : Nat} {block : Block} (isBlock : body.blocks[number]? = some block) :
    block.id.number.toNat = number ∧ block.predecessors = sourcesInto edges number := by
  rw [laid.blocks_eq, getElem?_layout] at isBlock
  obtain ⟨inside, rfl⟩ := isBlock
  exact ⟨toNat_ofNat_of_few few inside, rfl⟩

/-- The block over a section holds the operations of the section. -/
theorem map_operation_instructionsOf
    (laid : Laid body address sections edges) {number : Nat} (inside : number < sections.length) :
    (body.instructionsOf (blockOver sections edges number)).map Instruction.operation =
      sections[number] := by
  rw [Body.instructionsOf_eq, List.map_take, List.map_drop, laid.map_operation]
  exact take_drop_flatten inside

theorem map_instructionsOf
    (laid : Laid body address sections edges) :
    (body.blocks.map fun block => (body.instructionsOf block).map Instruction.operation) =
      sections := by
  rw [laid.blocks_eq]
  refine List.ext_getElem (by rw [List.length_map, length_layout]) fun number _ inside => ?_
  simp only [layout, List.getElem_map, List.getElem_range]
  exact laid.map_operation_instructionsOf inside

/-- A position past the sections in front of one, and not past that one, is in the block over it. -/
theorem blockAt?_eq
    {before rest : List (List Operation)} {held : List Operation}
    (laid : Laid body address (before ++ held :: rest) edges)
    {distance : Nat} (inside : distance < held.length) :
    body.blockAt? (before.flatten.length + distance) =
      some (blockOver (before ++ held :: rest) edges before.length) := by
  have isPlace : before.length < (before ++ held :: rest).length := by
    simp
  have start : offset (before ++ held :: rest) before.length = before.flatten.length := by
    rw [offset, List.take_left]
  have stop := offset_succ isPlace
  rw [start, List.getElem_of_append rfl rfl] at stop
  have isMember :
      blockOver (before ++ held :: rest) edges before.length ∈
        layout (before ++ held :: rest) edges :=
    List.mem_map_of_mem (List.mem_range.mpr isPlace)
  have covers :
      (blockOver (before ++ held :: rest) edges before.length).covers
        (before.flatten.length + distance) := by
    simp only [Block.covers_iff, blockOver, start, stop]
    omega
  rw [Body.blockAt?, laid.blocks_eq]
  exact (Body.ownerOf?_eq_some_iff (fits_layout laid.join).disjoint _ _).mpr ⟨isMember, covers⟩

end Laid

/-! ## Bodies of histories -/

/-- The body has what the history puts down, and nothing else. -/
structure Realizes (address : Word) (history : List DraftStep) (body : Body) : Prop where
  address_eq : body.address = address
  operations_eq :
    body.instructions.toList.map Instruction.operation = operationsOf history
  isPlaced : ∀ position (instruction : Instruction),
    body.instructions[position]? = some instruction →
      instruction.index = position ∧
        instruction.address.toNat = (address.toNat + 4 * position) % UInt64.size
  /-- Without gaps, so the blocks are in the order opened and reach from end to end. -/
  tile : Block.Tile 0 body.blocks body.size
  /-- Every position is in one block. -/
  positions_eq : body.blocks.flatMap Block.positions = List.range body.size
  isNumbered : ∀ number (block : Block),
    body.blocks[number]? = some block → block.id.number.toNat = number
  predecessors_eq : ∀ number (block : Block),
    body.blocks[number]? = some block →
      block.predecessors = sourcesInto (edgesOf history) number
  contents_eq :
    (body.blocks.map fun block => (body.instructionsOf block).map Instruction.operation) =
      sections history
  /-- The operation appended behind those of `front` is in the block that was open then. If none
  was, that is the entry block. -/
  isHeld : ∀ front operation back,
    history = front ++ .append operation :: back →
      (body.blockAt? (operationsOf front).length).map Block.id =
        some ((ofHistory address front).openId?.getD .entry)

/-- What is wrong with a history. Its edges come before its operations. -/
inductive HistoryFault (history : List DraftStep) : BodyError → Prop where
  | ofEdge {missing : BlockId} :
      FirstMissing (sections history).length (edgesOf history) missing →
      HistoryFault history (.unknownBlock missing)
  | ofDefinition {front back : List RegisterVersion} {target : RegisterVersion} :
      (∀ edge ∈ edgesOf history, Joins (sections history).length edge) →
      (operationsOf history).flatMap Operation.writes = front ++ target :: back →
      front.Nodup →
      target ∈ front →
      HistoryFault history (.repeatedDefinition target)

section Histories

variable {address : Word} {history : List DraftStep} {body : Body}

theorem Laid.map_id_blockAt?
    {front back : List DraftStep} {operation : Operation}
    (laid : Laid body address (sections (front ++ .append operation :: back))
      (edgesOf (front ++ .append operation :: back))) :
    (body.blockAt? (operationsOf front).length).map Block.id =
      some ((ofHistory address front).openId?.getD .entry) := by
  obtain ⟨before, opened, more, rest, length, flattened, split⟩ :=
    exists_sections_append front back operation
  have inside : opened.length < (opened ++ operation :: more).length := by
    simp
  rw [split] at laid
  rw [← flatten_sections, flattened, List.length_append, laid.blockAt?_eq inside,
    (holds_ofHistory address front).getD_openId?, ← length]
  rfl

theorem Laid.realizes
    (few : (sections history).length < UInt32.size)
    (laid : Laid body address (sections history) (edgesOf history)) :
    Realizes address history body where
  address_eq := laid.address_eq
  operations_eq := laid.map_operation.trans (flatten_sections history)
  isPlaced := fun _ _ => laid.index_eq_and_address_eq
  tile := laid.tile
  positions_eq := laid.flatMap_positions
  isNumbered := fun _ _ isBlock => (laid.id_eq_and_predecessors_eq few isBlock).1
  predecessors_eq := fun _ _ isBlock => (laid.id_eq_and_predecessors_eq few isBlock).2
  contents_eq := laid.map_instructionsOf
  isHeld := by
    rintro front operation back rfl
    exact laid.map_id_blockAt?

theorem build_ofHistory_eq_error_iff
    (address : Word) (history : List DraftStep) (error : BodyError) :
    (ofHistory address history).build = .error error ↔ HistoryFault history error := by
  have holds := holds_ofHistory address history
  constructor
  · intro fails
    rcases joins_or_exists_firstMissing (sections history).length (edgesOf history) with
      join | ⟨missing, isMissing⟩
    · rw [holds.build_of_joins join,
        Body.ofBlocks_eq_error_iff_of_fits (fits_instructionsAt address join),
        targets_instructionsAt, flatten_sections] at fails
      obtain ⟨target, ⟨front, back, split, nodup, isRepeated⟩, rfl⟩ := fails
      exact .ofDefinition join split nodup isRepeated
    · rw [holds.build_of_firstMissing isMissing] at fails
      obtain rfl := Except.error.inj fails
      exact .ofEdge isMissing
  · intro isFault
    cases isFault with
    | ofEdge isMissing =>
        exact holds.build_of_firstMissing isMissing
    | ofDefinition join split nodup isRepeated =>
        rw [holds.build_of_joins join,
          Body.ofBlocks_eq_error_iff_of_fits (fits_instructionsAt address join),
          targets_instructionsAt, flatten_sections]
        exact ⟨_, ⟨_, _, split, nodup, isRepeated⟩, rfl⟩

theorem exists_build_ofHistory_iff (address : Word) (history : List DraftStep) :
    (∃ body, (ofHistory address history).build = .ok body) ↔
      (∀ edge ∈ edgesOf history, Joins (sections history).length edge) ∧
        ((operationsOf history).flatMap Operation.writes).Nodup := by
  have holds := holds_ofHistory address history
  rcases joins_or_exists_firstMissing (sections history).length (edgesOf history) with
    join | ⟨missing, isMissing⟩
  · rw [holds.build_of_joins join,
      Body.exists_ofBlocks_iff_of_fits (fits_instructionsAt address join),
      targets_instructionsAt, flatten_sections]
    exact (and_iff_right join).symm
  · rw [holds.build_of_firstMissing isMissing]
    constructor
    · exact nofun
    · exact fun succeeds => absurd succeeds.1 isMissing.not_forall_joins

end Histories

/-- A build ends as the steps in the growth of the draft say it does. -/
structure FollowsHistory (address : Word) (history : List DraftStep) : Prop where
  isInRange : ∀ id start stop length,
    (ofHistory address history).build ≠ .error (.blockOutOfRange id start stop length)
  isDisjoint : ∀ position first second,
    (ofHistory address history).build ≠ .error (.overlappingBlocks position first second)
  fails_iff : ∀ error,
    (ofHistory address history).build = .error error ↔ HistoryFault history error
  succeeds_iff :
    (∃ body, (ofHistory address history).build = .ok body) ↔
      (∀ edge ∈ edgesOf history, Joins (sections history).length edge) ∧
        ((operationsOf history).flatMap Operation.writes).Nodup
  realizes : ∀ body,
    (ofHistory address history).build = .ok body → Realizes address history body

/-- More blocks than there are ids would be numbered from zero again. -/
theorem builds_follow_history
    (address : Word) (history : List DraftStep) (few : (sections history).length < UInt32.size) :
    FollowsHistory address history where
  isInRange := by
    intro id start stop length fails
    cases (build_ofHistory_eq_error_iff address history _).mp fails
  isDisjoint := by
    intro position first second fails
    cases (build_ofHistory_eq_error_iff address history _).mp fails
  fails_iff := build_ofHistory_eq_error_iff address history
  succeeds_iff := exists_build_ofHistory_iff address history
  realizes := fun _ built => ((holds_ofHistory address history).laid few built).realizes few

/-- Edges into a block that is opened after the first of them and stays empty, and an operation
before any block is opened. -/
def emptyJoin : List DraftStep :=
  [.addEdge ⟨2⟩ ⟨1⟩, .append (.assign ⟨.rcx, 1⟩ (.const 4)), .openBlock, .addEdge .entry ⟨1⟩,
    .openBlock, .append (.ret (.register ⟨.rcx, 1⟩)), .addEdge ⟨2⟩ ⟨1⟩]

/-- The addresses go on at zero. -/
theorem build_emptyJoin :
    ∃ body,
      (ofHistory 0xfffffffffffffffc emptyJoin).build = .ok body ∧
        Realizes 0xfffffffffffffffc emptyJoin body ∧
          body.blocks[1]?.map Block.predecessors = some [⟨2⟩, .entry] ∧
            body.instructions[1]?.map (·.address.toNat) = some 0 := by
  have follows := builds_follow_history 0xfffffffffffffffc emptyJoin (by decide)
  obtain ⟨body, built⟩ := follows.succeeds_iff.mpr ⟨by decide, by decide⟩
  have realized := follows.realizes body built
  have secondContents := congrArg (·[1]?) realized.contents_eq
  have secondOperation := congrArg (·[1]?) realized.operations_eq
  simp only [List.getElem?_map] at secondContents secondOperation
  obtain ⟨block, isBlock, _⟩ := Option.map_eq_some_iff.mp secondContents
  obtain ⟨instruction, found, _⟩ := Option.map_eq_some_iff.mp secondOperation
  rw [Array.getElem?_toList] at found
  refine ⟨body, built, realized, ?_, ?_⟩
  · rw [isBlock, Option.map_some, realized.predecessors_eq 1 block isBlock]
    decide
  · rw [found, Option.map_some, (realized.isPlaced 1 instruction found).2]
    decide

end Draft

end MainLocator
