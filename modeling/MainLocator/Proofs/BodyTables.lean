import MainLocator.Proofs.Acceptance

/-!
# The tables of a body

An accepted body answers from tables which positions read a register version, which instruction
defines it, and which block holds a position. The answers are those that its instructions and blocks
give: every reader is listed once and in order, and the definition and the block are the only ones
there are. That the positions of the blocks ascend from block to block follows from the order of the
blocks, and from their being disjoint.
-/

namespace MainLocator

namespace Body

/-! ## Instructions of a block -/

theorem filterMap_getElem?_range'
    {α : Type} (list : List α) (start length : Nat) :
    (List.range' start length).filterMap (list[·]?) = (list.drop start).take length := by
  induction length generalizing start with
  | zero =>
      rfl
  | succ length inductionHypothesis =>
      rw [List.range'_succ]
      by_cases inside : start < list.length
      · rw [List.filterMap_cons_some (List.getElem?_eq_getElem inside), inductionHypothesis,
          List.drop_eq_getElem_cons inside, List.take_succ_cons]
      · have outside := Nat.le_of_not_lt inside
        rw [List.filterMap_cons_none (List.getElem?_eq_none outside), inductionHypothesis,
          List.drop_eq_nil_of_le outside, List.drop_eq_nil_of_le (Nat.le_succ_of_le outside),
          List.take_nil, List.take_nil]

/-- The instructions of a block are a stretch of those of the body. -/
theorem instructionsOf_eq (body : Body) (block : Block) :
    body.instructionsOf block = (body.instructions.toList.drop block.start).take block.length := by
  rw [← filterMap_getElem?_range', instructionsOf, Block.positions]
  simp only [Array.getElem?_toList]

/-! ## Tables -/

/-- The element has the property, and at no other place of the list is one that has it. -/
def IsOnly {α : Type} (list : List α) (property : α → Prop) (element : α) : Prop :=
  ∃ front back,
    list = front ++ element :: back ∧ property element ∧
      ∀ other ∈ front ++ back, ¬ property other

theorem isOnly_iff
    {α : Type} {list : List α} {property : α → Prop}
    (apart : list.Pairwise fun left right => property left → ¬ property right) (element : α) :
    IsOnly list property element ↔ element ∈ list ∧ property element := by
  constructor
  · intro isOnly
    obtain ⟨front, back, rfl, holds, _⟩ := isOnly
    exact ⟨by simp, holds⟩
  · intro isElement
    obtain ⟨member, holds⟩ := isElement
    obtain ⟨front, back, rfl⟩ := List.append_of_mem member
    obtain ⟨_, behind, across⟩ := List.pairwise_append.mp apart
    refine ⟨front, back, rfl, holds, fun other isOther otherHolds => ?_⟩
    rcases List.mem_append.mp isOther with inFront | inBack
    · exact across other inFront element List.mem_cons_self otherHolds holds
    · exact List.rel_of_pairwise_cons behind inBack holds otherHolds

/-- What the tables of a body say is what its instructions and blocks are. -/
structure Indexed (body : Body) : Prop where
  isNumbered : ∀ position (instruction : Instruction),
    body.instructions[position]? = some instruction → instruction.index = position
  usesAscend : ∀ source, (body.usesOf source).Pairwise (· < ·)
  isUse_iff : ∀ source position,
    position ∈ body.usesOf source ↔
      ∃ instruction,
        body.instructions[position]? = some instruction ∧ source ∈ instruction.operation.reads
  isDefinition_iff : ∀ target instruction,
    body.definition? target = some instruction ↔
      IsOnly body.instructions.toList (fun writer => target ∈ writer.operation.writes) instruction
  isBlockAt_iff : ∀ position block,
    body.blockAt? position = some block ↔
      IsOnly body.blocks (fun holder => holder.start ≤ position ∧ position < holder.stop) block
  positionsAscend : (body.blocks.flatMap Block.positions).Pairwise (· < ·)

namespace Accepted

variable {body : Body}

theorem ascending
    (accepted : body.Accepted) :
    body.blocks.Pairwise fun left right => left.precedes right := by
  obtain ⟨address, instructions, blocks, built⟩ := accepted
  obtain ⟨_, definitions, _, rfl⟩ :=
    (ofBlocks_eq_ok_iff address instructions blocks body).mp built
  exact (Block.arranges_mergeSort blocks).ascending

theorem disjoint
    (accepted : body.Accepted) :
    body.blocks.Pairwise Block.Disjoint := by
  obtain ⟨address, instructions, blocks, built⟩ := accepted
  obtain ⟨checked, definitions, _, rfl⟩ :=
    (ofBlocks_eq_ok_iff address instructions blocks body).mp built
  rw [checkBlocks_eq_ok_iff (fits_nil _ _)] at checked
  exact checked.disjoint

theorem definesOnce
    (accepted : body.Accepted) :
    (targets body.instructions.toList).Nodup := by
  obtain ⟨instructions, parts, _, defined⟩ := accepted.exists_number
  rw [parts, List.toList_toArray, targets_number]
  exact (exists_definitionTable_iff instructions).mp ⟨_, defined⟩

theorem map_index
    (accepted : body.Accepted) :
    body.instructions.toList.map Instruction.index = List.range body.size := by
  refine List.ext_getElem (by simp [size]) fun position isIndex isPlace => ?_
  rw [List.getElem_map, List.getElem_range]
  exact accepted.index_eq (by simp)

theorem usesOf_ascend
    (accepted : body.Accepted) (source : RegisterVersion) :
    (body.usesOf source).Pairwise (· < ·) := by
  have isPart :
      ((body.instructions.toList.filter (source ∈ ·.operation.reads)).map
          Instruction.index).Sublist (List.range body.size) := by
    rw [← accepted.map_index]
    exact List.filter_sublist.map Instruction.index
  rw [accepted.usesOf_eq]
  exact List.pairwise_lt_range.sublist isPart

theorem isOnly_definition_iff
    (accepted : body.Accepted) (target : RegisterVersion) (instruction : Instruction) :
    body.definition? target = some instruction ↔
      IsOnly body.instructions.toList (fun writer => target ∈ writer.operation.writes)
        instruction := by
  have apart :
      body.instructions.toList.Pairwise fun left right =>
        target ∈ left.operation.writes → target ∉ right.operation.writes := by
    have separate := (List.nodup_flatMap.mp accepted.definesOnce).2
    exact separate.imp fun disjoint leftWrites rightWrites => disjoint leftWrites rightWrites
  rw [isOnly_iff apart, accepted.definition?_eq_some_iff, ← Array.mem_toList_iff]

theorem isOnly_blockAt_iff
    (accepted : body.Accepted) (position : Nat) (block : Block) :
    body.blockAt? position = some block ↔
      IsOnly body.blocks (fun holder => holder.start ≤ position ∧ position < holder.stop)
        block := by
  simp only [← Block.covers_iff]
  rw [blockAt?, ownerOf?_eq_some_iff accepted.disjoint, isOnly_iff]
  exact accepted.disjoint.imp fun disjoint => disjoint position

theorem positions_ascend
    (accepted : body.Accepted) :
    (body.blocks.flatMap Block.positions).Pairwise (· < ·) := by
  refine List.pairwise_flatMap.mpr ⟨fun block _ => List.pairwise_lt_range', ?_⟩
  refine (accepted.ascending.and accepted.disjoint).imp ?_
  intro left right inOrder position inLeft other inRight
  obtain ⟨precedes, disjoint⟩ := inOrder
  rw [Block.mem_positions_iff, Block.covers_iff] at inLeft inRight
  have startLe := Block.start_le_of_precedes precedes
  -- The start of the right block would lie in both if the positions came the other way round.
  have rightCovers : right.covers right.start := by
    rw [Block.covers_iff]
    omega
  have leftMisses : ¬ left.covers right.start := fun covers => disjoint _ covers rightCovers
  rw [Block.covers_iff] at leftMisses
  omega

end Accepted

theorem tables_are_exact
    {body : Body}
    (accepted : body.Accepted) :
    body.Indexed where
  isNumbered := fun _ _ => accepted.index_eq
  usesAscend := accepted.usesOf_ascend
  isUse_iff := accepted.mem_usesOf_iff
  isDefinition_iff := accepted.isOnly_definition_iff
  isBlockAt_iff := accepted.isOnly_blockAt_iff
  positionsAscend := accepted.positions_ascend

/-- A call with two results, and two instructions that read one register twice. -/
def callThenSum : List Instruction :=
  [⟨9, 0x1000, .assign ⟨.rcx, 1⟩ (.const 4)⟩,
    ⟨9, 0x1004, .call ⟨.const 0x2000, [⟨.rax, 1⟩, ⟨.rdx, 1⟩], []⟩⟩,
    ⟨9, 0x1008, .phi ⟨.rcx, 2⟩ [⟨.rcx, 1⟩, ⟨.rcx, 1⟩]⟩,
    ⟨9, 0x100c, .ret (.add (.register ⟨.rcx, 1⟩) (.register ⟨.rcx, 1⟩))⟩]

/-- Two blocks and an empty one between them, the last block first. -/
def blocksAroundEmpty : List Block :=
  [⟨⟨2⟩, 2, 4, [.entry]⟩, .ofRange ⟨1⟩ 2 2, .ofRange .entry 0 2]

theorem tables_callThenSum :
    ∃ body,
      ofBlocks 0x1000 callThenSum blocksAroundEmpty = .ok body ∧
        body.Indexed ∧ body.usesOf ⟨.rcx, 1⟩ = [2, 3] ∧
          body.blockAt? 2 = some ⟨⟨2⟩, 2, 4, [.entry]⟩ := by
  have order :
      blocksAroundEmpty.mergeSort Block.precedes =
        [.ofRange .entry 0 2, .ofRange ⟨1⟩ 2 2, ⟨⟨2⟩, 2, 4, [.entry]⟩] := by
    simp [blocksAroundEmpty, List.mergeSort, Block.precedes, Block.ofRange]
  have answers :
      (ofBlocks 0x1000 callThenSum blocksAroundEmpty).toOption.map
          (fun body => (body.usesOf ⟨.rcx, 1⟩, body.blockAt? 2)) =
        some ([2, 3], some ⟨⟨2⟩, 2, 4, [.entry]⟩) := by
    rw [ofBlocks, order]
    decide +kernel
  cases built : ofBlocks 0x1000 callThenSum blocksAroundEmpty with
  | error fault =>
      rw [built] at answers
      cases answers
  | ok body =>
      rw [built] at answers
      obtain ⟨uses, holder⟩ := Prod.mk.inj (Option.some.inj answers)
      exact ⟨body, rfl, tables_are_exact ⟨_, _, _, built⟩, uses, holder⟩

end Body

end MainLocator
