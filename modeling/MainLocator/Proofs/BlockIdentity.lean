import MainLocator.Proofs.BodyTables

/-!
# What an id of a block stands for

Two blocks of a body may carry one id, and nothing refuses them. An id is looked up in the order of
the blocks, so it stands for the block that starts first, and among those that start together for
the one that is given first. Ids identify the blocks just where no two different blocks share one.
Then a block is found under its id, from any position in it, and a predecessor is a single block.
-/

namespace MainLocator

namespace Block

/-- Of the blocks with an id, none starts in front of `block`, and none that starts with it is ahead
of it in the list. -/
structure IsFirst (blocks : List Block) (id : BlockId) (block : Block) : Prop where
  hasId : block.id = id
  startsFirst : ∀ other ∈ blocks, other.id = id → block.start ≤ other.start
  isAhead :
    ∃ front back,
      blocks = front ++ block :: back ∧
        ∀ other ∈ front, other.id = id → other.start ≠ block.start

theorem head?_tied_eq_some_iff
    (blocks : List Block) (block : Block) :
    (tied blocks block.start block.id).head? = some block ↔
      ∃ front back,
        blocks = front ++ block :: back ∧
          ∀ other ∈ front, other.id = block.id → other.start ≠ block.start := by
  rw [tied, List.head?_filter, List.find?_eq_some_iff_append]
  simp only [and_self, decide_true, true_and, Bool.not_eq_true', decide_eq_false_iff_not, not_and,
    imp_not_comm]

/-- Which block is first depends on the blocks of each start and id alone, and on their order. -/
theorem IsFirst.of_tied_eq
    {left right : List Block} {id : BlockId} {block : Block}
    (sameTies : ∀ start id, tied left start id = tied right start id)
    (isFirst : IsFirst left id block) :
    IsFirst right id block where
  hasId := isFirst.hasId
  startsFirst := by
    intro other member
    exact isFirst.startsFirst other ((mem_iff_of_tied_eq sameTies other).mpr member)
  isAhead := by
    have isAhead := isFirst.isAhead
    rw [← isFirst.hasId, ← head?_tied_eq_some_iff] at isAhead ⊢
    rwa [← sameTies]

/-- In the order of a body the first block with an id is the first of the list. -/
theorem find?_id_eq_some_iff
    {blocks : List Block}
    (ascending : blocks.Pairwise fun left right => left.precedes right)
    (id : BlockId) (block : Block) :
    blocks.find? (·.id = id) = some block ↔ IsFirst blocks id block := by
  rw [List.find?_eq_some_iff_append]
  simp only [Bool.not_eq_true', decide_eq_false_iff_not, decide_eq_true_eq]
  constructor
  · intro found
    obtain ⟨hasId, front, back, split, isNew⟩ := found
    refine ⟨hasId, fun other member sameId => ?_, front, back, split, ?_⟩
    · rw [split] at ascending member
      rcases List.mem_append.mp member with inFront | inRest
      · exact absurd sameId (isNew other inFront)
      · have ordered := (List.pairwise_append.mp ascending).2.1
        exact start_le_of_precedes (precedes_of_mem_cons ordered inRest)
    · intro other inFront sameId
      exact absurd sameId (isNew other inFront)
  · intro isFirst
    obtain ⟨front, back, split, startsApart⟩ := isFirst.isAhead
    refine ⟨isFirst.hasId, front, back, split, fun other inFront sameId => ?_⟩
    have member : other ∈ blocks := by
      rw [split]
      exact List.mem_append_left _ inFront
    -- A block in front with the same id would start with `block`, neither later nor earlier.
    have notLater : other.start ≤ block.start := by
      rw [split] at ascending
      apply start_le_of_precedes
      exact (List.pairwise_append.mp ascending).2.2 other inFront block List.mem_cons_self
    apply startsApart other inFront sameId
    exact Nat.le_antisymm notLater (isFirst.startsFirst other member sameId)

end Block

namespace Body

/-- Every block is found under its id, also when it is asked for by a position in it, and every
predecessor is one block. -/
structure Identifies (body : Body) : Prop where
  findsItself : ∀ block ∈ body.blocks, body.block? block.id = some block
  findsHolder : ∀ block ∈ body.blocks, ∀ position,
    block.covers position →
      ((body.blockAt? position).bind fun holder => body.block? holder.id) = some block
  predecessorIsOne : ∀ block ∈ body.blocks, ∀ id ∈ block.predecessors,
    ∃! predecessor, predecessor ∈ body.blocks ∧ predecessor.id = id

section Built

variable {address : Word} {instructions : List Instruction} {given : List Block} {body : Body}

/-- The blocks of a body are those it is built from, put in order. -/
theorem arranges_of_ofBlocks
    (built : ofBlocks address instructions given = .ok body) :
    Block.Arranges given body.blocks := by
  obtain ⟨_, definitions, _, rfl⟩ :=
    (ofBlocks_eq_ok_iff address instructions given body).mp built
  exact Block.arranges_mergeSort given

theorem block?_eq_some_iff
    (built : ofBlocks address instructions given = .ok body)
    (id : BlockId) (block : Block) :
    body.block? id = some block ↔ Block.IsFirst given id block := by
  have arranges := arranges_of_ofBlocks built
  rw [block?, Block.find?_id_eq_some_iff arranges.ascending]
  constructor
  · exact Block.IsFirst.of_tied_eq arranges.keepsTies
  · apply Block.IsFirst.of_tied_eq
    intro start id
    exact (arranges.keepsTies start id).symm

end Built

theorem isSome_block?_iff (body : Body) (id : BlockId) :
    (body.block? id).isSome ↔ ∃ block ∈ body.blocks, block.id = id := by
  simp only [block?, List.find?_isSome, decide_eq_true_eq]

namespace Accepted

variable {body : Body}

/-- Every id that a block is entered from is looked up with success. -/
theorem isSome_block?_of_mem_predecessors
    (accepted : body.Accepted)
    {block : Block} (member : block ∈ body.blocks)
    {id : BlockId} (isPredecessor : id ∈ block.predecessors) :
    (body.block? id).isSome := by
  obtain ⟨address, instructions, given, built⟩ := accepted
  obtain ⟨checked, definitions, _, rfl⟩ :=
    (ofBlocks_eq_ok_iff address instructions given body).mp built
  rw [checkBlocks_eq_ok_iff (fits_nil _ _)] at checked
  rw [isSome_block?_iff]
  exact List.mem_map.mp (checked.knowsPredecessors block member id isPredecessor)

theorem identifies_iff
    (accepted : body.Accepted) :
    body.Identifies ↔
      ∀ left ∈ body.blocks, ∀ right ∈ body.blocks, left.id = right.id → left = right := by
  constructor
  · intro identifies left leftMember right rightMember sameId
    apply Option.some.inj
    rw [← identifies.findsItself left leftMember, sameId]
    exact identifies.findsItself right rightMember
  · intro apart
    have findsItself : ∀ block ∈ body.blocks, body.block? block.id = some block := by
      intro block member
      obtain ⟨found, isFound⟩ := Option.isSome_iff_exists.mp
        ((body.isSome_block?_iff block.id).mpr ⟨block, member, rfl⟩)
      have sameId : found.id = block.id := by
        simpa using List.find?_some isFound
      rw [isFound, apart found (List.mem_of_find?_eq_some isFound) block member sameId]
    refine ⟨findsItself, fun block member position covers => ?_, fun block member id isId => ?_⟩
    · have isHolder : body.blockAt? position = some block :=
        (ownerOf?_eq_some_iff accepted.disjoint position block).mpr ⟨member, covers⟩
      rw [isHolder]
      exact findsItself block member
    · obtain ⟨predecessor, isMember, hasId⟩ := (body.isSome_block?_iff id).mp
        (accepted.isSome_block?_of_mem_predecessors member isId)
      refine ⟨predecessor, ⟨isMember, hasId⟩, fun other isOther => ?_⟩
      apply apart other isOther.1 predecessor isMember
      rw [isOther.2, hasId]

end Accepted

/-- An id stands for the first block that is given with it, and for some block if control can come
from it. The ids identify the blocks just where no two different blocks share one. -/
theorem ids_stand_for_first_blocks
    {address : Word} {instructions : List Instruction} {given : List Block} {body : Body}
    (built : ofBlocks address instructions given = .ok body) :
    (∀ id block, body.block? id = some block ↔ Block.IsFirst given id block) ∧
      (∀ block ∈ body.blocks, ∀ id ∈ block.predecessors, (body.block? id).isSome) ∧
        (body.Identifies ↔
          ∀ left ∈ given, ∀ right ∈ given, left.id = right.id → left = right) := by
  have accepted : body.Accepted := ⟨_, _, _, built⟩
  refine ⟨block?_eq_some_iff built, fun block member id isId => ?_, ?_⟩
  · exact accepted.isSome_block?_of_mem_predecessors member isId
  · have sameBlocks := Block.mem_iff_of_tied_eq (arranges_of_ofBlocks built).keepsTies
    simp only [accepted.identifies_iff, sameBlocks]

theorem identifies_blocksAroundEmpty :
    ∃ body,
      ofBlocks 0x1000 callThenSum blocksAroundEmpty = .ok body ∧ body.Identifies ∧
        body.block? ⟨2⟩ = some ⟨⟨2⟩, 2, 4, [.entry]⟩ := by
  have order :
      blocksAroundEmpty.mergeSort Block.precedes =
        [.ofRange .entry 0 2, .ofRange ⟨1⟩ 2 2, ⟨⟨2⟩, 2, 4, [.entry]⟩] := by
    simp [blocksAroundEmpty, List.mergeSort, Block.precedes, Block.ofRange]
  have known :
      (ofBlocks 0x1000 callThenSum blocksAroundEmpty).toOption.map Body.size = some 4 := by
    rw [ofBlocks, order]
    decide +kernel
  obtain ⟨body, built, _⟩ := exists_ofBlocks_of_map_toOption known
  obtain ⟨isFirst_iff, _, identifies_iff⟩ := ids_stand_for_first_blocks built
  refine ⟨body, built, identifies_iff.mpr (by decide), (isFirst_iff _ _).mpr ?_⟩
  exact ⟨rfl, by decide, [], _, rfl, fun _ inFront => absurd inFront List.not_mem_nil⟩

/-- Two blocks with one id, of which the second is entered from the first. -/
def blocksOfOneId : List Block :=
  [⟨⟨1⟩, 0, 1, []⟩, ⟨⟨1⟩, 1, 2, [⟨1⟩]⟩]

/-- The block of the last position is not the one that its id is looked up as, and its predecessor
may be either. -/
theorem not_identifies_blocksOfOneId :
    ∃ body,
      ofBlocks 0x1000 [⟨0, 0x1000, .nop⟩, ⟨0, 0x1004, .nop⟩] blocksOfOneId = .ok body ∧
        body.blocks = blocksOfOneId ∧
          body.blockAt? 1 = some ⟨⟨1⟩, 1, 2, [⟨1⟩]⟩ ∧
            body.block? ⟨1⟩ = some ⟨⟨1⟩, 0, 1, []⟩ ∧ ¬ body.Identifies := by
  have order : blocksOfOneId.mergeSort Block.precedes = blocksOfOneId :=
    List.mergeSort_of_pairwise (by decide)
  have known :
      (ofBlocks 0x1000 [⟨0, 0x1000, .nop⟩, ⟨0, 0x1004, .nop⟩] blocksOfOneId).toOption.map
          (fun body => (body.blocks, body.blockAt? 1, body.block? ⟨1⟩)) =
        some (blocksOfOneId, some ⟨⟨1⟩, 1, 2, [⟨1⟩]⟩, some ⟨⟨1⟩, 0, 1, []⟩) := by
    rw [ofBlocks, order]
    decide +kernel
  obtain ⟨body, built, observed⟩ := exists_ofBlocks_of_map_toOption known
  obtain ⟨blocks, found⟩ := Prod.mk.inj observed
  obtain ⟨holder, first⟩ := Prod.mk.inj found
  refine ⟨body, built, blocks, holder, first, fun identifies => ?_⟩
  have member : (⟨⟨1⟩, 1, 2, [⟨1⟩]⟩ : Block) ∈ body.blocks := by
    rw [blocks]
    decide
  have itself := identifies.findsItself _ member
  rw [first] at itself
  revert itself
  decide

end Body

end MainLocator
