import MainLocator.Proofs.AcceptedBody
import MainLocator.Proofs.BlockOrder

/-!
# Faults of blocks

Blocks fit a stream of instructions when every one of them lies inside it, is entered only from
blocks that exist, and shares no position with another. Of a block that does not fit behind others
one fault comes first: its range, then its first unknown predecessor, then the least position that a
block in front of it holds. `Body.checkBlocks` stops at the first block with a fault, and names it.
-/

namespace MainLocator

namespace Block

/-- The block is a run of positions in a stream of the given length. -/
def InRange (block : Block) (length : Nat) : Prop :=
  block.start ≤ block.stop ∧ block.stop ≤ length

/-- No position lies in both blocks. -/
def Disjoint (left right : Block) : Prop :=
  ∀ position, left.covers position → ¬ right.covers position

theorem Disjoint.symm
    {left right : Block}
    (disjoint : left.Disjoint right) :
    right.Disjoint left :=
  fun position rightCovers leftCovers => disjoint position leftCovers rightCovers

end Block

namespace Body

/-! ## Blocks that fit and faults of a block -/

/-- Nothing is wrong with the blocks over a stream of `length` instructions, where `ids` are the ids
that predecessors may have. -/
structure Fits (length : Nat) (ids : List BlockId) (blocks : List Block) : Prop where
  inRange : ∀ block ∈ blocks, block.InRange length
  knowsPredecessors : ∀ block ∈ blocks, ∀ id ∈ block.predecessors, id ∈ ids
  disjoint : blocks.Pairwise Block.Disjoint

/-- Nothing is wrong with a block behind `earlier` ones. -/
structure Passes (length : Nat) (ids : List BlockId) (earlier : List Block) (block : Block) :
    Prop where
  inRange : block.InRange length
  knowsPredecessors : ∀ id ∈ block.predecessors, id ∈ ids
  disjoint : ∀ other ∈ earlier, other.Disjoint block

/-- Of the positions of `block` that `earlier` blocks hold, the least, which `owner` holds. -/
structure SharesFirst
    (earlier : List Block) (block : Block) (position : Nat) (owner : Block) : Prop where
  covers : block.covers position
  isEarlier : owner ∈ earlier
  ownerCovers : owner.covers position
  isLeast : ∀ other ∈ earlier, ∀ shared,
    other.covers shared → block.covers shared → position ≤ shared

/-- The first thing wrong with a block behind `earlier` ones: its range, then its first predecessor
that does not exist, then the least position it shares. -/
inductive BlockFault
    (length : Nat) (ids : List BlockId) (earlier : List Block) (block : Block) :
    BodyError → Prop where
  | outOfRange :
      ¬ block.InRange length →
      BlockFault length ids earlier block
        (.blockOutOfRange block.id block.start block.stop length)
  | unknownPredecessor {front back : List BlockId} {missing : BlockId} :
      block.InRange length →
      block.predecessors = front ++ missing :: back →
      (∀ id ∈ front, id ∈ ids) →
      missing ∉ ids →
      BlockFault length ids earlier block (.unknownBlock missing)
  | overlap {position : Nat} {owner : Block} :
      block.InRange length →
      (∀ id ∈ block.predecessors, id ∈ ids) →
      SharesFirst earlier block position owner →
      BlockFault length ids earlier block (.overlappingBlocks position owner.id block.id)

section Blocks

variable {length : Nat} {ids : List BlockId} {earlier blocks : List Block} {block : Block}

theorem Fits.perm
    {others : List Block}
    (fits : Fits length ids blocks) (same : blocks.Perm others) :
    Fits length ids others where
  inRange := fun block member => fits.inRange block (same.mem_iff.mpr member)
  knowsPredecessors := fun block member =>
    fits.knowsPredecessors block (same.mem_iff.mpr member)
  disjoint := fits.disjoint.perm same Block.Disjoint.symm

theorem fits_append_singleton_iff :
    Fits length ids (earlier ++ [block]) ↔
      Fits length ids earlier ∧ Passes length ids earlier block := by
  constructor
  · intro fits
    obtain ⟨disjoint, _, separate⟩ := List.pairwise_append.mp fits.disjoint
    refine ⟨⟨?_, ?_, disjoint⟩, ?_, ?_, ?_⟩
    · exact fun other member => fits.inRange other (List.mem_append_left _ member)
    · exact fun other member => fits.knowsPredecessors other (List.mem_append_left _ member)
    · exact fits.inRange block List.mem_concat_self
    · exact fits.knowsPredecessors block List.mem_concat_self
    · exact fun other member => separate other member block (List.mem_singleton_self block)
  · intro parts
    obtain ⟨fits, inRange, knows, separate⟩ := parts
    refine ⟨?_, ?_, ?_⟩
    · simpa [or_imp, forall_and] using And.intro fits.inRange inRange
    · simpa [or_imp, forall_and] using And.intro fits.knowsPredecessors knows
    · refine List.pairwise_append.mpr ⟨fits.disjoint, List.pairwise_singleton _ _, ?_⟩
      simpa using separate

theorem Fits.of_append
    {later : List Block}
    (fits : Fits length ids (earlier ++ later)) :
    Fits length ids earlier where
  inRange := fun block member => fits.inRange block (List.mem_append_left _ member)
  knowsPredecessors := fun block member =>
    fits.knowsPredecessors block (List.mem_append_left _ member)
  disjoint := (List.pairwise_append.mp fits.disjoint).1

/-- Blocks that share no position have one owner of each position. -/
theorem ownerOf?_eq_some_iff
    (disjoint : blocks.Pairwise Block.Disjoint) (position : Nat) (owner : Block) :
    ownerOf? blocks position = some owner ↔ owner ∈ blocks ∧ owner.covers position := by
  rw [ownerOf?, List.find?_eq_some_iff_append]
  constructor
  · intro isFirst
    obtain ⟨covers, front, back, rfl, _⟩ := isFirst
    exact ⟨by simp, covers⟩
  · intro isOwner
    obtain ⟨member, covers⟩ := isOwner
    obtain ⟨front, back, rfl⟩ := List.append_of_mem member
    have across := (List.pairwise_append.mp disjoint).2.2
    refine ⟨covers, front, back, rfl, fun other inFront => ?_⟩
    have misses : ¬ other.covers position := fun otherCovers =>
      across other inFront owner List.mem_cons_self position otherCovers covers
    simpa using misses

theorem ownerOf?_eq_none_iff (position : Nat) :
    ownerOf? blocks position = none ↔ ∀ other ∈ blocks, ¬ other.covers position := by
  simp [ownerOf?]

theorem firstOverlap?_eq_none_iff :
    firstOverlap? earlier block = none ↔ ∀ other ∈ earlier, other.Disjoint block := by
  simp only [firstOverlap?, List.findSome?_eq_none_iff, Option.map_eq_map,
    Option.map_eq_none_iff, ownerOf?_eq_none_iff, Block.mem_positions_iff]
  exact ⟨fun apart other member position otherCovers covers =>
      apart position covers other member otherCovers,
    fun disjoint position covers other member otherCovers =>
      disjoint other member position otherCovers covers⟩

theorem firstOverlap?_eq_some_iff
    (disjoint : earlier.Pairwise Block.Disjoint) (position : Nat) (owner : Block) :
    firstOverlap? earlier block = some (position, owner) ↔
      SharesFirst earlier block position owner := by
  have ascending : block.positions.Pairwise (· < ·) := List.pairwise_lt_range'
  rw [firstOverlap?, List.findSome?_eq_some_iff]
  constructor
  · intro isFound
    obtain ⟨front, shared, back, split, isOwned, isFirst⟩ := isFound
    obtain ⟨found, isOwner, same⟩ := Option.map_eq_some_iff.mp isOwned
    obtain ⟨rfl, rfl⟩ := Prod.mk.inj same
    obtain ⟨isEarlier, ownerCovers⟩ := (ownerOf?_eq_some_iff disjoint shared found).mp isOwner
    rw [split] at ascending
    refine ⟨?_, isEarlier, ownerCovers, fun other member candidate otherCovers covers => ?_⟩
    · rw [← Block.mem_positions_iff, split]
      simp
    · rw [← Block.mem_positions_iff, split] at covers
      rcases List.mem_append.mp covers with inFront | inBack
      · have isFree : ownerOf? earlier candidate = none := by
          simpa using isFirst candidate inFront
        exact absurd otherCovers ((ownerOf?_eq_none_iff candidate).mp isFree other member)
      · rcases List.mem_cons.mp inBack with rfl | inBack
        · exact Nat.le_refl _
        · have behind := (List.pairwise_append.mp ascending).2.1
          exact Nat.le_of_lt (List.rel_of_pairwise_cons behind inBack)
  · intro sharesFirst
    have isPosition := (Block.mem_positions_iff block position).mpr sharesFirst.covers
    obtain ⟨front, back, split⟩ := List.append_of_mem isPosition
    refine ⟨front, position, back, split, ?_, fun before inFront => ?_⟩
    · rw [(ownerOf?_eq_some_iff disjoint position owner).mpr
        ⟨sharesFirst.isEarlier, sharesFirst.ownerCovers⟩]
      rfl
    · have isBefore : before < position := by
        rw [split] at ascending
        exact (List.pairwise_append.mp ascending).2.2 before inFront position List.mem_cons_self
      have covers : block.covers before := by
        rw [← Block.mem_positions_iff, split]
        exact List.mem_append_left _ inFront
      have isFree : ownerOf? earlier before = none := by
        rw [ownerOf?_eq_none_iff]
        intro other member otherCovers
        have isLeast := sharesFirst.isLeast other member before otherCovers covers
        omega
      rw [isFree]
      rfl

/-! ## What the checks find -/

theorem checkBlock_of_not_inRange
    (outside : ¬ block.InRange length) :
    checkBlock length ids earlier block =
      .error (.blockOutOfRange block.id block.start block.stop length) := by
  have isOutside : block.stop < block.start ∨ length < block.stop := by
    rw [Block.InRange] at outside
    omega
  rw [checkBlock, if_pos isOutside]

theorem checkBlock_of_inRange
    (inRange : block.InRange length) :
    checkBlock length ids earlier block =
      match block.predecessors.find? (· ∉ ids) with
      | some missing => .error (.unknownBlock missing)
      | none =>
          match firstOverlap? earlier block with
          | some (position, owner) => .error (.overlappingBlocks position owner.id block.id)
          | none => .ok () := by
  have notOutside : ¬ (block.stop < block.start ∨ length < block.stop) := by
    rw [Block.InRange] at inRange
    omega
  rw [checkBlock]
  exact if_neg notOutside

theorem find?_notMem_eq_none_iff (known : List BlockId) :
    known.find? (· ∉ ids) = none ↔ ∀ id ∈ known, id ∈ ids := by
  simp

theorem find?_notMem_eq_some_iff
    (candidates : List BlockId) (missing : BlockId) :
    candidates.find? (· ∉ ids) = some missing ↔
      ∃ front back,
        candidates = front ++ missing :: back ∧ (∀ id ∈ front, id ∈ ids) ∧ missing ∉ ids := by
  rw [List.find?_eq_some_iff_append]
  simp only [decide_eq_true_eq, Bool.not_eq_true', decide_eq_false_iff_not, Decidable.not_not]
  exact ⟨fun ⟨isMissing, front, back, split, known⟩ => ⟨front, back, split, known, isMissing⟩,
    fun ⟨front, back, split, known, isMissing⟩ => ⟨isMissing, front, back, split, known⟩⟩

theorem checkBlock_eq_ok
    (passes : Passes length ids earlier block) :
    checkBlock length ids earlier block = .ok () := by
  rw [checkBlock_of_inRange passes.inRange,
    (find?_notMem_eq_none_iff _).mpr passes.knowsPredecessors,
    firstOverlap?_eq_none_iff.mpr passes.disjoint]

theorem checkBlock_eq_error
    (disjoint : earlier.Pairwise Block.Disjoint)
    {error : BodyError} (fault : BlockFault length ids earlier block error) :
    checkBlock length ids earlier block = .error error := by
  cases fault with
  | outOfRange outside =>
      exact checkBlock_of_not_inRange outside
  | unknownPredecessor inRange split known isMissing =>
      rw [checkBlock_of_inRange inRange,
        (find?_notMem_eq_some_iff _ _).mpr ⟨_, _, split, known, isMissing⟩]
  | overlap inRange known sharesFirst =>
      rw [checkBlock_of_inRange inRange, (find?_notMem_eq_none_iff _).mpr known,
        (firstOverlap?_eq_some_iff disjoint _ _).mpr sharesFirst]

theorem passes_or_exists_blockFault
    (disjoint : earlier.Pairwise Block.Disjoint) :
    Passes length ids earlier block ∨ ∃ error, BlockFault length ids earlier block error := by
  by_cases inRange : block.InRange length
  · cases search : block.predecessors.find? (· ∉ ids) with
    | some missing =>
        obtain ⟨front, back, split, known, isMissing⟩ := (find?_notMem_eq_some_iff _ _).mp search
        exact .inr ⟨_, .unknownPredecessor inRange split known isMissing⟩
    | none =>
        have known := (find?_notMem_eq_none_iff _).mp search
        cases overlap : firstOverlap? earlier block with
        | some shared =>
            obtain ⟨position, owner⟩ := shared
            have sharesFirst := (firstOverlap?_eq_some_iff disjoint position owner).mp overlap
            exact .inr ⟨_, .overlap inRange known sharesFirst⟩
        | none =>
            exact .inl ⟨inRange, known, firstOverlap?_eq_none_iff.mp overlap⟩
  · exact .inr ⟨_, .outOfRange inRange⟩

theorem checkBlock_eq_ok_iff
    (disjoint : earlier.Pairwise Block.Disjoint) :
    checkBlock length ids earlier block = .ok () ↔ Passes length ids earlier block := by
  constructor
  · intro isOk
    rcases passes_or_exists_blockFault disjoint with passes | ⟨error, fault⟩
    · exact passes
    · rw [checkBlock_eq_error disjoint fault] at isOk
      cases isOk
  · exact checkBlock_eq_ok

theorem checkBlock_eq_error_iff
    (disjoint : earlier.Pairwise Block.Disjoint) (error : BodyError) :
    checkBlock length ids earlier block = .error error ↔
      BlockFault length ids earlier block error := by
  constructor
  · intro isError
    rcases passes_or_exists_blockFault disjoint with passes | ⟨other, fault⟩
    · rw [checkBlock_eq_ok passes] at isError
      cases isError
    · rw [checkBlock_eq_error disjoint fault] at isError
      cases isError
      exact fault
  · exact checkBlock_eq_error disjoint

theorem checkBlocks_cons (rest : List Block) :
    checkBlocks length ids earlier (block :: rest) =
      (checkBlock length ids earlier block).bind fun _ =>
        checkBlocks length ids (earlier ++ [block]) rest :=
  rfl

theorem checkBlocks_eq_ok_iff
    (fits : Fits length ids earlier) (rest : List Block) :
    checkBlocks length ids earlier rest = .ok () ↔ Fits length ids (earlier ++ rest) := by
  induction rest generalizing earlier with
  | nil =>
      rw [List.append_nil]
      exact iff_of_true rfl fits
  | cons block rest inductionHypothesis =>
      rw [checkBlocks_cons, List.append_cons earlier block rest]
      cases checked : checkBlock length ids earlier block with
      | error error =>
          have notPasses : ¬ Passes length ids earlier block := by
            rw [← checkBlock_eq_ok_iff fits.disjoint, checked]
            exact nofun
          refine iff_of_false nofun fun allFit => notPasses ?_
          exact (fits_append_singleton_iff.mp allFit.of_append).2
      | ok _ =>
          have passes := (checkBlock_eq_ok_iff fits.disjoint).mp checked
          exact inductionHypothesis (fits_append_singleton_iff.mpr ⟨fits, passes⟩)

/-- The checks stop at the first block with a fault, behind blocks that fit. -/
theorem checkBlocks_eq_error_iff
    (fits : Fits length ids earlier) (rest : List Block) (error : BodyError) :
    checkBlocks length ids earlier rest = .error error ↔
      ∃ front block back,
        rest = front ++ block :: back ∧ Fits length ids (earlier ++ front) ∧
          BlockFault length ids (earlier ++ front) block error := by
  induction rest generalizing earlier with
  | nil =>
      refine iff_of_false nofun ?_
      intro faulty
      obtain ⟨front, block, back, split, _⟩ := faulty
      simp at split
  | cons head rest inductionHypothesis =>
      rw [checkBlocks_cons]
      constructor
      · intro isError
        cases checked : checkBlock length ids earlier head with
        | error other =>
            rw [checked] at isError
            cases isError
            have fault := (checkBlock_eq_error_iff fits.disjoint error).mp checked
            refine ⟨[], head, rest, rfl, ?_, ?_⟩
            · rwa [List.append_nil]
            · rwa [List.append_nil]
        | ok _ =>
            rw [checked] at isError
            have passes := (checkBlock_eq_ok_iff fits.disjoint).mp checked
            have headFits := fits_append_singleton_iff.mpr ⟨fits, passes⟩
            obtain ⟨front, block, back, rfl, frontFits, fault⟩ :=
              (inductionHypothesis headFits).mp isError
            rw [List.append_assoc] at frontFits fault
            exact ⟨head :: front, block, back, rfl, frontFits, fault⟩
      · intro faulty
        obtain ⟨front, block, back, split, frontFits, fault⟩ := faulty
        cases front with
        | nil =>
            obtain ⟨rfl, rfl⟩ := List.cons.inj split
            rw [List.append_nil] at fault
            rw [checkBlock_eq_error fits.disjoint fault]
            rfl
        | cons first others =>
            obtain ⟨rfl, rfl⟩ := List.cons.inj split
            rw [List.append_cons] at frontFits fault
            have headFits := frontFits.of_append
            rw [checkBlock_eq_ok (fits_append_singleton_iff.mp headFits).2]
            exact (inductionHypothesis headFits).mpr ⟨others, block, back, rfl, frontFits, fault⟩

/-- Only which ids there are matters, not their order. -/
theorem checkBlocks_congr
    {others : List BlockId}
    (same : ∀ id, id ∈ ids ↔ id ∈ others) (rest : List Block) :
    checkBlocks length ids earlier rest = checkBlocks length others earlier rest := by
  induction rest generalizing earlier with
  | nil =>
      rfl
  | cons block rest inductionHypothesis =>
      have sameCheck : checkBlock length ids earlier block =
          checkBlock length others earlier block := by
        simp only [checkBlock, same]
      rw [checkBlocks_cons, checkBlocks_cons, sameCheck]
      refine congrArg _ (funext fun _ => ?_)
      exact inductionHypothesis

end Blocks

end Body

end MainLocator
