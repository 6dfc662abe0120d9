import MainLocator.Code.Block

/-!
# The order of blocks

Blocks are put in order by start and then by id, and blocks that agree in both stay in the order
they are given in. There is one such order, and a stable sort yields it.
-/

namespace MainLocator

namespace Block

/-- The blocks with the given start and id, in the order of the list. -/
def tied (blocks : List Block) (start : Nat) (id : BlockId) : List Block :=
  blocks.filter fun block => block.start = start ∧ block.id = id

/-- The second list has the blocks of the first by start and then by id, and those that agree in
both as the first list has them. -/
structure Arranges (blocks ordered : List Block) : Prop where
  ascending : ordered.Pairwise fun left right => left.precedes right
  keepsTies : ∀ start id, tied ordered start id = tied blocks start id

theorem precedes_iff
    (left right : Block) :
    left.precedes right ↔
      left.start < right.start ∨ (left.start = right.start ∧ left.id.number ≤ right.id.number) := by
  rw [precedes, decide_eq_true_eq]

theorem precedes_refl (block : Block) :
    block.precedes block := by
  rw [precedes_iff]
  exact .inr ⟨rfl, UInt32.le_refl _⟩

theorem precedes_trans
    (first second third : Block)
    (firstPrecedes : first.precedes second) (secondPrecedes : second.precedes third) :
    first.precedes third := by
  rw [precedes_iff] at *
  obtain isLess | ⟨sameStart, idLe⟩ := firstPrecedes
  · omega
  · obtain isLess | ⟨sameNextStart, nextIdLe⟩ := secondPrecedes
    · omega
    · exact .inr ⟨sameStart.trans sameNextStart, UInt32.le_trans idLe nextIdLe⟩

theorem precedes_total
    (left right : Block) :
    left.precedes right || right.precedes left := by
  rw [Bool.or_eq_true, precedes_iff, precedes_iff]
  rcases Nat.lt_trichotomy left.start right.start with isLess | sameStart | isGreater
  · exact .inl (.inl isLess)
  · rcases UInt32.le_total left.id.number right.id.number with idLe | idLe
    · exact .inl (.inr ⟨sameStart, idLe⟩)
    · exact .inr (.inr ⟨sameStart.symm, idLe⟩)
  · exact .inr (.inl isGreater)

theorem start_le_of_precedes
    {left right : Block}
    (precedes : left.precedes right) :
    left.start ≤ right.start := by
  rw [precedes_iff] at precedes
  omega

theorem start_eq_and_id_eq_of_precedes
    {left right : Block}
    (leftPrecedes : left.precedes right) (rightPrecedes : right.precedes left) :
    left.start = right.start ∧ left.id = right.id := by
  have sameStart :=
    Nat.le_antisymm (start_le_of_precedes leftPrecedes) (start_le_of_precedes rightPrecedes)
  have notLess := Nat.lt_irrefl right.start
  rw [precedes_iff, sameStart] at leftPrecedes rightPrecedes
  have leftLe := (leftPrecedes.resolve_left notLess).2
  have rightLe := (rightPrecedes.resolve_left notLess).2
  exact ⟨sameStart, congrArg BlockId.mk (UInt32.le_antisymm leftLe rightLe)⟩

theorem mem_tied_iff
    (blocks : List Block) (block : Block) :
    block ∈ tied blocks block.start block.id ↔ block ∈ blocks := by
  simp [tied]

theorem mem_iff_of_tied_eq
    {left right : List Block}
    (sameTies : ∀ start id, tied left start id = tied right start id) (block : Block) :
    block ∈ left ↔ block ∈ right := by
  rw [← mem_tied_iff left, sameTies, mem_tied_iff]

theorem precedes_of_mem_cons
    {head block : Block} {tail : List Block}
    (ascending : (head :: tail).Pairwise fun left right => left.precedes right)
    (member : block ∈ head :: tail) :
    head.precedes block := by
  rcases List.mem_cons.mp member with rfl | later
  · exact precedes_refl block
  · exact List.rel_of_pairwise_cons ascending later

/-- There is one way to put blocks in order. -/
theorem eq_of_ascending
    {left right : List Block}
    (leftAscending : left.Pairwise fun left right => left.precedes right)
    (rightAscending : right.Pairwise fun left right => left.precedes right)
    (sameTies : ∀ start id, tied left start id = tied right start id) :
    left = right := by
  induction left generalizing right with
  | nil =>
      refine (List.eq_nil_iff_forall_not_mem.mpr fun block member => ?_).symm
      exact List.not_mem_nil ((mem_iff_of_tied_eq sameTies block).mpr member)
  | cons leftHead leftTail inductionHypothesis =>
      cases right with
      | nil =>
          have member : leftHead ∈ ([] : List Block) :=
            (mem_iff_of_tied_eq sameTies leftHead).mp List.mem_cons_self
          exact absurd member List.not_mem_nil
      | cons rightHead rightTail =>
          -- Each head is in the other list, so the heads have one start and one id.
          have leftFirst : leftHead.precedes rightHead :=
            precedes_of_mem_cons leftAscending
              ((mem_iff_of_tied_eq sameTies rightHead).mpr List.mem_cons_self)
          have rightFirst : rightHead.precedes leftHead :=
            precedes_of_mem_cons rightAscending
              ((mem_iff_of_tied_eq sameTies leftHead).mp List.mem_cons_self)
          obtain ⟨sameStart, sameId⟩ := start_eq_and_id_eq_of_precedes leftFirst rightFirst
          have headTies := sameTies leftHead.start leftHead.id
          simp only [tied, List.filter_cons, sameStart, sameId, and_self, decide_true, if_true,
            List.cons.injEq] at headTies
          obtain ⟨rfl, _⟩ := headTies
          refine congrArg (leftHead :: ·) ?_
          refine inductionHypothesis leftAscending.of_cons rightAscending.of_cons ?_
          intro start id
          have ties := sameTies start id
          simp only [tied, List.filter_cons] at ties
          split at ties
          · exact (List.cons.inj ties).2
          · exact ties

theorem arranges_mergeSort (blocks : List Block) :
    Arranges blocks (blocks.mergeSort precedes) := by
  refine ⟨List.pairwise_mergeSort precedes_trans precedes_total blocks, fun start id => ?_⟩
  have tiesPrecede : (tied blocks start id).Pairwise fun left right => left.precedes right := by
    refine List.pairwise_of_forall_mem_list fun left leftTied right rightTied => ?_
    simp only [tied, List.mem_filter, decide_eq_true_eq] at leftTied rightTied
    rw [precedes_iff, leftTied.2.1, leftTied.2.2, rightTied.2.1, rightTied.2.2]
    exact .inr ⟨rfl, UInt32.le_refl _⟩
  have isKept :=
    (List.sublist_mergeSort precedes_trans precedes_total tiesPrecede List.filter_sublist).filter
      fun block => block.start = start ∧ block.id = id
  simp only [tied, List.filter_filter, Bool.and_self] at isKept
  refine (isKept.eq_of_length ?_).symm
  exact ((List.mergeSort_perm blocks precedes).filter _).length_eq.symm

theorem arranges_iff
    (blocks ordered : List Block) :
    Arranges blocks ordered ↔ ordered = blocks.mergeSort precedes := by
  have sorted := arranges_mergeSort blocks
  constructor
  · intro arranges
    refine eq_of_ascending arranges.ascending sorted.ascending fun start id => ?_
    rw [arranges.keepsTies, sorted.keepsTies]
  · intro isSorted
    rw [isSorted]
    exact sorted

end Block

end MainLocator
