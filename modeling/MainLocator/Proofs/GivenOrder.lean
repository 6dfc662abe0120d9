import MainLocator.Proofs.BodyTables

/-!
# The order that blocks are given in

Whoever lifts a procedure may give its blocks in any order. The order only decides between blocks
that have one start and one id, so where no id is given twice it changes nothing: the blocks form
the same body, with the same tables, or the same fault is found in them first.
-/

namespace MainLocator

open scoped List

namespace Block

/-- Of blocks with distinct ids, at most one has a given start and id, whatever their order. -/
theorem tied_eq_of_perm
    {left right : List Block}
    (reordered : left ~ right) (distinct : (left.map Block.id).Nodup)
    (start : Nat) (id : BlockId) :
    tied left start id = tied right start id := by
  have kept : tied left start id ~ tied right start id := reordered.filter _
  have apart : (tied left start id).Pairwise fun first second => first.id ≠ second.id :=
    (List.pairwise_map.mp distinct).sublist List.filter_sublist
  have noTwo : ∀ first second, first ∈ tied left start id → second ∈ tied right start id →
      first.id ≠ second.id → second.id ≠ first.id → first = second := by
    intro first second isFirst isSecond different
    simp only [tied, List.mem_filter, decide_eq_true_eq] at isFirst isSecond
    exact absurd (isFirst.2.2.trans isSecond.2.2.symm) different
  exact kept.eq_of_pairwise noTwo apart ((kept.pairwise_iff Ne.symm).mp apart)

end Block

namespace Body

/-- What is built depends on the blocks of each start and id alone, and on their order. -/
theorem ofBlocks_eq_of_tied_eq
    (address : Word) (instructions : List Instruction) {left right : List Block}
    (sameTies : ∀ start id, Block.tied left start id = Block.tied right start id) :
    ofBlocks address instructions left = ofBlocks address instructions right := by
  have leftSorted := Block.arranges_mergeSort left
  have rightSorted := Block.arranges_mergeSort right
  have sameOrder : left.mergeSort Block.precedes = right.mergeSort Block.precedes := by
    refine Block.eq_of_ascending leftSorted.ascending rightSorted.ascending fun start id => ?_
    rw [leftSorted.keepsTies, rightSorted.keepsTies, sameTies]
  rw [ofBlocks, ofBlocks, sameOrder]

/-- Blocks with distinct ids form the same body in every order, or are refused for one fault. -/
theorem distinct_blocks_build_alike
    (address : Word) (instructions : List Instruction) {left right : List Block}
    (reordered : left ~ right) (distinct : (left.map Block.id).Nodup) :
    ofBlocks address instructions left = ofBlocks address instructions right :=
  ofBlocks_eq_of_tied_eq address instructions (Block.tied_eq_of_perm reordered distinct)

/-- In front, a block that ends outside of four instructions. Behind it, two blocks that overlap. -/
def crossingBlocks : List Block :=
  [.ofRange ⟨2⟩ 3 9, .ofRange ⟨1⟩ 2 4, .ofRange .entry 0 3]

/-- The overlap is the first fault by start, and is found first in either order. -/
theorem build_alike_crossingBlocks :
    crossingBlocks ~ crossingBlocks.reverse ∧
      (crossingBlocks.map Block.id).Nodup ∧
        ofBlocks 0x1000 callThenSum crossingBlocks =
          ofBlocks 0x1000 callThenSum crossingBlocks.reverse ∧
        ofBlocks 0x1000 callThenSum crossingBlocks =
          .error (.overlappingBlocks 2 .entry ⟨1⟩) := by
  have reordered : crossingBlocks ~ crossingBlocks.reverse :=
    (List.reverse_perm crossingBlocks).symm
  have distinct : (crossingBlocks.map Block.id).Nodup := by
    decide
  have alike := distinct_blocks_build_alike 0x1000 callThenSum reordered distinct
  refine ⟨reordered, distinct, alike, ?_⟩
  have order : crossingBlocks.reverse.mergeSort Block.precedes = crossingBlocks.reverse :=
    List.mergeSort_of_pairwise (by decide)
  rw [alike, ofBlocks, order]
  rfl

end Body

end MainLocator
