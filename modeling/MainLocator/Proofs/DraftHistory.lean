import Mathlib.Data.List.Induction
import MainLocator.Code.Draft

/-!
# Histories of drafts

What a draft is after any steps, said by what the steps put down and not by the state of the draft.
A history of steps has sections, one for each block that it opens, with the operations appended
while that block was the open one. The blocks of the draft, once the open one is closed, are the
sections laid out one behind another.
-/

namespace MainLocator

/-- A step in the growth of a draft. -/
inductive DraftStep where
  | openBlock
  | append (operation : Operation)
  | addEdge (source target : BlockId)
  deriving DecidableEq

namespace Draft

def take (draft : Draft) : DraftStep → Draft
  | .openBlock => draft.openBlock
  | .append operation => draft.append operation
  | .addEdge source target => draft.addEdge source target

/-- The draft of a body at `address` after the steps of a history. -/
def ofHistory (address : Word) (history : List DraftStep) : Draft :=
  history.foldl take { address }

theorem ofHistory_concat
    (address : Word) (history : List DraftStep) (step : DraftStep) :
    ofHistory address (history ++ [step]) = (ofHistory address history).take step := by
  rw [ofHistory, List.foldl_append, ← ofHistory]
  rfl

/-! ## What a history puts down -/

/-- Puts an operation at the end of the last section. Where there is none, it opens one. -/
def extendLast (operation : Operation) : List (List Operation) → List (List Operation)
  | [] => [[operation]]
  | [last] => [last ++ [operation]]
  | first :: second :: rest => first :: extendLast operation (second :: rest)

def extendSections (sections : List (List Operation)) : DraftStep → List (List Operation)
  | .openBlock => sections ++ [[]]
  | .append operation => extendLast operation sections
  | .addEdge _ _ => sections

/-- The operations appended to each block while it was open, the blocks in the order opened. -/
def sections (history : List DraftStep) : List (List Operation) :=
  history.foldl extendSections []

/-- The operations appended, in order. -/
def operationsOf (history : List DraftStep) : List Operation :=
  history.filterMap fun
    | .append operation => some operation
    | _ => none

/-- The edges recorded, in order. -/
def edgesOf (history : List DraftStep) : List (BlockId × BlockId) :=
  history.filterMap fun
    | .addEdge source target => some (source, target)
    | _ => none

theorem extendLast_concat
    (operation : Operation) (front : List (List Operation)) (last : List Operation) :
    extendLast operation (front ++ [last]) = front ++ [last ++ [operation]] := by
  induction front with
  | nil =>
      rfl
  | cons first rest inductionHypothesis =>
      cases rest with
      | nil =>
          rfl
      | cons second others =>
          exact congrArg (first :: ·) inductionHypothesis

theorem flatten_extendLast (operation : Operation) (sections : List (List Operation)) :
    (extendLast operation sections).flatten = sections.flatten ++ [operation] := by
  rcases List.eq_nil_or_concat sections with rfl | ⟨front, last, rfl⟩
  · rfl
  · rw [List.concat_eq_append, extendLast_concat, List.flatten_concat, List.flatten_concat,
      List.append_assoc]

theorem sections_concat (history : List DraftStep) (step : DraftStep) :
    sections (history ++ [step]) = extendSections (sections history) step := by
  rw [sections, List.foldl_append, ← sections]
  rfl

/-- The sections hold the operations appended, and no others. -/
theorem flatten_sections (history : List DraftStep) :
    (sections history).flatten = operationsOf history := by
  induction history using List.reverseRecOn with
  | nil =>
      rfl
  | append_singleton history step inductionHypothesis =>
      rw [sections_concat, operationsOf, List.filterMap_append, ← operationsOf,
        ← inductionHypothesis]
      cases step with
      | openBlock =>
          exact List.flatten_concat
      | append operation =>
          exact flatten_extendLast operation (sections history)
      | addEdge source target =>
          exact (List.append_nil _).symm

/-- An appended operation stays where it was put, at the end of the section of the open block, with
what is put there later behind it. -/
theorem exists_sections_append
    (front back : List DraftStep) (operation : Operation) :
    ∃ before opened more rest,
      before.length = (sections front).length - 1 ∧
        (sections front).flatten = before.flatten ++ opened ∧
          sections (front ++ .append operation :: back) =
            before ++ (opened ++ operation :: more) :: rest := by
  induction back using List.reverseRecOn with
  | nil =>
      rw [sections_concat, extendSections]
      rcases List.eq_nil_or_concat (sections front) with empty | ⟨before, opened, split⟩
      · rw [empty]
        exact ⟨[], [], [], [], rfl, rfl, rfl⟩
      · rw [List.concat_eq_append] at split
        rw [split, extendLast_concat]
        exact ⟨before, opened, [], [], by simp, List.flatten_concat, rfl⟩
  | append_singleton back step inductionHypothesis =>
      obtain ⟨before, opened, more, rest, length, flattened, split⟩ := inductionHypothesis
      have grown :
          sections (front ++ .append operation :: (back ++ [step])) =
            extendSections (before ++ (opened ++ operation :: more) :: rest) step := by
        rw [← split, ← sections_concat, List.append_assoc, List.cons_append]
      rw [grown]
      cases step with
      | openBlock =>
          refine ⟨before, opened, more, rest ++ [[]], length, flattened, ?_⟩
          rw [extendSections, List.append_assoc, List.cons_append]
      | append later =>
          rw [extendSections]
          -- The section grows further until another one is opened behind it.
          rcases List.eq_nil_or_concat rest with rfl | ⟨others, last, rfl⟩
          · refine ⟨before, opened, more ++ [later], [], length, flattened, ?_⟩
            rw [extendLast_concat, List.append_assoc, List.cons_append]
          · refine ⟨before, opened, more, others ++ [last ++ [later]], length, flattened, ?_⟩
            rw [List.concat_eq_append, ← List.cons_append, ← List.append_assoc, extendLast_concat,
              List.append_assoc, List.cons_append]
      | addEdge source target =>
          exact ⟨before, opened, more, rest, length, flattened, rfl⟩

/-! ## Layout -/

/-- The number of operations in the first `count` sections. -/
def offset (sections : List (List Operation)) (count : Nat) : Nat :=
  (sections.take count).flatten.length

/-- The blocks from which edges lead to the block with the given number, each once, in the order of
the first edge from it. -/
def sourcesInto (edges : List (BlockId × BlockId)) (number : Nat) : List BlockId :=
  ((edges.filter fun edge => edge.2.number.toNat = number).map Prod.fst).eraseDups

/-- The block over a section. -/
def blockOver
    (sections : List (List Operation)) (edges : List (BlockId × BlockId)) (number : Nat) : Block :=
  ⟨⟨UInt32.ofNat number⟩, offset sections number, offset sections (number + 1),
    sourcesInto edges number⟩

/-- The sections one behind another as blocks, which the edges enter. -/
def layout
    (sections : List (List Operation)) (edges : List (BlockId × BlockId)) : List Block :=
  (List.range sections.length).map (blockOver sections edges)

/-- The operations as instructions at consecutive addresses. -/
def instructionsAt (address : Word) (operations : List Operation) : List Instruction :=
  operations.mapIdx fun position operation =>
    ⟨0, address + UInt64.ofNat position * stride, operation⟩

theorem offset_length (sections : List (List Operation)) :
    offset sections sections.length = sections.flatten.length := by
  rw [offset, List.take_length]

theorem offset_append
    (front back : List (List Operation)) {count : Nat} (inFront : count ≤ front.length) :
    offset (front ++ back) count = offset front count := by
  rw [offset, List.take_append_of_le_length inFront, offset]

/-- A section behind others adds one block, in front of which nothing moves. -/
theorem layout_concat
    (front : List (List Operation)) (last : List Operation) :
    layout (front ++ [last]) [] =
      layout front [] ++
        [.ofRange ⟨UInt32.ofNat front.length⟩ front.flatten.length
          (front.flatten.length + last.length)] := by
  have start : offset (front ++ [last]) front.length = front.flatten.length := by
    rw [offset_append front [last] (Nat.le_refl _), offset_length]
  have stop :
      offset (front ++ [last]) (front.length + 1) = front.flatten.length + last.length := by
    have whole := offset_length (front ++ [last])
    rwa [List.length_append, List.length_singleton, List.flatten_concat, List.length_append]
      at whole
  have before :
      ∀ number ∈ List.range front.length,
        blockOver (front ++ [last]) [] number = blockOver front [] number := by
    intro number member
    have inFront := List.mem_range.mp member
    rw [blockOver, offset_append front [last] (Nat.le_of_lt inFront),
      offset_append front [last] inFront, blockOver]
  rw [layout, List.length_append, List.length_singleton, List.range_succ, List.map_append,
    List.map_congr_left before, ← layout, List.map_singleton, blockOver, start, stop]
  rfl

theorem length_layout
    (sections : List (List Operation)) (edges : List (BlockId × BlockId)) :
    (layout sections edges).length = sections.length := by
  rw [layout, List.length_map, List.length_range]

/-! ## What holds of a draft -/

/-- The block that is open, if one is. -/
def openId? (draft : Draft) : Option BlockId :=
  if draft.isOpen then draft.blocks.getLast?.map Block.id else none

/-- The draft holds the sections and edges. -/
structure Holds
    (draft : Draft) (address : Word) (sections : List (List Operation))
    (edges : List (BlockId × BlockId)) : Prop where
  address_eq : draft.address = address
  isOpen_iff : draft.isOpen = true ↔ sections ≠ []
  instructions_eq : draft.instructions = instructionsAt address sections.flatten
  edges_eq : draft.edges = edges
  close_blocks : draft.close.blocks = layout sections []

theorem modify_length_concat
    {α : Type} (front : List α) (last : α) (change : α → α) :
    (front ++ [last]).modify ((front ++ [last]).length - 1) change = front ++ [change last] := by
  rw [List.length_append, List.length_singleton, Nat.add_sub_cancel,
    List.modify_eq_take_cons_drop (by simp)]
  simp

theorem close_blocks_of_isOpen
    {draft : Draft} (isOpen : draft.isOpen = true) :
    draft.close.blocks =
      draft.blocks.modify (draft.blocks.length - 1)
        fun block => { block with stop := draft.instructions.length } := by
  rw [close, if_pos isOpen]

theorem append_eq_of_isOpen
    {draft : Draft} (isOpen : draft.isOpen = true) (operation : Operation) :
    draft.append operation =
      { draft with
        instructions := draft.instructions ++
          [⟨0, draft.address + UInt64.ofNat draft.instructions.length * stride, operation⟩] } := by
  simp only [append, isOpen, if_true]

/-- Without an open block, the entry block is opened first. -/
theorem append_eq_of_not_isOpen
    {draft : Draft} (isClosed : ¬ draft.isOpen = true) (operation : Operation) :
    draft.append operation = draft.openBlock.append operation := by
  have isOpen : draft.openBlock.isOpen = true := rfl
  rw [append_eq_of_isOpen isOpen, append, if_neg isClosed]

/-- Behind an operation, the open block would end one position later. -/
theorem close_blocks_append
    {draft : Draft} (isOpen : draft.isOpen = true) (operation : Operation) :
    (draft.append operation).close.blocks =
      draft.close.blocks.modify (draft.close.blocks.length - 1)
        fun block => { block with stop := draft.instructions.length + 1 } := by
  have stillOpen : (draft.append operation).isOpen = true := by
    rw [append_eq_of_isOpen isOpen]
    exact isOpen
  rw [close_blocks_of_isOpen stillOpen, close_blocks_of_isOpen isOpen, List.length_modify,
    List.modify_modify_eq, append_eq_of_isOpen isOpen, List.length_append, List.length_singleton]
  rfl

theorem close_instructions (draft : Draft) :
    draft.close.instructions = draft.instructions := by
  unfold close
  split
  · rfl
  · rfl

theorem close_address (draft : Draft) :
    draft.close.address = draft.address := by
  unfold close
  split
  · rfl
  · rfl

theorem close_edges (draft : Draft) :
    draft.close.edges = draft.edges := by
  unfold close
  split
  · rfl
  · rfl

namespace Holds

variable {draft : Draft} {address : Word} {sections : List (List Operation)}
  {edges : List (BlockId × BlockId)}

theorem start (address : Word) :
    ({ address } : Draft).Holds address [] [] where
  address_eq := rfl
  isOpen_iff := by simp
  instructions_eq := rfl
  edges_eq := rfl
  close_blocks := rfl

theorem length_instructions
    (holds : draft.Holds address sections edges) :
    draft.instructions.length = sections.flatten.length := by
  rw [holds.instructions_eq, instructionsAt, List.length_mapIdx]

/-- The open block is the one of the last section. Without any, the entry block comes first. -/
theorem getD_openId?
    (holds : draft.Holds address sections edges) :
    draft.openId?.getD .entry = ⟨UInt32.ofNat (sections.length - 1)⟩ := by
  by_cases isEmpty : sections = []
  · have isClosed : ¬ draft.isOpen = true := by
      simp [holds.isOpen_iff, isEmpty]
    rw [openId?, if_neg isClosed, isEmpty]
    rfl
  · have isOpen := holds.isOpen_iff.mpr isEmpty
    -- Only the closed blocks are known, but closing keeps the id of the last one.
    have closed := holds.close_blocks
    rw [close_blocks_of_isOpen isOpen] at closed
    have length : draft.blocks.length = sections.length := by
      rw [← length_layout sections [], ← closed, List.length_modify]
    have place : sections.length - 1 < sections.length :=
      Nat.sub_one_lt (mt List.eq_nil_of_length_eq_zero isEmpty)
    have last := congrArg (·[sections.length - 1]?) closed
    simp only [length, List.getElem?_modify_eq, layout, List.getElem?_map,
      List.getElem?_range place, Option.map_eq_map, Option.map_some] at last
    obtain ⟨block, isLast, changed⟩ := Option.map_eq_some_iff.mp last
    rw [openId?, if_pos isOpen, List.getLast?_eq_getElem?, length, isLast]
    exact congrArg Block.id changed

/-- Opening a block begins a section. -/
theorem openBlock
    (holds : draft.Holds address sections edges) :
    draft.openBlock.Holds address (sections ++ [[]]) edges where
  address_eq := (close_address draft).trans holds.address_eq
  isOpen_iff := by simp [Draft.openBlock]
  instructions_eq := by
    rw [List.flatten_concat, List.append_nil, ← holds.instructions_eq]
    exact close_instructions draft
  edges_eq := (close_edges draft).trans holds.edges_eq
  close_blocks := by
    have length : draft.close.instructions.length = sections.flatten.length := by
      rw [close_instructions, holds.length_instructions]
    rw [close_blocks_of_isOpen rfl, layout_concat]
    simp only [Draft.openBlock, modify_length_concat, holds.close_blocks, length_layout, length]
    rfl

/-- An operation goes to the end of the open block, and so of the last section. -/
theorem append_of_isOpen
    {front : List (List Operation)} {last : List Operation}
    (holds : draft.Holds address (front ++ [last]) edges) (operation : Operation) :
    (draft.append operation).Holds address (front ++ [last ++ [operation]]) edges := by
  have isOpen : draft.isOpen = true := holds.isOpen_iff.mpr (by simp)
  have appended := append_eq_of_isOpen isOpen operation
  have flattened :
      (front ++ [last ++ [operation]]).flatten = (front ++ [last]).flatten ++ [operation] := by
    rw [← extendLast_concat, flatten_extendLast]
  refine ⟨?_, ?_, ?_, ?_, ?_⟩
  · rw [appended]
    exact holds.address_eq
  · rw [appended]
    simp [isOpen]
  · rw [appended, flattened, instructionsAt, List.mapIdx_concat, ← instructionsAt,
      ← holds.instructions_eq, ← holds.length_instructions, ← holds.address_eq]
  · rw [appended]
    exact holds.edges_eq
  · have length :
        draft.instructions.length + 1 = front.flatten.length + (last ++ [operation]).length := by
      rw [holds.length_instructions, List.flatten_concat, List.length_append, List.length_append]
      rfl
    rw [close_blocks_append isOpen, holds.close_blocks, layout_concat, modify_length_concat,
      layout_concat, length]
    rfl

theorem append
    (holds : draft.Holds address sections edges) (operation : Operation) :
    (draft.append operation).Holds address (extendLast operation sections) edges := by
  rcases List.eq_nil_or_concat sections with rfl | ⟨front, last, rfl⟩
  · have isClosed : ¬ draft.isOpen = true := by
      simp [holds.isOpen_iff]
    rw [append_eq_of_not_isOpen isClosed]
    exact append_of_isOpen holds.openBlock operation
  · rw [List.concat_eq_append] at holds ⊢
    rw [extendLast_concat]
    exact holds.append_of_isOpen operation

theorem addEdge
    (holds : draft.Holds address sections edges) (source target : BlockId) :
    (draft.addEdge source target).Holds address sections (edges ++ [(source, target)]) where
  address_eq := holds.address_eq
  isOpen_iff := holds.isOpen_iff
  instructions_eq := holds.instructions_eq
  edges_eq := congrArg (· ++ [(source, target)]) holds.edges_eq
  close_blocks := by
    rw [← holds.close_blocks]
    unfold close
    by_cases isOpen : draft.isOpen = true
    · simp [Draft.addEdge, isOpen]
    · simp [Draft.addEdge, isOpen]

end Holds

/-- Every step keeps a draft holding what the history puts down. -/
theorem holds_ofHistory (address : Word) (history : List DraftStep) :
    (ofHistory address history).Holds address (sections history) (edgesOf history) := by
  induction history using List.reverseRecOn with
  | nil =>
      exact Holds.start address
  | append_singleton history step inductionHypothesis =>
      rw [ofHistory_concat, sections_concat, edgesOf, List.filterMap_append, ← edgesOf]
      cases step with
      | openBlock =>
          rw [List.filterMap_cons_none rfl, List.filterMap_nil, List.append_nil]
          exact inductionHypothesis.openBlock
      | append operation =>
          rw [List.filterMap_cons_none rfl, List.filterMap_nil, List.append_nil]
          exact inductionHypothesis.append operation
      | addEdge source target =>
          exact inductionHypothesis.addEdge source target

end Draft

end MainLocator
