import Mathlib.Data.List.Sort
import MainLocator.Proofs.BlockIdentity
import MainLocator.Proofs.Numerals

/-!
# Listings

The listing of a body is read back line by line: no text of an instruction or a block breaks a line.
Behind the line of the body stand the blocks by start and then by id, each with a slice of the
instructions. That the slices exist, and that together they are the instructions that some block
holds, once and in order, is what acceptance ensures: blocks lie inside the stream and are disjoint.
-/

namespace MainLocator

/-! ## Lines -/

/-- The lines of a text. What stands behind the last line break is the last of them. -/
def linesOf (text : String) : List String :=
  (text.toList.splitOn '\n').map String.ofList

/-- The text has no line break. -/
def IsLine (text : String) : Prop :=
  '\n' ∉ text.toList

theorem linesOf_join
    {lines : List String} (areLines : ∀ line ∈ lines, IsLine line) :
    linesOf (String.join (lines.map (· ++ "\n"))) = lines ++ [""] := by
  have written :
      (String.join (lines.map (· ++ "\n"))).toList =
        ['\n'].intercalate (lines.map String.toList ++ [[]]) := by
    clear areLines
    induction lines with
    | nil => simp
    | cons first others inductionHypothesis =>
        rw [List.map_cons, String.join_cons, String.toList_append, inductionHypothesis,
          List.map_cons, List.cons_append, List.intercalate_cons_of_ne_nil (by simp)]
        simp
  rw [linesOf, written, List.splitOn_intercalate]
  · simp [Function.comp_def]
  · intro line member
    rcases List.mem_append.mp member with isLine | isLast
    · obtain ⟨original, isOriginal, rfl⟩ := List.mem_map.mp isLine
      exact areLines original isOriginal
    · simp [List.mem_singleton.mp isLast]
  · simp

section Texts

theorem isLine_append_iff (left right : String) :
    IsLine (left ++ right) ↔ IsLine left ∧ IsLine right := by
  simp [IsLine]

theorem isLine_intercalate
    {texts : List String} (areLines : ∀ text ∈ texts, IsLine text) :
    IsLine (", ".intercalate texts) := by
  induction texts with
  | nil => simp [IsLine]
  | cons first others inductionHypothesis =>
      obtain ⟨firstIsLine, othersAreLines⟩ := List.forall_mem_cons.mp areLines
      cases others with
      | nil => simpa using firstIsLine
      | cons second others =>
          rw [String.intercalate_cons_cons, isLine_append_iff, isLine_append_iff]
          exact ⟨⟨firstIsLine, by simp [IsLine]⟩, inductionHypothesis othersAreLines⟩

theorem isLine_decimal (number : Nat) : IsLine (Numeral.decimal number) := by
  intro member
  rw [Numeral.toList_decimal] at member
  exact absurd (Numeral.isDigit_of_mem_toDigits member) (by decide)

theorem Word.isLine_text (word : Word) : IsLine (Word.text word) := by
  have digits : '\n' ∉ Nat.toDigits 16 word.toNat := by
    intro member
    exact absurd (Numeral.isAlphanum_of_mem_toDigits member) (by decide)
  simp [IsLine, Word.text, Numeral.hexadecimal, Numeral.bareHexadecimal, digits]

theorem Register.isLine_text (register : Register) : IsLine register.text := by
  rw [text, isLine_append_iff]
  exact ⟨by simp [IsLine], isLine_decimal _⟩

theorem RegisterVersion.isLine_text (value : RegisterVersion) : IsLine value.text := by
  rw [text, isLine_append_iff, isLine_append_iff]
  exact ⟨⟨value.register.isLine_text, by simp [IsLine]⟩, isLine_decimal _⟩

theorem BlockId.isLine_text (id : BlockId) : IsLine id.text := by
  rw [text, isLine_append_iff]
  exact ⟨by simp [IsLine], isLine_decimal _⟩

theorem Expression.isLine_text (expression : Expression) : IsLine expression.text := by
  induction expression with
  | const value => exact Word.isLine_text value
  | pointer value => simpa [text, IsLine] using Word.isLine_text value
  | register source => exact source.isLine_text
  | partialRegister whole part =>
      simpa [text, IsLine] using And.intro whole.isLine_text part.isLine_text
  | zeroExtend operand inductionHypothesis
  | signExtend operand inductionHypothesis
  | load address inductionHypothesis => simpa [text, IsLine] using inductionHypothesis
  | add left right leftHypothesis rightHypothesis
  | subtract left right leftHypothesis rightHypothesis =>
      simpa [text, IsLine] using And.intro leftHypothesis rightHypothesis
  | undefined => simp [text, IsLine]

theorem CallOperands.isLine_text
    (operands : CallOperands) {verb : String} (isLine : IsLine verb) :
    IsLine (operands.text verb) := by
  have results : IsLine (", ".intercalate (operands.results.map RegisterVersion.text)) :=
    isLine_intercalate (List.forall_mem_map.mpr fun result _ => result.isLine_text)
  have arguments : IsLine (", ".intercalate (operands.arguments.map Expression.text)) :=
    isLine_intercalate (List.forall_mem_map.mpr fun argument _ => argument.isLine_text)
  have target := operands.target.isLine_text
  unfold text
  split
  · simpa [IsLine] using And.intro isLine (And.intro target arguments)
  · simpa [IsLine] using And.intro results (And.intro isLine (And.intro target arguments))

theorem Operation.isLine_text (operation : Operation) : IsLine operation.text := by
  cases operation with
  | assign destination source =>
      simpa [text, IsLine] using And.intro destination.isLine_text source.isLine_text
  | phi destination sources =>
      have list : IsLine (", ".intercalate (sources.map RegisterVersion.text)) :=
        isLine_intercalate (List.forall_mem_map.mpr fun source _ => source.isLine_text)
      simpa [text, IsLine] using And.intro destination.isLine_text list
  | call operands => exact operands.isLine_text (by simp [IsLine])
  | tailCall operands => exact operands.isLine_text (by simp [IsLine])
  | store address value =>
      simpa [text, IsLine] using And.intro address.isLine_text value.isLine_text
  | ret value => simpa [text, IsLine] using value.isLine_text
  | jump target => simpa [text, IsLine] using target.isLine_text
  | goto target => simpa [text, IsLine] using isLine_decimal target
  | branch condition taken skipped =>
      have targets := And.intro (isLine_decimal taken) (isLine_decimal skipped)
      simpa [text, IsLine] using And.intro condition.isLine_text targets
  | noReturn => simp [text, IsLine]
  | nop => simp [text, IsLine]

end Texts

/-! ## Lines of a body -/

namespace Body

def openingLine (address : Word) : String :=
  "function " ++ Word.text address ++ ":"

def headerLine (block : Block) : String :=
  "  " ++ block.id.text ++ ":  ; preds [" ++
    ", ".intercalate (block.predecessors.map BlockId.text) ++ "]"

/-- One line, the position right-aligned to four characters. -/
def placedLine (instruction : Instruction) : String :=
  "    " ++ Numeral.padLeft 4 ' ' (Numeral.decimal instruction.index) ++ " @ " ++
    Word.text instruction.address ++ ": " ++ instruction.operation.text

/-- The line begins with four blanks, like those of instructions. -/
def isIndented (line : String) : Bool :=
  line.toList.take 4 = [' ', ' ', ' ', ' ']

/-- The elements from position `start` up to `stop`, if the list has these positions. -/
def slice? {α : Type} (list : List α) (start stop : Nat) : Option (List α) :=
  if start ≤ stop ∧ stop ≤ list.length then some ((list.drop start).take (stop - start)) else none

/-- A blank line, the line that opens the block, and one line for each instruction of its slice, if
it has one. -/
def sectionLines? (instructions : List Instruction) (block : Block) : Option (List String) :=
  (slice? instructions block.start block.stop).map fun slice =>
    "" :: headerLine block :: slice.map placedLine

/-- The text lists instructions and blocks: the blocks in order, each with its slice, and altogether
each instruction that a block holds once. -/
structure ListsCode
    (address : Word) (instructions : List Instruction) (blocks : List Block) (text : String) :
    Prop where
  hasSections :
    ∃ (ordered : List Block) (sections : List (List String)),
      Block.Arranges blocks ordered ∧
        ordered.map (sectionLines? instructions) = sections.map some ∧
          linesOf text = openingLine address :: sections.flatten ++ [""]
  listsCovered :
    (linesOf text).filter isIndented =
      (instructions.filter fun instruction => blocks.any (·.covers instruction.index)).map
        placedLine

theorem isLine_headerLine (block : Block) : IsLine (headerLine block) := by
  have list : IsLine (", ".intercalate (block.predecessors.map BlockId.text)) :=
    isLine_intercalate (List.forall_mem_map.mpr fun id _ => id.isLine_text)
  simpa [headerLine, IsLine] using And.intro block.id.isLine_text list

theorem isLine_placedLine (instruction : Instruction) : IsLine (placedLine instruction) := by
  have position : IsLine (Numeral.padLeft 4 ' ' (Numeral.decimal instruction.index)) := by
    have digits := isLine_decimal instruction.index
    simp only [IsLine] at digits
    simp [IsLine, Numeral.padLeft, List.leftpad, digits]
  have address := Word.isLine_text instruction.address
  simpa [placedLine, IsLine] using
    And.intro position (And.intro address instruction.operation.isLine_text)

theorem isIndented_placedLine (instruction : Instruction) :
    isIndented (placedLine instruction) = true := by
  simp [isIndented, placedLine]

theorem isIndented_headerLine (block : Block) :
    isIndented (headerLine block) = false := by
  simp [isIndented, headerLine, BlockId.text]

theorem isIndented_openingLine (address : Word) :
    isIndented (openingLine address) = false := by
  simp [isIndented, openingLine]

/-- The lines of a block of the body. -/
def linesOfBlock (body : Body) (block : Block) : List String :=
  "" :: headerLine block :: (body.instructionsOf block).map placedLine

theorem blockHeader_eq (block : Block) :
    blockHeader block = "" ++ "\n" ++ (headerLine block ++ "\n") := by
  simp [blockHeader, headerLine, ← String.toList_inj]

theorem listing_eq (body : Body) :
    body.listing =
      String.join
        ((openingLine body.address :: body.blocks.flatMap body.linesOfBlock).map (· ++ "\n")) := by
  have section_eq : ∀ block,
      blockHeader block ++ String.join ((body.instructionsOf block).map instructionLine) =
        String.join ((body.linesOfBlock block).map (· ++ "\n")) := by
    intro block
    have lines :
        (body.instructionsOf block).map instructionLine =
          ((body.instructionsOf block).map placedLine).map (· ++ "\n") := by
      rw [List.map_map]
      rfl
    rw [linesOfBlock, List.map_cons, List.map_cons, String.join_cons, String.join_cons,
      ← String.append_assoc, ← blockHeader_eq, lines]
  have opening : "function " ++ Word.text body.address ++ ":\n" =
      openingLine body.address ++ "\n" := by
    simp [openingLine, ← String.toList_inj]
  rw [listing, List.map_cons, String.join_cons, opening, funext section_eq]
  congr 1
  induction body.blocks with
  | nil => rfl
  | cons first others inductionHypothesis =>
      rw [List.map_cons, String.join_cons, inductionHypothesis, List.flatMap_cons, List.map_append,
        String.join_append]

theorem isLine_of_mem_linesOfBlock
    {body : Body} {block : Block} {line : String} (member : line ∈ body.linesOfBlock block) :
    IsLine line := by
  simp only [linesOfBlock, List.mem_cons, List.mem_map] at member
  obtain rfl | rfl | ⟨instruction, _, rfl⟩ := member
  · simp [IsLine]
  · exact isLine_headerLine block
  · exact isLine_placedLine instruction

theorem linesOf_listing (body : Body) :
    linesOf body.listing =
      openingLine body.address :: (body.blocks.map body.linesOfBlock).flatten ++ [""] := by
  rw [listing_eq, linesOf_join, List.flatMap_def]
  intro line member
  rcases List.mem_cons.mp member with rfl | inBlock
  · simpa [openingLine, IsLine] using Word.isLine_text body.address
  · obtain ⟨block, _, isLine⟩ := List.mem_flatMap.mp inBlock
    exact isLine_of_mem_linesOfBlock isLine

theorem filter_linesOfBlock (body : Body) (block : Block) :
    (body.linesOfBlock block).filter isIndented = (body.instructionsOf block).map placedLine := by
  have indented :
      ((body.instructionsOf block).map placedLine).filter isIndented =
        (body.instructionsOf block).map placedLine :=
    List.filter_eq_self.mpr (List.forall_mem_map.mpr fun instruction _ =>
      isIndented_placedLine instruction)
  rw [linesOfBlock, List.filter_cons_of_neg (by decide),
    List.filter_cons_of_neg (by simp [isIndented_headerLine]), indented]

theorem filter_linesOf_listing (body : Body) :
    (linesOf body.listing).filter isIndented =
      (body.blocks.flatMap body.instructionsOf).map placedLine := by
  rw [linesOf_listing, List.cons_append,
    List.filter_cons_of_neg (by simp [isIndented_openingLine]), List.filter_append,
    ← List.flatMap_def, List.filter_flatMap, List.map_flatMap]
  simp only [filter_linesOfBlock]
  simp [isIndented]

/-! ## Slices -/

namespace Accepted

variable {body : Body}

theorem inRange
    (accepted : body.Accepted) {block : Block} (member : block ∈ body.blocks) :
    block.InRange body.size := by
  obtain ⟨address, instructions, blocks, built⟩ := accepted
  obtain ⟨checked, definitions, _, rfl⟩ :=
    (ofBlocks_eq_ok_iff address instructions blocks body).mp built
  rw [checkBlocks_eq_ok_iff (fits_nil _ _)] at checked
  exact checked.inRange block member

/-- No block of an accepted body asks for positions that are not there. -/
theorem slice?_eq_some
    (accepted : body.Accepted) {block : Block} (member : block ∈ body.blocks) :
    slice? body.instructions.toList block.start block.stop = some (body.instructionsOf block) := by
  obtain ⟨inOrder, inside⟩ := accepted.inRange member
  rw [slice?, if_pos ⟨inOrder, inside⟩, instructionsOf_eq, Block.length]

theorem mem_instructionsOf_iff
    (accepted : body.Accepted) (block : Block) (instruction : Instruction) :
    instruction ∈ body.instructionsOf block ↔
      instruction ∈ body.instructions ∧ block.covers instruction.index = true := by
  rw [instructionsOf, List.mem_filterMap]
  constructor
  · rintro ⟨position, isPosition, found⟩
    rw [accepted.index_eq found]
    exact ⟨Array.mem_of_getElem? found, (block.mem_positions_iff position).mp isPosition⟩
  · rintro ⟨member, covers⟩
    exact ⟨instruction.index, (block.mem_positions_iff _).mpr covers,
      accepted.getElem?_index member⟩

theorem flatMap_instructionsOf_ascends
    (accepted : body.Accepted) :
    (body.blocks.flatMap body.instructionsOf).Pairwise fun left right =>
      left.index < right.index := by
  have byPositions :
      body.blocks.flatMap body.instructionsOf =
        (body.blocks.flatMap Block.positions).filterMap (body.instructions[·]?) :=
    List.filterMap_flatMap.symm
  rw [byPositions, List.pairwise_filterMap]
  refine accepted.positions_ascend.imp fun isLess left isLeft right isRight => ?_
  rwa [accepted.index_eq isLeft, accepted.index_eq isRight]

/-- The slices of the blocks, one behind the other, are the instructions that some block holds. -/
theorem flatMap_instructionsOf
    (accepted : body.Accepted) :
    body.blocks.flatMap body.instructionsOf =
      body.instructions.toList.filter fun instruction =>
        body.blocks.any (·.covers instruction.index) := by
  have irreflexive : Std.Irrefl fun left right : Instruction => left.index < right.index :=
    ⟨fun instruction => Nat.lt_irrefl instruction.index⟩
  have antisymmetric : Std.Antisymm fun left right : Instruction => left.index < right.index :=
    ⟨fun _ _ isLess isGreater => absurd isGreater (Nat.lt_asymm isLess)⟩
  have allAscend :
      body.instructions.toList.Pairwise fun left right => left.index < right.index := by
    rw [← List.pairwise_map, accepted.map_index]
    exact List.pairwise_lt_range
  refine accepted.flatMap_instructionsOf_ascends.eq_of_mem_iff
    (allAscend.sublist List.filter_sublist) fun instruction => ?_
  simp only [List.mem_flatMap, accepted.mem_instructionsOf_iff, List.mem_filter, List.any_eq_true,
    Array.mem_toList_iff]
  constructor
  · rintro ⟨block, isBlock, member, covers⟩
    exact ⟨member, block, isBlock, covers⟩
  · rintro ⟨member, block, isBlock, covers⟩
    exact ⟨block, isBlock, member, covers⟩

end Accepted

/-- The listing of a body has a section for every block in order, over a slice that is there, and
one line for each instruction that a block holds. -/
theorem listing_covers_once
    {address : Word} {instructions : List Instruction} {given : List Block} {body : Body}
    (built : ofBlocks address instructions given = .ok body) :
    ListsCode address (number instructions) given body.listing := by
  have accepted : body.Accepted := ⟨_, _, _, built⟩
  have arranges := arranges_of_ofBlocks built
  obtain ⟨_, definitions, _, parts⟩ := (ofBlocks_eq_ok_iff address instructions given body).mp built
  have sameAddress : body.address = address := by rw [parts]
  have sameInstructions : body.instructions.toList = number instructions := by rw [parts]
  refine ⟨⟨body.blocks, body.blocks.map body.linesOfBlock, arranges, ?_, ?_⟩, ?_⟩
  · rw [List.map_map]
    refine List.map_congr_left fun block member => ?_
    rw [sectionLines?, ← sameInstructions, accepted.slice?_eq_some member]
    rfl
  · rw [linesOf_listing, sameAddress]
  · have sameCover : ∀ position,
        body.blocks.any (·.covers position) = given.any (·.covers position) := by
      intro position
      rw [Bool.eq_iff_iff, List.any_eq_true, List.any_eq_true]
      simp only [Block.mem_iff_of_tied_eq arranges.keepsTies]
    rw [filter_linesOf_listing, accepted.flatMap_instructionsOf, sameInstructions]
    simp only [sameCover]

/-- Two blocks that leave positions between them, and an empty one behind all instructions. -/
def sparseBlocks : List Block :=
  [.ofRange ⟨1⟩ 4 4, ⟨⟨2⟩, 2, 3, [.entry]⟩, .ofRange .entry 0 1]

theorem listing_sparseBlocks :
    ∃ body,
      ofBlocks 0x1000 callThenSum sparseBlocks = .ok body ∧
        ListsCode 0x1000 (number callThenSum) sparseBlocks body.listing ∧
          (linesOf body.listing).filter isIndented =
            ["       0 @ 0x1000: r1#1 = 0x4", "       2 @ 0x1008: r1#2 = φ(r1#1, r1#1)"] := by
  have order :
      sparseBlocks.mergeSort Block.precedes =
        [.ofRange .entry 0 1, ⟨⟨2⟩, 2, 3, [.entry]⟩, .ofRange ⟨1⟩ 4 4] := by
    simp [sparseBlocks, List.mergeSort, Block.precedes, Block.ofRange]
  have known : (ofBlocks 0x1000 callThenSum sparseBlocks).toOption.map Body.size = some 4 := by
    rw [ofBlocks, order]
    decide +kernel
  obtain ⟨body, built, _⟩ := exists_ofBlocks_of_map_toOption known
  have lists := listing_covers_once built
  refine ⟨body, built, lists, ?_⟩
  rw [lists.listsCovered]
  decide +kernel

end Body

end MainLocator
