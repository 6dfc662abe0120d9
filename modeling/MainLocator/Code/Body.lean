import MainLocator.Code.Block

/-!
# Bodies

A body is the code of one procedure in single assignment form: instructions, blocks over them, and
two tables, of the readers of each register version and of its definition. `Body.ofBlocks` builds a
body and says what is wrong where the blocks and instructions do not form one. A body it accepts has
blocks inside the instruction stream that do not overlap, and at most one definition of every
register version.
-/

namespace MainLocator

/-- Why instructions and blocks do not form a body. -/
inductive BodyError where
  /-- A block is named that does not exist. -/
  | unknownBlock (id : BlockId)
  | blockOutOfRange (id : BlockId) (start stop length : Nat)
  /-- Both blocks hold the position. -/
  | overlappingBlocks (position : Nat) (first second : BlockId)
  | repeatedDefinition (target : RegisterVersion)
  deriving DecidableEq

def BodyError.message : BodyError → String
  | unknownBlock id => "invalid basic block id: " ++ id.text
  | blockOutOfRange id start stop length =>
      "block " ++ id.text ++ " covers instructions " ++ Numeral.decimal start ++ ".." ++
        Numeral.decimal stop ++ " but the function has " ++ Numeral.decimal length
  | overlappingBlocks position first second =>
      "instruction " ++ Numeral.decimal position ++ " belongs to both " ++ first.text ++ " and " ++
        second.text
  | repeatedDefinition target =>
      "SSA register " ++ target.text ++ " is defined more than once"

/-- For each register version the positions that read it, ascending. -/
abbrev UseTable := Std.TreeMap RegisterVersion (List Nat)

/-- For each register version the position that defines it. -/
abbrev DefinitionTable := Std.TreeMap RegisterVersion Nat

structure Body where
  address : Word
  instructions : Array Instruction
  /-- In the order of `Block.precedes`. -/
  blocks : List Block
  uses : UseTable
  definitions : DefinitionTable

namespace Body

/-! ## Checks and tables -/

/-- Numbers instructions by their position. -/
def number (instructions : List Instruction) : List Instruction :=
  instructions.mapIdx fun position instruction => { instruction with index := position }

/-- The first of the blocks that holds a position. -/
def ownerOf? (blocks : List Block) (position : Nat) : Option Block :=
  blocks.find? (·.covers position)

/-- The least position of `block` that one of the `earlier` blocks holds, and that block. -/
def firstOverlap? (earlier : List Block) (block : Block) : Option (Nat × Block) :=
  block.positions.findSome? fun position => (position, ·) <$> ownerOf? earlier position

/-- Checks one block of a stream of `length` instructions against the ids of all blocks and against
the `earlier` blocks: first its range, then its predecessors, then overlaps. -/
def checkBlock
    (length : Nat) (ids : List BlockId) (earlier : List Block) (block : Block) :
    Except BodyError Unit :=
  if block.stop < block.start ∨ length < block.stop then
    .error (.blockOutOfRange block.id block.start block.stop length)
  else match block.predecessors.find? (· ∉ ids) with
    | some missing => .error (.unknownBlock missing)
    | none =>
        match firstOverlap? earlier block with
        | some (position, owner) => .error (.overlappingBlocks position owner.id block.id)
        | none => .ok ()

/-- Checks the blocks in the order given, each against those in front of it. -/
def checkBlocks
    (length : Nat) (ids : List BlockId) (earlier : List Block) :
    List Block → Except BodyError Unit
  | [] => pure ()
  | block :: rest => do
      checkBlock length ids earlier block
      checkBlocks length ids (earlier ++ [block]) rest

/-- Adds one instruction in front of those whose reads are in the table. An instruction that reads a
register version twice is added once. -/
def recordReads (instruction : Instruction) (uses : UseTable) : UseTable :=
  instruction.operation.reads.foldl
    (fun table source => table.insert source (instruction.index :: uses.getD source [])) uses

def useTable (instructions : List Instruction) : UseTable :=
  instructions.foldr recordReads ∅

theorem getD_recordReads
    (instruction : Instruction) (uses : UseTable) (source : RegisterVersion) :
    (recordReads instruction uses).getD source [] =
      if source ∈ instruction.operation.reads then instruction.index :: uses.getD source []
      else uses.getD source [] := by
  suffices general :
      ∀ (reads : List RegisterVersion) (table : UseTable),
        (reads.foldl
            (fun table source =>
              table.insert source (instruction.index :: uses.getD source [])) table).getD
            source [] =
          if source ∈ reads then instruction.index :: uses.getD source []
          else table.getD source [] from
    general _ uses
  intro reads
  induction reads with
  | nil =>
      intro table
      simp
  | cons first others inductionHypothesis =>
      intro table
      rw [List.foldl_cons, inductionHypothesis, Std.TreeMap.getD_insert]
      by_cases isFirst : source = first
      · simp [isFirst]
      · have different : ¬ first = source := fun same => isFirst same.symm
        simp [isFirst, different]

/-- The table holds, for each register version, the positions of the instructions that read it. -/
theorem getD_useTable
    (instructions : List Instruction) (source : RegisterVersion) :
    (useTable instructions).getD source [] =
      (instructions.filter (source ∈ ·.operation.reads)).map Instruction.index := by
  induction instructions with
  | nil => rfl
  | cons first others inductionHypothesis =>
      rw [useTable, List.foldr_cons, getD_recordReads, ← useTable, inductionHypothesis]
      by_cases isRead : source ∈ first.operation.reads
      · simp [isRead]
      · simp [isRead]

def recordWrites
    (definitions : DefinitionTable) (instruction : Instruction) :
    Except BodyError DefinitionTable :=
  instruction.operation.writes.foldlM
    (fun definitions target =>
      if target ∈ definitions then .error (.repeatedDefinition target)
      else .ok (definitions.insert target instruction.index))
    definitions

def definitionTable (instructions : List Instruction) : Except BodyError DefinitionTable :=
  instructions.foldlM recordWrites ∅

/-- Builds a body. The instructions are numbered anew, and the blocks put in order. -/
def ofBlocks
    (address : Word) (instructions : List Instruction) (blocks : List Block) :
    Except BodyError Body := do
  let numbered := number instructions
  let ordered := blocks.mergeSort Block.precedes
  checkBlocks numbered.length (ordered.map Block.id) [] ordered
  let definitions ← definitionTable numbered
  return {
    address
    instructions := numbered.toArray
    blocks := ordered
    uses := useTable numbered
    definitions }

/-! ## Queries -/

def size (body : Body) : Nat :=
  body.instructions.size

def isEmpty (body : Body) : Bool :=
  body.size = 0

def last? (body : Body) : Option Instruction :=
  body.instructions.back?

/-- The first block with the given id. -/
def block? (body : Body) (id : BlockId) : Option Block :=
  body.blocks.find? (·.id = id)

def blockAt? (body : Body) (position : Nat) : Option Block :=
  ownerOf? body.blocks position

/-- The positions that read a register version, ascending. -/
def usesOf (body : Body) (source : RegisterVersion) : List Nat :=
  body.uses.getD source []

def definition? (body : Body) (target : RegisterVersion) : Option Instruction := do
  let position ← body.definitions[target]?
  body.instructions[position]?

/-- The instructions of a block, in order. -/
def instructionsOf (body : Body) (block : Block) : List Instruction :=
  block.positions.filterMap (body.instructions[·]?)

/-! ## Text -/

/-- One instruction as a line of a listing, its position right-aligned. -/
def instructionLine (instruction : Instruction) : String :=
  "    " ++ Numeral.padLeft 4 ' ' (Numeral.decimal instruction.index) ++ " @ " ++
    Word.text instruction.address ++ ": " ++ instruction.operation.text ++ "\n"

/-- A blank line, and the line that opens a block. -/
def blockHeader (block : Block) : String :=
  "\n  " ++ block.id.text ++ ":  ; preds [" ++
    ", ".intercalate (block.predecessors.map BlockId.text) ++ "]\n"

def listing (body : Body) : String :=
  "function " ++ Word.text body.address ++ ":\n" ++
    String.join (body.blocks.map fun block =>
      blockHeader block ++ String.join ((body.instructionsOf block).map instructionLine))

end Body

end MainLocator
