import MainLocator.Code.Instruction

/-!
# Blocks

A block is a run of consecutive positions in a body, together with the blocks that control can
enter it from. The run is half open: it holds `start` and ends in front of `stop`.
-/

namespace MainLocator

structure BlockId where
  number : UInt32
  deriving DecidableEq

namespace BlockId

/-- The block that control enters a body through. -/
def entry : BlockId := ⟨0⟩

def text (id : BlockId) : String :=
  "bb" ++ Numeral.decimal id.number.toNat

end BlockId

structure Block where
  id : BlockId
  start : Nat
  stop : Nat
  predecessors : List BlockId
  deriving DecidableEq

namespace Block

/-- A block that nothing is known to enter. -/
def ofRange (id : BlockId) (start stop : Nat) : Block :=
  ⟨id, start, stop, []⟩

/-- The number of positions, zero for a run that ends before it starts. -/
def length (block : Block) : Nat :=
  block.stop - block.start

def isEmpty (block : Block) : Bool :=
  block.length = 0

/-- The positions of the block, ascending. -/
def positions (block : Block) : List Nat :=
  List.range' block.start block.length

def covers (block : Block) (position : Nat) : Bool :=
  block.start ≤ position ∧ position < block.stop

/-- Records that control can come from `source`. Recording it again changes nothing. -/
def addPredecessor (block : Block) (source : BlockId) : Block :=
  if source ∈ block.predecessors then block
  else { block with predecessors := block.predecessors ++ [source] }

/-- The order of blocks in a body: by start, then by id. -/
def precedes (left right : Block) : Bool :=
  left.start < right.start ∨ (left.start = right.start ∧ left.id.number ≤ right.id.number)

theorem covers_iff
    (block : Block) (position : Nat) :
    block.covers position = true ↔ block.start ≤ position ∧ position < block.stop := by
  rw [covers, decide_eq_true_eq]

theorem mem_positions_iff
    (block : Block) (position : Nat) :
    position ∈ block.positions ↔ block.covers position = true := by
  rw [positions, List.mem_range'_1, length, covers_iff]
  omega

end Block

end MainLocator
