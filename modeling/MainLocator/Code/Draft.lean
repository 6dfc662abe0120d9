import MainLocator.Code.Body

/-!
# Drafts

A draft grows into a body one instruction at a time. An instruction goes into the block that is
open; if none is, the entry block is opened first. Edges between blocks may name blocks that are
opened later, and are checked only when the body is built.
-/

namespace MainLocator

structure Draft where
  address : Word
  instructions : List Instruction := []
  /-- The blocks in the order opened. The open one still has its start as its stop. -/
  blocks : List Block := []
  /-- Pairs of the block left and the block entered. -/
  edges : List (BlockId × BlockId) := []
  isOpen : Bool := false

namespace Draft

/-- The distance between the addresses of consecutive instructions. -/
def stride : Word := 4

/-- Lets the open block end behind the last instruction. -/
def close (draft : Draft) : Draft :=
  if draft.isOpen then
    { draft with
      isOpen := false
      blocks := draft.blocks.modify (draft.blocks.length - 1)
        fun block => { block with stop := draft.instructions.length } }
  else draft

def openBlock (draft : Draft) : Draft :=
  let closed := draft.close
  let start := closed.instructions.length
  { closed with
    isOpen := true
    blocks := closed.blocks ++
      [.ofRange ⟨UInt32.ofNat closed.blocks.length⟩ start start] }

def append (draft : Draft) (operation : Operation) : Draft :=
  let opened := if draft.isOpen then draft else draft.openBlock
  let index := opened.instructions.length
  let address := opened.address + UInt64.ofNat index * stride
  { opened with instructions := opened.instructions ++ [⟨0, address, operation⟩] }

def addEdge (draft : Draft) (source target : BlockId) : Draft :=
  { draft with edges := draft.edges ++ [(source, target)] }

/-- Enters one edge into the block it leads to. -/
def connect
    (blocks : List Block) (edge : BlockId × BlockId) :
    Except BodyError (List Block) :=
  if blocks.length ≤ edge.1.number.toNat then .error (.unknownBlock edge.1)
  else if blocks.length ≤ edge.2.number.toNat then .error (.unknownBlock edge.2)
  else .ok (blocks.modify edge.2.number.toNat (·.addPredecessor edge.1))

/-- Checks and enters the edges in the order recorded, then builds the body. -/
def build (draft : Draft) : Except BodyError Body := do
  let closed := draft.close
  let blocks ← closed.edges.foldlM connect closed.blocks
  Body.ofBlocks closed.address closed.instructions blocks

end Draft

end MainLocator
