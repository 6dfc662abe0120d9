import MainLocator.Program.CallGraph
import MainLocator.Program.Procedure

/-!
# Loaded programs

What is known of one loaded program: its symbols, procedures, calls, mapped bytes and data
variables. Analysis can add two things: symbols that it infers, and requests to analyse procedures
sooner. An inferred symbol never hides one that came with the program, or one inferred before.
-/

namespace MainLocator

/-- The identity of a loaded program. -/
structure ProgramId where
  number : Word
  deriving DecidableEq

namespace ProgramId

/-- Sixteen base-sixteen digits. -/
def text (id : ProgramId) : String :=
  Numeral.padLeft 16 '0' (Numeral.bareHexadecimal id.number.toNat)

instance : Ord ProgramId where
  compare := compareOn ProgramId.number

instance : Std.TransOrd ProgramId :=
  inferInstanceAs (Std.TransCmp (compareOn ProgramId.number))

theorem eq_of_compare_eq
    {left right : ProgramId}
    (equality : compare left right = .eq) :
    left = right := by
  obtain ⟨leftNumber⟩ := left
  obtain ⟨rightNumber⟩ := right
  exact congrArg ProgramId.mk (Std.LawfulEqOrd.eq_of_compare equality)

instance : Std.LawfulEqOrd ProgramId where
  eq_of_compare := eq_of_compare_eq

end ProgramId

/-- Bytes mapped from `base` on. -/
structure Segment where
  base : Word
  bytes : Array UInt8

/-- The byte of the segment at an address. -/
def Segment.byteAt? (segment : Segment) (address : Word) : Option UInt8 :=
  if segment.base ≤ address then segment.bytes[(address - segment.base).toNat]? else none

/-- Distances from the base are counted without wrapping. -/
theorem Segment.byteAt?_eq_some_iff
    (segment : Segment) (address : Word) (byte : UInt8) :
    segment.byteAt? address = some byte ↔
      ∃ distance, segment.base.toNat + distance = address.toNat ∧
        segment.bytes[distance]? = some byte := by
  unfold Segment.byteAt?
  split
  · rename_i above
    have distanceValue : (address - segment.base).toNat = address.toNat - segment.base.toNat :=
      UInt64.toNat_sub_of_le _ _ above
    have order : segment.base.toNat ≤ address.toNat := UInt64.le_iff_toNat_le.mp above
    rw [distanceValue]
    constructor
    · intro found
      exact ⟨_, by omega, found⟩
    · rintro ⟨distance, sum, found⟩
      rwa [← sum, Nat.add_sub_cancel_left]
  · rename_i notAbove
    constructor
    · intro absurdity
      exact absurd absurdity (by simp)
    · rintro ⟨distance, sum, _⟩
      exact absurd (UInt64.le_iff_toNat_le.mpr (by omega)) notAbove

/-- A place in the code that refers to an address. -/
structure CodeReference where
  /-- The start of the procedure that holds the place. -/
  procedure : Word
  address : Word
  deriving DecidableEq

structure Program where
  id : ProgramId
  /-- The platform that procedures are analysed for unless said otherwise. -/
  platform : Platform
  entryPoint : Option Word := none
  /-- The symbols that came with the program, at most one an address. -/
  symbols : Std.TreeMap Word Symbol := ∅
  /-- In the order added. -/
  procedures : List Procedure := []
  calls : CallGraph := {}
  /-- Where segments overlap, the one added first counts. -/
  segments : List Segment := []
  dataVariables : Std.TreeSet Word := ∅
  /-- In the order inferred. -/
  inferredSymbols : List Symbol := []
  /-- In the order requested. -/
  requests : List Word := []

namespace Program

/-! ## Building a program -/

/-- Adds a symbol in the place of any other at its address. -/
def addSymbol (program : Program) (symbol : Symbol) : Program :=
  { program with symbols := program.symbols.insert symbol.address symbol }

def addProcedure (program : Program) (procedure : Procedure) : Program :=
  { program with procedures := program.procedures ++ [procedure] }

def addCall (program : Program) (caller callee : Word) (site : CallSite) : Program :=
  { program with calls := program.calls.addCall caller callee site }

def addSegment (program : Program) (segment : Segment) : Program :=
  { program with segments := program.segments ++ [segment] }

def addDataVariable (program : Program) (address : Word) : Program :=
  { program with dataVariables := program.dataVariables.insert address }

/-! ## What analysis adds -/

def infer (program : Program) (symbol : Symbol) : Program :=
  { program with inferredSymbols := program.inferredSymbols ++ [symbol] }

/-- Asks for the procedure at an address to be analysed sooner. -/
def request (program : Program) (address : Word) : Program :=
  { program with requests := program.requests ++ [address] }

/-! ## Symbols -/

def symbolAt? (program : Program) (address : Word) : Option Symbol :=
  program.symbols[address]? <|>
    program.inferredSymbols.find? (·.address = address)

/-- The symbol with a raw name, at the lowest address if several came with the program. -/
def symbolNamed? (program : Program) (rawName : String) : Option Symbol :=
  (program.symbols.toList.map Prod.snd).find? (·.rawName = rawName) <|>
    program.inferredSymbols.find? (·.rawName = rawName)

/-! ## Procedures and calls -/

/-- The procedures at an address, in the order added. -/
def proceduresAt (program : Program) (address : Word) : List Procedure :=
  program.procedures.filter (·.start = address)

/-- All procedures by ascending start, in the order added where starts are equal. -/
def sortedProcedures (program : Program) : List Procedure :=
  program.procedures.mergeSort fun left right => left.start ≤ right.start

/-- The first procedure at an address that was analysed for a platform. -/
def procedureAt? (program : Program) (platform : Platform) (address : Word) : Option Procedure :=
  (program.proceduresAt address).find? (·.platform = platform)

/-- The first procedure at an address that was analysed for the program's own platform. -/
def ownProcedureAt? (program : Program) (address : Word) : Option Procedure :=
  program.procedureAt? program.platform address

/-- The procedure at the entry point. -/
def entryProcedure? (program : Program) : Option Procedure := do
  program.ownProcedureAt? (← program.entryPoint)

/-- The calls of the procedure at an address, in the order added. -/
def referencesTo (program : Program) (address : Word) : List CodeReference :=
  (program.calls.callers address).map fun call => ⟨call.1, call.2.address⟩

/-! ## Memory -/

/-- The byte that the first segment over an address has there. -/
def byteAt? (program : Program) (address : Word) : Option UInt8 :=
  program.segments.findSome? (·.byteAt? address)

/-- The 16-bit number at an address, low byte first. There is none across the last address. -/
def halfAt? (program : Program) (address : Word) : Option UInt16 := do
  let low ← program.byteAt? address
  let high ← program.byteAt? (← Word.add? address 1)
  return low.toUInt16 + 256 * high.toUInt16

end Program

end MainLocator
