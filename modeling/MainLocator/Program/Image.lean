import MainLocator.Program.Basic

/-!
# Kinds of images

A loaded image is told from two fields of its headers, found through data symbols over the headers:
a flag of the file header marks libraries, and a subsystem of the optional header marks drivers. A
field that cannot be read marks nothing.
-/

namespace MainLocator

inductive ImageKind where
  | executable
  | library
  | driver
  deriving DecidableEq

/-- The word for the kind in explanations. -/
def ImageKind.description : ImageKind → String
  | executable => "executable"
  | library => "DLL"
  | driver => "driver"

namespace Program

/-- Names the signature in front of the file header. -/
def fileHeaderSymbol : String := "__coff_header"

/-- Name the optional header, in either of its layouts. The wide layout is tried first. -/
def optionalHeaderSymbols : List String :=
  ["__pe64_optional_header", "__pe32_optional_header"]

/-- The distance from the signature to the characteristics. -/
def characteristicsOffset : Word := 0x16

/-- The distance from the optional header to the subsystem, the same in both layouts. -/
def subsystemOffset : Word := 0x44

/-- The characteristic of libraries. -/
def libraryFlag : UInt16 := 0x2000

/-- The subsystem of code that runs in the kernel. -/
def nativeSubsystem : UInt16 := 1

/-- The number at a distance from the data variable that a symbol names. -/
def fieldAt? (program : Program) (anchor : String) (offset : Word) : Option UInt16 := do
  let symbol ← program.symbolNamed? anchor
  guard (symbol.address ∈ program.dataVariables)
  program.halfAt? (← Word.add? symbol.address offset)

def isLibrary (program : Program) : Bool :=
  (program.fieldAt? fileHeaderSymbol characteristicsOffset).any
    fun characteristics => characteristics &&& libraryFlag = libraryFlag

/-- Decided by the first optional header whose subsystem can be read. -/
def isDriver (program : Program) : Bool :=
  (optionalHeaderSymbols.findSome? (program.fieldAt? · subsystemOffset)).any
    fun subsystem => subsystem = nativeSubsystem

/-- An image that is marked both ways is a library. -/
def imageKind (program : Program) : ImageKind :=
  if program.isLibrary then .library
  else if program.isDriver then .driver
  else .executable

/-- The marks of each kind of image. That of a driver counts in images that are no libraries. -/
theorem imageKind_eq_iff (program : Program) (kind : ImageKind) :
    program.imageKind = kind ↔
      match kind with
      | .library => program.isLibrary = true
      | .driver => program.isLibrary = false ∧ program.isDriver = true
      | .executable => program.isLibrary = false ∧ program.isDriver = false := by
  unfold imageKind
  cases program.isLibrary with
  | true => cases kind <;> simp
  | false =>
      cases program.isDriver with
      | true => cases kind <;> simp
      | false => cases kind <;> simp

end Program

end MainLocator
