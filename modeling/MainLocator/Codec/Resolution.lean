import MainLocator.Json.Buffer
import MainLocator.Json.Decoder
import MainLocator.Json.Printer
import MainLocator.Resolution.Ledger

/-!
# Ledger files

A resolution is an object whose member `state` says which other member it has. In a ledger file each
resolution also has the number of its program, in the same object. The file says which version of
the form it has; other versions are refused, but only after the whole file is read.
-/

namespace MainLocator

open Json (Value Decoder Literal member? allFields?)

namespace Resolution

/-- The members of the object, the state first. -/
def members : Resolution → List (String × Value)
  | unresolved => [("state", .text "unresolved")]
  | found address => [("state", .text "found"), ("address", .natural address.toNat)]
  | notFound reason => [("state", .text "not_found"), ("reason", .text reason)]

def toJson (resolution : Resolution) : Value :=
  .record resolution.members

inductive State where
  | unresolved
  | found
  | notFound
  deriving DecidableEq

namespace State

def ofName? : Value → Option State
  | .string (some "unresolved") => some unresolved
  | .string (some "found") => some found
  | .string (some "not_found") => some notFound
  | _ => none

def ofNameOrNumber? : Value → Option State
  | .number (.integer false 0) => some unresolved
  | .number (.integer false 1) => some found
  | .number (.integer false 2) => some notFound
  | value => ofName? value

end State

def ofState? (state : State) (members : List (Literal × Value)) : Option Resolution :=
  match state with
  | .unresolved => some unresolved
  | .found => do
      let some address ← member? members "address" | none
      return found (← Decoder.word 0 address)
  | .notFound => do
      let some reason ← member? members "reason" | none
      return notFound (← Decoder.text 0 reason)

/-- Reads the members of an object, given how to read its state. -/
def ofMembers?
    (stateOf : Value → Option State) (depth : Nat) (members : List (Literal × Value)) :
    Option Resolution := do
  let others := members.filter (·.1 ≠ some "state")
  guard (Value.areHeldMembers depth others)
  let some stateValue ← member? members "state" | none
  ofState? (← stateOf stateValue) others

/-- Reads an object, or an array of the state and what goes with it. -/
def ofJson? : Decoder Resolution
  | depth + 1, .object members => ofMembers? State.ofName? depth members
  | depth + 1, .array (stateValue :: rest) => do
      guard (Value.areHeld depth rest)
      match ← State.ofName? stateValue, rest with
      | .unresolved, [] => return unresolved
      | .found, [address] => return found (← Decoder.word 0 address)
      | .notFound, [reason] => return notFound (← Decoder.text 0 reason)
      | _, _ => none
  | _, _ => none

end Resolution

/-- Why a ledger file is refused, or cannot be written. -/
inductive LedgerError where
  /-- There is no file, it cannot be written, or it is no text. -/
  | inaccessible
  /-- The text is no JSON, or not of the form of a ledger. -/
  | malformed
  | unsupportedVersion (version : UInt32)
  deriving DecidableEq

/-- The explanation of a refusal, where the file itself is at fault. -/
def LedgerError.message? : LedgerError → Option String
  | unsupportedVersion version =>
      some ("Unsupported store version: " ++ Numeral.decimal version.toNat)
  | _ => none

namespace Ledger

/-- The version of the form of ledger files. -/
def formVersion : UInt32 := 1

def entryToJson (entry : ProgramId × Resolution) : Value :=
  .record (("binary", .natural entry.1.number.toNat) :: entry.2.members)

def toJson (ledger : Ledger) : Value :=
  .record
    [("version", .natural formVersion.toNat),
      ("main_function_resolution", .array (ledger.snapshot.map entryToJson))]

/-- Reads one program and its resolution. Here the state may also be given by its number, and is
held like the other members. -/
def entryOfJson? : Decoder (ProgramId × Resolution)
  | depth + 1, .object members => do
      let some number ← member? members "binary" | none
      let others := members.filter (·.1 ≠ some "binary")
      guard (Value.areHeldMembers depth others)
      return (⟨← Decoder.word depth number⟩,
        ← Resolution.ofMembers? Resolution.State.ofNameOrNumber? depth others)
  | _, _ => none

/-- Reads the version and the entries of a ledger. -/
def documentOfJson? : Decoder (UInt32 × List (ProgramId × Resolution))
  | depth + 1, value => do
      let [version, entries] ← allFields? ["version", "main_function_resolution"] value | none
      return (← Decoder.half depth version, ← Decoder.list entryOfJson? depth entries)
  | _, _ => none

def text (ledger : Ledger) : String :=
  ledger.toJson.renderIndented

/-- The text that saving leaves in a file, if the file can be written. -/
def save (ledger : Ledger) (isWritable : Bool) : Except LedgerError String :=
  if isWritable then .ok ledger.text else .error .inaccessible

/-- Reads the text of a ledger's file. -/
def ofText (text : String) : Except LedgerError Ledger :=
  match Json.decode? documentOfJson? text with
  | none => .error .malformed
  | some (version, entries) =>
      if version = formVersion then .ok (ofEntries entries)
      else .error (.unsupportedVersion version)

/-- Reads the contents of a ledger's file, if there is one. -/
def ofFile (contents : Option ByteArray) : Except LedgerError Ledger :=
  match contents.bind String.fromUTF8? with
  | some text => ofText text
  | none => .error .inaccessible

end Ledger

end MainLocator
