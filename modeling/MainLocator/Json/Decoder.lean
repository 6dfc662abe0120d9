import MainLocator.Code.Word
import MainLocator.Json.Reader

/-!
# From JSON values to domain types

A decoder reads a value as a domain type, and takes along how many brackets deep the value may still
be. Records are read from an object, whose unknown members are ignored, or from an array of their
fields in order. Variants are read from the name alone if they have no content, and otherwise from
an object with one member. What a decoder ignores may be of any form and depth.
-/

namespace MainLocator.Json

/-- Reads a value that may nest as many brackets as the number says. -/
abbrev Decoder (α : Type) := Nat → Value → Option α

/-- The most brackets inside each other. -/
def nestingLimit : Nat := 127

/-- Reads a text as a domain type. -/
def decode? {α : Type} (decoder : Decoder α) (text : String) : Option α := do
  decoder nestingLimit (← readDocument? text)

/-! ## Plain values -/

namespace Decoder

/-- An integer from zero up to, but not including, `bound`. -/
def below (bound : Nat) : Decoder Nat
  | _, .number (.integer false number) => if number < bound then some number else none
  | _, _ => none

/-- A 64-bit count or position. -/
def count : Decoder Nat :=
  below UInt64.size

def word : Decoder Word :=
  fun depth value => UInt64.ofNat <$> count depth value

def half : Decoder UInt32 :=
  fun depth value => UInt32.ofNat <$> below UInt32.size depth value

def bool : Decoder Bool
  | _, .bool truth => some truth
  | _, _ => none

def text : Decoder String
  | _, .string (some content) => some content
  | _, _ => none

def list {α : Type} (element : Decoder α) : Decoder (List α)
  | depth + 1, .array elements => elements.mapM (element depth)
  | _, _ => none

/-- A variant without content, by name. -/
def tag {α : Type} (variants : List (String × α)) : Decoder α
  | _, .string (some name) => variants.lookup name
  | _ + 1, .object [(some name, .null)] => variants.lookup name
  | _, _ => none

end Decoder

/-! ## Records -/

/-- The member of a given name, if there is one. There must not be two. -/
def member? (members : List (Literal × Value)) (name : String) : Option (Option Value) :=
  match members.filter (·.1 = some name) with
  | [] => some none
  | [(_, value)] => some (some value)
  | _ => none

/-- The fields of a record in the order of `names`, each of which may be absent. -/
def fields? (names : List String) : Value → Option (List (Option Value))
  | .object members =>
      if members.all (·.1.isSome) then names.mapM (member? members) else none
  | .array elements =>
      if elements.length ≤ names.length then
        some (elements.map some ++ List.replicate (names.length - elements.length) none)
      else none
  | _ => none

/-- The fields of a record in the order of `names`, none of which may be absent. -/
def allFields? (names : List String) (value : Value) : Option (List Value) := do
  (← fields? names value).mapM id

end MainLocator.Json
