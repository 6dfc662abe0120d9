/-!
# JSON values

A value as it is written, before it is read as a domain type: members keep their order and their
repetitions, and a number keeps whether it was written as an integer. A string literal may spell
half of a surrogate pair alone; such a literal denotes no text, which `Literal` records as `none`.
-/

namespace MainLocator.Json

/-- The text of a string literal, or `none` where its escapes spell no text. -/
abbrev Literal := Option String

inductive Number where
  /-- Written without fraction and exponent. -/
  | integer (negative : Bool) (magnitude : Nat)
  /-- Written with a fraction or an exponent: `coefficient` times ten to the power `exponent`. -/
  | scaled (negative : Bool) (coefficient : Nat) (exponent : Int)
  deriving DecidableEq

inductive Value where
  | null
  | bool (truth : Bool)
  | number (number : Number)
  | string (literal : Literal)
  | array (elements : List Value)
  | object (members : List (Literal × Value))

namespace Value

/-- The integer literal of a natural number. -/
def natural (number : Nat) : Value :=
  .number (.integer false number)

/-- The literal of a text. -/
def text (content : String) : Value :=
  .string (some content)

/-- An object with the given members, in order. -/
def record (members : List (String × Value)) : Value :=
  .object (members.map fun member => (some member.1, member.2))

/-- An object with one member, named for a variant. -/
def variant (tag : String) (content : Value) : Value :=
  .record [(tag, content)]

end Value

end MainLocator.Json
