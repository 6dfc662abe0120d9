import MainLocator.Json.Approximation

/-!
# Values that are held before their type is known

Where the type of a record depends on one of its members, the others are held as values until that
member is known. Unlike values that are merely ignored, they must spell texts, have only numbers
whose approximation is finite, and keep to the nesting limit.
-/

namespace MainLocator.Json

namespace Value

mutual

/-- Whether a value can be held that may nest `depth` brackets. -/
def isHeld (depth : Nat) : Value → Bool
  | null | bool _ => true
  | number value => value.isFinite
  | string literal => literal.isSome
  | array elements => 0 < depth && areHeld (depth - 1) elements
  | object members => 0 < depth && areHeldMembers (depth - 1) members

def areHeld (depth : Nat) : List Value → Bool
  | [] => true
  | value :: rest => isHeld depth value && areHeld depth rest

def areHeldMembers (depth : Nat) : List (Literal × Value) → Bool
  | [] => true
  | (name, value) :: rest => name.isSome && isHeld depth value && areHeldMembers depth rest

end

end Value

end MainLocator.Json
