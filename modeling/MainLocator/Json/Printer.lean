import MainLocator.Json.Value
import MainLocator.Text.Numeral

/-!
# Writing JSON

Two written forms of a value: the compact one without blanks, and the indented one with two spaces
a level. In both, strings escape the quote, the backslash and the control characters below the
space, and nothing else. Objects and arrays without content are closed at once in either form.
-/

namespace MainLocator.Json

/-- The base-sixteen digit of a number below sixteen. -/
def hexDigit (number : Nat) : Char :=
  Nat.digitChar number

/-- The spelling of one character inside a string literal. -/
def escape (character : Char) : List Char :=
  if character = '"' then ['\\', '"']
  else if character = '\\' then ['\\', '\\']
  else if character = '\x08' then ['\\', 'b']
  else if character = '\t' then ['\\', 't']
  else if character = '\n' then ['\\', 'n']
  else if character = '\x0c' then ['\\', 'f']
  else if character = '\r' then ['\\', 'r']
  else if character < ' ' then
    ['\\', 'u', '0', '0', hexDigit (character.toNat / 16), hexDigit (character.toNat % 16)]
  else [character]

/-- A string literal with its quotes. -/
def quote (content : String) : List Char :=
  '"' :: content.toList.flatMap escape ++ ['"']

/-- A literal that spells no text is written as an unpaired surrogate, which spells none either. -/
def quoteLiteral : Literal → List Char
  | some content => quote content
  | none => "\"\\ud800\"".toList

def sign (negative : Bool) : List Char :=
  if negative then ['-'] else []

def Number.written : Number → List Char
  | integer negative magnitude => sign negative ++ (Numeral.decimal magnitude).toList
  | scaled negative coefficient exponent =>
      sign negative ++ (Numeral.decimal coefficient).toList ++ 'e' :: sign (exponent < 0) ++
        (Numeral.decimal exponent.natAbs).toList

namespace Value

mutual

/-- The form without blanks. -/
def compact : Value → List Char
  | null => "null".toList
  | bool true => "true".toList
  | bool false => "false".toList
  | number value => value.written
  | string literal => quoteLiteral literal
  | array [] => "[]".toList
  | array (first :: others) => '[' :: compact first ++ compactElements others
  | object [] => "\x7b\x7d".toList
  | object (first :: others) => '{' :: compactMember first ++ compactMembers others

/-- The elements behind the first, and the closing bracket. -/
def compactElements : List Value → List Char
  | [] => [']']
  | first :: others => ',' :: compact first ++ compactElements others

def compactMember : Literal × Value → List Char
  | (name, value) => quoteLiteral name ++ ':' :: compact value

/-- The members behind the first, and the closing brace. -/
def compactMembers : List (Literal × Value) → List Char
  | [] => ['}']
  | first :: others => ',' :: compactMember first ++ compactMembers others

end

/-- A line break and the indentation of `level`. -/
def lineBreak (level : Nat) : List Char :=
  '\n' :: List.replicate (2 * level) ' '

mutual

/-- The form with one element or member a line, inside `level` brackets. -/
def indented (level : Nat) : Value → List Char
  | null => "null".toList
  | bool true => "true".toList
  | bool false => "false".toList
  | number value => value.written
  | string literal => quoteLiteral literal
  | array [] => "[]".toList
  | array (first :: others) =>
      '[' :: lineBreak (level + 1) ++ indented (level + 1) first ++ indentedElements level others
  | object [] => "\x7b\x7d".toList
  | object (first :: others) =>
      '{' :: lineBreak (level + 1) ++ indentedMember (level + 1) first ++
        indentedMembers level others

/-- The elements behind the first, and the closing bracket. -/
def indentedElements (level : Nat) : List Value → List Char
  | [] => lineBreak level ++ [']']
  | first :: others =>
      ',' :: lineBreak (level + 1) ++ indented (level + 1) first ++ indentedElements level others

def indentedMember (level : Nat) : Literal × Value → List Char
  | (name, value) => quoteLiteral name ++ ':' :: ' ' :: indented level value

/-- The members behind the first, and the closing brace. -/
def indentedMembers (level : Nat) : List (Literal × Value) → List Char
  | [] => lineBreak level ++ ['}']
  | first :: others =>
      ',' :: lineBreak (level + 1) ++ indentedMember (level + 1) first ++
        indentedMembers level others

end

/-- The compact text. -/
def render (value : Value) : String :=
  String.ofList value.compact

/-- The indented text, without a line break at its end. -/
def renderIndented (value : Value) : String :=
  String.ofList (value.indented 0)

end Value

end MainLocator.Json
