import MainLocator.Json.Value
import MainLocator.Text.Numeral

/-!
# Reading JSON

The strict grammar: four blanks, no comments, no trailing commas, no leading zeros, no raw control
characters in strings, and nothing but blanks behind the value. `readDocument?` reads a whole text;
the other readers take one thing from the front of a list of characters and return the rest.
-/

namespace MainLocator.Json

def isBlank (character : Char) : Bool :=
  character = ' ' ∨ character = '\t' ∨ character = '\n' ∨ character = '\r'

def skipBlanks (input : List Char) : List Char :=
  input.dropWhile isBlank

/-! ## Strings -/

/-- What one spelling inside a string literal stands for. -/
inductive Piece where
  | character (value : Char)
  /-- One 16-bit unit, from an escape with four base-sixteen digits. -/
  | unit (code : Nat)

/-- The character that a one-letter escape stands for. -/
def ofEscape? : Char → Option Char
  | '"' => some '"'
  | '\\' => some '\\'
  | '/' => some '/'
  | 'b' => some '\x08'
  | 'f' => some '\x0c'
  | 'n' => some '\n'
  | 'r' => some '\r'
  | 't' => some '\t'
  | _ => none

/-- The pieces up to the closing quote, and what follows it. -/
def readPieces? : List Char → Option (List Piece × List Char)
  | [] => none
  | '"' :: rest => some ([], rest)
  | '\\' :: 'u' :: first :: second :: third :: fourth :: rest => do
      let code ← Numeral.ofHexDigits? [first, second, third, fourth]
      let (pieces, rest) ← readPieces? rest
      return (.unit code :: pieces, rest)
  | '\\' :: letter :: rest => do
      let character ← ofEscape? letter
      let (pieces, rest) ← readPieces? rest
      return (.character character :: pieces, rest)
  | character :: rest => do
      guard (character ≠ '\\' ∧ ' ' ≤ character)
      let (pieces, rest) ← readPieces? rest
      return (.character character :: pieces, rest)

def isLeadingSurrogate (code : Nat) : Bool :=
  0xd800 ≤ code ∧ code < 0xdc00

def isTrailingSurrogate (code : Nat) : Bool :=
  0xdc00 ≤ code ∧ code < 0xe000

/-- The character that a surrogate pair stands for. -/
def ofSurrogates (leading trailing : Nat) : Char :=
  Char.ofNat (0x10000 + (leading - 0xd800) * 0x400 + (trailing - 0xdc00))

/-- Joins surrogate pairs. A surrogate without its partner spells no text. -/
def joinPieces? : List Piece → Option (List Char)
  | [] => some []
  | .character value :: rest => (value :: ·) <$> joinPieces? rest
  | .unit leading :: .unit trailing :: rest =>
      if isLeadingSurrogate leading then
        if isTrailingSurrogate trailing then
          (ofSurrogates leading trailing :: ·) <$> joinPieces? rest
        else none
      else if isTrailingSurrogate leading then none
      else (Char.ofNat leading :: ·) <$> joinPieces? (.unit trailing :: rest)
  | .unit code :: rest =>
      if isLeadingSurrogate code ∨ isTrailingSurrogate code then none
      else (Char.ofNat code :: ·) <$> joinPieces? rest

/-- Reads a string literal whose opening quote is already taken. -/
def readLiteral? (input : List Char) : Option (Literal × List Char) := do
  let (pieces, rest) ← readPieces? input
  return (String.ofList <$> joinPieces? pieces, rest)

/-! ## Numbers -/

/-- A nonempty run of digits. -/
def readDigits? (input : List Char) : Option (List Char × List Char) :=
  let digits := input.takeWhile Char.isDigit
  if digits.isEmpty then none else some (digits, input.dropWhile Char.isDigit)

/-- Digits without a leading zero, the number zero apart. -/
def readWhole? (input : List Char) : Option (List Char × List Char) := do
  let (digits, rest) ← readDigits? input
  guard (digits.head? ≠ some '0' ∨ digits = ['0'])
  return (digits, rest)

/-- The digits behind a decimal point, if there is one. -/
def readFraction? : List Char → Option (Option (List Char) × List Char)
  | '.' :: rest => do
      let (digits, rest) ← readDigits? rest
      return (some digits, rest)
  | input => some (none, input)

/-- The power of ten behind an `e` of either case, if there is one. -/
def readExponent? : List Char → Option (Option Int × List Char)
  | mark :: rest =>
      if mark = 'e' ∨ mark = 'E' then do
        let (negative, rest) := match rest with
          | '-' :: rest => (true, rest)
          | '+' :: rest => (false, rest)
          | rest => (false, rest)
        let (digits, rest) ← readDigits? rest
        let magnitude : Int := Numeral.ofDigits digits
        return (some (if negative then -magnitude else magnitude), rest)
      else some (none, mark :: rest)
  | [] => some (none, [])

def readNumber? (input : List Char) : Option (Number × List Char) := do
  let (negative, rest) := match input with
    | '-' :: rest => (true, rest)
    | rest => (false, rest)
  let (whole, rest) ← readWhole? rest
  let (fraction, rest) ← readFraction? rest
  let (exponent, rest) ← readExponent? rest
  match fraction, exponent with
  | none, none => return (.integer negative (Numeral.ofDigits whole), rest)
  | fraction, exponent =>
      let places := fraction.getD []
      return (.scaled negative (Numeral.ofDigits (whole ++ places))
        (exponent.getD 0 - places.length), rest)

/-! ## Values -/

mutual

/-- Reads a value after blanks. Every call of a reader spends one unit of `fuel`. -/
def readValue? : Nat → List Char → Option (Value × List Char)
  | 0, _ => none
  | fuel + 1, input =>
      match skipBlanks input with
      | 'n' :: 'u' :: 'l' :: 'l' :: rest => some (.null, rest)
      | 't' :: 'r' :: 'u' :: 'e' :: rest => some (.bool true, rest)
      | 'f' :: 'a' :: 'l' :: 's' :: 'e' :: rest => some (.bool false, rest)
      | '"' :: rest => do
          let (literal, rest) ← readLiteral? rest
          return (.string literal, rest)
      | '[' :: rest =>
          match skipBlanks rest with
          | ']' :: rest => some (.array [], rest)
          | rest => do
              let (first, rest) ← readValue? fuel rest
              let (others, rest) ← readElements? fuel rest
              return (.array (first :: others), rest)
      | '{' :: rest =>
          match skipBlanks rest with
          | '}' :: rest => some (.object [], rest)
          | rest => do
              let (first, rest) ← readMember? fuel rest
              let (others, rest) ← readMembers? fuel rest
              return (.object (first :: others), rest)
      | rest => do
          let (number, rest) ← readNumber? rest
          return (.number number, rest)

/-- Reads the elements behind one that is already taken, and the closing bracket. -/
def readElements? : Nat → List Char → Option (List Value × List Char)
  | 0, _ => none
  | fuel + 1, input =>
      match skipBlanks input with
      | ']' :: rest => some ([], rest)
      | ',' :: rest => do
          let (first, rest) ← readValue? fuel rest
          let (others, rest) ← readElements? fuel rest
          return (first :: others, rest)
      | _ => none

/-- Reads a name, a colon and a value. -/
def readMember? : Nat → List Char → Option ((Literal × Value) × List Char)
  | 0, _ => none
  | fuel + 1, input =>
      match skipBlanks input with
      | '"' :: rest => do
          let (name, rest) ← readLiteral? rest
          match skipBlanks rest with
          | ':' :: rest => do
              let (value, rest) ← readValue? fuel rest
              return ((name, value), rest)
          | _ => none
      | _ => none

/-- Reads the members behind one that is already taken, and the closing brace. -/
def readMembers? : Nat → List Char → Option (List (Literal × Value) × List Char)
  | 0, _ => none
  | fuel + 1, input =>
      match skipBlanks input with
      | '}' :: rest => some ([], rest)
      | ',' :: rest => do
          let (first, rest) ← readMember? fuel rest
          let (others, rest) ← readMembers? fuel rest
          return (first :: others, rest)
      | _ => none

end

/-- Reads a text that holds one value and blanks. One unit of fuel a character is enough, since
every reader takes a character before it calls another. -/
def readDocument? (text : String) : Option Value := do
  let characters := text.toList
  let (value, rest) ← readValue? (characters.length + 1) characters
  guard (skipBlanks rest).isEmpty
  return value

end MainLocator.Json
