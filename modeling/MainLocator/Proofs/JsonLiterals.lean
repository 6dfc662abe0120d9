import Mathlib.Data.Option.Basic
import MainLocator.Json.Printer
import MainLocator.Json.Reader
import MainLocator.Proofs.Numerals

/-!
# Literals are read back

Numbers and strings are read back from their written forms, whatever follows them; behind a number
there must be nothing that would continue it. A character of a string has one of three spellings,
each of which is read as one piece that stands for the character.
-/

namespace MainLocator

open Numeral (exists_cons_decimal ofDigits_toDigits)

namespace Json

/-! ## Numbers -/

/-- A run of digits in front of `rest` ends there. -/
def EndsDigits (rest : List Char) : Prop :=
  ∀ character ∈ rest.head?, character.isDigit = false

/-- A number in front of `rest` ends there. -/
structure EndsNumber (rest : List Char) : Prop where
  digits : EndsDigits rest
  fraction : rest.head? ≠ some '.'
  exponent : rest.head? ≠ some 'e' ∧ rest.head? ≠ some 'E'

/-- The character can be the first of a written number. -/
def StartsNumber (first : Char) : Prop :=
  first = '-' ∨ first.isDigit = true

theorem ne_of_isDigit
    {digit other : Char} (isDigit : digit.isDigit = true) (notDigit : other.isDigit = false) :
    digit ≠ other := by
  rintro rfl
  rw [isDigit] at notDigit
  cases notDigit

theorem endsNumber_nil : EndsNumber [] where
  digits _ member := by cases member
  fraction := by simp
  exponent := by simp

theorem endsNumber_cons
    {first : Char} (others : List Char)
    (ends : first.isDigit = false ∧ first ≠ '.' ∧ first ≠ 'e' ∧ first ≠ 'E') :
    EndsNumber (first :: others) where
  digits := by
    rintro _ ⟨⟩
    exact ends.1
  fraction := by simp [ends]
  exponent := by simp [ends]

theorem readDigits?_append
    {digits rest : List Char}
    (nonempty : digits ≠ []) (areDigits : ∀ digit ∈ digits, digit.isDigit = true)
    (ends : EndsDigits rest) :
    readDigits? (digits ++ rest) = some (digits, rest) := by
  have stops : rest.takeWhile Char.isDigit = [] ∧ rest.dropWhile Char.isDigit = rest := by
    cases rest with
    | nil =>
        exact ⟨rfl, rfl⟩
    | cons first others =>
        have notDigit := ends first rfl
        simp [notDigit]
  simp [readDigits?, List.takeWhile_append_of_pos areDigits,
    List.dropWhile_append_of_pos areDigits, stops, nonempty]

theorem readDigits?_decimal
    (number : Nat) {rest : List Char} (ends : EndsDigits rest) :
    readDigits? ((Numeral.decimal number).toList ++ rest) =
      some (Nat.toDigits 10 number, rest) := by
  rw [Numeral.toList_decimal]
  exact readDigits?_append Nat.toDigits_ne_nil (fun _ => Numeral.isDigit_of_mem_toDigits) ends

theorem readWhole?_decimal
    (number : Nat) {rest : List Char} (ends : EndsDigits rest) :
    readWhole? ((Numeral.decimal number).toList ++ rest) =
      some (Nat.toDigits 10 number, rest) := by
  have canonical :
      (Nat.toDigits 10 number).head? ≠ some '0' ∨ Nat.toDigits 10 number = ['0'] := by
    rcases Nat.eq_zero_or_pos number with rfl | positive
    · exact .inr (Nat.toDigits_zero 10)
    · exact .inl (Numeral.head?_toDigits_ne_zero positive)
  rw [readWhole?, readDigits?_decimal number ends, Option.bind_eq_bind, Option.bind_some]
  dsimp only
  rw [guard, if_pos canonical]
  rfl

theorem readFraction?_of_absent
    {rest : List Char} (absent : rest.head? ≠ some '.') :
    readFraction? rest = some (none, rest) := by
  unfold readFraction?
  split
  · exact absurd rfl absent
  · rfl

theorem readExponent?_of_absent
    {rest : List Char} (absent : rest.head? ≠ some 'e' ∧ rest.head? ≠ some 'E') :
    readExponent? rest = some (none, rest) := by
  cases rest with
  | nil =>
      rfl
  | cons first others =>
      rw [List.head?_cons, ne_eq, ne_eq, Option.some.injEq, Option.some.injEq] at absent
      simp [readExponent?, absent]

theorem readExponent?_written
    (exponent : Int) {rest : List Char} (ends : EndsDigits rest) :
    readExponent?
        ('e' :: (sign (exponent < 0) ++ ((Numeral.decimal exponent.natAbs).toList ++ rest))) =
      some (some exponent, rest) := by
  have digits := readDigits?_decimal exponent.natAbs ends
  by_cases negative : exponent < 0
  · have value : -(exponent.natAbs : Int) = exponent := by
      omega
    simp only [readExponent?, sign, negative, decide_true, true_or, if_true, List.cons_append,
      List.nil_append, digits, ofDigits_toDigits, Option.bind_eq_bind, Option.bind_some, value,
      Option.pure_def]
  · obtain ⟨first, others, decimal, isDigit⟩ := exists_cons_decimal exponent.natAbs
    have notMinus : first ≠ '-' := ne_of_isDigit isDigit rfl
    have notPlus : first ≠ '+' := ne_of_isDigit isDigit rfl
    rw [decimal, List.cons_append] at digits
    have value : (exponent.natAbs : Int) = exponent := by
      omega
    simp only [readExponent?, sign, negative, decide_false, Bool.false_eq_true, true_or, if_true,
      if_false, List.nil_append, List.cons_append, decimal, List.cons.injEq, notMinus, notPlus,
      false_and, imp_self, implies_true, digits, ofDigits_toDigits, Option.bind_eq_bind,
      Option.bind_some, value, Option.pure_def]

theorem readNumber?_written
    (number : Number) {rest : List Char} (ends : EndsNumber rest) :
    readNumber? (number.written ++ rest) = some (number, rest) := by
  cases number with
  | integer negative magnitude =>
      have whole := readWhole?_decimal magnitude ends.digits
      have fraction := readFraction?_of_absent ends.fraction
      have exponent := readExponent?_of_absent ends.exponent
      obtain ⟨first, others, decimal, isDigit⟩ := exists_cons_decimal magnitude
      have notMinus : first ≠ '-' := ne_of_isDigit isDigit rfl
      have text :
          (Number.integer negative magnitude).written ++ rest =
            sign negative ++ first :: (others ++ rest) := by
        simp [Number.written, decimal]
      rw [decimal, List.cons_append] at whole
      rw [text]
      cases negative with
      | true => simp [readNumber?, sign, whole, fraction, exponent, ofDigits_toDigits]
      | false => simp [readNumber?, sign, notMinus, whole, fraction, exponent, ofDigits_toDigits]
  | scaled negative coefficient power =>
      have exponent := readExponent?_written power ends.digits
      generalize behind :
        sign (power < 0) ++ ((Numeral.decimal power.natAbs).toList ++ rest) = powerText
        at exponent
      have fraction : readFraction? ('e' :: powerText) = some (none, 'e' :: powerText) :=
        readFraction?_of_absent (by simp)
      have endsDigits : EndsDigits ('e' :: powerText) := by
        rintro _ ⟨⟩
        rfl
      have whole := readWhole?_decimal coefficient endsDigits
      obtain ⟨first, others, decimal, isDigit⟩ := exists_cons_decimal coefficient
      have notMinus : first ≠ '-' := ne_of_isDigit isDigit rfl
      have text :
          (Number.scaled negative coefficient power).written ++ rest =
            sign negative ++ first :: (others ++ 'e' :: powerText) := by
        simp [Number.written, decimal, ← behind]
      rw [decimal, List.cons_append] at whole
      rw [text]
      cases negative with
      | true => simp [readNumber?, sign, whole, fraction, exponent, ofDigits_toDigits]
      | false => simp [readNumber?, sign, notMinus, whole, fraction, exponent, ofDigits_toDigits]

theorem exists_cons_numberWritten (number : Number) :
    ∃ first others, number.written = first :: others ∧ StartsNumber first := by
  have signed (negative : Bool) (magnitude : Nat) (rest : List Char) :
      ∃ first others,
        sign negative ++ (Numeral.decimal magnitude).toList ++ rest = first :: others ∧
          StartsNumber first := by
    cases negative with
    | true =>
        exact ⟨'-', _, rfl, .inl rfl⟩
    | false =>
        obtain ⟨first, others, decimal, isDigit⟩ := exists_cons_decimal magnitude
        refine ⟨first, others ++ rest, ?_, .inr isDigit⟩
        simp [sign, decimal]
  cases number with
  | integer negative magnitude =>
      simpa [Number.written] using signed negative magnitude []
  | scaled negative coefficient exponent =>
      simpa [Number.written] using signed negative coefficient _

/-! ## Strings -/

theorem ofHexDigit?_hexDigit :
    ∀ number < 16, Numeral.ofHexDigit? (hexDigit number) = some number :=
  Numeral.ofHexDigit?_digitChar

theorem ofHexDigits?_of_lt {code : Nat} (control : code < 32) :
    Numeral.ofHexDigits? ['0', '0', hexDigit (code / 16), hexDigit (code % 16)] = some code := by
  have zero : Numeral.ofHexDigit? '0' = some 0 := rfl
  have high := ofHexDigit?_hexDigit (code / 16) (by omega)
  have low := ofHexDigit?_hexDigit (code % 16) (by omega)
  simp [Numeral.ofHexDigits?, zero, high, low]
  omega

/-- How a character can be spelled inside a string literal. -/
inductive Spells (character : Char) : List Char → Prop where
  | letter (letter : Char) :
      letter ≠ 'u' →
      ofEscape? letter = some character →
      Spells character ['\\', letter]
  | code :
      character < ' ' →
      Spells character
        ['\\', 'u', '0', '0', hexDigit (character.toNat / 16), hexDigit (character.toNat % 16)]
  | plain :
      character ≠ '"' →
      character ≠ '\\' →
      ' ' ≤ character →
      Spells character [character]

theorem spells_escape (character : Char) :
    Spells character (escape character) := by
  by_cases named : character ∈ ['"', '\\', '\x08', '\t', '\n', '\x0c', '\r']
  · simp only [List.mem_cons, List.not_mem_nil, or_false] at named
    rcases named with rfl | rfl | rfl | rfl | rfl | rfl | rfl
    all_goals exact .letter _ (by decide) rfl
  · simp only [List.mem_cons, List.not_mem_nil, or_false, not_or] at named
    obtain ⟨notQuote, notBackslash, others⟩ := named
    by_cases control : character < ' '
    · simpa [escape, notQuote, notBackslash, others, control] using Spells.code control
    · have visible : ' ' ≤ character := Char.not_lt.mp control
      simpa [escape, notQuote, notBackslash, others, control] using
        Spells.plain notQuote notBackslash visible

/-- The pieces that stand for a character in a written string. -/
inductive Piece.Denotes : Piece → Char → Prop where
  | character (value : Char) :
      Denotes (.character value) value
  | unit {value : Char} :
      value < ' ' →
      Denotes (.unit value.toNat) value

theorem exists_readPieces?_append
    {character : Char} {spelling : List Char} (spells : Spells character spelling) :
    ∃ piece : Piece,
      piece.Denotes character ∧
        ∀ rest, readPieces? (spelling ++ rest) =
          (readPieces? rest).map fun found => (piece :: found.1, found.2) := by
  cases spells with
  | letter letter notUnit stands =>
      refine ⟨.character character, .character character, fun rest => ?_⟩
      rw [List.cons_append, List.cons_append, List.nil_append, readPieces?, stands]
      · cases readPieces? rest with
        | none => rfl
        | some found => rfl
      · intro _ _ _ _ _ isUnit
        exact absurd isUnit notUnit
  | code control =>
      have below : character.toNat < 32 := control
      refine ⟨.unit character.toNat, .unit control, fun rest => ?_⟩
      simp only [List.cons_append, List.nil_append, readPieces?, ofHexDigits?_of_lt below]
      cases readPieces? rest with
      | none => rfl
      | some found => rfl
  | plain notQuote notBackslash visible =>
      refine ⟨.character character, .character character, fun rest => ?_⟩
      rw [List.cons_append, List.nil_append, readPieces?]
      · rw [guard, if_pos ⟨notBackslash, visible⟩]
        cases readPieces? rest with
        | none => rfl
        | some found => rfl
      -- The other equations of the reader are for a quote and for a backslash in front.
      · exact notQuote
      · intro _ _ _ _ _ isBackslash
        exact absurd isBackslash notBackslash
      · intro _ _ isBackslash
        exact absurd isBackslash notBackslash

theorem joinPieces?_cons
    {piece : Piece} {character : Char} (denotes : piece.Denotes character) (rest : List Piece) :
    joinPieces? (piece :: rest) = (character :: ·) <$> joinPieces? rest := by
  cases denotes with
  | character =>
      rfl
  | unit control =>
      have below : character.toNat < 32 := control
      have notLeading : isLeadingSurrogate character.toNat = false := by
        simp only [isLeadingSurrogate, decide_eq_false_iff_not]
        omega
      have notTrailing : isTrailingSurrogate character.toNat = false := by
        simp only [isTrailingSurrogate, decide_eq_false_iff_not]
        omega
      cases rest with
      | nil =>
          simp [joinPieces?, notLeading, notTrailing, Char.ofNat_toNat]
      | cons first others =>
          cases first with
          | character => simp [joinPieces?, notLeading, notTrailing]
          | unit => simp [joinPieces?, notLeading, notTrailing]

/-- The pieces of a written string join to its text. -/
theorem exists_readPieces?_flatMap_escape (content rest : List Char) :
    ∃ pieces,
      readPieces? (content.flatMap escape ++ '"' :: rest) = some (pieces, rest) ∧
        joinPieces? pieces = some content := by
  induction content with
  | nil =>
      exact ⟨[], by simp [readPieces?], rfl⟩
  | cons first others inductionHypothesis =>
      obtain ⟨pieces, found, joined⟩ := inductionHypothesis
      obtain ⟨piece, denotes, reads⟩ := exists_readPieces?_append (spells_escape first)
      refine ⟨piece :: pieces, ?_, ?_⟩
      · rw [List.flatMap_cons, List.append_assoc, reads, found]
        rfl
      · rw [joinPieces?_cons denotes, joined]
        rfl

/-- What is written for a literal without text is read as one. -/
theorem readLiteral?_unpaired (rest : List Char) :
    readLiteral? ('\\' :: 'u' :: 'd' :: '8' :: '0' :: '0' :: '"' :: rest) = some (none, rest) := by
  have code : Numeral.ofHexDigits? ['d', '8', '0', '0'] = some 0xd800 := by
    decide
  have unpaired : joinPieces? [.unit 0xd800] = none := by
    decide
  have pieces :
      readPieces? ('\\' :: 'u' :: 'd' :: '8' :: '0' :: '0' :: '"' :: rest) =
        some ([.unit 0xd800], rest) := by
    rw [readPieces?, code, readPieces?]
    rfl
  rw [readLiteral?, pieces]
  change some (String.ofList <$> joinPieces? [.unit 0xd800], rest) = _
  rw [unpaired]
  rfl

theorem exists_readLiteral?_quoteLiteral (literal : Literal) (rest : List Char) :
    ∃ spelling,
      quoteLiteral literal ++ rest = '"' :: spelling ∧
        readLiteral? spelling = some (literal, rest) := by
  cases literal with
  | none =>
      exact ⟨_, rfl, readLiteral?_unpaired rest⟩
  | some content =>
      obtain ⟨pieces, found, joined⟩ := exists_readPieces?_flatMap_escape content.toList rest
      refine ⟨content.toList.flatMap escape ++ '"' :: rest, ?_, ?_⟩
      · change quote content ++ rest = _
        simp [quote]
      · rw [readLiteral?, found]
        change some (String.ofList <$> joinPieces? pieces, rest) = _
        rw [joined, Option.map_eq_map, Option.map_some, String.ofList_toList]

end Json

end MainLocator
