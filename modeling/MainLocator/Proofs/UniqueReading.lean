import MainLocator.Code.Instruction
import MainLocator.Proofs.Numerals

/-!
# Texts are read in one way

The text of an expression stands for no other expression, and the text of an operation for no other
operation. A whole register read begins like a read of a part of it, and a numeral like a longer
one, so of expressions it is shown that none continues another, where what follows does not begin
with a character that could belong to the text. That carries through sums, lists and lines.
-/

namespace MainLocator

open Numeral (EndsRun)

section Forms

variable {α : Type} (write : α → List Char) (isPart : Char → Bool)

/-- In front of what cannot continue it, the text of the value is no text of another, and ends at
one place. -/
def IsReadAs (value : α) : Prop :=
  ∀ ⦃other : α⦄ ⦃rest otherRest : List Char⦄,
    EndsRun isPart rest → EndsRun isPart otherRest →
      write value ++ rest = write other ++ otherRest → value = other ∧ rest = otherRest

def ReadsUniquely : Prop :=
  ∀ value, IsReadAs write isPart value

variable {write isPart}

theorem endsRun_nil : EndsRun isPart [] :=
  nofun

theorem endsRun_cons
    {first : Char} (notPart : isPart first = false) (others : List Char) :
    EndsRun isPart (first :: others) := by
  rintro _ ⟨⟩
  exact notPart

/-- Two texts that characters behind them end are told apart by themselves. -/
theorem IsReadAs.in_front
    {value other : α} (reads : IsReadAs write isPart value)
    {first otherFirst : Char} {rest otherRest : List Char}
    (notPart : isPart first = false) (otherNotPart : isPart otherFirst = false)
    (same : write value ++ first :: rest = write other ++ otherFirst :: otherRest) :
    value = other ∧ first = otherFirst ∧ rest = otherRest := by
  obtain ⟨sameValue, sameRest⟩ :=
    reads (endsRun_cons notPart rest) (endsRun_cons otherNotPart otherRest) same
  exact ⟨sameValue, List.cons.inj sameRest⟩

theorem ReadsUniquely.injective (reads : ReadsUniquely write isPart) :
    Function.Injective write := by
  intro left right same
  refine (reads left endsRun_nil endsRun_nil ?_).1
  rw [same]

/-- A form whose texts consist of characters of one kind ends with the last of them. -/
theorem readsUniquely_of_injective
    (injective : Function.Injective write)
    (areParts : ∀ value, ∀ character ∈ write value, isPart character = true) :
    ReadsUniquely write isPart := by
  intro value other rest otherRest ends otherEnds same
  have sameText : write value = write other :=
    calc
      write value = (write value ++ rest).takeWhile isPart :=
        (Numeral.takeWhile_append_of_endsRun (areParts value) ends).symm
      _ = (write other ++ otherRest).takeWhile isPart := by rw [same]
      _ = write other := Numeral.takeWhile_append_of_endsRun (areParts other) otherEnds
  refine ⟨injective sameText, ?_⟩
  rw [sameText] at same
  exact List.append_cancel_left same

end Forms

/-! ## Numbers and registers -/

theorem readsUniquely_decimal : ReadsUniquely (Nat.toDigits 10) Char.isDigit :=
  readsUniquely_of_injective Numeral.toDigits_ten_injective fun _ _ =>
    Numeral.isDigit_of_mem_toDigits

theorem readsUniquely_hexadecimal : ReadsUniquely (Nat.toDigits 16) Char.isAlphanum :=
  readsUniquely_of_injective Numeral.toDigits_sixteen_injective fun _ _ =>
    Numeral.isAlphanum_of_mem_toDigits

theorem Word.toList_text (word : Word) :
    (Word.text word).toList = '0' :: 'x' :: Nat.toDigits 16 word.toNat := by
  simp [Word.text, Numeral.hexadecimal, Numeral.bareHexadecimal]

theorem Word.readsUniquely :
    ReadsUniquely (fun word => (Word.text word).toList) Char.isAlphanum := by
  intro word other rest otherRest ends otherEnds same
  simp only [Word.toList_text, List.cons_append, List.cons.injEq, true_and] at same
  obtain ⟨sameNumber, sameRest⟩ := readsUniquely_hexadecimal _ ends otherEnds same
  exact ⟨UInt64.toNat_inj.mp sameNumber, sameRest⟩

theorem Register.toList_text (register : Register) :
    register.text.toList = 'r' :: Nat.toDigits 10 register.number.toNat := by
  simp [Register.text, Numeral.toList_decimal]

theorem Register.readsUniquely :
    ReadsUniquely (fun register : Register => register.text.toList) Char.isDigit := by
  intro register other rest otherRest ends otherEnds same
  simp only [Register.toList_text, List.cons_append, List.cons.injEq, true_and] at same
  obtain ⟨sameNumber, sameRest⟩ := readsUniquely_decimal _ ends otherEnds same
  exact ⟨congrArg Register.mk (UInt32.toNat_inj.mp sameNumber), sameRest⟩

namespace RegisterVersion

theorem toList_text (value : RegisterVersion) :
    value.text.toList =
      value.register.text.toList ++ '#' :: Nat.toDigits 10 value.version.toNat := by
  simp [text, Numeral.toList_decimal]

theorem readsUniquely :
    ReadsUniquely (fun value : RegisterVersion => value.text.toList) Char.isDigit := by
  intro value other rest otherRest ends otherEnds same
  obtain ⟨register, version⟩ := value
  obtain ⟨otherRegister, otherVersion⟩ := other
  simp only [toList_text, List.append_assoc, List.cons_append] at same
  obtain ⟨rfl, _, sameTail⟩ := (Register.readsUniquely register).in_front rfl rfl same
  obtain ⟨sameNumber, sameRest⟩ := readsUniquely_decimal _ ends otherEnds sameTail
  obtain rfl := UInt32.toNat_inj.mp sameNumber
  exact ⟨rfl, sameRest⟩

/-- The text begins with the letter of a register and a digit. -/
theorem exists_cons_text (value : RegisterVersion) :
    ∃ digit others, value.text.toList = 'r' :: digit :: others ∧ digit.isDigit = true := by
  obtain ⟨digit, others, digits, isDigit⟩ :=
    Numeral.exists_cons_decimal value.register.number.toNat
  rw [Numeral.toList_decimal] at digits
  rw [toList_text, Register.toList_text, digits]
  exact ⟨digit, _, rfl, isDigit⟩

end RegisterVersion

/-! ## Expressions -/

namespace Expression

/-- The character can continue the text of an expression: a numeral, or a register of which only a
part is read. -/
def isPart (character : Char) : Bool :=
  character.isAlphanum || character = '.'

/-- The text of the expression is no text of another. -/
abbrev IsRead (expression : Expression) : Prop :=
  IsReadAs (fun expression : Expression => expression.text.toList) isPart expression

/-- The first character of the text. -/
def lead : Expression → Char
  | const _ => '0'
  | pointer _ => '&'
  | register _ | partialRegister _ _ => 'r'
  | zeroExtend _ => 'z'
  | signExtend _ => 's'
  | load _ => '['
  | add _ _ | subtract _ _ => '('
  | undefined => 'u'

section Written

variable (operand left right : Expression)

theorem toList_text_pointer (value : Word) :
    (pointer value).text.toList = '&' :: (Word.text value).toList := by
  simp [text]

theorem toList_text_partialRegister (whole : RegisterVersion) (part : Register) :
    (partialRegister whole part).text.toList = whole.text.toList ++ '.' :: part.text.toList := by
  simp [text]

theorem toList_text_zeroExtend :
    (zeroExtend operand).text.toList = 'z' :: 'x' :: '(' :: operand.text.toList ++ [')'] := by
  simp [text]

theorem toList_text_signExtend :
    (signExtend operand).text.toList = 's' :: 'x' :: '(' :: operand.text.toList ++ [')'] := by
  simp [text]

theorem toList_text_load :
    (load operand).text.toList = '[' :: operand.text.toList ++ [']'] := by
  simp [text]

theorem toList_text_add :
    (add left right).text.toList =
      '(' :: left.text.toList ++ ' ' :: '+' :: ' ' :: right.text.toList ++ [')'] := by
  simp [text]

theorem toList_text_subtract :
    (subtract left right).text.toList =
      '(' :: left.text.toList ++ ' ' :: '-' :: ' ' :: right.text.toList ++ [')'] := by
  simp [text]

end Written

theorem exists_cons_text (expression : Expression) :
    ∃ others, expression.text.toList = expression.lead :: others := by
  cases expression with
  | const value =>
      exact ⟨_, Word.toList_text value⟩
  | pointer value =>
      exact ⟨_, toList_text_pointer value⟩
  | register source =>
      obtain ⟨digit, others, written, _⟩ := source.exists_cons_text
      exact ⟨_, written⟩
  | partialRegister whole part =>
      obtain ⟨digit, others, written, _⟩ := whole.exists_cons_text
      rw [toList_text_partialRegister, written]
      exact ⟨_, rfl⟩
  | zeroExtend operand =>
      exact ⟨_, toList_text_zeroExtend operand⟩
  | signExtend operand =>
      exact ⟨_, toList_text_signExtend operand⟩
  | load address =>
      exact ⟨_, toList_text_load address⟩
  | add left right =>
      exact ⟨_, toList_text_add left right⟩
  | subtract left right =>
      exact ⟨_, toList_text_subtract left right⟩
  | undefined =>
      exact ⟨"ndefined".toList, by simp [text, lead]⟩

section Readings

variable {left right : Expression} {rest otherRest : List Char}

theorem lead_eq_of_append_eq
    (same : left.text.toList ++ rest = right.text.toList ++ otherRest) :
    left.lead = right.lead := by
  obtain ⟨leftOthers, leftWritten⟩ := left.exists_cons_text
  obtain ⟨rightOthers, rightWritten⟩ := right.exists_cons_text
  rw [leftWritten, rightWritten] at same
  exact (List.cons.inj same).1

theorem isAlphanum_endsRun (ends : EndsRun isPart rest) :
    EndsRun Char.isAlphanum rest := by
  intro character isFirst
  exact (Bool.or_eq_false_iff.mp (ends character isFirst)).1

theorem isDigit_endsRun (ends : EndsRun isPart rest) :
    EndsRun Char.isDigit rest := by
  intro character isFirst
  exact (Bool.or_eq_false_iff.mp (isAlphanum_endsRun ends character isFirst)).2

theorem isRead_const (value : Word) : (const value).IsRead := by
  intro other rest otherRest ends otherEnds same
  have sameLead := lead_eq_of_append_eq same
  cases other with
  | const otherValue =>
      obtain ⟨rfl, sameRest⟩ :=
        Word.readsUniquely value (isAlphanum_endsRun ends) (isAlphanum_endsRun otherEnds) same
      exact ⟨rfl, sameRest⟩
  | _ => simp [lead] at sameLead

theorem isRead_pointer (value : Word) : (pointer value).IsRead := by
  intro other rest otherRest ends otherEnds same
  have sameLead := lead_eq_of_append_eq same
  cases other with
  | pointer otherValue =>
      simp only [toList_text_pointer, List.cons_append, List.cons.injEq, true_and] at same
      obtain ⟨rfl, sameRest⟩ :=
        Word.readsUniquely value (isAlphanum_endsRun ends) (isAlphanum_endsRun otherEnds) same
      exact ⟨rfl, sameRest⟩
  | _ => simp [lead] at sameLead

/-- A whole read is not the beginning of a read of a part: behind it there is no point. -/
theorem whole_ne_part
    {source whole : RegisterVersion} (ends : EndsRun isPart rest) :
    source.text.toList ++ rest ≠ whole.text.toList ++ '.' :: otherRest := by
  intro same
  obtain ⟨_, rfl⟩ :=
    RegisterVersion.readsUniquely source (isDigit_endsRun ends) (endsRun_cons rfl _) same
  exact absurd (ends '.' rfl) (by decide)

theorem isRead_register (source : RegisterVersion) : (register source).IsRead := by
  intro other rest otherRest ends otherEnds same
  have sameLead := lead_eq_of_append_eq same
  cases other with
  | register otherSource =>
      obtain ⟨rfl, sameRest⟩ :=
        RegisterVersion.readsUniquely source (isDigit_endsRun ends) (isDigit_endsRun otherEnds) same
      exact ⟨rfl, sameRest⟩
  | partialRegister whole part =>
      simp only [toList_text_partialRegister, List.append_assoc, List.cons_append] at same
      exact absurd same (whole_ne_part ends)
  | _ => simp [lead] at sameLead

theorem isRead_partialRegister (whole : RegisterVersion) (part : Register) :
    (partialRegister whole part).IsRead := by
  intro other rest otherRest ends otherEnds same
  have sameLead := lead_eq_of_append_eq same
  simp only [toList_text_partialRegister, List.append_assoc, List.cons_append] at same
  cases other with
  | register source =>
      exact absurd same.symm (whole_ne_part otherEnds)
  | partialRegister otherWhole otherPart =>
      simp only [toList_text_partialRegister, List.append_assoc, List.cons_append] at same
      obtain ⟨rfl, _, sameTail⟩ := (RegisterVersion.readsUniquely whole).in_front rfl rfl same
      obtain ⟨rfl, sameRest⟩ :=
        Register.readsUniquely part (isDigit_endsRun ends) (isDigit_endsRun otherEnds) sameTail
      exact ⟨rfl, sameRest⟩
  | _ => simp [lead] at sameLead

/-! ### Brackets -/

/-- The expressions of a kind hold a content between two brackets, and no others begin as they
do. -/
structure Encloses
    {α : Type} (write : α → List Char) (opening : List Char) (closing : Char)
    (enclose : α → Expression) : Prop where
  toList_text : ∀ content,
    (enclose content).text.toList = opening ++ write content ++ [closing]
  isPart_closing : isPart closing = false
  exists_of_lead_eq : ∀ content (other : Expression),
    (enclose content).lead = other.lead → ∃ otherContent, other = enclose otherContent

theorem Encloses.isRead
    {α : Type} {write : α → List Char} {opening : List Char} {closing : Char}
    {enclose : α → Expression} (encloses : Encloses write opening closing enclose)
    {content : α} (reads : IsReadAs write isPart content) :
    (enclose content).IsRead := by
  intro other rest otherRest ends otherEnds same
  obtain ⟨otherContent, rfl⟩ :=
    encloses.exists_of_lead_eq content other (lead_eq_of_append_eq same)
  simp only [encloses.toList_text, List.append_assoc, List.append_cancel_left_eq,
    List.cons_append, List.nil_append] at same
  obtain ⟨rfl, _, sameRest⟩ := reads.in_front encloses.isPart_closing encloses.isPart_closing same
  exact ⟨rfl, sameRest⟩

theorem encloses_zeroExtend :
    Encloses (fun operand => operand.text.toList) ['z', 'x', '('] ')' zeroExtend where
  toList_text := toList_text_zeroExtend
  isPart_closing := rfl
  exists_of_lead_eq _ other sameLead := by
    cases other with
    | zeroExtend operand => exact ⟨operand, rfl⟩
    | _ => simp [lead] at sameLead

theorem encloses_signExtend :
    Encloses (fun operand => operand.text.toList) ['s', 'x', '('] ')' signExtend where
  toList_text := toList_text_signExtend
  isPart_closing := rfl
  exists_of_lead_eq _ other sameLead := by
    cases other with
    | signExtend operand => exact ⟨operand, rfl⟩
    | _ => simp [lead] at sameLead

theorem encloses_load :
    Encloses (fun operand => operand.text.toList) ['['] ']' load where
  toList_text := toList_text_load
  isPart_closing := rfl
  exists_of_lead_eq _ other sameLead := by
    cases other with
    | load operand => exact ⟨operand, rfl⟩
    | _ => simp [lead] at sameLead

/-- What the brackets of a sum or a difference hold. -/
structure Operands where
  left : Expression
  isSum : Bool
  right : Expression

namespace Operands

def sign (operands : Operands) : Char :=
  if operands.isSum then '+' else '-'

theorem sign_eq_iff (operands other : Operands) :
    operands.sign = other.sign ↔ operands.isSum = other.isSum := by
  unfold sign
  cases operands.isSum <;> cases other.isSum <;> simp

def characters (operands : Operands) : List Char :=
  operands.left.text.toList ++ ' ' :: operands.sign :: ' ' :: operands.right.text.toList

def combined : Operands → Expression
  | ⟨left, true, right⟩ => add left right
  | ⟨left, false, right⟩ => subtract left right

theorem isReadAs
    (isSum : Bool) (leftReads : left.IsRead) (rightReads : right.IsRead) :
    IsReadAs characters isPart ⟨left, isSum, right⟩ := by
  intro other rest otherRest ends otherEnds same
  obtain ⟨otherLeft, otherIsSum, otherRight⟩ := other
  simp only [characters, List.append_assoc, List.cons_append] at same
  obtain ⟨rfl, _, sameTail⟩ := leftReads.in_front rfl rfl same
  obtain ⟨sameSign, sameSpaced⟩ := List.cons.inj sameTail
  obtain ⟨rfl, sameRest⟩ := rightReads ends otherEnds (List.cons.inj sameSpaced).2
  obtain rfl : isSum = otherIsSum := (sign_eq_iff _ _).mp sameSign
  exact ⟨rfl, sameRest⟩

theorem encloses_combined : Encloses characters ['('] ')' combined where
  toList_text operands := by
    obtain ⟨left, isSum, right⟩ := operands
    cases isSum with
    | true => simp [combined, characters, sign, toList_text_add]
    | false => simp [combined, characters, sign, toList_text_subtract]
  isPart_closing := rfl
  exists_of_lead_eq operands other sameLead := by
    have beginsWithBracket : '(' = other.lead := by
      obtain ⟨left, isSum, right⟩ := operands
      cases isSum with
      | true => exact sameLead
      | false => exact sameLead
    cases other with
    | add left right => exact ⟨⟨left, true, right⟩, rfl⟩
    | subtract left right => exact ⟨⟨left, false, right⟩, rfl⟩
    | _ => simp [lead] at beginsWithBracket

theorem isRead_combined
    (isSum : Bool) (leftReads : left.IsRead) (rightReads : right.IsRead) :
    (combined ⟨left, isSum, right⟩).IsRead :=
  encloses_combined.isRead (isReadAs isSum leftReads rightReads)

end Operands

theorem isRead_undefined : undefined.IsRead := by
  intro other rest otherRest ends otherEnds same
  have sameLead := lead_eq_of_append_eq same
  cases other with
  | undefined =>
      exact ⟨rfl, List.append_cancel_left same⟩
  | _ => simp [lead] at sameLead

end Readings

/-- No expression continues another: one that begins with the same character is of the same kind, or
differs further on. -/
theorem readsUniquely :
    ReadsUniquely (fun expression : Expression => expression.text.toList) isPart := by
  intro expression
  induction expression with
  | const value => exact isRead_const value
  | pointer value => exact isRead_pointer value
  | register source => exact isRead_register source
  | partialRegister whole part => exact isRead_partialRegister whole part
  | zeroExtend operand inductionHypothesis => exact encloses_zeroExtend.isRead inductionHypothesis
  | signExtend operand inductionHypothesis => exact encloses_signExtend.isRead inductionHypothesis
  | load address inductionHypothesis => exact encloses_load.isRead inductionHypothesis
  | add left right leftHypothesis rightHypothesis =>
      exact Operands.isRead_combined true leftHypothesis rightHypothesis
  | subtract left right leftHypothesis rightHypothesis =>
      exact Operands.isRead_combined false leftHypothesis rightHypothesis
  | undefined => exact isRead_undefined

end Expression

end MainLocator
