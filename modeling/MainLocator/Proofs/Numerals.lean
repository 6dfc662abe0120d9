import Mathlib.Data.List.Basic
import MainLocator.Text.Numeral

/-!
# Numerals are read back

A numeral of base ten or sixteen denotes one number only. Neither base has an end of its own: what
follows a numeral must not begin with a character that could be one more digit.
-/

namespace MainLocator.Numeral

/-! ## Base ten -/

theorem toList_decimal (number : Nat) :
    (decimal number).toList = Nat.toDigits 10 number := by
  rw [decimal, String.toList_ofList]

theorem ofDigits_toDigits (number : Nat) :
    ofDigits (Nat.toDigits 10 number) = number := by
  rw [ofDigits, ← Nat.ofDigitChars_eq_foldl, Nat.ofDigitChars_ten_toDigits]

theorem isDigit_of_mem_toDigits
    {number : Nat} {digit : Char} (member : digit ∈ Nat.toDigits 10 number) :
    digit.isDigit = true :=
  Nat.isDigit_of_mem_toDigits (by decide) (by decide) member

theorem exists_cons_decimal (number : Nat) :
    ∃ first others, (decimal number).toList = first :: others ∧ first.isDigit = true := by
  obtain ⟨first, others, digits⟩ :=
    List.exists_cons_of_ne_nil (Nat.toDigits_ne_nil (n := number) (b := 10))
  refine ⟨first, others, (toList_decimal number).trans digits, ?_⟩
  have isMember : first ∈ Nat.toDigits 10 number := by
    rw [digits]
    exact List.mem_cons_self
  exact isDigit_of_mem_toDigits isMember

theorem digitChar_ne_zero :
    ∀ number < 10, 0 < number → Nat.digitChar number ≠ '0' := by
  decide

/-- Only the numeral of zero starts with the digit zero. -/
theorem head?_toDigits_ne_zero {number : Nat} (positive : 0 < number) :
    (Nat.toDigits 10 number).head? ≠ some '0' := by
  induction number using Nat.strongRecOn with
  | ind number inductionHypothesis =>
      by_cases small : number < 10
      · rw [Nat.toDigits_of_lt_base small, List.head?_cons, ne_eq, Option.some.injEq]
        exact digitChar_ne_zero number small positive
      · have shorter := inductionHypothesis (number / 10) (by omega) (by omega)
        rwa [Nat.toDigits_of_base_le (by decide) (by omega),
          List.head?_append_of_ne_nil _ Nat.toDigits_ne_nil]

theorem toDigits_ten_injective : Function.Injective (Nat.toDigits 10) :=
  Function.LeftInverse.injective ofDigits_toDigits

/-! ## Base sixteen -/

theorem ofHexDigit?_digitChar :
    ∀ number < 16, ofHexDigit? (Nat.digitChar number) = some number := by
  decide

theorem isAlphanum_digitChar :
    ∀ number < 16, (Nat.digitChar number).isAlphanum = true := by
  decide

theorem isAlphanum_of_mem_toDigits
    {number : Nat} {digit : Char} (member : digit ∈ Nat.toDigits 16 number) :
    digit.isAlphanum = true := by
  induction number using Nat.strongRecOn with
  | ind number inductionHypothesis =>
      by_cases small : number < 16
      · rw [Nat.toDigits_of_lt_base small, List.mem_singleton] at member
        rw [member]
        exact isAlphanum_digitChar number small
      · rw [Nat.toDigits_of_base_le (by decide) (by omega), List.mem_append,
          List.mem_singleton] at member
        rcases member with inFront | rfl
        · exact inductionHypothesis (number / 16) (by omega) inFront
        · exact isAlphanum_digitChar (number % 16) (by omega)

theorem foldlM_toDigits (number : Nat) :
    (Nat.toDigits 16 number).foldlM
      (fun number digit => (16 * number + ·) <$> ofHexDigit? digit) 0 = some number := by
  induction number using Nat.strongRecOn with
  | ind number inductionHypothesis =>
      by_cases small : number < 16
      · rw [Nat.toDigits_of_lt_base small]
        simp [ofHexDigit?_digitChar number small]
      · have front := inductionHypothesis (number / 16) (by omega)
        have last := ofHexDigit?_digitChar (number % 16) (by omega)
        rw [Nat.toDigits_of_base_le (by decide) (by omega), List.foldlM_append, front]
        simp [last, Nat.div_add_mod]

theorem ofHexDigits?_toDigits (number : Nat) :
    ofHexDigits? (Nat.toDigits 16 number) = some number := by
  have nonempty : (Nat.toDigits 16 number).isEmpty = false := by
    simp [Nat.toDigits_ne_nil]
  rw [ofHexDigits?, nonempty]
  exact foldlM_toDigits number

theorem toDigits_sixteen_injective : Function.Injective (Nat.toDigits 16) := by
  intro left right same
  apply Option.some.inj
  rw [← ofHexDigits?_toDigits, same, ofHexDigits?_toDigits]

/-! ## Ends of numerals -/

/-- A run of characters of one kind, in front of `rest`, ends there. -/
def EndsRun (isPart : Char → Bool) (rest : List Char) : Prop :=
  ∀ character ∈ rest.head?, isPart character = false

theorem takeWhile_append_of_endsRun
    {isPart : Char → Bool} {run rest : List Char}
    (areParts : ∀ character ∈ run, isPart character = true) (ends : EndsRun isPart rest) :
    (run ++ rest).takeWhile isPart = run := by
  rw [List.takeWhile_append_of_pos areParts]
  cases rest with
  | nil =>
      simp
  | cons first others =>
      rw [List.takeWhile_cons_of_neg (by simp [ends first rfl]), List.append_nil]

end MainLocator.Numeral
