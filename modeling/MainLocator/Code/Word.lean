import Std.Data.TreeSet
import MainLocator.Text.Numeral

/-!
# Words

Addresses and constants of the analysed code are 64-bit words, and their arithmetic wraps. Where
wrapping would be wrong, `Word.add?` refuses sums that do not fit.
-/

namespace MainLocator

abbrev Word := UInt64

namespace Word

def text (word : Word) : String :=
  Numeral.hexadecimal word.toNat

/-- The sum of two words, if it is a word. -/
def add? (left right : Word) : Option Word :=
  if left.toNat + right.toNat < UInt64.size then some (left + right) else none

/-- A checked sum is the sum of the numbers that the words stand for. -/
theorem add?_eq_some_iff
    (left right sum : Word) :
    add? left right = some sum ↔ sum.toNat = left.toNat + right.toNat := by
  have bound := sum.toNat_lt
  unfold add?
  split
  · rename_i fits
    have wholeSum : (left + right).toNat = left.toNat + right.toNat := by
      rw [UInt64.toNat_add]
      exact Nat.mod_eq_of_lt fits
    rw [Option.some.injEq, ← UInt64.toNat_inj, wholeSum]
    exact eq_comm
  · rename_i overflow
    simp only [UInt64.size] at overflow
    constructor
    · intro impossible
      exact absurd impossible (by simp)
    · intro equality
      omega

/-- The words of a list without repetitions, in ascending order. -/
def ascending (words : List Word) : List Word :=
  (Std.TreeSet.ofList words).toList

theorem mem_ascending_iff
    (words : List Word) (word : Word) :
    word ∈ ascending words ↔ word ∈ words := by
  simp only [ascending, Std.TreeSet.mem_toList, Std.TreeSet.mem_ofList, List.contains_iff_mem]

theorem pairwise_ascending
    (words : List Word) :
    (ascending words).Pairwise (· < ·) := by
  have ordered := (Std.TreeSet.ofList words).ordered_toList
  exact ordered.imp fun before => Std.compare_eq_lt.mp before

end Word

end MainLocator
