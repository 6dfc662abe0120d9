import Std.Data.TreeMap
import Std.Data.TreeSet
import MainLocator.Code.Word

/-!
# Registers and their versions

A register version is a register together with the number of one assignment to it. Versions are
ordered by register and then by number, which makes every table keyed by them deterministic.
-/

namespace MainLocator

/-- A physical register. Its number is chosen by whoever lifted the code and is only compared. -/
structure Register where
  number : UInt32
  deriving DecidableEq

namespace Register

def text (register : Register) : String :=
  "r" ++ Numeral.decimal register.number.toNat

/-! ## General purpose registers -/

def rax : Register := ⟨0⟩
def rcx : Register := ⟨1⟩
def rdx : Register := ⟨2⟩
def rbx : Register := ⟨3⟩
def rsp : Register := ⟨4⟩
def rbp : Register := ⟨5⟩
def rsi : Register := ⟨6⟩
def rdi : Register := ⟨7⟩
def r8 : Register := ⟨8⟩
def r9 : Register := ⟨9⟩
def r10 : Register := ⟨10⟩
def r11 : Register := ⟨11⟩

/-- The low half of `rax` is the same register. -/
abbrev eax : Register := rax

/-- The low half of `rcx` is the same register. -/
abbrev ecx : Register := rcx

/-- The low half of `rdx` is the same register. -/
abbrev edx : Register := rdx

/-- The 64-bit registers of x86, in numbering order. -/
def x86 : List Register :=
  [rax, rcx, rdx, rbx, rsp, rbp, rsi, rdi, r8, r9, r10, r11]

/-- The registers of 32-bit x86 that a calling convention names. -/
def x86Short : List Register :=
  [eax, ecx, edx]

/-- The eight argument registers `x0` to `x7` of AArch64. -/
def arm64 : List Register :=
  [⟨0⟩, ⟨1⟩, ⟨2⟩, ⟨3⟩, ⟨4⟩, ⟨5⟩, ⟨6⟩, ⟨7⟩]

end Register

/-- One assignment to a register. -/
structure RegisterVersion where
  register : Register
  version : UInt32
  deriving DecidableEq

namespace RegisterVersion

def text (value : RegisterVersion) : String :=
  value.register.text ++ "#" ++ Numeral.decimal value.version.toNat

instance : Ord RegisterVersion where
  compare := compareLex
    (compareOn fun value => value.register.number)
    (compareOn fun value => value.version)

instance : Std.TransOrd RegisterVersion :=
  inferInstanceAs <| Std.TransCmp <| compareLex
    (compareOn fun value : RegisterVersion => value.register.number)
    (compareOn fun value : RegisterVersion => value.version)

theorem eq_of_compare_eq
    {left right : RegisterVersion}
    (equality : compare left right = .eq) :
    left = right := by
  obtain ⟨⟨leftNumber⟩, leftVersion⟩ := left
  obtain ⟨⟨rightNumber⟩, rightVersion⟩ := right
  have parts :
      compare leftNumber rightNumber = .eq ∧ compare leftVersion rightVersion = .eq :=
    Ordering.then_eq_eq.mp equality
  rw [Std.LawfulEqOrd.eq_of_compare parts.1, Std.LawfulEqOrd.eq_of_compare parts.2]

instance : Std.LawfulEqOrd RegisterVersion where
  eq_of_compare := eq_of_compare_eq

end RegisterVersion

/-- A set of register versions, listed in ascending order. -/
abbrev RegisterSet := Std.TreeSet RegisterVersion

end MainLocator
