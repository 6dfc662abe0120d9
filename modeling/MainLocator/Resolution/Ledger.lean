import Std.Data.TreeMap
import Std.Data.TreeSet
import MainLocator.Program.Basic

/-!
# The ledger of resolutions

For each program the ledger holds what is known of its main function. A program moves from
unresolved to found or to not found, and then keeps its resolution for good. Until then the ledger
also remembers whether the program is primed, that is, whether its entry point has been looked at.
-/

namespace MainLocator

inductive Resolution where
  | unresolved
  | found (address : Word)
  | notFound (reason : String)
  deriving DecidableEq

namespace Resolution

/-- Whether the resolution is for good. -/
def isFinal : Resolution → Bool
  | unresolved => false
  | found _ | notFound _ => true

def address? : Resolution → Option Word
  | found address => some address
  | _ => none

def reason? : Resolution → Option String
  | notFound reason => some reason
  | _ => none

end Resolution

/-- What becomes of an attempt to resolve a program. -/
inductive ResolveOutcome where
  | stored
  /-- The program keeps the resolution that it had. -/
  | alreadyResolved (existing : Resolution)
  deriving DecidableEq

structure Ledger where
  entries : Std.TreeMap ProgramId Resolution := ∅
  primed : Std.TreeSet ProgramId := ∅

namespace Ledger

/-- The resolution of a program. A program without entry is unresolved. -/
def get (ledger : Ledger) (id : ProgramId) : Resolution :=
  ledger.entries.getD id .unresolved

def isResolved (ledger : Ledger) (id : ProgramId) : Bool :=
  (ledger.get id).isFinal

def isPrimed (ledger : Ledger) (id : ProgramId) : Bool :=
  id ∈ ledger.primed

/-- Resolves a program that is not resolved, which is then no longer primed. -/
def resolve
    (ledger : Ledger) (id : ProgramId) (resolution : Resolution) : ResolveOutcome × Ledger :=
  if ledger.isResolved id then (.alreadyResolved (ledger.get id), ledger)
  else (.stored, ⟨ledger.entries.insert id resolution, ledger.primed.erase id⟩)

theorem resolve_fst
    (ledger : Ledger) (id : ProgramId) (resolution : Resolution) :
    (ledger.resolve id resolution).1 =
      if ledger.isResolved id then .alreadyResolved (ledger.get id) else .stored := by
  unfold resolve
  split
  · rfl
  · rfl

theorem get_resolve
    (ledger : Ledger) (id other : ProgramId) (resolution : Resolution) :
    (ledger.resolve id resolution).2.get other =
      if id = other ∧ ledger.isResolved id = false then resolution else ledger.get other := by
  unfold resolve
  by_cases resolved : ledger.isResolved id = true
  · simp [resolved]
  · by_cases same : id = other
    · subst same
      simp [resolved, get]
    · simp [resolved, same, get, Std.TreeMap.getD_insert]

theorem isPrimed_resolve
    (ledger : Ledger) (id other : ProgramId) (resolution : Resolution) :
    (ledger.resolve id resolution).2.isPrimed other =
      (ledger.isPrimed other && !(id = other && !ledger.isResolved id)) := by
  unfold resolve
  by_cases resolved : ledger.isResolved id = true
  · simp [resolved]
  · by_cases same : id = other
    · subst same
      simp [resolved, isPrimed]
    · simp [resolved, same, isPrimed]

/-- Primes a program, and tells whether it was neither primed nor resolved before. -/
def prime (ledger : Ledger) (id : ProgramId) : Bool × Ledger :=
  if ledger.isResolved id || ledger.isPrimed id then (false, ledger)
  else (true, { ledger with primed := ledger.primed.insert id })

theorem get_prime
    (ledger : Ledger) (id other : ProgramId) :
    (ledger.prime id).2.get other = ledger.get other := by
  unfold prime
  split <;> rfl

theorem isPrimed_prime
    (ledger : Ledger) (id other : ProgramId) :
    (ledger.prime id).2.isPrimed other =
      (ledger.isPrimed other || (id = other && !ledger.isResolved id)) := by
  unfold prime
  by_cases kept : (ledger.isResolved id || ledger.isPrimed id) = true
  · rw [if_pos kept]
    by_cases same : id = other
    · subst same
      rcases Bool.or_eq_true_iff.mp kept with resolved | primed
      · simp [resolved]
      · simp [primed]
    · simp [same]
  · rw [if_neg kept]
    by_cases same : id = other
    · subst same
      have unresolved : ledger.isResolved id = false :=
        (Bool.or_eq_false_iff.mp (Bool.eq_false_iff.mpr kept)).1
      simp [isPrimed, unresolved]
    · simp [isPrimed, same]

/-- All entries by ascending program. -/
def snapshot (ledger : Ledger) : List (ProgramId × Resolution) :=
  ledger.entries.toList

theorem mem_snapshot_iff
    (ledger : Ledger) (id : ProgramId) (resolution : Resolution) :
    (id, resolution) ∈ ledger.snapshot ↔ id ∈ ledger.entries ∧ ledger.get id = resolution := by
  unfold snapshot get
  rw [Std.TreeMap.mem_toList_iff_getElem?_eq_some, Std.TreeMap.mem_iff_isSome_getElem?,
    Std.TreeMap.getD_eq_getD_getElem?]
  cases ledger.entries[id]? with
  | none => simp
  | some entry => simp

theorem pairwise_snapshot
    (ledger : Ledger) :
    ledger.snapshot.Pairwise fun left right => left.1.number < right.1.number := by
  have ordered :
      ledger.entries.toList.Pairwise fun left right => compare left.1 right.1 = .lt :=
    Std.TreeMap.ordered_keys_toList
  apply ordered.imp
  intro left right before
  have numbersOrdered : compare left.1.number right.1.number = .lt := before
  exact Std.compare_eq_lt.mp numbersOrdered

/-- The ledger with the given entries, of which the last counts for each program. No program is
primed. -/
def ofEntries (entries : List (ProgramId × Resolution)) : Ledger where
  entries := Std.TreeMap.ofList entries

theorem isPrimed_ofEntries
    (entries : List (ProgramId × Resolution)) (id : ProgramId) :
    (ofEntries entries).isPrimed id = false := by
  simp [ofEntries, isPrimed]

end Ledger

end MainLocator
