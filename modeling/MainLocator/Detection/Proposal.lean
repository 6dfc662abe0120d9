import MainLocator.Code.Word

/-!
# Proposals and verdicts

Heuristics propose addresses of the main function. A verdict merges all proposals about one
procedure: it is positive when there are some and all name the same address.
-/

namespace MainLocator

/-- How an address was found. -/
inductive Method where
  /-- The result of the call at the address reaches the end of the program. -/
  | returnFlow
  /-- The address is called right after the argument count is fetched. -/
  | argumentProbe
  /-- The address is the target of the trampoline that starts the program. -/
  | entryTrampoline
  deriving DecidableEq

namespace Method

/-- The number of a method. -/
def flag : Method → Nat
  | returnFlow => 1
  | argumentProbe => 2
  | entryTrampoline => 3

def text : Method → String
  | returnFlow => "return-sink-to-exit"
  | argumentProbe => "argc-probe"
  | entryTrampoline => "invoke-main-stub"

/-- All methods, by ascending number. -/
def all : List Method :=
  [returnFlow, argumentProbe, entryTrampoline]

end Method

structure Proposal where
  method : Method
  address : Word
  deriving DecidableEq

inductive Verdict where
  /-- All proposals name `address`. The methods behind them are in ascending order. -/
  | found (address : Word) (methods : List Method)
  | noProposals
  | conflict
  deriving DecidableEq

namespace Verdict

def isFound : Verdict → Bool
  | found _ _ => true
  | _ => false

def address? : Verdict → Option Word
  | found address _ => some address
  | _ => none

/-- The methods behind the verdict, without repetitions, ascending. -/
def methods : Verdict → List Method
  | found _ methods => methods
  | _ => []

def reason : Verdict → String
  | found _ _ => "found common main"
  | noProposals => "no candidates"
  | conflict => "conflicting candidates"

/-- Merges proposals. -/
def ofProposals : List Proposal → Verdict
  | [] => noProposals
  | first :: others =>
      if others.all (·.address = first.address) then
        found first.address
          (Method.all.filter fun method => method ∈ (first :: others).map Proposal.method)
      else conflict

/-- A verdict is positive when there are proposals and all name its address. Its methods are
theirs. -/
theorem ofProposals_eq_found_iff
    (proposals : List Proposal) (address : Word) (methods : List Method) :
    ofProposals proposals = found address methods ↔
      proposals ≠ [] ∧ (∀ proposal ∈ proposals, proposal.address = address) ∧
        methods = Method.all.filter fun method => method ∈ proposals.map Proposal.method := by
  cases proposals with
  | nil =>
      simp [ofProposals]
  | cons first others =>
      simp only [ofProposals, List.all_eq_true, decide_eq_true_eq, List.forall_mem_cons]
      split
      · rename_i agree
        rw [found.injEq]
        constructor
        · rintro ⟨rfl, rfl⟩
          exact ⟨List.cons_ne_nil _ _, ⟨rfl, agree⟩, rfl⟩
        · rintro ⟨_, ⟨rfl, _⟩, rfl⟩
          exact ⟨rfl, rfl⟩
      · rename_i disagree
        refine iff_of_false nofun ?_
        rintro ⟨_, ⟨rfl, agree⟩, _⟩
        exact disagree agree

end Verdict

end MainLocator
