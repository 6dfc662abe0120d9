import Mathlib.Data.List.Sort
import MainLocator.Proofs.UncalledProcedures

/-!
# Agreement of heuristics

The verdict of a panel is said by the set of what its heuristics propose. It is positive when there
is a proposal and all name one address, whichever is met first, and it lists the methods of all. So
the order of the heuristics has no say, and neither has how often one of them is on the panel.
-/

namespace MainLocator

namespace Verdict

/-- The methods are those with the property, each once and by ascending number. -/
structure ListsMethods (methods : List Method) (property : Method → Prop) : Prop where
  ascending : methods.Pairwise fun left right => left.flag < right.flag
  mem_iff : ∀ method, method ∈ methods ↔ property method

/-- What all proposals together say. -/
inductive Merges (isProposed : Proposal → Prop) : Verdict → Prop where
  | found {address : Word} {methods : List Method} :
      (∃ proposal, isProposed proposal) →
      (∀ proposal, isProposed proposal → proposal.address = address) →
      ListsMethods methods (fun method => ∃ proposal, isProposed proposal ∧
        proposal.method = method) →
      Merges isProposed (.found address methods)
  | noProposals :
      (∀ proposal, ¬ isProposed proposal) →
      Merges isProposed .noProposals
  | conflict {left right : Proposal} :
      isProposed left →
      isProposed right →
      left.address ≠ right.address →
      Merges isProposed .conflict

variable {isProposed : Proposal → Prop} {proposals : List Proposal}

theorem ListsMethods.unique
    {left right : List Method} {property : Method → Prop}
    (isLeft : ListsMethods left property) (isRight : ListsMethods right property) :
    left = right := by
  have irreflexive : Std.Irrefl fun left right : Method => left.flag < right.flag :=
    ⟨fun method => Nat.lt_irrefl method.flag⟩
  have antisymmetric : Std.Antisymm fun left right : Method => left.flag < right.flag :=
    ⟨fun _ _ isLess isGreater => absurd isGreater (Nat.lt_asymm isLess)⟩
  apply List.Subset.antisymm_of_pairwise isLeft.ascending isRight.ascending
  · intro method member
    exact (isRight.mem_iff method).mpr ((isLeft.mem_iff method).mp member)
  · intro method member
    exact (isLeft.mem_iff method).mpr ((isRight.mem_iff method).mp member)

/-- The list of all methods is ascending, and so is what is left of it. -/
theorem listsMethods_filter_all (property : Method → Prop) [DecidablePred property] :
    ListsMethods (Method.all.filter fun method => property method) property where
  ascending := by
    apply List.Pairwise.filter
    decide
  mem_iff := by
    intro method
    have isListed : method ∈ Method.all := by
      cases method with
      | returnFlow | argumentProbe | entryTrampoline => decide
    simp [isListed]

theorem ofProposals_eq_conflict
    (conflicts : ofProposals proposals = .conflict) :
    ∃ left ∈ proposals, ∃ right ∈ proposals, left.address ≠ right.address := by
  cases proposals with
  | nil =>
      cases conflicts
  | cons first others =>
      rw [ofProposals] at conflicts
      split at conflicts
      · cases conflicts
      · rename_i disagree
        simp only [List.all_eq_true, decide_eq_true_eq, not_forall] at disagree
        obtain ⟨other, member, different⟩ := disagree
        exact ⟨other, List.mem_cons_of_mem _ member, first, List.mem_cons_self, different⟩

/-- The verdict on a list of proposals is what they say together. -/
theorem merges_ofProposals (proposals : List Proposal) :
    Merges (· ∈ proposals) (ofProposals proposals) := by
  cases merged : ofProposals proposals with
  | found address methods =>
      obtain ⟨nonempty, agree, rfl⟩ := (ofProposals_eq_found_iff _ _ _).mp merged
      refine .found (List.exists_mem_of_ne_nil _ nonempty) agree ?_
      simp only [← List.mem_map]
      exact listsMethods_filter_all _
  | noProposals =>
      cases proposals with
      | nil =>
          exact .noProposals fun _ => List.not_mem_nil
      | cons first others =>
          rw [ofProposals] at merged
          split at merged
          · cases merged
          · cases merged
  | conflict =>
      obtain ⟨left, isLeft, right, isRight, different⟩ := ofProposals_eq_conflict merged
      exact .conflict isLeft isRight different

/-- Proposals say one thing. -/
theorem Merges.unique
    {left right : Verdict}
    (isLeft : Merges isProposed left) (isRight : Merges isProposed right) :
    left = right := by
  cases isLeft with
  | found isSome agree listed =>
      obtain ⟨proposal, holds⟩ := isSome
      cases isRight with
      | found _ otherAgree otherListed =>
          rw [← agree proposal holds, ← otherAgree proposal holds, listed.unique otherListed]
      | noProposals isNone => exact absurd holds (isNone proposal)
      | conflict isFirst isSecond different =>
          exact absurd ((agree _ isFirst).trans (agree _ isSecond).symm) different
  | noProposals isNone =>
      cases isRight with
      | found isSome =>
          obtain ⟨proposal, holds⟩ := isSome
          exact absurd holds (isNone proposal)
      | noProposals => rfl
      | conflict isFirst => exact absurd isFirst (isNone _)
  | conflict isFirst isSecond different =>
      cases isRight with
      | found _ agree =>
          exact absurd ((agree _ isFirst).trans (agree _ isSecond).symm) different
      | noProposals isNone => exact absurd isFirst (isNone _)
      | conflict => rfl

theorem ofProposals_eq_iff_merges (verdict : Verdict) :
    ofProposals proposals = verdict ↔ Merges (· ∈ proposals) verdict := by
  constructor
  · intro merged
    rw [← merged]
    exact merges_ofProposals proposals
  · intro merges
    exact (merges_ofProposals proposals).unique merges

end Verdict

/-! ## Panels -/

/-- Some call of the procedure at an address comes from the entry point. -/
def Program.CalledFromEntry (program : Program) (address : Word) : Prop :=
  ∃ entry site, program.entryPoint = some entry ∧ (entry, site) ∈ program.calls.callers address

theorem Program.isEntryCallee_iff (program : Program) (address : Word) :
    program.isEntryCallee address = true ↔ program.CalledFromEntry address := by
  rw [isEntryCallee, CalledFromEntry]
  cases program.entryPoint with
  | none =>
      simp
  | some entry =>
      simp [referencesTo]

namespace Panel

/-- A heuristic of the panel makes the proposal. One with a gate has to be about a procedure that
the entry point calls. -/
def Proposes
    (panel : Panel) (settings : Settings) (program : Program) (procedure : Procedure)
    (proposal : Proposal) : Prop :=
  ∃ heuristic ∈ panel.heuristics,
    (heuristic.isGated = true → program.CalledFromEntry procedure.start) ∧
      proposal ∈ heuristic.propose settings program procedure

variable
  {panel other : Panel} {settings : Settings} {program : Program} {procedure : Procedure}

theorem mem_applicable_iff (heuristic : Heuristic) :
    heuristic ∈ panel.applicable program procedure ↔
      heuristic ∈ panel.heuristics ∧
        (heuristic.isGated = true → program.CalledFromEntry procedure.start) := by
  rw [applicable, List.mem_filter, Bool.or_eq_true, Bool.not_eq_true', Program.isEntryCallee_iff]
  cases heuristic.isGated with
  | true => simp
  | false => simp

theorem mem_proposals_iff (proposal : Proposal) :
    proposal ∈ panel.proposals settings program procedure ↔
      panel.Proposes settings program procedure proposal := by
  simp only [proposals, List.mem_flatMap, mem_applicable_iff, Proposes, and_assoc]

theorem verdict_eq_iff_merges (verdict : Verdict) :
    panel.verdict settings program procedure = verdict ↔
      Verdict.Merges (panel.Proposes settings program procedure) verdict := by
  rw [Panel.verdict, Verdict.ofProposals_eq_iff_merges]
  simp only [mem_proposals_iff]

theorem verdict_of_mem_heuristics_iff
    (sameMembers : ∀ heuristic, heuristic ∈ other.heuristics ↔ heuristic ∈ panel.heuristics) :
    other.verdict settings program procedure = panel.verdict settings program procedure := by
  have sameProposals :
      other.Proposes settings program procedure = panel.Proposes settings program procedure := by
    funext proposal
    simp only [Proposes, sameMembers]
  rw [verdict_eq_iff_merges, sameProposals, ← verdict_eq_iff_merges]

/-- The verdict is what all proposals say together, and names nothing where they do not agree. It is
the same for every panel with these heuristics, in any order and with any of them repeated. -/
theorem verdict_is_agreement
    (panel : Panel) (settings : Settings) (program : Program) (procedure : Procedure) :
    (∀ verdict,
        panel.verdict settings program procedure = verdict ↔
          Verdict.Merges (panel.Proposes settings program procedure) verdict) ∧
      ((panel.verdict settings program procedure).isFound = false →
        (panel.verdict settings program procedure).address? = none ∧
          (panel.verdict settings program procedure).methods = []) ∧
        ∀ other : Panel,
          (∀ heuristic, heuristic ∈ other.heuristics ↔ heuristic ∈ panel.heuristics) →
            other.verdict settings program procedure =
              panel.verdict settings program procedure := by
  refine ⟨verdict_eq_iff_merges, fun notFound => ?_, fun other => verdict_of_mem_heuristics_iff⟩
  cases verdict : panel.verdict settings program procedure with
  | found address methods =>
      rw [verdict] at notFound
      cases notFound
  | noProposals => exact ⟨rfl, rfl⟩
  | conflict => exact ⟨rfl, rfl⟩

/-- One heuristic proposes an address twice, and one with a gate proposes it too. -/
def agreeingPanel : Panel :=
  ⟨[.always .argumentProbe false [0x4000, 0x4000], .always .returnFlow true [0x4000]]⟩

/-- The same heuristics, the other way round and one of them twice. -/
def repeatingPanel : Panel :=
  ⟨[.always .returnFlow true [0x4000], .always .argumentProbe false [0x4000, 0x4000],
    .always .returnFlow true [0x4000]]⟩

/-- A heuristic with a gate proposes another address. -/
def disagreeingPanel : Panel :=
  ⟨[.always .argumentProbe false [0x4000], .always .returnFlow true [0x5000]]⟩

/-- The entry point calls it. -/
def calledHelper : Procedure :=
  { unliftedHelper with start := 0x2000 }

theorem verdict_repeatingPanel :
    repeatingPanel.verdict {} trampolineProgram calledHelper =
        .found 0x4000 [.returnFlow, .argumentProbe] ∧
      Verdict.Merges (agreeingPanel.Proposes {} trampolineProgram calledHelper)
          (.found 0x4000 [.returnFlow, .argumentProbe]) ∧
        (disagreeingPanel.verdict {} trampolineProgram calledHelper).address? = none := by
  obtain ⟨merges_iff, _, isShared⟩ :=
    verdict_is_agreement agreeingPanel {} trampolineProgram calledHelper
  have verdict :
      agreeingPanel.verdict {} trampolineProgram calledHelper =
        .found 0x4000 [.returnFlow, .argumentProbe] := by
    decide +kernel
  have sameMembers : ∀ heuristic,
      heuristic ∈ repeatingPanel.heuristics ↔ heuristic ∈ agreeingPanel.heuristics := by
    intro heuristic
    simp only [repeatingPanel, agreeingPanel, List.mem_cons, List.not_mem_nil, or_false]
    tauto
  have namesNothing := (verdict_is_agreement disagreeingPanel {} trampolineProgram calledHelper).2.1
  exact ⟨(isShared repeatingPanel sameMembers).trans verdict, (merges_iff _).mp verdict,
    (namesNothing (by decide +kernel)).1⟩

end Panel

end MainLocator
