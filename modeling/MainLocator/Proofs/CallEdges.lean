import Mathlib.Algebra.GroupWithZero.Nat
import Mathlib.Data.List.Induction
import Mathlib.Data.List.Sort
import MainLocator.Program.Basic

/-!
# Calls as they were added

A call graph keeps every call twice, in an index by caller and in one by callee. Together the lists
of either index hold exactly the calls that were added, so whatever is asked of the graph can be
answered from the list of those calls. In which order the entries of an index are visited makes no
difference.
-/

namespace MainLocator

open scoped List

/-- Only which words there are matters to their ascending list. -/
theorem Word.ascending_congr
    {left right : List Word} (same : ∀ word, word ∈ left ↔ word ∈ right) :
    ascending left = ascending right := by
  apply List.Subset.antisymm_of_pairwise (pairwise_ascending left) (pairwise_ascending right)
  · intro word member
    rwa [mem_ascending_iff, ← same, ← mem_ascending_iff]
  · intro word member
    rwa [mem_ascending_iff, same, ← mem_ascending_iff]

namespace CallGraph

/-- One call, as it is added to a graph. -/
structure Edge where
  caller : Word
  callee : Word
  site : CallSite
  deriving DecidableEq

/-- The graph of the given calls, added in order. -/
def ofEdges (edges : List Edge) : CallGraph :=
  edges.foldl (fun graph edge => graph.addCall edge.caller edge.callee edge.site) {}

theorem ofEdges_concat (edges : List Edge) (edge : Edge) :
    ofEdges (edges ++ [edge]) = (ofEdges edges).addCall edge.caller edge.callee edge.site := by
  rw [ofEdges, List.foldl_concat, ofEdges]

/-! ## One index -/

section Index

variable (index : CallIndex) (near : Word)

/-- The entries of an index are those under one key, of which there is at most one, and the
others. -/
theorem flatMap_toList_perm :
    index.toList.flatMap Prod.snd ~
      index.getD near [] ++
        (index.toList.filter fun entry => near ≠ entry.1).flatMap Prod.snd := by
  rw [Std.TreeMap.getD_eq_getD_getElem?]
  cases found : index[near]? with
  | none =>
      have noKey : ∀ entry ∈ index.toList, near ≠ entry.1 := by
        rintro ⟨key, calls⟩ member rfl
        rw [Std.TreeMap.mem_toList_iff_getElem?_eq_some, found] at member
        cases member
      have all : (index.toList.filter fun entry => near ≠ entry.1) = index.toList :=
        List.filter_eq_self.mpr fun entry member => decide_eq_true (noKey entry member)
      rw [all]
      exact .rfl
  | some calls =>
      have member : (near, calls) ∈ index.toList :=
        Std.TreeMap.mem_toList_iff_getElem?_eq_some.mpr found
      have distinct : index.toList.Pairwise fun left right => left.1 ≠ right.1 :=
        Std.TreeMap.distinct_keys_toList.imp fun different same =>
          different (Std.compare_eq_iff_eq.mpr same)
      obtain ⟨front, back, split⟩ := List.append_of_mem member
      rw [split, List.pairwise_middle fun different => different.symm, List.pairwise_cons]
        at distinct
      have others : ((front ++ back).filter fun entry => near ≠ entry.1) = front ++ back :=
        List.filter_eq_self.mpr fun entry member => decide_eq_true (distinct.1 entry member)
      have rest :
          (index.toList.filter fun entry => near ≠ entry.1) = front ++ back := by
        rw [split, List.filter_append, List.filter_cons_of_neg (by simp), ← List.filter_append,
          others]
      rw [rest, split]
      exact List.perm_middle.flatMap_right Prod.snd

/-- Adding a call to an index adds it to the calls that are there, whatever key it goes under. -/
theorem flatMap_toList_record_perm (far : Word) (site : CallSite) :
    (record index near far site).toList.flatMap Prod.snd ~
      (far, site) :: index.toList.flatMap Prod.snd := by
  have entries :
      (record index near far site).toList ~
        (near, index.getD near [] ++ [(far, site)]) ::
          index.toList.filter fun entry => near ≠ entry.1 := by
    have inserted :=
      Std.TreeMap.toList_insert_perm (t := index) (k := near)
        (v := index.getD near [] ++ [(far, site)])
    simp only [beq_iff_eq] at inserted
    exact inserted
  generalize others : (index.toList.filter fun entry => near ≠ entry.1) = rest at entries
  calc
    (record index near far site).toList.flatMap Prod.snd
    _ ~ index.getD near [] ++ [(far, site)] ++ rest.flatMap Prod.snd :=
      entries.flatMap_right Prod.snd
    _ ~ (far, site) :: (index.getD near [] ++ rest.flatMap Prod.snd) := by
      rw [List.append_assoc]
      exact List.perm_middle
    _ ~ (far, site) :: index.toList.flatMap Prod.snd := by
      rw [← others]
      exact (flatMap_toList_perm index near).symm.cons (far, site)

end Index

/-! ## The two indexes of a graph -/

section Indexes

variable (near far : Edge → Word) (edges : List Edge)

/-- The index of the given calls by one of their ends. -/
def indexBy : CallIndex :=
  edges.foldl (fun index edge => record index (near edge) (far edge) edge.site) ∅

theorem indexBy_concat (edge : Edge) :
    indexBy near far (edges ++ [edge]) =
      record (indexBy near far edges) (near edge) (far edge) edge.site := by
  rw [indexBy, List.foldl_concat, indexBy]

theorem getD_indexBy (key : Word) :
    (indexBy near far edges).getD key [] =
      (edges.filter (near · = key)).map fun edge => (far edge, edge.site) := by
  induction edges using List.reverseRecOn with
  | nil =>
      rfl
  | append_singleton earlier edge inductionHypothesis =>
      rw [indexBy_concat, getD_record, inductionHypothesis, List.filter_append, List.map_append]
      by_cases isKey : near edge = key
      · simp [isKey]
      · simp [isKey]

theorem flatMap_toList_indexBy_perm :
    (indexBy near far edges).toList.flatMap Prod.snd ~
      edges.map fun edge => (far edge, edge.site) := by
  induction edges using List.reverseRecOn with
  | nil =>
      exact .rfl
  | append_singleton earlier edge inductionHypothesis =>
      rw [indexBy_concat, List.map_append]
      calc
        (record (indexBy near far earlier) (near edge) (far edge) edge.site).toList.flatMap Prod.snd
        _ ~ (far edge, edge.site) :: (indexBy near far earlier).toList.flatMap Prod.snd :=
          flatMap_toList_record_perm _ _ _ _
        _ ~ (far edge, edge.site) :: earlier.map fun edge => (far edge, edge.site) :=
          inductionHypothesis.cons _
        _ ~ (earlier.map fun edge => (far edge, edge.site)) ++ [(far edge, edge.site)] :=
          (List.perm_append_singleton _ _).symm

theorem outgoing_ofEdges :
    (ofEdges edges).outgoing = indexBy Edge.caller Edge.callee edges := by
  induction edges using List.reverseRecOn with
  | nil =>
      rfl
  | append_singleton earlier edge inductionHypothesis =>
      rw [ofEdges_concat, indexBy_concat, ← inductionHypothesis]
      rfl

theorem incoming_ofEdges :
    (ofEdges edges).incoming = indexBy Edge.callee Edge.caller edges := by
  induction edges using List.reverseRecOn with
  | nil =>
      rfl
  | append_singleton earlier edge inductionHypothesis =>
      rw [ofEdges_concat, indexBy_concat, ← inductionHypothesis]
      rfl

end Indexes

/-! ## What a graph answers -/

/-- The procedures that are called at an address, given the entries of an index by caller in the
order in which they are visited. -/
def calleesIn (entries : List (Word × List (Word × CallSite))) (address : Word) : List Word :=
  Word.ascending
    (((entries.flatMap Prod.snd).filter fun call => call.2.address = address).map Prod.fst)

/-- The graph answers as the list of the calls that were added to it would. -/
structure Lists (graph : CallGraph) (edges : List Edge) : Prop where
  callees :
    ∀ caller, graph.callees caller =
      (edges.filter (·.caller = caller)).map fun edge => (edge.callee, edge.site)
  callers :
    ∀ callee, graph.callers callee =
      (edges.filter (·.callee = callee)).map fun edge => (edge.caller, edge.site)
  /-- The calls from one procedure to another are the same in both indexes, in the same order. -/
  transposes :
    ∀ caller callee,
      ((graph.callees caller).filter (·.1 = callee)).map Prod.snd =
        ((graph.callers callee).filter (·.1 = caller)).map Prod.snd
  edgeCount : graph.edgeCount = edges.length
  /-- Either index has as many calls, in whatever order its entries are counted. -/
  totals :
    ∀ index ∈ [graph.outgoing, graph.incoming], ∀ entries, entries ~ index.toList →
      (entries.map fun entry => entry.2.length).sum = edges.length
  callSites_ascend : ∀ caller, (graph.callSites caller).Pairwise (· < ·)
  mem_callSites_iff :
    ∀ caller address, address ∈ graph.callSites caller ↔
      ∃ edge ∈ edges, edge.caller = caller ∧ edge.site.address = address
  calleesAt_ascend : ∀ address, (graph.calleesAt address).Pairwise (· < ·)
  mem_calleesAt_iff :
    ∀ address callee, callee ∈ graph.calleesAt address ↔
      ∃ edge ∈ edges, edge.site.address = address ∧ edge.callee = callee
  /-- The order in which the entries are visited does not show. -/
  calleesIn_eq :
    ∀ entries, entries ~ graph.outgoing.toList →
      ∀ address, calleesIn entries address = graph.calleesAt address
  referencesTo :
    ∀ program : Program, program.calls = graph →
      ∀ callee, program.referencesTo callee =
        (edges.filter (·.callee = callee)).map fun edge => ⟨edge.caller, edge.site.address⟩

theorem edgeCount_eq_sum (graph : CallGraph) :
    graph.edgeCount = (graph.outgoing.toList.map fun entry => entry.2.length).sum := by
  rw [edgeCount, Std.TreeMap.foldl_eq_foldl_toList, List.sum_eq_foldl, List.foldl_map]

theorem calleesIn_congr
    {left right : List (Word × List (Word × CallSite))}
    (perm : left.flatMap Prod.snd ~ right.flatMap Prod.snd) (address : Word) :
    calleesIn left address = calleesIn right address :=
  Word.ascending_congr fun _ => ((perm.filter _).map Prod.fst).mem_iff

section Answers

variable (edges : List Edge)

theorem callees_ofEdges (caller : Word) :
    (ofEdges edges).callees caller =
      (edges.filter (·.caller = caller)).map fun edge => (edge.callee, edge.site) := by
  rw [callees, outgoing_ofEdges, getD_indexBy]

theorem callers_ofEdges (callee : Word) :
    (ofEdges edges).callers callee =
      (edges.filter (·.callee = callee)).map fun edge => (edge.caller, edge.site) := by
  rw [callers, incoming_ofEdges, getD_indexBy]

theorem sum_length_indexBy
    (near far : Edge → Word) {entries : List (Word × List (Word × CallSite))}
    (visited : entries ~ (indexBy near far edges).toList) :
    (entries.map fun entry => entry.2.length).sum = edges.length := by
  rw [← List.length_flatMap, (visited.flatMap_right Prod.snd).length_eq,
    (flatMap_toList_indexBy_perm near far edges).length_eq, List.length_map]

theorem mem_calleesAt_ofEdges_iff (address callee : Word) :
    callee ∈ (ofEdges edges).calleesAt address ↔
      ∃ edge ∈ edges, edge.site.address = address ∧ edge.callee = callee := by
  have perm := flatMap_toList_indexBy_perm Edge.caller Edge.callee edges
  have asEdges := ((perm.filter fun call => call.2.address = address).map Prod.fst).mem_iff
    (a := callee)
  rw [calleesAt, outgoing_ofEdges, Word.mem_ascending_iff, asEdges]
  simp only [List.mem_map, List.mem_filter, decide_eq_true_eq]
  constructor
  · rintro ⟨_, ⟨⟨edge, member, rfl⟩, atAddress⟩, rfl⟩
    exact ⟨edge, member, atAddress, rfl⟩
  · rintro ⟨edge, member, atAddress, rfl⟩
    exact ⟨_, ⟨⟨edge, member, rfl⟩, atAddress⟩, rfl⟩

end Answers

/-- However calls are added, with repetitions, shared addresses and several callees at one address,
the graph answers as the list of them does. -/
theorem graphs_answer_as_their_calls (edges : List Edge) :
    (ofEdges edges).Lists edges where
  callees := callees_ofEdges edges
  callers := callers_ofEdges edges
  transposes := by
    intro caller callee
    rw [callees_ofEdges, callers_ofEdges]
    simp [List.filter_map, Function.comp_def, List.filter_filter, Bool.and_comm]
  edgeCount := by
    rw [edgeCount_eq_sum, outgoing_ofEdges]
    exact sum_length_indexBy edges _ _ .rfl
  totals := by
    intro index isIndex entries visited
    rw [outgoing_ofEdges, incoming_ofEdges, List.mem_pair] at isIndex
    rcases isIndex with rfl | rfl
    · exact sum_length_indexBy edges _ _ visited
    · exact sum_length_indexBy edges _ _ visited
  callSites_ascend caller := Word.pairwise_ascending _
  mem_callSites_iff := by
    intro caller address
    rw [callSites, Word.mem_ascending_iff, callees_ofEdges, List.map_map]
    simp [and_assoc]
  calleesAt_ascend address := Word.pairwise_ascending _
  mem_calleesAt_iff := mem_calleesAt_ofEdges_iff edges
  calleesIn_eq entries visited address :=
    calleesIn_congr (visited.flatMap_right Prod.snd) address
  referencesTo := by
    intro program isGraph callee
    rw [Program.referencesTo, isGraph, callers_ofEdges, List.map_map]
    rfl

/-- An indirect call with two callees, and a call in front of it that was added later. -/
example :
    let indirect : CallSite := ⟨0x1008, .indirect⟩
    let graph :=
      ofEdges
        [⟨0x1000, 0x6000, indirect⟩, ⟨0x1000, 0x5000, indirect⟩,
          ⟨0x1000, 0x2000, ⟨0x1004, .direct⟩⟩]
    graph.callSites 0x1000 = [0x1004, 0x1008] ∧ graph.calleesAt 0x1008 = [0x5000, 0x6000] := by
  decide +kernel

end CallGraph

end MainLocator
