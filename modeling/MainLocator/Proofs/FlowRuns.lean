import Mathlib.Data.List.Perm.Subperm
import MainLocator.Proofs.Flow

/-!
# Runs of the search for a target

`Body.flowsInto` asks for a target behind all registers that exploration takes from its worklist. A
search for one may stop as soon as a step arrives at a target, and need not begin where there is
none. Here the runs of such searches are given by rules that know no bound, and that write down what
happens to the worklist and which positions are visited. Every search has exactly one run, with the
answer of `Body.flowsInto`, and it takes the registers that exploration takes first. What it takes
is the source and receivers of different visited steps, so there is at most one register more than
instructions.
-/

namespace MainLocator

namespace FlowSearch

/-! ## Rules -/

/-- What happens in a search. -/
inductive Event where
  /-- The register is taken from the worklist. -/
  | take (register : RegisterVersion)
  /-- The position of the step is recorded as visited. -/
  | visit (step : FlowStep)
  /-- The register is put on the worklist. -/
  | put (register : RegisterVersion)
  deriving DecidableEq

/-- The registers taken from the worklist, in order. -/
def takes : List Event → List RegisterVersion
  | [] => []
  | .take register :: later => register :: takes later
  | .visit _ :: later | .put _ :: later => takes later

/-- The steps whose positions are recorded, in order. -/
def visits : List Event → List FlowStep
  | [] => []
  | .visit step :: later => step :: visits later
  | .take _ :: later | .put _ :: later => visits later

/-- A search with these `steps` of the register taken last still in front of it makes the events
happen, and tells whether it found a target. A step to a recorded position is passed over. Any other
step has its position recorded, and ends the search if it arrives at a target. If it does not, its
receiver is put on the worklist. -/
inductive Runs (body : Body) (targets : RegisterSet) :
    (steps : List FlowStep) → (worklist : List RegisterVersion) → (recorded : List Nat) →
      List Event → (found : Bool) → Prop where
  | exhausted (recorded : List Nat) :
      Runs body targets [] [] recorded [] false
  | taken
      {register : RegisterVersion} {worklist : List RegisterVersion} {recorded : List Nat}
      {events : List Event} {found : Bool} :
      Runs body targets (body.flowFrom register) worklist recorded events found →
      Runs body targets [] (register :: worklist) recorded (.take register :: events) found
  | passed
      {step : FlowStep} {steps : List FlowStep} {worklist : List RegisterVersion}
      {recorded : List Nat} {events : List Event} {found : Bool} :
      step.position ∈ recorded →
      Runs body targets steps worklist recorded events found →
      Runs body targets (step :: steps) worklist recorded events found
  | arrived
      {step : FlowStep} {steps : List FlowStep} {worklist : List RegisterVersion}
      {recorded : List Nat} :
      step.position ∉ recorded →
      step.receiver ∈ targets →
      Runs body targets (step :: steps) worklist recorded [.visit step] true
  | spread
      {step : FlowStep} {steps : List FlowStep} {worklist : List RegisterVersion}
      {recorded : List Nat} {events : List Event} {found : Bool} :
      step.position ∉ recorded →
      step.receiver ∉ targets →
      Runs body targets steps (step.receiver :: worklist) (step.position :: recorded) events
        found →
      Runs body targets (step :: steps) worklist recorded
        (.visit step :: .put step.receiver :: events) found

/-- The search for a target that the value of `source` can reach. Without targets it does nothing.
Otherwise it begins with the source on the worklist and no position recorded. -/
inductive Searches (body : Body) (targets : RegisterSet) (source : RegisterVersion) :
    List Event → (found : Bool) → Prop where
  | idle :
      targets.isEmpty = true →
      Searches body targets source [] false
  | begun {events : List Event} {found : Bool} :
      targets.isEmpty = false →
      Runs body targets [] [source] [] events found →
      Searches body targets source events found

variable {body : Body} {targets : RegisterSet} {steps : List FlowStep}
  {worklist : List RegisterVersion} {recorded : List Nat} {events earlier later : List Event}
  {found : Bool} {register : RegisterVersion}

/-- There is at most one run: what is in front of the search tells the rule. -/
theorem Runs.unique
    {others : List Event} {other : Bool}
    (runs : Runs body targets steps worklist recorded events found)
    (otherRuns : Runs body targets steps worklist recorded others other) :
    others = events ∧ other = found := by
  induction runs generalizing others other with
  | exhausted =>
      cases otherRuns
      exact ⟨rfl, rfl⟩
  | taken _ inductionHypothesis =>
      cases otherRuns with
      | taken otherLater =>
          obtain ⟨rfl, rfl⟩ := inductionHypothesis otherLater
          exact ⟨rfl, rfl⟩
  | passed isRecorded _ inductionHypothesis =>
      cases otherRuns with
      | passed _ otherLater => exact inductionHypothesis otherLater
      | arrived isNew | spread isNew => exact absurd isRecorded isNew
  | arrived isNew isTarget =>
      cases otherRuns with
      | passed isRecorded => exact absurd isRecorded isNew
      | arrived => exact ⟨rfl, rfl⟩
      | spread _ noTarget => exact absurd isTarget noTarget
  | spread isNew noTarget _ inductionHypothesis =>
      cases otherRuns with
      | passed isRecorded => exact absurd isRecorded isNew
      | arrived _ isTarget => exact absurd isTarget noTarget
      | spread _ _ otherLater =>
          obtain ⟨rfl, rfl⟩ := inductionHypothesis otherLater
          exact ⟨rfl, rfl⟩

/-! ## Visits -/

theorem visits_append (earlier later : List Event) :
    visits (earlier ++ later) = visits earlier ++ visits later := by
  induction earlier with
  | nil => rfl
  | cons event rest inductionHypothesis =>
      cases event with
      | visit step => exact congrArg (step :: ·) inductionHypothesis
      | take | put => exact inductionHypothesis

theorem Runs.nodup_visits_append
    (runs : Runs body targets steps worklist recorded events found) (once : recorded.Nodup) :
    ((visits events).map FlowStep.position ++ recorded).Nodup := by
  induction runs with
  | exhausted =>
      exact once
  | taken _ inductionHypothesis | passed _ _ inductionHypothesis =>
      exact inductionHypothesis once
  | arrived isNew =>
      exact List.nodup_cons.mpr ⟨isNew, once⟩
  | spread isNew _ _ inductionHypothesis =>
      have laterOnce := inductionHypothesis (List.nodup_cons.mpr ⟨isNew, once⟩)
      exact List.perm_middle.nodup_iff.mp laterOnce

theorem Runs.nodup_visits
    (runs : Runs body targets steps worklist [] events found) :
    ((visits events).map FlowStep.position).Nodup := by
  have once := runs.nodup_visits_append List.nodup_nil
  rwa [List.append_nil] at once

/-- Only steps in front of the search are visited, and steps of registers that it takes. -/
theorem Runs.mem_steps_or_exists_of_mem_visits
    (runs : Runs body targets steps worklist recorded events found) :
    ∀ step ∈ visits events,
      step ∈ steps ∨ ∃ register ∈ takes events, step ∈ body.flowFrom register := by
  induction runs with
  | exhausted =>
      exact nofun
  | @taken register _ _ _ _ _ inductionHypothesis =>
      intro step isVisited
      rcases inductionHypothesis step isVisited with isStep | ⟨other, isTaken, isStep⟩
      · exact Or.inr ⟨register, List.mem_cons_self, isStep⟩
      · exact Or.inr ⟨other, List.mem_cons_of_mem register isTaken, isStep⟩
  | passed _ _ inductionHypothesis =>
      intro step isVisited
      exact (inductionHypothesis step isVisited).imp_left (List.mem_cons_of_mem _)
  | arrived =>
      intro step isVisited
      obtain rfl := List.mem_singleton.mp isVisited
      exact Or.inl List.mem_cons_self
  | spread _ _ _ inductionHypothesis =>
      intro step isVisited
      rcases List.mem_cons.mp isVisited with rfl | isLater
      · exact Or.inl List.mem_cons_self
      · exact (inductionHypothesis step isLater).imp_left (List.mem_cons_of_mem _)

theorem Runs.found_eq_true_iff
    (runs : Runs body targets steps worklist recorded events found) :
    found = true ↔ ∃ step ∈ visits events, step.receiver ∈ targets := by
  induction runs with
  | exhausted =>
      simp [visits]
  | taken _ inductionHypothesis | passed _ _ inductionHypothesis =>
      exact inductionHypothesis
  | arrived _ isTarget =>
      simp [visits, isTarget]
  | spread _ noTarget _ inductionHypothesis =>
      simp [visits, noTarget, inductionHypothesis]

/-- A search that finds nothing leaves no step out: the positions of all steps in front of it, and
of all steps of registers that it takes, are recorded in the end. -/
theorem Runs.position_mem_of_not_found
    (runs : Runs body targets steps worklist recorded events found) (notFound : found = false)
    {step : FlowStep}
    (isMet : step ∈ steps ∨ ∃ register ∈ takes events, step ∈ body.flowFrom register) :
    step.position ∈ (visits events).map FlowStep.position ++ recorded := by
  induction runs with
  | exhausted =>
      simp [takes] at isMet
  | taken _ inductionHypothesis =>
      apply inductionHypothesis notFound
      rcases isMet with absurdity | ⟨register, isTaken, isStep⟩
      · cases absurdity
      · rcases List.mem_cons.mp isTaken with rfl | isLater
        · exact Or.inl isStep
        · exact Or.inr ⟨register, isLater, isStep⟩
  | passed isRecorded _ inductionHypothesis =>
      rcases isMet with isStep | isLater
      · rcases List.mem_cons.mp isStep with rfl | isRest
        · exact List.mem_append_right _ isRecorded
        · exact inductionHypothesis notFound (Or.inl isRest)
      · exact inductionHypothesis notFound (Or.inr isLater)
  | arrived =>
      cases notFound
  | spread _ _ _ inductionHypothesis =>
      apply List.perm_middle.mem_iff.mp
      rcases isMet with isStep | isLater
      · rcases List.mem_cons.mp isStep with rfl | isRest
        · exact List.mem_append_right _ List.mem_cons_self
        · exact inductionHypothesis notFound (Or.inl isRest)
      · exact inductionHypothesis notFound (Or.inr isLater)

/-! ## The worklist -/

theorem exists_rest_of_cons_eq
    {event : Event} (split : event :: events = earlier ++ .put register :: later)
    (differs : event ≠ .put register) :
    ∃ rest, earlier = event :: rest ∧ events = rest ++ .put register :: later := by
  rcases List.cons_eq_append_iff.mp split with ⟨_, isFirst⟩ | isLater
  · exact absurd (List.cons.inj isFirst).1.symm differs
  · exact isLater

/-- A register is put on the worklist directly after the visit of a step that has it as receiver. -/
theorem Runs.exists_visit_of_put
    (runs : Runs body targets steps worklist recorded events found)
    (split : events = earlier ++ .put register :: later) :
    ∃ before step, earlier = before ++ [.visit step] ∧ step.receiver = register := by
  induction runs generalizing earlier with
  | exhausted =>
      simp at split
  | taken _ inductionHypothesis =>
      obtain ⟨rest, rfl, restSplit⟩ := exists_rest_of_cons_eq split nofun
      obtain ⟨before, step, rfl, receives⟩ := inductionHypothesis restSplit
      exact ⟨_ :: before, step, rfl, receives⟩
  | passed _ _ inductionHypothesis =>
      exact inductionHypothesis split
  | arrived =>
      obtain ⟨rest, rfl, restSplit⟩ := exists_rest_of_cons_eq split nofun
      simp at restSplit
  | @spread step _ _ _ _ _ _ _ _ inductionHypothesis =>
      obtain ⟨rest, rfl, restSplit⟩ := exists_rest_of_cons_eq split nofun
      rcases List.cons_eq_append_iff.mp restSplit with ⟨rfl, isPut⟩ | ⟨last, rfl, lastSplit⟩
      · cases isPut
        exact ⟨[], step, rfl, rfl⟩
      · obtain ⟨before, other, rfl, receives⟩ := inductionHypothesis lastSplit
        exact ⟨_ :: _ :: before, other, rfl, receives⟩

theorem Runs.exists_first_visit_of_put
    (runs : Runs body targets steps worklist [] events found)
    (split : events = earlier ++ .put register :: later) :
    ∃ before step,
      earlier = before ++ [.visit step] ∧ step.receiver = register ∧
        step.position ∉ (visits before).map FlowStep.position := by
  obtain ⟨before, step, rfl, receives⟩ := runs.exists_visit_of_put split
  refine ⟨before, step, rfl, receives, fun isVisited => ?_⟩
  have once := runs.nodup_visits
  rw [split, visits_append, visits_append, List.append_assoc, List.map_append] at once
  exact (List.nodup_append.mp once).2.2 _ isVisited _ List.mem_cons_self rfl

/-- At every moment, the registers taken were on the worklist at the start, or are receivers of
different steps visited before. -/
theorem Runs.subperm_takes
    (runs : Runs body targets steps worklist recorded events found)
    (isBeginning : earlier <+: events) :
    (takes earlier).Subperm (worklist ++ (visits earlier).map FlowStep.receiver) := by
  induction runs generalizing earlier with
  | exhausted =>
      rw [List.prefix_nil.mp isBeginning]
      exact List.nil_subperm
  | @taken register _ _ _ _ _ inductionHypothesis =>
      rcases List.prefix_cons_iff.mp isBeginning with rfl | ⟨rest, rfl, restBegins⟩
      · exact List.nil_subperm
      · exact (List.subperm_cons register).mpr (inductionHypothesis restBegins)
  | passed _ _ inductionHypothesis =>
      exact inductionHypothesis isBeginning
  | arrived =>
      rcases List.prefix_cons_iff.mp isBeginning with rfl | ⟨rest, rfl, restBegins⟩
      · exact List.nil_subperm
      · rw [List.prefix_nil.mp restBegins]
        exact List.nil_subperm
  | spread _ _ _ inductionHypothesis =>
      rcases List.prefix_cons_iff.mp isBeginning with rfl | ⟨rest, rfl, restBegins⟩
      · exact List.nil_subperm
      · rcases List.prefix_cons_iff.mp restBegins with rfl | ⟨last, rfl, lastBegins⟩
        · exact List.nil_subperm
        · -- The receiver counts as on the worklist for what follows, and as visited from here.
          exact (inductionHypothesis lastBegins).trans List.perm_middle.symm.subperm

/-! ## Bounds -/

theorem Runs.lands_of_mem_visits
    (accepted : body.Accepted) (runs : Runs body targets [] worklist recorded events found) :
    ∀ step ∈ visits events, body.Lands step := by
  intro step isVisited
  rcases runs.mem_steps_or_exists_of_mem_visits step isVisited with absurdity | isLater
  · cases absurdity
  · obtain ⟨register, _, isStep⟩ := isLater
    exact (accepted.flowsTo_and_lands_of_mem_flowFrom isStep).2

theorem Runs.length_visits_le
    (accepted : body.Accepted) (runs : Runs body targets [] worklist [] events found) :
    (visits events).length ≤ body.size := by
  have inside : (visits events).map FlowStep.position ⊆ List.range body.size := by
    intro position isVisitedPosition
    obtain ⟨step, isVisited, rfl⟩ := List.mem_map.mp isVisitedPosition
    exact Body.position_mem_range (runs.lands_of_mem_visits accepted step isVisited)
  have bound := (List.subperm_of_subset runs.nodup_visits inside).length_le
  rwa [List.length_map, List.length_range] at bound

theorem Runs.length_takes_le
    (accepted : body.Accepted) (runs : Runs body targets [] worklist [] events found) :
    (takes events).length ≤ worklist.length + body.size := by
  calc
    (takes events).length
    _ ≤ (worklist ++ (visits events).map FlowStep.receiver).length :=
      (runs.subperm_takes List.prefix_rfl).length_le
    _ = worklist.length + (visits events).length := by
      rw [List.length_append, List.length_map]
    _ ≤ worklist.length + body.size :=
      Nat.add_le_add_left (runs.length_visits_le accepted) worklist.length

/-! ## The run of a search -/

/-- The positions of a body that are not recorded. -/
def unrecorded (body : Body) (recorded : List Nat) : List Nat :=
  (List.range body.size).filter (· ∉ recorded)

theorem visit_of_mem_recorded
    {step : FlowStep} (isRecorded : step.position ∈ recorded) :
    visit ⟨worklist, unrecorded body recorded⟩ step = ⟨worklist, unrecorded body recorded⟩ := by
  have isVisited : step.position ∉ unrecorded body recorded := by
    simp [unrecorded, isRecorded]
  rw [visit, if_neg isVisited]

theorem visit_of_notMem_recorded
    {step : FlowStep} (lands : body.Lands step) (isNew : step.position ∉ recorded) :
    visit ⟨worklist, unrecorded body recorded⟩ step =
      ⟨step.receiver :: worklist, unrecorded body (step.position :: recorded)⟩ := by
  have isUnvisited : step.position ∈ unrecorded body recorded := by
    simp [unrecorded, isNew, List.mem_range.mp (Body.position_mem_range lands)]
  have once : (unrecorded body recorded).Nodup := List.nodup_range.filter _
  have erased :
      (unrecorded body recorded).erase step.position =
        unrecorded body (step.position :: recorded) := by
    rw [once.erase_eq_filter, unrecorded, unrecorded, List.filter_filter]
    apply List.filter_congr
    intro position _
    rw [Bool.eq_iff_iff]
    simp
  rw [visit, if_pos isUnvisited, erased]

/-- A run that takes registers in the order of exploration, all of them unless it finds a target. -/
structure Follows
    (body : Body) (targets : RegisterSet) (steps : List FlowStep) (worklist : List RegisterVersion)
    (recorded : List Nat) (events : List Event) (found : Bool) : Prop where
  runs : Runs body targets steps worklist recorded events found
  begins :
    takes events <+: explored body (steps.foldl visit ⟨worklist, unrecorded body recorded⟩)
  exhausts :
    found = false →
      takes events = explored body (steps.foldl visit ⟨worklist, unrecorded body recorded⟩)

/-- The steps in front of a search lead to the state that exploration goes on from, unless one of
them arrives at a target. -/
theorem exists_follows_of_steps
    (targets : RegisterSet) (allLand : ∀ step ∈ steps, body.Lands step)
    (goesOn :
      ∀ others positions,
        steps.foldl visit ⟨worklist, unrecorded body recorded⟩ =
            ⟨others, unrecorded body positions⟩ →
          ∃ events found, Follows body targets [] others positions events found) :
    ∃ events found, Follows body targets steps worklist recorded events found := by
  induction steps generalizing worklist recorded with
  | nil =>
      exact goesOn worklist recorded rfl
  | cons step rest inductionHypothesis =>
      have lands := allLand step List.mem_cons_self
      have restLands := fun other isRest => allLand other (List.mem_cons_of_mem step isRest)
      by_cases isRecorded : step.position ∈ recorded
      · have stays :
            (step :: rest).foldl visit ⟨worklist, unrecorded body recorded⟩ =
              rest.foldl visit ⟨worklist, unrecorded body recorded⟩ :=
          congrArg (rest.foldl visit) (visit_of_mem_recorded isRecorded)
        rw [stays] at goesOn
        obtain ⟨events, found, follows⟩ := inductionHypothesis restLands goesOn
        refine ⟨events, found, .passed isRecorded follows.runs, ?_, ?_⟩
        · exact stays ▸ follows.begins
        · exact stays ▸ follows.exhausts
      · by_cases isTarget : step.receiver ∈ targets
        · exact ⟨_, _, .arrived isRecorded isTarget, List.nil_prefix, nofun⟩
        · have spreads :
              (step :: rest).foldl visit ⟨worklist, unrecorded body recorded⟩ =
                rest.foldl visit
                  ⟨step.receiver :: worklist, unrecorded body (step.position :: recorded)⟩ :=
            congrArg (rest.foldl visit) (visit_of_notMem_recorded lands isRecorded)
          rw [spreads] at goesOn
          obtain ⟨events, found, follows⟩ := inductionHypothesis restLands goesOn
          refine ⟨_, found, .spread isRecorded isTarget follows.runs, ?_, ?_⟩
          · exact spreads ▸ follows.begins
          · exact spreads ▸ follows.exhausts

/-- The induction is the recursion of exploration, which takes the same register next. -/
theorem exists_follows
    (accepted : body.Accepted) (targets : RegisterSet) (worklist : List RegisterVersion)
    (recorded : List Nat) :
    ∃ events found, Follows body targets [] worklist recorded events found := by
  generalize isSearch : (⟨worklist, unrecorded body recorded⟩ : FlowSearch) = search
  induction search using explored.induct body generalizing worklist recorded with
  | case1 unvisited =>
      cases isSearch
      refine ⟨[], false, .exhausted recorded, List.nil_prefix, fun _ => ?_⟩
      rw [List.foldl_nil, explored]
      rfl
  | case2 source rest unvisited inductionHypothesis =>
      cases isSearch
      have allLand : ∀ step ∈ body.flowFrom source, body.Lands step :=
        fun step isStep => (accepted.flowsTo_and_lands_of_mem_flowFrom isStep).2
      obtain ⟨events, found, follows⟩ :=
        exists_follows_of_steps targets allLand fun others positions isLater =>
          inductionHypothesis others positions isLater.symm
      refine ⟨_, found, .taken follows.runs, ?_, fun notFound => ?_⟩
      · rw [List.foldl_nil, explored]
        exact (List.prefix_cons_inj source).mpr follows.begins
      · rw [List.foldl_nil, explored]
        exact congrArg (source :: ·) (follows.exhausts notFound)

end FlowSearch

namespace Body

open FlowSearch

variable {body : Body} {targets : RegisterSet} {source : RegisterVersion} {events : List Event}
  {found : Bool}

theorem carriers_eq (body : Body) (source : RegisterVersion) :
    body.carriers source = explored body ⟨[source], unrecorded body []⟩ := by
  have noneRecorded : unrecorded body [] = List.range body.size := by
    simp [unrecorded]
  rw [carriers, noneRecorded]

theorem takes_isPrefix_carriers
    (follows : Follows body targets [] [source] [] events found) :
    takes events <+: body.carriers source := by
  rw [carriers_eq]
  exact follows.begins

theorem takes_eq_carriers
    (follows : Follows body targets [] [source] [] events found) (notFound : found = false) :
    takes events = body.carriers source := by
  rw [carriers_eq]
  exact follows.exhausts notFound

theorem Accepted.length_carriers_le
    (accepted : body.Accepted) (source : RegisterVersion) :
    (body.carriers source).length ≤ body.size + 1 := by
  obtain ⟨events, found, follows⟩ := exists_follows accepted ∅ [source] []
  have notFound : found = false := by
    rw [Bool.eq_false_iff, ne_eq, follows.runs.found_eq_true_iff]
    simp
  rw [← takes_eq_carriers follows notFound, Nat.add_comm]
  exact follows.runs.length_takes_le accepted

theorem flowsInto_eq_true_iff_arrives
    (body : Body) (targets : RegisterSet) (source : RegisterVersion) :
    body.flowsInto targets source = true ↔
      ∃ carrier ∈ body.carriers source, ∃ step ∈ body.flowFrom carrier,
        step.receiver ∈ targets := by
  simp only [flowsInto, List.any_eq_true, decide_eq_true_eq]

/-- What a search finds arrives from a carrier. Where it finds nothing, it has visited the positions
of all steps of all carriers, and steps to one position have one receiver. -/
theorem found_eq_flowsInto
    (accepted : body.Accepted) (follows : Follows body targets [] [source] [] events found) :
    found = body.flowsInto targets source := by
  cases found with
  | true =>
      obtain ⟨step, isVisited, isTarget⟩ := follows.runs.found_eq_true_iff.mp rfl
      rcases follows.runs.mem_steps_or_exists_of_mem_visits step isVisited with absurdity | isLater
      · cases absurdity
      · obtain ⟨carrier, isTaken, isStep⟩ := isLater
        have isCarrier := (takes_isPrefix_carriers follows).subset isTaken
        exact ((body.flowsInto_eq_true_iff_arrives targets source).mpr
          ⟨carrier, isCarrier, step, isStep, isTarget⟩).symm
  | false =>
      rw [eq_comm, Bool.eq_false_iff, ne_eq, flowsInto_eq_true_iff_arrives,
        ← takes_eq_carriers follows rfl]
      rintro ⟨carrier, isTaken, step, isStep, isTarget⟩
      have isRecorded :=
        follows.runs.position_mem_of_not_found rfl (Or.inr ⟨carrier, isTaken, isStep⟩)
      rw [List.append_nil] at isRecorded
      obtain ⟨other, isVisited, samePosition⟩ := List.mem_map.mp isRecorded
      have sameReceiver : other.receiver = step.receiver :=
        receiver_eq_of_position_eq (follows.runs.lands_of_mem_visits accepted other isVisited)
          (accepted.flowsTo_and_lands_of_mem_flowFrom isStep).2 samePosition
      have isFound :=
        follows.runs.found_eq_true_iff.mpr ⟨other, isVisited, sameReceiver ▸ isTarget⟩
      cases isFound

theorem searches_iff_of_isEmpty
    (isIdle : targets.isEmpty = true) (others : List Event) (other : Bool) :
    Searches body targets source others other ↔
      others = [] ∧ other = body.flowsInto targets source := by
  have noTarget : body.flowsInto targets source = false := by
    rw [Bool.eq_false_iff, ne_eq, flowsInto_eq_true_iff_arrives]
    rintro ⟨_, _, _, _, isTarget⟩
    exact Std.TreeSet.not_mem_of_isEmpty isIdle isTarget
  rw [noTarget]
  constructor
  · intro searches
    cases searches with
    | idle => exact ⟨rfl, rfl⟩
    | begun isBegun =>
        rw [isIdle] at isBegun
        cases isBegun
  · rintro ⟨rfl, rfl⟩
    exact .idle isIdle

theorem searches_iff_of_follows
    (accepted : body.Accepted) (isBegun : targets.isEmpty = false)
    (follows : Follows body targets [] [source] [] events found)
    (others : List Event) (other : Bool) :
    Searches body targets source others other ↔
      others = events ∧ other = body.flowsInto targets source := by
  rw [← found_eq_flowsInto accepted follows]
  constructor
  · intro searches
    cases searches with
    | idle isIdle =>
        rw [isBegun] at isIdle
        cases isIdle
    | begun _ otherRuns => exact follows.runs.unique otherRuns
  · rintro ⟨rfl, rfl⟩
    exact .begun isBegun follows.runs

/-- Every search comes to an end, by rules that have no bound, and gives the answer of `flowsInto`.
It takes registers from the worklist as exploration does, at most one more than the body has
instructions. It visits positions of the body only, none of them twice, and whatever is put on the
worklist is put there at a first visit. At every moment, what was taken is the source and receivers
of different visited steps, which the instructions at their positions assign. -/
theorem searches_visit_positions_once
    (accepted : body.Accepted) (targets : RegisterSet) (source : RegisterVersion) :
    (body.carriers source).length ≤ body.size + 1 ∧
      ∃ events,
        (∀ others found,
          Searches body targets source others found ↔
            others = events ∧ found = body.flowsInto targets source) ∧
          takes events <+: body.carriers source ∧
            (takes events).length ≤ body.size + 1 ∧
              ((visits events).map FlowStep.position).Nodup ∧
                (∀ step ∈ visits events, step.position < body.size ∧ body.Lands step) ∧
                  (∀ earlier register later,
                    events = earlier ++ .put register :: later →
                      ∃ before step,
                        earlier = before ++ [.visit step] ∧ step.receiver = register ∧
                          step.position ∉ (visits before).map FlowStep.position) ∧
                    ∀ earlier, earlier <+: events →
                      (takes earlier).Subperm
                        (source :: (visits earlier).map FlowStep.receiver) := by
  refine ⟨accepted.length_carriers_le source, ?_⟩
  cases isIdle : targets.isEmpty with
  | true =>
      refine ⟨[], searches_iff_of_isEmpty isIdle, List.nil_prefix, Nat.zero_le _, List.nodup_nil,
        nofun, fun earlier register later split => ?_, fun earlier isBeginning => ?_⟩
      · simp at split
      · rw [List.prefix_nil.mp isBeginning]
        exact List.nil_subperm
  | false =>
      obtain ⟨events, found, follows⟩ := exists_follows accepted targets [source] []
      have begins := takes_isPrefix_carriers follows
      refine ⟨events, searches_iff_of_follows accepted isIdle follows, begins, ?_,
        follows.runs.nodup_visits, fun step isVisited => ?_,
        fun earlier register later split => ?_, fun earlier isBeginning => ?_⟩
      · exact Nat.le_trans begins.length_le (accepted.length_carriers_le source)
      · have lands := follows.runs.lands_of_mem_visits accepted step isVisited
        exact ⟨List.mem_range.mp (position_mem_range lands), lands⟩
      · exact follows.runs.exists_first_visit_of_put split
      · exact follows.runs.subperm_takes isBeginning

/-- The loop of `loopWithStore`, with a second store to the place that is loaded, of the value that
was loaded. -/
def loopWithTwoStores : List Instruction :=
  loopWithStore ++ [⟨0, 0x1010, .store (.const 0x5000) (.register ⟨.rcx, 1⟩)⟩]

/-- The search for a register that is not there goes around the loop once and through memory once,
although both stores lead to the load. -/
theorem search_loopWithTwoStores :
    ∃ body events,
      ofBlocks 0x1000 loopWithTwoStores [.ofRange .entry 0 5] = .ok body ∧
        Searches body (.ofList [(⟨.rdx, 1⟩ : RegisterVersion)]) ⟨.rax, 1⟩ events false ∧
          takes events = [⟨.rax, 1⟩, ⟨.rax, 2⟩, ⟨.rax, 3⟩, ⟨.rcx, 1⟩] ∧
            visits events = [⟨0, ⟨.rax, 2⟩⟩, ⟨1, ⟨.rax, 3⟩⟩, ⟨3, ⟨.rcx, 1⟩⟩] ∧
              body.flowsInto (.ofList [(⟨.rdx, 1⟩ : RegisterVersion)]) ⟨.rax, 1⟩ = false ∧
                takes events <+: body.carriers ⟨.rax, 1⟩ := by
  have observed :
      (ofBlocks 0x1000 loopWithTwoStores [.ofRange .entry 0 5]).toOption.map
          (fun body =>
            (body.flowFrom ⟨.rax, 1⟩, body.flowFrom ⟨.rax, 2⟩, body.flowFrom ⟨.rax, 3⟩,
              body.flowFrom ⟨.rcx, 1⟩)) =
        some ([⟨0, ⟨.rax, 2⟩⟩], [⟨1, ⟨.rax, 3⟩⟩], [⟨0, ⟨.rax, 2⟩⟩, ⟨3, ⟨.rcx, 1⟩⟩],
          [⟨3, ⟨.rcx, 1⟩⟩]) := by
    decide +kernel
  obtain ⟨body, built, outcome⟩ := exists_ofBlocks_of_map_toOption observed
  simp only [Prod.mk.injEq] at outcome
  obtain ⟨fromStart, fromPhi, fromCopy, fromLoad⟩ := outcome
  have searches :
      Searches body (.ofList [(⟨.rdx, 1⟩ : RegisterVersion)]) ⟨.rax, 1⟩
        [.take ⟨.rax, 1⟩, .visit ⟨0, ⟨.rax, 2⟩⟩, .put ⟨.rax, 2⟩,
          .take ⟨.rax, 2⟩, .visit ⟨1, ⟨.rax, 3⟩⟩, .put ⟨.rax, 3⟩,
          .take ⟨.rax, 3⟩, .visit ⟨3, ⟨.rcx, 1⟩⟩, .put ⟨.rcx, 1⟩,
          .take ⟨.rcx, 1⟩]
        false := by
    refine .begun (by decide +kernel) (.taken ?_)
    rw [fromStart]
    refine .spread (by decide) (by decide +kernel) (.taken ?_)
    rw [fromPhi]
    refine .spread (by decide) (by decide +kernel) (.taken ?_)
    rw [fromCopy]
    refine .passed (by decide) (.spread (by decide) (by decide +kernel) (.taken ?_))
    rw [fromLoad]
    exact .passed (by decide) (.exhausted _)
  obtain ⟨_, events, searches_iff, begins, _⟩ :=
    searches_visit_positions_once ⟨_, _, _, built⟩ (.ofList [(⟨.rdx, 1⟩ : RegisterVersion)])
      ⟨.rax, 1⟩
  obtain ⟨rfl, notFound⟩ := (searches_iff _ _).mp searches
  exact ⟨body, _, built, searches, rfl, rfl, notFound.symm, begins⟩

end Body

end MainLocator
