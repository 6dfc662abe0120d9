import Mathlib.Data.List.Perm.Basic
import MainLocator.Proofs.Folding

/-!
# Runs of folding

All that folding does besides arithmetic is to ask for the values of registers, one after another.
Here the runs of such inquiries are given by rules that know no bound on the definitions inside each
other, and that write down when a definition is begun and when it is ended. Every expression has
exactly one run, `Body.fold` does what the run says, and no definition is begun twice in it.
-/

namespace MainLocator

open scoped List
open Folding (Step)

/-! ## Inquiries -/

/-- What is left to do in a folding: to end, with a value or without, or to ask for the value of a
register and go on if it has one. -/
inductive Inquiry where
  | give (value : Option Word)
  | ask (source : RegisterVersion) (next : Word → Inquiry)

namespace Inquiry

/-- Goes on where an inquiry ends with a value. -/
def andThen (next : Word → Inquiry) : Inquiry → Inquiry
  | give (some value) => next value
  | give none => give none
  | ask source rest => ask source fun value => (rest value).andThen next

/-- The step that an inquiry describes, given how to fold a register. -/
def perform (resolve : RegisterVersion → Step) : Inquiry → Step
  | give value => Folding.give value
  | ask source next => resolve source >>= fun value => (next value).perform resolve

/-- Only registers of the given kind are asked for. -/
def AsksOnly (allowed : RegisterVersion → Prop) : Inquiry → Prop
  | give _ => True
  | ask source next => allowed source ∧ ∀ value, (next value).AsksOnly allowed

/-- Asks for the sources of a phi, as far as they agree with the value of those in front. -/
def ofSources (agreed : Option Word) : List RegisterVersion → Inquiry
  | [] => give agreed
  | source :: rest =>
      ask source fun value =>
        if agreed.any (· ≠ value) then give none else ofSources (some value) rest

end Inquiry

/-- What folding asks for in an expression. -/
def Expression.inquiry : Expression → Inquiry
  | const value | pointer value => .give (some value)
  | zeroExtend operand | signExtend operand => operand.inquiry
  | add left right =>
      left.inquiry.andThen fun leftValue =>
        right.inquiry.andThen fun rightValue => .give (some (leftValue + rightValue))
  | subtract left right =>
      left.inquiry.andThen fun leftValue =>
        right.inquiry.andThen fun rightValue => .give (some (leftValue - rightValue))
  | register source => .ask source fun value => .give (some value)
  | partialRegister _ _ | load _ | undefined => .give none

namespace Inquiry

/-- What folding asks for in the definition of a register. -/
def ofDefinition : Option Operation → Inquiry
  | some (.assign _ source) => source.inquiry
  | some (.phi _ sources) => ofSources none sources
  | _ => give none

theorem perform_andThen
    (resolve : RegisterVersion → Step) (next : Word → Inquiry) (inquiry : Inquiry) :
    (inquiry.andThen next).perform resolve =
      inquiry.perform resolve >>= fun value => (next value).perform resolve := by
  induction inquiry with
  | give value =>
      cases value with
      | none => rfl
      | some word => rfl
  | ask source rest inductionHypothesis =>
      simp only [andThen, perform, inductionHypothesis, bind_assoc]

theorem perform_inquiry (resolve : RegisterVersion → Step) (expression : Expression) :
    expression.inquiry.perform resolve = expression.fold resolve := by
  induction expression with
  | const | pointer | partialRegister | load | undefined =>
      rfl
  | register source =>
      exact bind_pure (resolve source)
  | zeroExtend operand inductionHypothesis | signExtend operand inductionHypothesis =>
      exact inductionHypothesis
  | add left right leftHypothesis rightHypothesis
  | subtract left right leftHypothesis rightHypothesis =>
      simp only [Expression.inquiry, Expression.fold, perform_andThen, leftHypothesis,
        rightHypothesis]
      rfl

theorem perform_ofSources
    (resolve : RegisterVersion → Step) (sources : List RegisterVersion) (agreed : Option Word) :
    (ofSources agreed sources).perform resolve = Folding.agree resolve agreed sources := by
  induction sources generalizing agreed with
  | nil =>
      rfl
  | cons source rest inductionHypothesis =>
      simp only [ofSources, perform, Folding.agree]
      congr 1
      funext value
      by_cases differs : agreed.any (· ≠ value)
      · rw [if_pos differs, if_pos differs]
        rfl
      · rw [if_neg differs, if_neg differs, inductionHypothesis]

theorem perform_ofDefinition
    (resolve : RegisterVersion → Step) (operation : Option Operation) :
    (ofDefinition operation).perform resolve = Folding.definition resolve operation := by
  cases operation with
  | none => rfl
  | some performed =>
      cases performed with
      | assign target source => exact perform_inquiry resolve source
      | phi target sources => exact perform_ofSources resolve sources none
      | _ => rfl

end Inquiry

namespace Inquiry

variable {allowed : RegisterVersion → Prop}

theorem asksOnly_andThen
    {next : Word → Inquiry} (nextAsks : ∀ value, (next value).AsksOnly allowed)
    {inquiry : Inquiry} (asks : inquiry.AsksOnly allowed) :
    (inquiry.andThen next).AsksOnly allowed := by
  induction inquiry with
  | give value =>
      cases value with
      | none => trivial
      | some word => exact nextAsks word
  | ask source rest inductionHypothesis =>
      exact ⟨asks.1, fun value => inductionHypothesis value (asks.2 value)⟩

theorem asksOnly_inquiry
    (expression : Expression) (allReads : ∀ source ∈ expression.reads, allowed source) :
    expression.inquiry.AsksOnly allowed := by
  induction expression with
  | const | pointer | partialRegister | load | undefined =>
      trivial
  | register source =>
      exact ⟨allReads source (List.mem_singleton_self source), fun _ => trivial⟩
  | zeroExtend operand inductionHypothesis | signExtend operand inductionHypothesis =>
      exact inductionHypothesis allReads
  | add left right leftHypothesis rightHypothesis
  | subtract left right leftHypothesis rightHypothesis =>
      have leftAsks := leftHypothesis fun source isRead =>
        allReads source (List.mem_append_left right.reads isRead)
      have rightAsks := rightHypothesis fun source isRead =>
        allReads source (List.mem_append_right left.reads isRead)
      rw [Expression.inquiry]
      refine asksOnly_andThen (fun leftValue => ?_) leftAsks
      refine asksOnly_andThen (fun rightValue => ?_) rightAsks
      trivial

theorem asksOnly_ofSources
    (sources : List RegisterVersion) (agreed : Option Word)
    (allSources : ∀ source ∈ sources, allowed source) :
    (ofSources agreed sources).AsksOnly allowed := by
  induction sources generalizing agreed with
  | nil =>
      trivial
  | cons source rest inductionHypothesis =>
      refine ⟨allSources source List.mem_cons_self, fun value => ?_⟩
      by_cases differs : agreed.any (· ≠ value)
      · simp only [differs, if_true]
        trivial
      · simp only [differs]
        refine inductionHypothesis (some value) fun other isLater => ?_
        exact allSources other (List.mem_cons_of_mem source isLater)

theorem asksOnly_ofDefinition
    (operation : Option Operation)
    (allReads :
      ∀ performed ∈ operation, performed.assigned?.isSome →
        ∀ source ∈ performed.reads, allowed source) :
    (ofDefinition operation).AsksOnly allowed := by
  cases operation with
  | none => trivial
  | some performed =>
      cases performed with
      | assign target source => exact asksOnly_inquiry source (allReads _ rfl rfl)
      | phi target sources => exact asksOnly_ofSources sources none (allReads _ rfl rfl)
      | _ => trivial

end Inquiry

/-! ## Runs -/

namespace Folding

/-- What happens in a run of folding. -/
inductive Event where
  | enter (target : RegisterVersion)
  | leave (target : RegisterVersion) (value : Option Word)
  deriving DecidableEq

/-- The folding after an event. -/
def after (folding : Folding) : Event → Folding
  | .enter target => folding.enter target
  | .leave target value => folding.leave target value

/-- The folding after some events. -/
def replay (folding : Folding) (events : List Event) : Folding :=
  events.foldl after folding

/-- The foldings from the start of some events to their end. -/
def moments (folding : Folding) (events : List Event) : List Folding :=
  events.scanl after folding

/-- The registers whose definitions are entered, in order. -/
def entries : List Event → List RegisterVersion
  | [] => []
  | .enter target :: later => target :: entries later
  | .leave _ _ :: later => entries later

/-- The inquiry makes the events happen and ends with the result. A register that is finished is
answered from memory, one that is pending has no value, and any other is entered: its definition is
asked for, and what comes of it remembered. -/
inductive Runs (body : Body) : Folding → Inquiry → List Event → Option Word → Prop where
  | give (folding : Folding) (result : Option Word) :
      Runs body folding (.give result) [] result
  | finished
      {folding : Folding} {source : RegisterVersion} {next : Word → Inquiry}
      {value result : Option Word} {events : List Event} :
      folding.finished.lookup source = some value →
      Runs body folding ((Inquiry.give value).andThen next) events result →
      Runs body folding (.ask source next) events result
  | pending
      {folding : Folding} {source : RegisterVersion} {next : Word → Inquiry} :
      folding.finished.lookup source = none →
      source ∈ folding.pending →
      Runs body folding (.ask source next) [] none
  | entered
      {folding : Folding} {source : RegisterVersion} {next : Word → Inquiry}
      {value result : Option Word} {inner later : List Event} :
      folding.finished.lookup source = none →
      source ∉ folding.pending →
      Runs body (folding.enter source)
        (.ofDefinition (Instruction.operation <$> body.definition? source)) inner value →
      Runs body (((folding.enter source).replay inner).leave source value)
        ((Inquiry.give value).andThen next) later result →
      Runs body folding (.ask source next)
        (.enter source :: inner ++ .leave source value :: later) result

variable {body : Body} {folding : Folding} {inquiry : Inquiry} {events inner later : List Event}
  {result value : Option Word} {depth : Nat} {source : RegisterVersion} {next : Word → Inquiry}

theorem replay_mem_moments (folding : Folding) (events : List Event) :
    folding.replay events ∈ folding.moments events := by
  induction events generalizing folding with
  | nil =>
      rw [moments, List.scanl_nil]
      exact List.mem_singleton_self folding
  | cons event later inductionHypothesis =>
      rw [moments, List.scanl_cons]
      exact List.mem_cons_of_mem folding (inductionHypothesis (folding.after event))

theorem replay_entered
    (folding : Folding) (source : RegisterVersion) (value : Option Word)
    (inner later : List Event) :
    folding.replay (.enter source :: inner ++ .leave source value :: later) =
      (((folding.enter source).replay inner).leave source value).replay later := by
  simp only [replay, List.cons_append, List.foldl_cons, List.foldl_append, after]

theorem mem_moments_entered
    {moment : Folding}
    (isMoment :
      moment ∈ folding.moments (.enter source :: inner ++ .leave source value :: later)) :
    moment = folding ∨ moment ∈ (folding.enter source).moments inner ∨
      moment ∈ (((folding.enter source).replay inner).leave source value).moments later := by
  rw [moments, List.cons_append, List.scanl_cons, List.mem_cons, List.scanl_append,
    List.mem_append] at isMoment
  rcases isMoment with isStart | isInner | isLater
  · exact Or.inl isStart
  · exact Or.inr (Or.inl isInner)
  · rw [List.scanl_cons, List.tail_cons] at isLater
    exact Or.inr (Or.inr isLater)

/-- There is at most one run: whether a register is finished, pending or neither tells the rule. -/
theorem Runs.unique
    {otherEvents : List Event} {otherResult : Option Word}
    (runs : Runs body folding inquiry events result)
    (otherRuns : Runs body folding inquiry otherEvents otherResult) :
    events = otherEvents ∧ result = otherResult := by
  induction runs generalizing otherEvents otherResult with
  | give =>
      cases otherRuns
      exact ⟨rfl, rfl⟩
  | finished isFinished _ inductionHypothesis =>
      cases otherRuns with
      | finished isSame otherLater =>
          rw [isFinished] at isSame
          cases isSame
          exact inductionHypothesis otherLater
      | pending unfinished | entered unfinished =>
          rw [isFinished] at unfinished
          cases unfinished
  | pending unfinished isPending =>
      cases otherRuns with
      | finished isFinished =>
          rw [unfinished] at isFinished
          cases isFinished
      | pending => exact ⟨rfl, rfl⟩
      | entered _ notPending => exact absurd isPending notPending
  | entered unfinished notPending _ _ innerHypothesis laterHypothesis =>
      cases otherRuns with
      | finished isFinished =>
          rw [unfinished] at isFinished
          cases isFinished
      | pending _ isPending => exact absurd isPending notPending
      | entered _ _ otherInner otherLater =>
          obtain ⟨rfl, rfl⟩ := innerHypothesis otherInner
          obtain ⟨rfl, rfl⟩ := laterHypothesis otherLater
          exact ⟨rfl, rfl⟩

/-! ## The run of an expression -/

theorem run_perform_ask
    (resolve : RegisterVersion → Step) (source : RegisterVersion) (next : Word → Inquiry)
    (folding : Folding) :
    ((Inquiry.ask source next).perform resolve).run folding =
      (((Inquiry.give ((resolve source).run folding).1).andThen next).perform resolve).run
        ((resolve source).run folding).2 := by
  rw [Inquiry.perform, run_bind]
  cases ((resolve source).run folding).1 with
  | none => rfl
  | some value => rfl

theorem run_register_entered
    (unfinished : folding.finished.lookup source = none) (notPending : source ∉ folding.pending)
    (performs :
      ((Inquiry.ofDefinition (Instruction.operation <$> body.definition? source)).perform
        (register body depth)).run (folding.enter source) =
          (value, (folding.enter source).replay inner)) :
    (register body (depth + 1) source).run folding =
      (value, ((folding.enter source).replay inner).leave source value) := by
  rw [Inquiry.perform_ofDefinition] at performs
  rw [run_register, unfinished]
  simp only [notPending, if_false, performs]

/-- A run that the step with the given depth follows, and that remembers only what is right. -/
structure Follows
    (body : Body) (depth : Nat) (folding : Folding) (inquiry : Inquiry) (events : List Event)
    (result : Option Word) : Prop where
  runs : Runs body folding inquiry events result
  performs : (inquiry.perform (register body depth)).run folding = (result, folding.replay events)
  consistent : ∀ moment ∈ folding.moments events, Consistent body moment

theorem Follows.runs_iff
    (follows : Follows body depth folding inquiry events result)
    (others : List Event) (other : Option Word) :
    Runs body folding inquiry others other ↔ others = events ∧ other = result := by
  constructor
  · intro otherRuns
    exact otherRuns.unique follows.runs
  · rintro ⟨rfl, rfl⟩
    exact follows.runs

theorem follows_give
    (depth : Nat) (result : Option Word) (consistent : folding.Consistent body) :
    Follows body depth folding (.give result) [] result where
  runs := .give folding result
  performs := rfl
  consistent := by
    intro moment isMoment
    rw [moments, List.scanl_nil, List.mem_singleton] at isMoment
    rwa [isMoment]

theorem follows_finished
    (isFinished : folding.finished.lookup source = some value)
    (follows :
      Follows body (depth + 1) folding ((Inquiry.give value).andThen next) events result) :
    Follows body (depth + 1) folding (.ask source next) events result where
  runs := .finished isFinished follows.runs
  performs := by
    rw [run_perform_ask, run_register, isFinished]
    exact follows.performs
  consistent := follows.consistent

theorem follows_pending
    (consistent : folding.Consistent body)
    (unfinished : folding.finished.lookup source = none) (isPending : source ∈ folding.pending) :
    Follows body (depth + 1) folding (.ask source next) [] none where
  runs := .pending unfinished isPending
  performs := by
    rw [run_perform_ask, run_register, unfinished]
    simp only [isPending, if_true]
    rfl
  consistent := (follows_give depth none consistent).consistent

/-- Where a register is entered, its definition is followed, and then what is asked for next. -/
theorem follows_entered
    (consistent : folding.Consistent body)
    (unfinished : folding.finished.lookup source = none) (notPending : source ∉ folding.pending)
    (innerFollows :
      Follows body depth (folding.enter source)
        (.ofDefinition (Instruction.operation <$> body.definition? source)) inner value)
    (laterFollows :
      Follows body (depth + 1) (((folding.enter source).replay inner).leave source value)
        ((Inquiry.give value).andThen next) later result) :
    Follows body (depth + 1) folding (.ask source next)
      (.enter source :: inner ++ .leave source value :: later) result where
  runs := .entered unfinished notPending innerFollows.runs laterFollows.runs
  performs := by
    rw [run_perform_ask, run_register_entered unfinished notPending innerFollows.performs,
      replay_entered]
    exact laterFollows.performs
  consistent := by
    intro moment isMoment
    rcases mem_moments_entered isMoment with rfl | isInner | isLater
    · exact consistent
    · exact innerFollows.consistent moment isInner
    · exact laterFollows.consistent moment isLater

/-- Where all pending registers lead to a register, they and it lead to all that its definition asks
for. -/
theorem asksOnly_leading
    (accepted : body.Accepted) {pending : List RegisterVersion}
    (leads : ∀ register ∈ pending, Relation.TransGen body.DependsOn register source) :
    (Inquiry.ofDefinition (Instruction.operation <$> body.definition? source)).AsksOnly
      fun read =>
        ∀ register ∈ source :: pending, Relation.TransGen body.DependsOn register read := by
  refine Inquiry.asksOnly_ofDefinition _ fun operation isDefined assigns read isRead => ?_
  exact leads_cons leads (accepted.dependsOn_of_definition? isDefined assigns isRead)

/-- An inquiry has a run if all pending registers lead to those it asks for. The outer induction is
on the definitions that may still be entered, of which there are enough, the inner one on the rest
of the inquiry. -/
theorem exists_follows
    (accepted : body.Accepted) (depth : Nat) (pending : List RegisterVersion)
    (room : pending.length + depth = body.size + 1)
    (asks :
      inquiry.AsksOnly fun source =>
        ∀ register ∈ pending, Relation.TransGen body.DependsOn register source)
    (consistent : folding.Consistent body) (isPending : folding.pending = pending) :
    ∃ events result, Follows body depth folding inquiry events result := by
  induction depth generalizing pending inquiry folding with
  | zero =>
      cases inquiry with
      | give value =>
          exact ⟨[], value, follows_give 0 value consistent⟩
      | ask source next =>
          have bound := consistent.length_pending_le (isPending ▸ asks.1)
          rw [isPending] at bound
          omega
  | succ depth entering =>
      induction inquiry generalizing folding with
      | give value =>
          exact ⟨[], value, follows_give (depth + 1) value consistent⟩
      | ask source next goingOn =>
          obtain ⟨leads, nextAsks⟩ := asks
          have goesOn (value : Option Word) (later : Folding)
              (laterConsistent : later.Consistent body) (laterPending : later.pending = pending) :
              ∃ events result,
                Follows body (depth + 1) later ((Inquiry.give value).andThen next) events
                  result := by
            cases value with
            | none => exact ⟨[], none, follows_give (depth + 1) none laterConsistent⟩
            | some word => exact goingOn word (nextAsks word) laterConsistent laterPending
          cases finished : folding.finished.lookup source with
          | some value =>
              obtain ⟨events, result, follows⟩ := goesOn value folding consistent isPending
              exact ⟨events, result, follows_finished finished follows⟩
          | none =>
              by_cases loops : source ∈ folding.pending
              · exact ⟨[], none, follows_pending consistent finished loops⟩
              · obtain ⟨inner, value, innerFollows⟩ :=
                  entering (source :: pending) (by rw [List.length_cons]; omega)
                    (asksOnly_leading accepted leads) (consistent.enter finished loops)
                    (by rw [enter, isPending])
                have settles :=
                  settles_register accepted (depth + 1) source room leads folding consistent
                    isPending
                rw [run_register_entered finished loops innerFollows.performs] at settles
                obtain ⟨later, result, laterFollows⟩ := goesOn value _ settles.2.1 settles.2.2
                exact ⟨_, result,
                  follows_entered consistent finished loops innerFollows laterFollows⟩

/-! ## Definitions that are entered -/

theorem entries_append (earlier later : List Event) :
    entries (earlier ++ later) = entries earlier ++ entries later := by
  induction earlier with
  | nil => rfl
  | cons event rest inductionHypothesis =>
      cases event with
      | enter target => exact congrArg (target :: ·) inductionHypothesis
      | leave target value => exact inductionHypothesis

/-- What a run finishes are the definitions that it enters. -/
theorem Runs.finished_perm (runs : Runs body folding inquiry events result) :
    ((folding.replay events).finished.map Prod.fst).Perm
      (entries events ++ folding.finished.map Prod.fst) := by
  induction runs with
  | give | pending =>
      exact .refl _
  | finished _ _ inductionHypothesis =>
      exact inductionHypothesis
  | @entered folding source _ value _ inner later _ _ _ _ innerHypothesis laterHypothesis =>
      have front :
          entries (.enter source :: inner ++ .leave source value :: later) =
            source :: (entries inner ++ entries later) :=
        congrArg (source :: ·) (entries_append inner (.leave source value :: later))
      rw [replay_entered, front, List.cons_append, List.append_assoc]
      calc
        ((((folding.enter source).replay inner).leave source value).replay later).finished.map
              Prod.fst ~
            entries later ++
              source :: ((folding.enter source).replay inner).finished.map Prod.fst :=
          laterHypothesis
        _ ~ source ::
              (entries later ++ ((folding.enter source).replay inner).finished.map Prod.fst) :=
          List.perm_middle
        _ ~ source :: (entries later ++ (entries inner ++ folding.finished.map Prod.fst)) :=
          (innerHypothesis.append_left (entries later)).cons source
        _ ~ source :: (entries inner ++ (entries later ++ folding.finished.map Prod.fst)) :=
          (List.perm_append_comm_assoc _ _ _).cons source

end Folding

namespace Body

variable {body : Body}

/-- After any other foldings, an expression has one run, and `Body.fold` follows it. -/
theorem Accepted.exists_follows
    (accepted : body.Accepted) (expression : Expression) {folding : Folding}
    (consistent : folding.Consistent body) (nonePending : folding.pending = []) :
    ∃ events,
      Folding.Follows body (body.size + 1) folding expression.inquiry events
        (body.valueOf? expression) := by
  have asks :
      expression.inquiry.AsksOnly fun source =>
        ∀ register ∈ [], Relation.TransGen body.DependsOn register source :=
    Inquiry.asksOnly_inquiry expression fun source _ register absurdity => by cases absurdity
  obtain ⟨events, result, follows⟩ :=
    Folding.exists_follows accepted (body.size + 1) [] (by simp) asks consistent nonePending
  have performs := follows.performs
  rw [Inquiry.perform_inquiry] at performs
  obtain ⟨settles, _⟩ :=
    Folding.settles_body_fold accepted expression folding consistent nonePending
  obtain rfl : result = body.valueOf? expression := by
    apply Option.ext
    intro value
    rw [accepted.valueOf?_eq_some_iff, ← settles, fold, performs]
  exact ⟨events, follows⟩

/-- Folding an expression comes to an end and enters no definition twice. The one run of the
expression is finite by rules that have no bound on the definitions inside each other, and the
folding with its bound does the same. What it finishes are the definitions it enters, in whatever
order and on however many paths their registers are met. -/
theorem definitions_are_folded_once
    (accepted : body.Accepted) (expression : Expression) :
    ∃ events,
      (∀ others result,
        Folding.Runs body {} expression.inquiry others result ↔
          others = events ∧ result = body.valueOf? expression) ∧
        (body.fold expression).run {} =
            (body.valueOf? expression, Folding.replay {} events) ∧
          (Folding.entries events).Nodup ∧
            ((Folding.replay {} events).finished.map Prod.fst).Perm (Folding.entries events) := by
  obtain ⟨events, follows⟩ :=
    accepted.exists_follows expression (Folding.consistent_start body) rfl
  have performs := follows.performs
  rw [Inquiry.perform_inquiry] at performs
  have finished :
      ((Folding.replay {} events).finished.map Prod.fst).Perm (Folding.entries events) := by
    have perm := follows.runs.finished_perm
    rwa [List.map_nil, List.append_nil] at perm
  have atEnd : (Folding.replay {} events).Consistent body :=
    follows.consistent _ (Folding.replay_mem_moments _ _)
  refine ⟨events, follows.runs_iff, performs, ?_, finished⟩
  exact finished.nodup_iff.mp (List.nodup_append.mp atEnd.once).1

/-- One register is met as a source twice and again behind a cycle. -/
theorem folded_once_mergeBesideLoop :
    ∃ body events,
      ofBlocks 0x1000 mergeBesideLoop [.ofRange .entry 0 4] = .ok body ∧
        Folding.Runs body {}
          (Expression.add (.register ⟨.rcx, 2⟩) (.register ⟨.rax, 3⟩)).inquiry events none ∧
          (Folding.entries events).Nodup ∧
            [⟨.rax, 3⟩, ⟨.rax, 2⟩, ⟨.rcx, 2⟩, ⟨.rcx, 1⟩].Perm (Folding.entries events) := by
  have observed :
      (ofBlocks 0x1000 mergeBesideLoop [.ofRange .entry 0 4]).toOption.map
          (fun body =>
            let result := (body.fold (.add (.register ⟨.rcx, 2⟩) (.register ⟨.rax, 3⟩))).run {}
            (result.1, result.2.finished.map Prod.fst)) =
        some (none, [⟨.rax, 3⟩, ⟨.rax, 2⟩, ⟨.rcx, 2⟩, ⟨.rcx, 1⟩]) := by
    decide +kernel
  obtain ⟨body, built, outcome⟩ := exists_ofBlocks_of_map_toOption observed
  obtain ⟨noValue, finished⟩ := Prod.mk.inj outcome
  obtain ⟨events, runs_iff, performs, once, perm⟩ :=
    definitions_are_folded_once ⟨_, _, _, built⟩
      (.add (.register ⟨.rcx, 2⟩) (.register ⟨.rax, 3⟩))
  rw [performs] at noValue finished
  refine ⟨body, events, built, (runs_iff events none).mpr ⟨rfl, noValue.symm⟩, once, ?_⟩
  rwa [finished] at perm

end Body

end MainLocator
