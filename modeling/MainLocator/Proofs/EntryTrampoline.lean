import MainLocator.Proofs.Folding
import MainLocator.Proofs.ReachingVersions
import MainLocator.Proofs.UncalledProcedures

/-!
# Start-up routines and their trampolines

What the heuristic of the start-up routine proposes, said by rules. A body of the routine leads to
main when the last of its calls goes to a trampoline, and no other call is tried in its place. Of
several bodies at one address the first that leads anywhere counts. A procedure that is the start-up
routine by its own symbol answers for itself, even where the program knows of others.
-/

namespace MainLocator

/-- What a search along a list finds is said by a rule that agrees with its test on the elements. -/
theorem findSome?_eq_some_iff_of_spec
    {α β : Type} {answer : α → Option β} {spec : α → β → Prop} {list : List α}
    (agrees : ∀ element ∈ list, ∀ found, answer element = some found ↔ spec element found)
    (found : β) :
    list.findSome? answer = some found ↔
      ∃ front element back,
        list = front ++ element :: back ∧
          (∀ earlier ∈ front, ∀ other, ¬ spec earlier other) ∧ spec element found := by
  rw [List.findSome?_eq_some_iff]
  constructor
  · intro search
    obtain ⟨front, element, back, rfl, isFound, silent⟩ := search
    refine ⟨front, element, back, rfl, fun earlier inFront other holds => ?_, ?_⟩
    · have isAnswered := (agrees earlier (List.mem_append_left _ inFront) other).mpr holds
      rw [silent earlier inFront] at isAnswered
      cases isAnswered
    · exact (agrees element (by simp) found).mp isFound
  · intro isFirst
    obtain ⟨front, element, back, rfl, silent, holds⟩ := isFirst
    refine ⟨front, element, back, rfl, (agrees element (by simp) found).mpr holds, ?_⟩
    intro earlier inFront
    apply Option.eq_none_iff_forall_ne_some.mpr
    intro other isAnswered
    apply silent earlier inFront other
    exact (agrees earlier (List.mem_append_left _ inFront) other).mp isAnswered

namespace Body

/-- Of the calls of a body that return, the last has the operands. -/
def CallsLast (body : Body) (operands : CallOperands) : Prop :=
  ∃ front call back,
    body.instructions.toList = front ++ call :: back ∧ call.operation = .call operands ∧
      ∀ later ∈ back, ∀ others, later.operation ≠ .call others

/-- The body is a single tail call with the constant target `target`. -/
def IsTrampoline (body : Body) (target : Word) : Prop :=
  ∃ instruction operands,
    body.instructions = #[instruction] ∧ instruction.operation = .tailCall operands ∧
      body.Evaluates operands.target target

end Body

theorem Operation.isCall_eq_true_iff (operation : Operation) :
    operation.isCall = true ↔ ∃ operands, operation = .call operands := by
  cases operation with
  | call performed =>
      simp [isCall]
  | _ =>
      simp [isCall]

namespace Program

section Rules

variable (program : Program)

/-- The last call of a start-up routine goes to a procedure of the program's own platform that is a
trampoline to `target`. -/
def StartsAt (starter : Body) (target : Word) : Prop :=
  ∃ operands place trampoline body,
    starter.CallsLast operands ∧ starter.Evaluates operands.target place ∧
      program.ownProcedureAt? place = some trampoline ∧ trampoline.body = some body ∧
        body.IsTrampoline target

/-- The bodies that a procedure has the start-up routine looked for in, in their order. -/
inductive Starters (procedure : Procedure) : List Body → Prop where
  /-- It is the start-up routine itself. -/
  | own {symbol : Symbol} :
      procedure.symbol = some symbol →
      symbol.rawName = "invoke_main" →
      Starters procedure procedure.body.toList
  | named {symbol : Symbol} :
      (∀ own, procedure.symbol = some own → own.rawName ≠ "invoke_main") →
      program.symbolNamed? "invoke_main" = some symbol →
      Starters procedure
        ((program.procedures.filter (·.start = symbol.address)).filterMap Procedure.body)
  | unknown :
      (∀ own, procedure.symbol = some own → own.rawName ≠ "invoke_main") →
      program.symbolNamed? "invoke_main" = none →
      Starters procedure []

/-- The first of the bodies that leads to main at all leads to `target`. -/
def FirstStartsAt (starters : List Body) (target : Word) : Prop :=
  ∃ front starter back,
    starters = front ++ starter :: back ∧
      (∀ earlier ∈ front, ∀ other, ¬ program.StartsAt earlier other) ∧
        program.StartsAt starter target

end Rules

variable {program : Program}

theorem Starters.unique
    {procedure : Procedure} {left right : List Body}
    (isLeft : program.Starters procedure left) (isRight : program.Starters procedure right) :
    left = right := by
  cases isLeft with
  | own isSymbol hasName =>
      cases isRight with
      | own => rfl
      | named notNamed | unknown notNamed => exact absurd hasName (notNamed _ isSymbol)
  | named notNamed isStarter =>
      cases isRight with
      | own isSymbol hasName => exact absurd hasName (notNamed _ isSymbol)
      | named _ isOther =>
          rw [isStarter] at isOther
          cases isOther
          rfl
      | unknown _ isUnknown =>
          rw [isStarter] at isUnknown
          cases isUnknown
  | unknown notNamed isUnknown =>
      cases isRight with
      | own isSymbol hasName => exact absurd hasName (notNamed _ isSymbol)
      | named _ isStarter =>
          rw [isUnknown] at isStarter
          cases isStarter
      | unknown => rfl

theorem Starters.exists_body
    {procedure : Procedure} {starters : List Body}
    (isStarters : program.Starters procedure starters)
    {starter : Body} (isStarter : starter ∈ starters) :
    ∃ other ∈ procedure :: program.procedures, other.body = some starter := by
  cases isStarters with
  | own =>
      exact ⟨procedure, List.mem_cons_self, Option.mem_toList.mp isStarter⟩
  | named =>
      obtain ⟨other, isThere, isBody⟩ := List.mem_filterMap.mp isStarter
      exact ⟨other, List.mem_cons_of_mem _ (List.mem_of_mem_filter isThere), isBody⟩
  | unknown =>
      cases isStarter

theorem mem_procedures_of_ownProcedureAt?
    {address : Word} {procedure : Procedure}
    (isOwn : program.ownProcedureAt? address = some procedure) :
    procedure ∈ program.procedures :=
  List.mem_of_mem_filter (List.mem_of_find?_eq_some isOwn)

end Program

namespace Heuristic

variable {program : Program} {settings : Settings} {procedure : Procedure}

theorem exists_find?_isCall_iff (body : Body) (operands : CallOperands) :
    (∃ call,
        body.instructions.toList.reverse.find? (·.operation.isCall) = some call ∧
          call.operation.callOperands? = some operands) ↔
      body.CallsLast operands := by
  constructor
  · intro search
    obtain ⟨call, isLast, hasOperands⟩ := search
    obtain ⟨isCall, behind, ahead, split, silent⟩ := List.find?_eq_some_iff_append.mp isLast
    obtain ⟨performed, operation⟩ := (Operation.isCall_eq_true_iff _).mp isCall
    rw [operation] at hasOperands
    cases hasOperands
    refine ⟨ahead.reverse, call, behind.reverse, ?_, operation, fun later isLater others same => ?_⟩
    · rw [← List.reverse_reverse body.instructions.toList, split]
      simp
    · have isSilent := silent later (List.mem_reverse.mp isLater)
      rw [same] at isSilent
      cases isSilent
  · intro callsLast
    obtain ⟨front, call, back, split, operation, isLast⟩ := callsLast
    refine ⟨call, List.find?_eq_some_iff_append.mpr ?_, by rw [operation]; rfl⟩
    refine ⟨(Operation.isCall_eq_true_iff _).mpr ⟨operands, operation⟩, back.reverse,
      front.reverse, by simp [split], fun later isLater => ?_⟩
    rw [Bool.not_eq_true', ← Bool.not_eq_true, Operation.isCall_eq_true_iff]
    intro isCall
    obtain ⟨others, same⟩ := isCall
    exact isLast later (List.mem_reverse.mp isLater) others same

theorem trampolineTarget?_eq_some_iff_isTrampoline
    {body : Body} (accepted : body.Accepted) (target : Word) :
    trampolineTarget? body = some target ↔ body.IsTrampoline target := by
  simp only [trampolineTarget?_eq_some_iff, Body.IsTrampoline, accepted.valueOf?_eq_some_iff]

theorem starterTarget?_eq_some_iff
    (known : ∀ other ∈ program.procedures, ∀ body, other.body = some body → body.Accepted)
    {starter : Body} (accepted : starter.Accepted) (target : Word) :
    starterTarget? program starter = some target ↔ program.StartsAt starter target := by
  simp only [starterTarget?, Option.bind_eq_bind, Option.bind_eq_some_iff, Program.StartsAt,
    ← exists_find?_isCall_iff, accepted.valueOf?_eq_some_iff]
  constructor
  · intro starts
    obtain ⟨call, isLast, operands, hasOperands, place, evaluates, trampoline, isOwn, body, isBody,
      isTarget⟩ := starts
    have isProcedure := Program.mem_procedures_of_ownProcedureAt? isOwn
    have isAccepted := known trampoline isProcedure body isBody
    exact ⟨operands, place, trampoline, body, ⟨call, isLast, hasOperands⟩, evaluates, isOwn, isBody,
      (trampolineTarget?_eq_some_iff_isTrampoline isAccepted target).mp isTarget⟩
  · intro starts
    obtain ⟨operands, place, trampoline, body, ⟨call, isLast, hasOperands⟩, evaluates, isOwn,
      isBody, isTrampoline⟩ := starts
    have isProcedure := Program.mem_procedures_of_ownProcedureAt? isOwn
    have isAccepted := known trampoline isProcedure body isBody
    exact ⟨call, isLast, operands, hasOperands, place, evaluates, trampoline, isOwn, body, isBody,
      (trampolineTarget?_eq_some_iff_isTrampoline isAccepted target).mpr isTrampoline⟩

theorem starters_starterBodies (program : Program) (procedure : Procedure) :
    program.Starters procedure (starterBodies program procedure) := by
  rw [starterBodies]
  split
  · rename_i isStarter
    obtain ⟨symbol, isSymbol, hasName⟩ := (Option.any_eq_true _ _).mp isStarter
    exact .own isSymbol (of_decide_eq_true hasName)
  · rename_i notStarter
    have notNamed : ∀ own, procedure.symbol = some own → own.rawName ≠ "invoke_main" := by
      intro own isSymbol hasName
      apply notStarter
      rw [isSymbol]
      exact decide_eq_true hasName
    cases named : program.symbolNamed? starterSymbol with
    | none =>
        exact .unknown notNamed named
    | some symbol =>
        exact .named notNamed named

/-- The search finds the target of the first start-up routine that has one. -/
theorem findSome?_starterTarget?_eq_some_iff
    (known : ∀ other ∈ procedure :: program.procedures, ∀ body,
      other.body = some body → body.Accepted)
    (target : Word) :
    (starterBodies program procedure).findSome? (starterTarget? program) = some target ↔
      ∃ starters, program.Starters procedure starters ∧ program.FirstStartsAt starters target := by
  have isStarters := starters_starterBodies program procedure
  have agrees : ∀ starter ∈ starterBodies program procedure, ∀ found,
      starterTarget? program starter = some found ↔ program.StartsAt starter found := by
    intro starter isStarter
    obtain ⟨owner, isOwner, isBody⟩ := isStarters.exists_body isStarter
    apply starterTarget?_eq_some_iff
    · intro other member
      exact known other (List.mem_cons_of_mem _ member)
    · exact known owner isOwner starter isBody
  rw [findSome?_eq_some_iff_of_spec agrees]
  constructor
  · intro isFirst
    exact ⟨_, isStarters, isFirst⟩
  · intro holds
    obtain ⟨starters, areStarters, isFirst⟩ := holds
    rw [isStarters.unique areStarters]
    exact isFirst

/-- A procedure is proposed the target that the first leading one of its start-up routines leads to,
and nothing where none leads anywhere. -/
theorem first_starter_names_main
    (settings : Settings) {program : Program} {procedure : Procedure}
    (known : ∀ other ∈ procedure :: program.procedures, ∀ body,
      other.body = some body → body.Accepted) :
    (∀ target,
        proposeEntryTrampoline settings program procedure = [⟨.entryTrampoline, target⟩] ↔
          ∃ starters,
            program.Starters procedure starters ∧ program.FirstStartsAt starters target) ∧
      ((∀ starters target,
          program.Starters procedure starters → ¬ program.FirstStartsAt starters target) →
        proposeEntryTrampoline settings program procedure = []) := by
  simp only [proposeEntryTrampoline, ← findSome?_starterTarget?_eq_some_iff known]
  cases isFound : (starterBodies program procedure).findSome? (starterTarget? program) with
  | none =>
      refine ⟨fun target => ?_, fun _ => rfl⟩
      simp
  | some found =>
      refine ⟨fun target => by simp, fun leadsNowhere => ?_⟩
      obtain ⟨starters, areStarters, isFirst⟩ :=
        (findSome?_starterTarget?_eq_some_iff known found).mp isFound
      exact absurd isFirst (leadsNowhere starters found areStarters)

def starterOf (platform : Platform) (symbol : Option Symbol) (code : List Instruction) :
    Procedure where
  start := 0x2000
  platform := platform
  symbol := symbol
  convention := none
  body := (Body.ofBlocks 0x2000 code [.ofRange .entry 0 code.length]).toOption

/-- The trampoline is called, and then a place that is read from memory. -/
def detourCode : List Instruction :=
  [⟨0, 0x2000, .call ⟨.pointer 0x3000, [], []⟩⟩,
    ⟨0, 0x2004, .call ⟨.load (.pointer 0x6000), [], []⟩⟩]

/-- The trampoline is called last, if the jump to another routine is no call. -/
def directCode : List Instruction :=
  [⟨0, 0x2000, .call ⟨.load (.pointer 0x6000), [], []⟩⟩,
    ⟨0, 0x2004, .call ⟨.pointer 0x3000, [], []⟩⟩,
    ⟨0, 0x2008, .tailCall ⟨.pointer 0x5000, [], []⟩⟩]

/-- The start-up routine is known for two platforms, and leads to the trampoline on the second. -/
def twoStarters : Program :=
  let program : Program :=
    { id := ⟨1⟩
      platform := .windowsX64
      procedures :=
        [starterOf .windowsX64 none detourCode, starterOf .windowsArm64 none directCode,
          Program.stubTo 0x3000 0x4000] }
  program.addSymbol (.plain .function "invoke_main" 0x2000)

def selfNamedStarter : Procedure :=
  starterOf .windowsX64 (some (.plain .function "invoke_main" 0x2000)) detourCode

theorem starters_twoStarters :
    (∃ starters,
        twoStarters.Starters Panel.unliftedHelper starters ∧
          twoStarters.FirstStartsAt starters 0x4000) ∧
      ∀ starters target,
        twoStarters.Starters selfNamedStarter starters →
          ¬ twoStarters.FirstStartsAt starters target := by
  have known : ∀ other ∈ twoStarters.procedures, ∀ body, other.body = some body →
      body.Accepted := by
    intro other member body isBody
    simp only [twoStarters, Program.addSymbol, List.mem_cons, List.not_mem_nil, or_false] at member
    rcases member with rfl | rfl | rfl
    · exact Body.accepted_of_toOption isBody
    · exact Body.accepted_of_toOption isBody
    · exact Body.accepted_of_toOption isBody
  have helperProposes :
      proposeEntryTrampoline {} twoStarters Panel.unliftedHelper =
        [⟨.entryTrampoline, 0x4000⟩] := by
    decide +kernel
  have starterProposes : proposeEntryTrampoline {} twoStarters selfNamedStarter = [] := by
    decide +kernel
  constructor
  · have helperKnown : ∀ other ∈ Panel.unliftedHelper :: twoStarters.procedures, ∀ body,
        other.body = some body → body.Accepted :=
      List.forall_mem_cons.mpr ⟨nofun, known⟩
    exact ((first_starter_names_main {} helperKnown).1 0x4000).mp helperProposes
  · intro starters target areStarters isFirst
    have starterKnown : ∀ other ∈ selfNamedStarter :: twoStarters.procedures, ∀ body,
        other.body = some body → body.Accepted :=
      List.forall_mem_cons.mpr ⟨fun _ => Body.accepted_of_toOption, known⟩
    have isProposed :=
      ((first_starter_names_main {} starterKnown).1 target).mpr ⟨starters, areStarters, isFirst⟩
    rw [starterProposes] at isProposed
    cases isProposed

end Heuristic

end MainLocator
