import Mathlib.Order.Bounds.Basic
import MainLocator.Proofs.ReturnFlow

/-!
# The call behind the fetch of the argument count

What the heuristic of the argument count proposes, said by positions. Of the positions that blocks
hold, the least that fetches the count is the probe. That the blocks are searched in their order
finds it, because their positions ascend. Behind it the next call of the same block is taken for
good, whether it can be main or not. So nothing else of the code has a say, apart from the
assignments that give values to the places called.
-/

namespace MainLocator

/-! ## Searches of ascending positions -/

/-- Going through ascending positions finds the least that has an answer. -/
theorem findSome?_eq_some_iff_isLeast
    {α : Type} {positions : List Nat} (ascending : positions.Pairwise (· < ·))
    (answer : Nat → Option α) (found : α) :
    positions.findSome? answer = some found ↔
      ∃ place,
        IsLeast {position | position ∈ positions ∧ (answer position).isSome} place ∧
          answer place = some found := by
  constructor
  · intro search
    obtain ⟨front, place, back, rfl, isFound, silent⟩ := List.findSome?_eq_some_iff.mp search
    have isAnswered : (answer place).isSome := by
      rw [isFound]
      rfl
    refine ⟨place, ⟨⟨by simp, isAnswered⟩, fun other isOther => ?_⟩, isFound⟩
    rcases List.mem_append.mp isOther.1 with inFront | inRest
    · have answered := isOther.2
      rw [silent other inFront] at answered
      cases answered
    · rcases List.mem_cons.mp inRest with rfl | inBack
      · exact Nat.le_refl _
      · apply Nat.le_of_lt
        exact List.rel_of_pairwise_cons (List.pairwise_append.mp ascending).2.1 inBack
  · intro holds
    obtain ⟨place, isLeast, isFound⟩ := holds
    obtain ⟨front, back, rfl⟩ := List.append_of_mem isLeast.1.1
    refine List.findSome?_eq_some_iff.mpr ⟨front, place, back, rfl, isFound, ?_⟩
    intro other inFront
    rw [← Option.not_isSome_iff_eq_none]
    intro answered
    have isBefore := (List.pairwise_append.mp ascending).2.2 other inFront place List.mem_cons_self
    have isBehind := isLeast.2 ⟨List.mem_append_left _ inFront, answered⟩
    omega

theorem find?_eq_some_iff_isLeast
    {positions : List Nat} (ascending : positions.Pairwise (· < ·))
    (holds : Nat → Bool) (place : Nat) :
    positions.find? holds = some place ↔
      IsLeast {position | position ∈ positions ∧ holds position} place := by
  rw [List.find?_eq_findSome?_guard, findSome?_eq_some_iff_isLeast ascending]
  simp only [Option.isSome_guard, Option.guard_eq_some_iff]
  constructor
  · intro found
    obtain ⟨_, isLeast, rfl, _⟩ := found
    exact isLeast
  · intro isLeast
    exact ⟨place, isLeast, rfl, isLeast.1.2⟩

/-! ## Probes -/

namespace Body

/-- The call at a position has the constant target `callee`. -/
def CallsAt (body : Body) (position : Nat) (callee : Word) : Prop :=
  ∃ operands,
    body.PerformsAt position (.call operands) ∧ body.Evaluates operands.target callee

/-- Of the calls of a block behind `place`, the one at `next` comes first. -/
def CallsNext (body : Body) (block : Block) (place next : Nat) : Prop :=
  IsLeast
    {position |
      place < position ∧ block.covers position ∧
        ∃ operands, body.PerformsAt position (.call operands)} next

end Body

namespace Program

section Rules

variable (program : Program) (settings : Settings)

/-- The call at a position is one of the routine that fetches the argument count. -/
def FetchesCountAt (body : Body) (position : Nat) : Prop :=
  ∃ callee symbol,
    body.CallsAt position callee ∧ program.symbolAt? callee = some symbol ∧
      symbol.shortName = "__p___argc"

/-- Of the positions that blocks hold, `probe` is the first that fetches the argument count. -/
def IsProbe (body : Body) (probe : Nat) : Prop :=
  IsLeast
    {position |
      (∃ block ∈ body.blocks, block.covers position) ∧ program.FetchesCountAt body position} probe

/-- The next call of its block behind the probe has the constant target `callee`, of which no other
name than one of a main function is known. -/
def ProbesMain (body : Body) (callee : Word) : Prop :=
  ∃ block ∈ body.blocks, ∃ probe next,
    block.covers probe ∧ program.IsProbe body probe ∧ body.CallsNext block probe next ∧
      body.CallsAt next callee ∧
        (program.symbolAt? callee = none ∨ program.NamesMain settings callee)

/-- Two bodies have their probe at one place of one block, and do the same from there to the next
call, or to the end of the block. All else may differ: other blocks, calls there and behind the
bound, and what is no call that returns. Only assignments and phis are the same throughout. -/
structure SharesProbe
    (left right : Body) (block : Block) (probe bound : Nat) : Prop where
  isLeftBlock : block ∈ left.blocks
  isRightBlock : block ∈ right.blocks
  covers : block.covers probe
  isLeftProbe : program.IsProbe left probe
  isRightProbe : program.IsProbe right probe
  sameValues : ∀ operation, operation.assigned?.isSome →
    (left.Performs operation ↔ right.Performs operation)
  sameCalls : ∀ position, probe < position → position < bound → block.covers position →
    ∀ operands, left.PerformsAt position (.call operands) ↔
      right.PerformsAt position (.call operands)
  reaches : block.stop ≤ bound ∨ ∃ next < bound, left.CallsNext block probe next

end Rules

end Program

namespace Heuristic

variable {program : Program} {settings : Settings} {body : Body}

theorem callAt?_eq_some_iff (position : Nat) (operands : CallOperands) :
    callAt? body position = some operands ↔ body.PerformsAt position (.call operands) := by
  rw [callAt?, Body.PerformsAt]
  cases found : body.instructions[position]? with
  | none =>
      simp
  | some instruction =>
      cases operation : instruction.operation with
      | call performed =>
          simp [operation]
      | _ =>
          simp [operation]

theorem isSome_callAt?_iff (position : Nat) :
    (callAt? body position).isSome ↔ ∃ operands, body.PerformsAt position (.call operands) := by
  simp only [Option.isSome_iff_exists, callAt?_eq_some_iff]

theorem fetchesArgumentCount_iff
    (accepted : body.Accepted) (position : Nat) :
    fetchesArgumentCount program body position = true ↔ program.FetchesCountAt body position := by
  have isFetch :
      fetchesArgumentCount program body position =
        (callAt? body position).any fun operands =>
          ((body.valueOf? operands.target).bind program.symbolAt?).any
            fun symbol => symbol.shortName = argumentCountSymbol := by
    rw [fetchesArgumentCount, callAt?]
    cases Instruction.operation <$> body.instructions[position]? with
    | none => rfl
    | some operation =>
        cases operation with
        | call operands => rfl
        | _ => rfl
  simp only [isFetch, Option.any_eq_true, Option.bind_eq_some_iff, decide_eq_true_eq,
    callAt?_eq_some_iff, accepted.valueOf?_eq_some_iff, Program.FetchesCountAt, Body.CallsAt]
  constructor
  · intro fetches
    obtain ⟨operands, performs, symbol, ⟨callee, evaluates, isSymbol⟩, hasName⟩ := fetches
    exact ⟨callee, symbol, ⟨operands, performs, evaluates⟩, isSymbol, hasName⟩
  · intro fetches
    obtain ⟨callee, symbol, ⟨operands, performs, evaluates⟩, isSymbol, hasName⟩ := fetches
    exact ⟨operands, performs, symbol, ⟨callee, evaluates, isSymbol⟩, hasName⟩

/-- The blocks are searched in their order, in which their positions ascend. -/
theorem find?_probe_eq_some_iff
    (accepted : body.Accepted) (probe : Nat) :
    (body.blocks.flatMap Block.positions).find? (fetchesArgumentCount program body) = some probe ↔
      program.IsProbe body probe := by
  rw [find?_eq_some_iff_isLeast accepted.positions_ascend, Program.IsProbe]
  simp only [List.mem_flatMap, Block.mem_positions_iff, fetchesArgumentCount_iff accepted]

theorem findSome?_callAt?_eq_some_iff
    {block : Block} {probe : Nat} (covers : block.covers probe) (operands : CallOperands) :
    (List.range' (probe + 1) (block.stop - (probe + 1))).findSome? (callAt? body) =
        some operands ↔
      ∃ next, body.CallsNext block probe next ∧ body.PerformsAt next (.call operands) := by
  have isBehind : ∀ position,
      position ∈ List.range' (probe + 1) (block.stop - (probe + 1)) ↔
        probe < position ∧ block.covers position := by
    intro position
    rw [Block.covers_iff] at covers ⊢
    rw [List.mem_range'_1]
    omega
  rw [findSome?_eq_some_iff_isLeast List.pairwise_lt_range']
  simp only [isBehind, isSome_callAt?_iff, callAt?_eq_some_iff, Body.CallsNext, and_assoc]

/-- A callee is no main function if it has a symbol of another name. -/
theorem all_isMainName_iff (callee : Word) :
    (program.symbolAt? callee).all (fun symbol => settings.isMainName symbol.rawName) = true ↔
      program.symbolAt? callee = none ∨ program.NamesMain settings callee := by
  rw [Program.NamesMain]
  cases program.symbolAt? callee with
  | none =>
      simp
  | some symbol =>
      simp [Settings.isMainName]

theorem mem_proposeArgumentProbe_iff
    {procedure : Procedure} (hasBody : procedure.body = some body) (accepted : body.Accepted)
    (proposal : Proposal) :
    proposal ∈ proposeArgumentProbe settings program procedure ↔
      proposal.method = .argumentProbe ∧ program.ProbesMain settings body proposal.address := by
  simp only [proposeArgumentProbe, Option.mem_toList, hasBody, Option.bind_eq_bind,
    Option.bind_some, Option.bind_eq_some_iff, find?_probe_eq_some_iff accepted,
    accepted.blockAt?_eq_some_iff, accepted.valueOf?_eq_some_iff, Option.guard_eq_some',
    all_isMainName_iff, Option.pure_def, Option.some.injEq]
  constructor
  · intro proposed
    obtain ⟨probe, isProbe, block, ⟨isBlock, covers⟩, operands, isNext, callee, evaluates, _, fits,
      rfl⟩ := proposed
    obtain ⟨next, callsNext, performs⟩ := (findSome?_callAt?_eq_some_iff covers operands).mp isNext
    exact ⟨rfl, block, isBlock, probe, next, covers, isProbe, callsNext,
      ⟨operands, performs, evaluates⟩, fits⟩
  · intro probes
    obtain ⟨isMethod, block, isBlock, probe, next, covers, isProbe, callsNext,
      ⟨operands, performs, evaluates⟩, fits⟩ := probes
    have isNext := (findSome?_callAt?_eq_some_iff covers operands).mpr ⟨next, callsNext, performs⟩
    refine ⟨probe, isProbe, block, ⟨isBlock, covers⟩, operands, isNext, proposal.address,
      evaluates, (), fits, ?_⟩
    rw [← isMethod]

theorem length_proposeArgumentProbe_le
    (settings : Settings) (program : Program) (procedure : Procedure) :
    (proposeArgumentProbe settings program procedure).length ≤ 1 :=
  Option.length_toList_le

end Heuristic

namespace Program

variable
  {program : Program} {settings : Settings} {left right : Body} {block : Block} {probe bound : Nat}

/-! ## What has no say -/

namespace SharesProbe

theorem evaluates_iff
    (shares : program.SharesProbe left right block probe bound)
    (expression : Expression) (value : Word) :
    left.Evaluates expression value ↔ right.Evaluates expression value := by
  constructor
  · apply Body.Evaluates.of_assignments
    intro operation assigns
    exact (shares.sameValues operation assigns).mp
  · apply Body.Evaluates.of_assignments
    intro operation assigns
    exact (shares.sameValues operation assigns).mpr

theorem callsNext
    (shares : program.SharesProbe left right block probe bound)
    {next : Nat} (isInside : next < bound) (callsNext : left.CallsNext block probe next) :
    right.CallsNext block probe next := by
  obtain ⟨⟨isBehind, covers, operands, performs⟩, isLeast⟩ := callsNext
  have stillPerforms := (shares.sameCalls next isBehind isInside covers operands).mp performs
  refine ⟨⟨isBehind, covers, operands, stillPerforms⟩, fun other isOther => ?_⟩
  obtain ⟨otherBehind, otherCovers, otherOperands, otherPerforms⟩ := isOther
  rcases Nat.lt_or_ge other bound with otherInside | otherOutside
  · have wasThere := shares.sameCalls other otherBehind otherInside otherCovers otherOperands
    exact isLeast ⟨otherBehind, otherCovers, otherOperands, wasThere.mpr otherPerforms⟩
  · exact Nat.le_trans (Nat.le_of_lt isInside) otherOutside

theorem symm
    (shares : program.SharesProbe left right block probe bound) :
    program.SharesProbe right left block probe bound where
  isLeftBlock := shares.isRightBlock
  isRightBlock := shares.isLeftBlock
  covers := shares.covers
  isLeftProbe := shares.isRightProbe
  isRightProbe := shares.isLeftProbe
  sameValues := fun operation assigns => (shares.sameValues operation assigns).symm
  sameCalls := fun position isBehind isInside covers operands =>
    (shares.sameCalls position isBehind isInside covers operands).symm
  reaches := by
    rcases shares.reaches with isWhole | ⟨next, isInside, callsNext⟩
    · exact .inl isWhole
    · exact .inr ⟨next, isInside, shares.callsNext isInside callsNext⟩

/-- The next call lies in front of the bound: either the whole block does, or there is one call only
that comes first. -/
theorem lt_bound
    (shares : program.SharesProbe left right block probe bound)
    {next : Nat} (callsNext : left.CallsNext block probe next) :
    next < bound := by
  rcases shares.reaches with isWhole | ⟨other, isInside, callsOther⟩
  · have inside := (block.covers_iff next).mp callsNext.1.2.1
    omega
  · rwa [IsLeast.unique callsNext callsOther]

theorem probesMain
    (shares : program.SharesProbe left right block probe bound)
    (accepted : left.Accepted)
    {callee : Word} (probes : program.ProbesMain settings left callee) :
    program.ProbesMain settings right callee := by
  obtain ⟨holder, isHolder, place, next, covers, isProbe, callsNext, ⟨operands, performs,
    evaluates⟩, fits⟩ := probes
  obtain rfl := IsLeast.unique shares.isLeftProbe isProbe
  obtain rfl := accepted.eq_of_covers shares.isLeftBlock isHolder shares.covers covers
  have isInside := shares.lt_bound callsNext
  have stillPerforms :=
    (shares.sameCalls next callsNext.1.1 isInside callsNext.1.2.1 operands).mp performs
  have stillEvaluates := (shares.evaluates_iff operands.target callee).mp evaluates
  exact ⟨block, shares.isRightBlock, probe, next, covers, shares.isRightProbe,
    shares.callsNext isInside callsNext, ⟨operands, stillPerforms, stillEvaluates⟩, fits⟩

theorem probesMain_iff
    (shares : program.SharesProbe left right block probe bound)
    (leftAccepted : left.Accepted) (rightAccepted : right.Accepted) (callee : Word) :
    program.ProbesMain settings left callee ↔ program.ProbesMain settings right callee :=
  ⟨shares.probesMain leftAccepted, shares.symm.probesMain rightAccepted⟩

end SharesProbe

end Program

namespace Heuristic

variable {program : Program} {settings : Settings} {body : Body}

/-- The proposal is the constant target of the next call behind the probe, if nothing but main is
known to be there. Code that shares the probe and the way to the next call gets the same
proposal. -/
theorem argument_probe_commits_to_next_call
    (settings : Settings) (program : Program) {procedure : Procedure} {body : Body}
    (hasBody : procedure.body = some body) (accepted : body.Accepted) :
    (proposeArgumentProbe settings program procedure).length ≤ 1 ∧
      (∀ proposal,
        proposal ∈ proposeArgumentProbe settings program procedure ↔
          proposal.method = .argumentProbe ∧
            program.ProbesMain settings body proposal.address) ∧
        ∀ (other : Procedure) (otherBody : Body) block probe bound,
          other.body = some otherBody → otherBody.Accepted →
            program.SharesProbe body otherBody block probe bound →
              proposeArgumentProbe settings program other =
                proposeArgumentProbe settings program procedure := by
  refine ⟨length_proposeArgumentProbe_le settings program procedure,
    mem_proposeArgumentProbe_iff hasBody accepted, ?_⟩
  intro other otherBody block probe bound otherHasBody otherAccepted shares
  refine congrArg Option.toList (Option.ext fun proposal => ?_)
  rw [← Option.mem_toList, ← Option.mem_toList]
  refine (mem_proposeArgumentProbe_iff otherHasBody otherAccepted proposal).trans ?_
  refine Iff.trans ?_ (mem_proposeArgumentProbe_iff hasBody accepted proposal).symm
  rw [shares.probesMain_iff accepted otherAccepted]

def probedProgram : Program :=
  let program : Program :=
    { id := ⟨1⟩
      platform := .windowsX64 }
  program
    |>.addSymbol ⟨"__imp___p___argc", "__p___argc", 0x7000, .importedFunction⟩
    |>.addSymbol (.plain .function "__p___argv" 0x6000)

/-- The count is fetched outside of all blocks, and in two of them more than once. -/
def probedCode : List Instruction :=
  [⟨0, 0x1000, .call ⟨.pointer 0x7000, [], []⟩⟩,
    ⟨0, 0x1004, .call ⟨.pointer 0x6000, [], []⟩⟩,
    ⟨0, 0x1008, .call ⟨.pointer 0x7000, [⟨.rax, 1⟩], []⟩⟩,
    ⟨0, 0x100c, .assign ⟨.rcx, 1⟩ (.pointer 0x4000)⟩,
    ⟨0, 0x1010, .tailCall ⟨.pointer 0x6000, [], []⟩⟩,
    ⟨0, 0x1014, .call ⟨.register ⟨.rcx, 1⟩, [], []⟩⟩,
    ⟨0, 0x1018, .call ⟨.pointer 0x7000, [⟨.rax, 2⟩], []⟩⟩,
    ⟨0, 0x101c, .call ⟨.pointer 0x7000, [⟨.rax, 3⟩], []⟩⟩]

/-- The same without what has no say. -/
def bareCode : List Instruction :=
  [⟨0, 0x1000, .nop⟩,
    ⟨0, 0x1004, .nop⟩,
    ⟨0, 0x1008, .call ⟨.pointer 0x7000, [⟨.rax, 1⟩], []⟩⟩,
    ⟨0, 0x100c, .assign ⟨.rcx, 1⟩ (.pointer 0x4000)⟩,
    ⟨0, 0x1010, .nop⟩,
    ⟨0, 0x1014, .call ⟨.register ⟨.rcx, 1⟩, [], []⟩⟩,
    ⟨0, 0x1018, .nop⟩]

def probedBlock : Block := .ofRange ⟨5⟩ 2 7

def probedBlocks : List Block :=
  [.ofRange ⟨3⟩ 1 2, probedBlock, .ofRange .entry 7 8]

/-- What lies between the probe and the call through a register is no call that returns. -/
theorem callsNext_probedCode
    {body : Body} (built : Body.ofBlocks 0x1000 probedCode probedBlocks = .ok body) :
    body.CallsNext probedBlock 2 5 := by
  refine ⟨⟨by decide, rfl, ⟨.register ⟨.rcx, 1⟩, [], []⟩, ?_⟩, fun position isCall => ?_⟩
  · exact (Body.performsAt_iff_of_ofBlocks built 5 _).mpr rfl
  · obtain ⟨isBehind, _, operands, performs⟩ := isCall
    rw [Body.performsAt_iff_of_ofBlocks built] at performs
    by_contra isBefore
    have isBetween : position = 3 ∨ position = 4 := by omega
    rcases isBetween with rfl | rfl
    · cases performs
    · cases performs

/-- The two have one probe, and one way from there to the next call. -/
theorem sharesProbe_bareCode
    {body bare : Body}
    (built : Body.ofBlocks 0x1000 probedCode probedBlocks = .ok body)
    (bareBuilt : Body.ofBlocks 0x1000 bareCode [probedBlock] = .ok bare)
    (blocks : body.blocks = probedBlocks) (bareBlocks : bare.blocks = [probedBlock])
    (isProbe : probedProgram.IsProbe body 2) (isBareProbe : probedProgram.IsProbe bare 2) :
    probedProgram.SharesProbe body bare probedBlock 2 6 where
  isLeftBlock := by simp [blocks, probedBlocks]
  isRightBlock := by simp [bareBlocks]
  covers := rfl
  isLeftProbe := isProbe
  isRightProbe := isBareProbe
  sameValues := by
    intro operation assigns
    rw [Body.performs_iff_of_ofBlocks built, Body.performs_iff_of_ofBlocks bareBuilt]
    cases operation with
    | assign | phi =>
        simp [probedCode, bareCode]
    | _ =>
        cases assigns
  sameCalls := by
    intro position isBehind isInside _ operands
    rw [Body.performsAt_iff_of_ofBlocks built, Body.performsAt_iff_of_ofBlocks bareBuilt]
    have isBetween : position = 3 ∨ position = 4 ∨ position = 5 := by omega
    rcases isBetween with rfl | rfl | rfl
    · exact Iff.rfl
    · simp [probedCode, bareCode]
    · exact Iff.rfl
  reaches := .inr ⟨5, by decide, callsNext_probedCode built⟩

theorem exists_sharesProbe_bareCode :
    ∃ body bare,
      Body.ofBlocks 0x1000 probedCode probedBlocks = .ok body ∧
        Body.ofBlocks 0x1000 bareCode [probedBlock] = .ok bare ∧
          proposeArgumentProbe {} probedProgram (startUp body) = [⟨.argumentProbe, 0x4000⟩] ∧
            probedProgram.SharesProbe body bare probedBlock 2 6 := by
  have order : probedBlocks.mergeSort Block.precedes = probedBlocks :=
    List.mergeSort_of_pairwise (by decide)
  have known :
      (Body.ofBlocks 0x1000 probedCode probedBlocks).toOption.map
          (fun body =>
            (body.blocks,
              (body.blocks.flatMap Block.positions).find?
                (fetchesArgumentCount probedProgram body),
              proposeArgumentProbe {} probedProgram (startUp body))) =
        some (probedBlocks, some 2, [⟨.argumentProbe, 0x4000⟩]) := by
    rw [Body.ofBlocks, order]
    decide +kernel
  have bareKnown :
      (Body.ofBlocks 0x1000 bareCode [probedBlock]).toOption.map
          (fun body =>
            (body.blocks,
              (body.blocks.flatMap Block.positions).find?
                (fetchesArgumentCount probedProgram body))) =
        some ([probedBlock], some 2) := by
    decide +kernel
  obtain ⟨body, built, observed⟩ := Body.exists_ofBlocks_of_map_toOption known
  obtain ⟨blocks, found⟩ := Prod.mk.inj observed
  obtain ⟨probe, proposals⟩ := Prod.mk.inj found
  obtain ⟨bare, bareBuilt, bareObserved⟩ := Body.exists_ofBlocks_of_map_toOption bareKnown
  obtain ⟨bareBlocks, bareProbe⟩ := Prod.mk.inj bareObserved
  have isProbe := (find?_probe_eq_some_iff ⟨_, _, _, built⟩ 2).mp probe
  have isBareProbe := (find?_probe_eq_some_iff ⟨_, _, _, bareBuilt⟩ 2).mp bareProbe
  exact ⟨body, bare, built, bareBuilt, proposals,
    sharesProbe_bareCode built bareBuilt blocks bareBlocks isProbe isBareProbe⟩

theorem proposals_probedCode :
    ∃ body bare,
      Body.ofBlocks 0x1000 probedCode probedBlocks = .ok body ∧
        Body.ofBlocks 0x1000 bareCode [probedBlock] = .ok bare ∧
          probedProgram.ProbesMain {} body 0x4000 ∧
            probedProgram.SharesProbe body bare probedBlock 2 6 ∧
              proposeArgumentProbe {} probedProgram (startUp bare) =
                [⟨.argumentProbe, 0x4000⟩] := by
  obtain ⟨body, bare, built, bareBuilt, proposals, shares⟩ := exists_sharesProbe_bareCode
  have hasBody : (startUp body).body = some body := rfl
  obtain ⟨_, isProposed, isShared⟩ :=
    argument_probe_commits_to_next_call {} probedProgram hasBody ⟨_, _, _, built⟩
  have isListed :
      (⟨.argumentProbe, 0x4000⟩ : Proposal) ∈
        proposeArgumentProbe {} probedProgram (startUp body) := by
    rw [proposals]
    exact List.mem_singleton_self _
  have sameProposals := isShared (startUp bare) bare probedBlock 2 6 rfl
    ⟨_, _, _, bareBuilt⟩ shares
  exact ⟨body, bare, built, bareBuilt, ((isProposed _).mp isListed).2, shares,
    sameProposals.trans proposals⟩

end Heuristic

end MainLocator
