import MainLocator.Proofs.Folding
import MainLocator.Proofs.ReachingVersions
import MainLocator.Proofs.TailCalls

/-!
# Values that end the process

Which register versions `Program.exitValues` collects, said by rules. An exit call that names its
first argument hands that register over, wherever the call stands. A return, and an exit call that
leaves its arguments open, hand over what has reached them: the version that their block assigns
last in front of them or, where it assigns none, those that the blocks directly in front assign.
Nothing comes from further away, and results of calls are only handed over by name.
-/

namespace MainLocator

namespace Program

section Rules

variable (program : Program) (settings : Settings) (body : Body) (convention : CallingConvention)

/-- The instruction at a position is a call of an exit routine. -/
def CallsExitAt (position : Nat) (operands : CallOperands) : Prop :=
  body.PerformsAt position (.call operands) ∧
    ∃ callee, body.Evaluates operands.target callee ∧ program.EndsProcess settings callee

/-- The process ends with what the register holds in front of the position. -/
inductive EndsOn : Nat → Register → Prop where
  | atReturn {position : Nat} {value : Expression} :
      body.PerformsAt position (.ret value) →
      EndsOn position convention.returnRegister
  | atExit {position : Nat} {operands : CallOperands} {firstArgument : Register} :
      program.CallsExitAt settings body position operands →
      operands.arguments = [] →
      convention.firstArgument? = some firstArgument →
      EndsOn position firstArgument

/-- The version is the resolved first argument of a call of an exit routine. -/
def IsExitArgument (version : RegisterVersion) : Prop :=
  ∃ position operands,
    program.CallsExitAt settings body position operands ∧
      operands.arguments.head? = some (.register version)

/-- What happens at a position hands the version over: an exit call names it, or it has reached a
return or an exit call that names nothing. -/
def HandsOver (position : Nat) (version : RegisterVersion) : Prop :=
  (∃ operands,
      program.CallsExitAt settings body position operands ∧
        operands.arguments.head? = some (.register version)) ∨
    ∃ register,
      program.EndsOn settings body convention position register ∧
        version ∈ body.reachingVersions register position

/-- The version reaches a place where the process ends with its register, from the block of the
place or from one directly in front of it. -/
inductive ReachesEnd (version : RegisterVersion) : Prop where
  | inBlock {position place : Nat} {register : Register} {block : Block} :
      program.EndsOn settings body convention position register →
      block ∈ body.blocks →
      block.covers position →
      body.AssignsLast block register position place version →
      ReachesEnd version
  | inPredecessor
      {position place : Nat} {register : Register} {block predecessor : Block} :
      program.EndsOn settings body convention position register →
      block ∈ body.blocks →
      block.covers position →
      body.AssignsNone block register position →
      body.IsPredecessor predecessor block →
      body.AssignsLast predecessor register (predecessor.stop - 1) place version →
      ReachesEnd version

/-- A place of a block assigns the version, and the process ends with its register in that block or
in one that control can come to directly from there. -/
def IsAssignedNearEnd (version : RegisterVersion) : Prop :=
  ∃ position block source place,
    program.EndsOn settings body convention position version.register ∧
      (block ∈ body.blocks ∧ block.covers position) ∧
        (source = block ∨ body.IsPredecessor source block) ∧
          (source ∈ body.blocks ∧ source.covers place) ∧ body.AssignsAt place version

end Rules

variable {program : Program} {settings : Settings} {body : Body} {convention : CallingConvention}

/-! ## Single instructions -/

theorem callsExit_iff
    (accepted : body.Accepted) (operands : CallOperands) :
    program.callsExit settings body operands = true ↔
      ∃ callee, body.Evaluates operands.target callee ∧ program.EndsProcess settings callee := by
  simp only [callsExit, Option.any_eq_true, accepted.valueOf?_eq_some_iff, isExitRoutine_iff]

section Instructions

variable
  (accepted : body.Accepted)
  {firstArgument : Register} (isFirst : convention.firstArgument? = some firstArgument)
  {position : Nat} {instruction : Instruction}
  (found : body.instructions[position]? = some instruction)

include accepted found

theorem callsExitAt_iff (operands : CallOperands) :
    program.CallsExitAt settings body position operands ↔
      instruction.operation = .call operands ∧
        program.callsExit settings body operands = true := by
  rw [CallsExitAt, Body.performsAt_iff_of_found found, callsExit_iff accepted]

include isFirst

theorem endsOn_iff (register : Register) :
    program.EndsOn settings body convention position register ↔
      (∃ value, instruction.operation = .ret value ∧ register = convention.returnRegister) ∨
        ∃ operands,
          (instruction.operation = .call operands ∧
            program.callsExit settings body operands = true) ∧
            operands.arguments = [] ∧ register = firstArgument := by
  constructor
  · intro ends
    cases ends with
    | atReturn performs =>
        exact .inl ⟨_, (Body.performsAt_iff_of_found found _).mp performs, rfl⟩
    | atExit callsExit noArguments isRegister =>
        rw [isFirst] at isRegister
        have same := (Option.some.inj isRegister).symm
        exact .inr ⟨_, (callsExitAt_iff accepted found _).mp callsExit, noArguments, same⟩
  · intro shape
    obtain ⟨value, operation, rfl⟩ | ⟨operands, exits, noArguments, rfl⟩ := shape
    · exact .atReturn ((Body.performsAt_iff_of_found found _).mpr operation)
    · exact .atExit ((callsExitAt_iff accepted found _).mpr exits) noArguments isFirst

theorem mem_exitValuesAt_iff (version : RegisterVersion) :
    version ∈
        program.exitValuesAt settings body firstArgument convention.returnRegister instruction ↔
      program.HandsOver settings body convention position version := by
  simp only [HandsOver, callsExitAt_iff accepted found, endsOn_iff accepted isFirst found,
    exitValuesAt, accepted.index_eq found]
  cases instruction.operation with
  | call operands =>
      cases exits : program.callsExit settings body operands with
      | false =>
          simp [exits]
      | true =>
          cases arguments : operands.arguments with
          | nil =>
              simp [exits, arguments]
          | cons first others =>
              cases first with
              | register passed =>
                  simp [exits, arguments, @eq_comm _ version]
              | _ =>
                  simp [exits, arguments]
  | ret value =>
      simp
  | _ =>
      simp

end Instructions

/-! ## The collected set -/

theorem reachesEnd_iff
    (accepted : body.Accepted) (version : RegisterVersion) :
    program.ReachesEnd settings body convention version ↔
      ∃ position register,
        program.EndsOn settings body convention position register ∧
          version ∈ body.reachingVersions register position := by
  simp only [accepted.mem_reachingVersions_iff]
  constructor
  · intro reaches
    cases reaches with
    | inBlock ends member covers assignsLast =>
        exact ⟨_, _, ends, _, member, covers, .inl ⟨_, assignsLast⟩⟩
    | inPredecessor ends member covers assignsNone isPredecessor assignsLast =>
        exact ⟨_, _, ends, _, member, covers,
          .inr ⟨assignsNone, _, _, isPredecessor, assignsLast⟩⟩
  · intro reaches
    obtain ⟨position, register, ends, block, member, covers, assigned⟩ := reaches
    rcases assigned with ⟨place, assignsLast⟩ | ⟨assignsNone, _, _, isPredecessor, assignsLast⟩
    · exact .inBlock ends member covers assignsLast
    · exact .inPredecessor ends member covers assignsNone isPredecessor assignsLast

theorem exists_handsOver_iff
    (accepted : body.Accepted) (version : RegisterVersion) :
    (∃ position, program.HandsOver settings body convention position version) ↔
      program.IsExitArgument settings body version ∨
        program.ReachesEnd settings body convention version := by
  simp only [HandsOver, exists_or, reachesEnd_iff accepted, IsExitArgument]

theorem HandsOver.exists_performsAt
    {position : Nat} {version : RegisterVersion}
    (handsOver : program.HandsOver settings body convention position version) :
    ∃ operation, body.PerformsAt position operation := by
  rcases handsOver with ⟨operands, callsExit, _⟩ | ⟨register, ends, _⟩
  · exact ⟨_, callsExit.1⟩
  · cases ends with
    | atReturn performs =>
        exact ⟨_, performs⟩
    | atExit callsExit _ _ =>
        exact ⟨_, callsExit.1⟩

theorem exitValues_of_no_firstArgument
    (noFirst : convention.firstArgument? = none) :
    program.exitValues settings body convention = ∅ := by
  rw [exitValues, noFirst]

theorem mem_exitValues_iff
    (accepted : body.Accepted)
    {firstArgument : Register} (isFirst : convention.firstArgument? = some firstArgument)
    (version : RegisterVersion) :
    version ∈ program.exitValues settings body convention ↔
      program.IsExitArgument settings body version ∨
        program.ReachesEnd settings body convention version := by
  rw [← exists_handsOver_iff accepted]
  simp only [exitValues, isFirst, Std.TreeSet.mem_ofList, List.contains_iff_mem, List.mem_flatMap,
    Array.mem_toList_iff]
  constructor
  · intro collected
    obtain ⟨instruction, member, isHandedOver⟩ := collected
    have found := accepted.getElem?_index member
    exact ⟨instruction.index, (mem_exitValuesAt_iff accepted isFirst found version).mp isHandedOver⟩
  · intro exists_handsOver
    obtain ⟨position, handsOver⟩ := exists_handsOver
    obtain ⟨operation, instruction, found, _⟩ := handsOver.exists_performsAt
    exact ⟨instruction, Array.mem_of_getElem? found,
      (mem_exitValuesAt_iff accepted isFirst found version).mpr handsOver⟩

theorem ReachesEnd.isAssignedNearEnd
    {version : RegisterVersion}
    (reaches : program.ReachesEnd settings body convention version) :
    program.IsAssignedNearEnd settings body convention version := by
  cases reaches with
  | inBlock ends member covers assignsLast =>
      rw [← assignsLast.isVersion] at ends
      exact ⟨_, _, _, _, ends, ⟨member, covers⟩, .inl rfl, ⟨member, assignsLast.isHeld⟩,
        assignsLast.assigns⟩
  | inPredecessor ends member covers _ isPredecessor assignsLast =>
      rw [← assignsLast.isVersion] at ends
      exact ⟨_, _, _, _, ends, ⟨member, covers⟩, .inr isPredecessor,
        ⟨isPredecessor.mem_blocks, assignsLast.isHeld⟩, assignsLast.assigns⟩

theorem exit_values_follow_rules
    (accepted : body.Accepted)
    (program : Program) (settings : Settings) (convention : CallingConvention) :
    (convention.firstArgument? = none → program.exitValues settings body convention = ∅) ∧
      (∀ firstArgument, convention.firstArgument? = some firstArgument →
        ∀ version,
          version ∈ program.exitValues settings body convention ↔
            program.IsExitArgument settings body version ∨
              program.ReachesEnd settings body convention version) ∧
        ∀ version ∈ program.exitValues settings body convention,
          ¬ program.IsExitArgument settings body version →
            program.IsAssignedNearEnd settings body convention version ∧
              ∀ operation operands,
                body.Performs operation → operation.callOperands? = some operands →
                  version ∉ operands.results := by
  refine ⟨exitValues_of_no_firstArgument, fun _ => mem_exitValues_iff accepted, ?_⟩
  intro version isCollected notArgument
  cases isFirst : convention.firstArgument? with
  | none =>
      rw [exitValues_of_no_firstArgument isFirst] at isCollected
      exact absurd isCollected Std.TreeSet.not_mem_emptyc
  | some firstArgument =>
      rcases (mem_exitValues_iff accepted isFirst version).mp isCollected with isArgument | reaches
      · exact absurd isArgument notArgument
      · have isNear := reaches.isAssignedNearEnd
        refine ⟨isNear, fun operation operands performs isCall => ?_⟩
        obtain ⟨_, _, _, place, _, _, _, _, assigns⟩ := isNear
        exact accepted.notMem_results_of_assignsAt assigns performs isCall

/-- All that is known is a routine named `exit`. -/
def namedExit : Program :=
  let program : Program := { id := ⟨1⟩, platform := .windowsX64 }
  program.addSymbol (.plain .function "exit" 0x5000)

/-- Two blocks that each assign the register of the first argument, and an exit call behind them. -/
def chainToExit : List Instruction :=
  [⟨0, 0x1000, .assign ⟨.rcx, 1⟩ (.const 0)⟩,
    ⟨0, 0x1004, .goto 2⟩,
    ⟨0, 0x1008, .phi ⟨.rcx, 2⟩ [⟨.rcx, 1⟩]⟩,
    ⟨0, 0x100c, .goto 4⟩,
    ⟨0, 0x1010, .call ⟨.pointer 0x5000, [], []⟩⟩]

def chainBlocks : List Block :=
  [⟨.entry, 0, 2, []⟩, ⟨⟨1⟩, 2, 4, [.entry]⟩, ⟨⟨2⟩, 4, 5, [⟨1⟩]⟩]

theorem exitValues_chainToExit :
    ∃ body,
      Body.ofBlocks 0x1000 chainToExit chainBlocks = .ok body ∧
        namedExit.IsAssignedNearEnd {} body .win64 ⟨.rcx, 2⟩ ∧
          ¬ namedExit.ReachesEnd {} body .win64 ⟨.rcx, 1⟩ := by
  have order : chainBlocks.mergeSort Block.precedes = chainBlocks := by
    simp [chainBlocks, List.mergeSort, Block.precedes, BlockId.entry]
  have collected :
      (Body.ofBlocks 0x1000 chainToExit chainBlocks).toOption.map
          (fun body => (namedExit.exitValues {} body .win64).toList) =
        some [⟨.rcx, 2⟩] := by
    rw [Body.ofBlocks, order]
    decide +kernel
  obtain ⟨body, built, values⟩ := Body.exists_ofBlocks_of_map_toOption collected
  obtain ⟨_, rules, near⟩ := exit_values_follow_rules ⟨_, _, _, built⟩ namedExit {} .win64
  have noArgument : ¬ namedExit.IsExitArgument {} body ⟨.rcx, 2⟩ := by
    intro isArgument
    obtain ⟨position, operands, ⟨performs, _⟩, isFirst⟩ := isArgument
    have listed := (Body.performs_iff_of_ofBlocks built _).mp performs.performs
    obtain rfl : operands = ⟨.pointer 0x5000, [], []⟩ := by
      simpa [chainToExit] using listed
    cases isFirst
  refine ⟨body, built, (near _ ?_ noArgument).1, fun reaches => ?_⟩
  · rw [← Std.TreeSet.mem_toList, values]
    exact List.mem_singleton_self _
  · have isCollected := (rules .rcx rfl _).mpr (.inr reaches)
    rw [← Std.TreeSet.mem_toList, values] at isCollected
    cases List.mem_singleton.mp isCollected

/-- A block that does nothing, and an exit call behind it that belongs to no block. -/
def uncoveredExit : List Instruction :=
  [⟨0, 0x1000, .nop⟩, ⟨0, 0x1004, .call ⟨.pointer 0x5000, [], [.register ⟨.rcx, 1⟩]⟩⟩]

/-- Exit calls outside every block hand over what they name. -/
theorem exitValues_uncoveredExit :
    ∃ body,
      Body.ofBlocks 0x1000 uncoveredExit [.ofRange .entry 0 1] = .ok body ∧
        (∀ block ∈ body.blocks, ∀ position,
          block.covers position → body.PerformsAt position .nop) ∧
          (namedExit.exitValues {} body .win64).toList = [⟨.rcx, 1⟩] := by
  have collected :
      (Body.ofBlocks 0x1000 uncoveredExit [.ofRange .entry 0 1]).toOption.map
          (fun body =>
            (body.blocks, body.instructions[0]?.map Instruction.operation,
              (namedExit.exitValues {} body .win64).toList)) =
        some ([.ofRange .entry 0 1], some .nop, [⟨.rcx, 1⟩]) := by
    decide +kernel
  obtain ⟨body, built, known⟩ := Body.exists_ofBlocks_of_map_toOption collected
  simp only [Prod.mk.injEq] at known
  obtain ⟨blocks, first, values⟩ := known
  refine ⟨body, built, fun block isBlock position covers => ?_, values⟩
  rw [blocks, List.mem_singleton] at isBlock
  subst isBlock
  obtain rfl : position = 0 := by
    simp only [Block.covers_iff, Block.ofRange] at covers
    omega
  obtain ⟨instruction, found, operation⟩ := Option.map_eq_some_iff.mp first
  exact ⟨instruction, found, operation⟩

end Program

end MainLocator
