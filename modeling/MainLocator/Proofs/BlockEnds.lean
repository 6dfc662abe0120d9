import MainLocator.Proofs.ExitValues

/-!
# Last positions of blocks

Where the block of a return or an exit call leaves the register alone, its value comes from the
blocks directly in front. The last position of such a block is taken for its terminator and not
looked at. So what a block assigns there is missed, if control falls through from it: this is the
only way to miss the version that a block in front assigns last.
-/

namespace MainLocator

namespace Program

/-- The process ends with a register at a position whose block does not assign it in front of there,
and `version` is what a block directly in front assigns to it last, at `place`. -/
structure ComesThrough
    (program : Program) (settings : Settings) (body : Body) (convention : CallingConvention)
    (predecessor block : Block) (position place : Nat) (version : RegisterVersion) : Prop where
  ends : program.EndsOn settings body convention position version.register
  isBlock : block ∈ body.blocks
  covers : block.covers position
  assignsNone : body.AssignsNone block version.register position
  isPredecessor : body.IsPredecessor predecessor block
  assignsLast : body.AssignsLast predecessor version.register predecessor.stop place version

variable
  {program : Program} {settings : Settings} {body : Body} {convention : CallingConvention}

theorem ComesThrough.reachesEnd
    {predecessor block : Block} {position place : Nat} {version : RegisterVersion}
    (comes : program.ComesThrough settings body convention predecessor block position place version)
    (notEnd : place + 1 ≠ predecessor.stop) :
    program.ReachesEnd settings body convention version := by
  have inside := (predecessor.covers_iff place).mp comes.assignsLast.isHeld
  have isBeforeLast : place + 1 < predecessor.stop := by omega
  exact .inPredecessor comes.ends comes.isBlock comes.covers comes.assignsNone comes.isPredecessor
    (comes.assignsLast.of_lt_last isBeforeLast)

/-- No version that a block assigns at its last position reaches the end of the process. Blocks are
disjoint, so the place lies in one block only, and in front of no other position of that block. -/
theorem not_reachesEnd_of_last
    (accepted : body.Accepted)
    {source : Block} {place : Nat} {version : RegisterVersion}
    (isSource : source ∈ body.blocks) (covers : source.covers place)
    (assigns : body.AssignsAt place version) (isEnd : place + 1 = source.stop) :
    ¬ program.ReachesEnd settings body convention version := by
  intro reaches
  cases reaches with
  | inBlock ends member blockCovers assignsLast =>
      obtain rfl := accepted.position_eq_of_assignsAt assigns assignsLast.assigns
      obtain rfl := accepted.eq_of_covers isSource member covers assignsLast.isHeld
      have inFront := assignsLast.isInFront
      have inside := (source.covers_iff _).mp blockCovers
      omega
  | inPredecessor ends member blockCovers assignsNone isPredecessor assignsLast =>
      obtain rfl := accepted.position_eq_of_assignsAt assigns assignsLast.assigns
      have same :=
        accepted.eq_of_covers isSource isPredecessor.mem_blocks covers assignsLast.isHeld
      have inFront := assignsLast.isInFront
      rw [← same] at inFront
      omega

/-- The version that a block in front assigns last is collected, unless it does so at its last
position. What an exit call names as its argument is collected in any case. -/
theorem collected_iff_not_at_block_end
    (accepted : body.Accepted)
    {firstArgument : Register} (isFirst : convention.firstArgument? = some firstArgument)
    {predecessor block : Block} {position place : Nat} {version : RegisterVersion}
    (comes :
      program.ComesThrough settings body convention predecessor block position place version) :
    version ∈ program.exitValues settings body convention ↔
      place + 1 ≠ predecessor.stop ∨ program.IsExitArgument settings body version := by
  rw [mem_exitValues_iff accepted isFirst, or_comm]
  refine or_congr_left' fun _ => ⟨fun reaches isEnd => ?_, comes.reachesEnd⟩
  exact not_reachesEnd_of_last accepted comes.isPredecessor.mem_blocks comes.assignsLast.isHeld
    comes.assignsLast.assigns isEnd reaches

/-- Two blocks in front of an exit call: one goes there, the other falls through. -/
def unevenJoin : List Instruction :=
  [⟨0, 0x1000, .assign ⟨.rcx, 1⟩ (.const 0)⟩,
    ⟨0, 0x1004, .goto 3⟩,
    ⟨0, 0x1008, .assign ⟨.rcx, 2⟩ (.const 1)⟩,
    ⟨0, 0x100c, .call ⟨.pointer 0x5000, [], []⟩⟩]

def goingBlock : Block := ⟨.entry, 0, 2, []⟩

def fallingBlock : Block := ⟨⟨1⟩, 2, 3, []⟩

def joinBlock : Block := ⟨⟨2⟩, 3, 4, [.entry, ⟨1⟩]⟩

/-- Both blocks hand a version to the exit call, and one of the two is collected. -/
theorem exists_comesThrough_unevenJoin :
    ∃ body,
      Body.ofBlocks 0x1000 unevenJoin [goingBlock, fallingBlock, joinBlock] = .ok body ∧
        (namedExit.exitValues {} body .win64).toList = [⟨.rcx, 1⟩] ∧
          namedExit.ComesThrough {} body .win64 goingBlock joinBlock 3 0 ⟨.rcx, 1⟩ ∧
            namedExit.ComesThrough {} body .win64 fallingBlock joinBlock 3 2 ⟨.rcx, 2⟩ := by
  have order :
      [goingBlock, fallingBlock, joinBlock].mergeSort Block.precedes =
        [goingBlock, fallingBlock, joinBlock] := by
    simp [goingBlock, fallingBlock, joinBlock, List.mergeSort, Block.precedes]
  have collected :
      (Body.ofBlocks 0x1000 unevenJoin [goingBlock, fallingBlock, joinBlock]).toOption.map
          (fun body => (body.blocks, (namedExit.exitValues {} body .win64).toList)) =
        some ([goingBlock, fallingBlock, joinBlock], [⟨.rcx, 1⟩]) := by
    rw [Body.ofBlocks, order]
    decide +kernel
  obtain ⟨body, built, known⟩ := Body.exists_ofBlocks_of_map_toOption collected
  obtain ⟨blocks, values⟩ := Prod.mk.inj known
  have performs := fun position operation =>
    (Body.performsAt_iff_of_ofBlocks built position operation).mpr
  have ends : namedExit.EndsOn {} body .win64 3 .rcx := by
    refine .atExit ⟨performs 3 (.call ⟨.pointer 0x5000, [], []⟩) rfl, 0x5000, .pointer _, ?_⟩
      rfl rfl
    exact .named ⟨.plain .function "exit" 0x5000, by decide +kernel, by decide⟩
  have isBlock : joinBlock ∈ body.blocks := by
    simp [blocks]
  have assignsNone : body.AssignsNone joinBlock .rcx 3 := by
    intro place version covers inFront
    simp only [Block.covers_iff, joinBlock] at covers
    omega
  have goes : body.AssignsLast goingBlock .rcx goingBlock.stop 0 ⟨.rcx, 1⟩ := by
    refine ⟨rfl, by decide, .assign (performs 0 _ rfl), rfl, ?_⟩
    intro later other above covers _ assigns
    simp only [Block.covers_iff, goingBlock] at covers
    obtain rfl : later = 1 := by omega
    cases assigns with
    | assign performed | phi performed =>
        cases (Body.performsAt_iff_of_ofBlocks built 1 _).mp performed
  have falls : body.AssignsLast fallingBlock .rcx fallingBlock.stop 2 ⟨.rcx, 2⟩ := by
    refine ⟨rfl, by decide, .assign (performs 2 _ rfl), rfl, ?_⟩
    intro later other above covers _ _
    simp only [Block.covers_iff, fallingBlock] at covers
    omega
  refine ⟨body, built, values, ⟨ends, isBlock, rfl, assignsNone, ?_, goes⟩,
    ⟨ends, isBlock, rfl, assignsNone, ?_, falls⟩⟩
  · exact ⟨.entry, by decide, by rw [Body.block?, blocks]; rfl⟩
  · exact ⟨⟨1⟩, by decide, by rw [Body.block?, blocks]; rfl⟩

theorem collected_from_goingBlock :
    ∃ body,
      Body.ofBlocks 0x1000 unevenJoin [goingBlock, fallingBlock, joinBlock] = .ok body ∧
        namedExit.ComesThrough {} body .win64 goingBlock joinBlock 3 0 ⟨.rcx, 1⟩ ∧
          (⟨.rcx, 1⟩ : RegisterVersion) ∈ namedExit.exitValues {} body .win64 := by
  obtain ⟨body, built, _, comes, _⟩ := exists_comesThrough_unevenJoin
  exact ⟨body, built, comes,
    (collected_iff_not_at_block_end ⟨_, _, _, built⟩ rfl comes).mpr (.inl (by decide))⟩

/-- What the block that falls through assigns last is missed. -/
theorem not_collected_from_fallingBlock :
    ∃ body,
      Body.ofBlocks 0x1000 unevenJoin [goingBlock, fallingBlock, joinBlock] = .ok body ∧
        namedExit.ComesThrough {} body .win64 fallingBlock joinBlock 3 2 ⟨.rcx, 2⟩ ∧
          (⟨.rcx, 2⟩ : RegisterVersion) ∉ namedExit.exitValues {} body .win64 := by
  obtain ⟨body, built, values, _, comes⟩ := exists_comesThrough_unevenJoin
  refine ⟨body, built, comes, ?_⟩
  rw [← Std.TreeSet.mem_toList, values]
  decide

end Program

end MainLocator
