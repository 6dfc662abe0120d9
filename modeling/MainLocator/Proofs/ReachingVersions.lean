import MainLocator.Detection.ExitValues
import MainLocator.Proofs.BodyTables

/-!
# Versions that reach a position

Which version of a register a block has assigned last in front of a place, said by positions and
without a direction of search. `Body.reachingVersions` takes that version from the block of the
position. Only where the block assigns none does it go to the blocks directly in front, and there it
stops before the last position, whatever stands at it.
-/

namespace MainLocator

namespace Body

/-! ## Places of assignments -/

/-- The instruction at a position has the operation. -/
def PerformsAt (body : Body) (position : Nat) (operation : Operation) : Prop :=
  ∃ instruction,
    body.instructions[position]? = some instruction ∧ instruction.operation = operation

/-- The instruction at a position is an assignment to the version, or a phi that defines it. -/
inductive AssignsAt (body : Body) (position : Nat) (version : RegisterVersion) : Prop where
  | assign {source : Expression} :
      body.PerformsAt position (.assign version source) →
      AssignsAt body position version
  | phi {sources : List RegisterVersion} :
      body.PerformsAt position (.phi version sources) →
      AssignsAt body position version

/-- Of the places of a block in front of `bound`, the last that assigns a version of the register is
`place`, and the version is `version`. -/
structure AssignsLast
    (body : Body) (block : Block) (register : Register) (bound place : Nat)
    (version : RegisterVersion) : Prop where
  isHeld : block.covers place
  isInFront : place < bound
  assigns : body.AssignsAt place version
  isVersion : version.register = register
  isLast : ∀ later other,
    place < later → block.covers later → later < bound → body.AssignsAt later other →
      other.register ≠ register

/-- No place of a block in front of `bound` assigns a version of the register. -/
def AssignsNone (body : Body) (block : Block) (register : Register) (bound : Nat) : Prop :=
  ∀ place version,
    block.covers place → place < bound → body.AssignsAt place version → version.register ≠ register

/-- Control can come to `block` directly from `predecessor`. An id stands for the first block that
carries it. -/
def IsPredecessor (body : Body) (predecessor block : Block) : Prop :=
  ∃ id ∈ block.predecessors, body.block? id = some predecessor

variable {body : Body}

theorem PerformsAt.performs
    {position : Nat} {operation : Operation}
    (performs : body.PerformsAt position operation) :
    body.Performs operation := by
  obtain ⟨instruction, found, same⟩ := performs
  exact ⟨instruction, Array.mem_of_getElem? found, same⟩

theorem performsAt_iff_of_found
    {position : Nat} {instruction : Instruction}
    (found : body.instructions[position]? = some instruction) (operation : Operation) :
    body.PerformsAt position operation ↔ instruction.operation = operation := by
  simp only [PerformsAt, found, Option.some.injEq, exists_eq_left']

theorem performsAt_iff_of_ofBlocks
    {address : Word} {instructions : List Instruction} {blocks : List Block}
    (built : ofBlocks address instructions blocks = .ok body)
    (position : Nat) (operation : Operation) :
    body.PerformsAt position operation ↔
      instructions[position]?.map Instruction.operation = some operation := by
  obtain ⟨_, definitions, _, rfl⟩ :=
    (ofBlocks_eq_ok_iff address instructions blocks body).mp built
  simp only [PerformsAt, List.getElem?_toArray, getElem?_number, ← Option.map_eq_some_iff,
    Option.map_map]
  rfl

theorem assignsAt_iff (position : Nat) (version : RegisterVersion) :
    body.AssignsAt position version ↔
      ∃ instruction,
        body.instructions[position]? = some instruction ∧
          instruction.operation.assigned? = some version := by
  constructor
  · intro assigns
    cases assigns with
    | assign performs | phi performs =>
        obtain ⟨instruction, found, operation⟩ := performs
        exact ⟨instruction, found, by rw [operation]; rfl⟩
  · intro defines
    obtain ⟨instruction, found, assigned⟩ := defines
    cases operation : instruction.operation with
    | assign target source =>
        rw [operation] at assigned
        cases assigned
        exact .assign ⟨instruction, found, operation⟩
    | phi target sources =>
        rw [operation] at assigned
        cases assigned
        exact .phi ⟨instruction, found, operation⟩
    | _ =>
        rw [operation] at assigned
        cases assigned

theorem IsPredecessor.mem_blocks
    {predecessor block : Block}
    (isPredecessor : body.IsPredecessor predecessor block) :
    predecessor ∈ body.blocks := by
  obtain ⟨id, _, found⟩ := isPredecessor
  exact List.mem_of_find?_eq_some found

/-- What a block assigns last of all it also assigns last in front of its last position, unless it
does so at that position. -/
theorem AssignsLast.of_lt_last
    {block : Block} {register : Register} {place : Nat} {version : RegisterVersion}
    (assignsLast : body.AssignsLast block register block.stop place version)
    (isBeforeLast : place + 1 < block.stop) :
    body.AssignsLast block register (block.stop - 1) place version where
  isHeld := assignsLast.isHeld
  isInFront := by omega
  assigns := assignsLast.assigns
  isVersion := assignsLast.isVersion
  isLast := by
    intro later other isLater isHeld isInFront
    apply assignsLast.isLast later other isLater isHeld
    omega

namespace Accepted

/-- A version is assigned at one position. -/
theorem position_eq_of_assignsAt
    (accepted : body.Accepted)
    {left right : Nat} {version : RegisterVersion}
    (leftAssigns : body.AssignsAt left version) (rightAssigns : body.AssignsAt right version) :
    left = right := by
  obtain ⟨leftInstruction, leftFound, leftAssigned⟩ := (assignsAt_iff left version).mp leftAssigns
  obtain ⟨rightInstruction, rightFound, rightAssigned⟩ :=
    (assignsAt_iff right version).mp rightAssigns
  have same : leftInstruction = rightInstruction :=
    accepted.eq_of_mem_writes (Array.mem_of_getElem? leftFound) (Array.mem_of_getElem? rightFound)
      (Operation.mem_writes_of_assigned? leftAssigned)
      (Operation.mem_writes_of_assigned? rightAssigned)
  rw [← accepted.index_eq leftFound, ← accepted.index_eq rightFound, same]

/-- What is assigned is no result of a call. -/
theorem notMem_results_of_assignsAt
    (accepted : body.Accepted)
    {position : Nat} {version : RegisterVersion} {operation : Operation} {operands : CallOperands}
    (assigns : body.AssignsAt position version)
    (performs : body.Performs operation) (isCall : operation.callOperands? = some operands) :
    version ∉ operands.results := by
  intro isResult
  obtain ⟨instruction, found, assigned⟩ := (assignsAt_iff position version).mp assigns
  have assigner : body.Performs instruction.operation :=
    ⟨instruction, Array.mem_of_getElem? found, rfl⟩
  cases operation with
  | call performed | tailCall performed =>
      cases isCall
      rw [accepted.eq_of_assigned? assigner performs assigned isResult] at assigned
      cases assigned
  | _ =>
      cases isCall

theorem blockAt?_eq_some_iff
    (accepted : body.Accepted) (position : Nat) (block : Block) :
    body.blockAt? position = some block ↔ block ∈ body.blocks ∧ block.covers position = true :=
  ownerOf?_eq_some_iff accepted.disjoint position block

theorem eq_of_covers
    (accepted : body.Accepted)
    {left right : Block} {position : Nat}
    (leftMember : left ∈ body.blocks) (rightMember : right ∈ body.blocks)
    (leftCovers : left.covers position) (rightCovers : right.covers position) :
    left = right := by
  have leftFound := (accepted.blockAt?_eq_some_iff position left).mpr ⟨leftMember, leftCovers⟩
  have rightFound := (accepted.blockAt?_eq_some_iff position right).mpr ⟨rightMember, rightCovers⟩
  rw [leftFound] at rightFound
  exact Option.some.inj rightFound

end Accepted

/-! ## The search -/

/-- Going through a stretch of positions backwards finds the last that has an answer. -/
theorem findSome?_reverse_range'_eq_some_iff
    {α : Type} (answer : Nat → Option α) (start length : Nat) (found : α) :
    (List.range' start length).reverse.findSome? answer = some found ↔
      ∃ place,
        start ≤ place ∧ place < start + length ∧ answer place = some found ∧
          ∀ later, place < later → later < start + length → answer later = none := by
  induction length with
  | zero =>
      constructor
      · intro absurdity
        cases absurdity
      · intro holds
        obtain ⟨place, start_le, lt_start, _⟩ := holds
        omega
  | succ length inductionHypothesis =>
      rw [List.range'_concat, List.reverse_append, List.reverse_singleton, List.singleton_append,
        List.findSome?_cons, Nat.one_mul]
      cases last : answer (start + length) with
      | some value =>
          constructor
          · intro isLast
            refine ⟨start + length, by omega, by omega, ?_, fun later above below => by omega⟩
            rw [last]
            exact isLast
          · intro holds
            obtain ⟨place, _, inside, isFound, isLast⟩ := holds
            by_cases isEnd : place = start + length
            · subst isEnd
              rw [last] at isFound
              exact isFound
            · have silent := isLast (start + length) (by omega) (by omega)
              rw [last] at silent
              cases silent
      | none =>
          refine inductionHypothesis.trans (exists_congr fun place => ?_)
          constructor
          · intro holds
            obtain ⟨start_le, inside, isFound, isLast⟩ := holds
            refine ⟨start_le, by omega, isFound, fun later above below => ?_⟩
            by_cases isEnd : later = start + length
            · rw [isEnd]
              exact last
            · apply isLast later above
              omega
          · intro holds
            obtain ⟨start_le, inside, isFound, isLast⟩ := holds
            have notEnd : place ≠ start + length := by
              intro isEnd
              rw [isEnd, last] at isFound
              cases isFound
            refine ⟨start_le, by omega, isFound, fun later above below => ?_⟩
            apply isLast later above
            omega

/-- The version of a register that the instruction at a position assigns. -/
def assignedAt? (body : Body) (register : Register) (position : Nat) : Option RegisterVersion := do
  let target ← (← body.instructions[position]?).operation.assigned?
  if target.register = register then some target else none

theorem assignedAt?_eq_some_iff
    (register : Register) (position : Nat) (version : RegisterVersion) :
    body.assignedAt? register position = some version ↔
      body.AssignsAt position version ∧ version.register = register := by
  simp only [assignedAt?, assignsAt_iff, Option.bind_eq_bind, Option.bind_eq_some_iff,
    Option.ite_none_right_eq_some, Option.some.injEq]
  constructor
  · intro assigned
    obtain ⟨instruction, found, target, isTarget, isVersion, rfl⟩ := assigned
    exact ⟨⟨instruction, found, isTarget⟩, isVersion⟩
  · intro assigned
    obtain ⟨⟨instruction, found, isTarget⟩, isVersion⟩ := assigned
    exact ⟨instruction, found, version, isTarget, isVersion, rfl⟩

theorem assignedAt?_eq_none_iff (register : Register) (position : Nat) :
    body.assignedAt? register position = none ↔
      ∀ version, body.AssignsAt position version → version.register ≠ register := by
  rw [Option.eq_none_iff_forall_ne_some]
  refine forall_congr' fun version => ?_
  rw [Ne, assignedAt?_eq_some_iff, not_and]

/-- The positions that the search of a block goes through are the places of the block in front of
the bound. -/
theorem mem_stretch_iff (block : Block) (bound place : Nat) :
    block.start ≤ place ∧ place < block.start + (min bound block.stop - block.start) ↔
      block.covers place = true ∧ place < bound := by
  rw [Block.covers_iff]
  omega

theorem lastAssignment?_eq_some_iff
    (block : Block) (register : Register) (bound : Nat) (version : RegisterVersion) :
    body.lastAssignment? block register bound = some version ↔
      ∃ place, body.AssignsLast block register bound place version := by
  refine (findSome?_reverse_range'_eq_some_iff (body.assignedAt? register) _ _ _).trans ?_
  refine exists_congr fun place => ?_
  rw [← and_assoc, mem_stretch_iff, assignedAt?_eq_some_iff]
  constructor
  · intro holds
    obtain ⟨⟨isHeld, isInFront⟩, ⟨assigns, isVersion⟩, isLast⟩ := holds
    refine ⟨isHeld, isInFront, assigns, isVersion, fun later other above held inFront => ?_⟩
    have inside := (mem_stretch_iff block bound later).mpr ⟨held, inFront⟩
    exact (assignedAt?_eq_none_iff register later).mp (isLast later above inside.2) other
  · intro assignsLast
    refine ⟨⟨assignsLast.isHeld, assignsLast.isInFront⟩,
      ⟨assignsLast.assigns, assignsLast.isVersion⟩, fun later above below => ?_⟩
    have place_le := ((mem_stretch_iff block bound place).mpr
      ⟨assignsLast.isHeld, assignsLast.isInFront⟩).1
    obtain ⟨held, inFront⟩ := (mem_stretch_iff block bound later).mp ⟨by omega, below⟩
    rw [assignedAt?_eq_none_iff]
    exact fun other => assignsLast.isLast later other above held inFront

theorem lastAssignment?_eq_none_iff
    (block : Block) (register : Register) (bound : Nat) :
    body.lastAssignment? block register bound = none ↔
      body.AssignsNone block register bound := by
  have isSearch :
      body.lastAssignment? block register bound =
        (List.range' block.start (min bound block.stop - block.start)).reverse.findSome?
          (body.assignedAt? register) := rfl
  simp only [isSearch, List.findSome?_eq_none_iff, List.mem_reverse, List.mem_range'_1,
    mem_stretch_iff, assignedAt?_eq_none_iff, and_imp]
  constructor
  · intro silent place version isHeld isInFront
    exact silent place isHeld isInFront version
  · intro assignsNone place isHeld isInFront version
    exact assignsNone place version isHeld isInFront

theorem reachingVersions_of_lastAssignment?
    {register : Register} {position : Nat} {block : Block} {version : RegisterVersion}
    (isBlock : body.blockAt? position = some block)
    (found : body.lastAssignment? block register position = some version) :
    body.reachingVersions register position = [version] := by
  simp only [reachingVersions, isBlock, found]

theorem reachingVersions_of_assignsNone
    {register : Register} {position : Nat} {block : Block}
    (isBlock : body.blockAt? position = some block)
    (assignsNone : body.AssignsNone block register position) :
    body.reachingVersions register position =
      (block.predecessors.filterMap body.block?).filterMap fun predecessor =>
        body.lastAssignment? predecessor register (predecessor.stop - 1) := by
  have silent := (lastAssignment?_eq_none_iff block register position).mpr assignsNone
  simp only [reachingVersions, isBlock, silent]

/-- In the block of the position, the versions found are those that it assigns last in front of the
position. Where it assigns none, they are those that a block directly in front assigns last before
its last position. -/
theorem mem_reachingVersions_iff_of_blockAt?
    {position : Nat} {block : Block}
    (isBlock : body.blockAt? position = some block)
    (register : Register) (version : RegisterVersion) :
    version ∈ body.reachingVersions register position ↔
      (∃ place, body.AssignsLast block register position place version) ∨
        body.AssignsNone block register position ∧
          ∃ predecessor place,
            body.IsPredecessor predecessor block ∧
              body.AssignsLast predecessor register (predecessor.stop - 1) place version := by
  cases found : body.lastAssignment? block register position with
  | some last =>
      have assignsSome : ¬ body.AssignsNone block register position := by
        rw [← lastAssignment?_eq_none_iff, found]
        exact Option.some_ne_none last
      rw [reachingVersions_of_lastAssignment? isBlock found, List.mem_singleton,
        ← lastAssignment?_eq_some_iff, found, Option.some.injEq, eq_comm,
        or_iff_left fun holds => assignsSome holds.1]
  | none =>
      have assignsNone := (lastAssignment?_eq_none_iff block register position).mp found
      rw [reachingVersions_of_assignsNone isBlock assignsNone, ← lastAssignment?_eq_some_iff, found]
      simp only [assignsNone, List.mem_filterMap, IsPredecessor, lastAssignment?_eq_some_iff,
        reduceCtorEq, false_or, true_and, exists_and_left]

/-- The versions found at a position are those found in the one block that covers it. -/
theorem Accepted.mem_reachingVersions_iff
    (accepted : body.Accepted)
    (register : Register) (position : Nat) (version : RegisterVersion) :
    version ∈ body.reachingVersions register position ↔
      ∃ block ∈ body.blocks,
        block.covers position = true ∧
          ((∃ place, body.AssignsLast block register position place version) ∨
            body.AssignsNone block register position ∧
              ∃ predecessor place,
                body.IsPredecessor predecessor block ∧
                  body.AssignsLast predecessor register (predecessor.stop - 1) place version) := by
  cases isBlock : body.blockAt? position with
  | none =>
      refine iff_of_false ?_ ?_
      · simp only [reachingVersions, isBlock, List.not_mem_nil, not_false_eq_true]
      · intro reaches
        obtain ⟨block, member, covers, _⟩ := reaches
        rw [(accepted.blockAt?_eq_some_iff position block).mpr ⟨member, covers⟩] at isBlock
        cases isBlock
  | some block =>
      obtain ⟨member, covers⟩ := (accepted.blockAt?_eq_some_iff position block).mp isBlock
      refine (mem_reachingVersions_iff_of_blockAt? isBlock register version).trans
        ⟨fun reaches => ⟨block, member, covers, reaches⟩, fun reaches => ?_⟩
      obtain ⟨other, isMember, isCover, reaches⟩ := reaches
      rwa [accepted.eq_of_covers isMember member isCover covers] at reaches

end Body

end MainLocator
