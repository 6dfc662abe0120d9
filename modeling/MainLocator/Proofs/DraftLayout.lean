import MainLocator.Proofs.BlockFaults
import MainLocator.Proofs.BlockOrder
import MainLocator.Proofs.DraftHistory

/-!
# Layouts of sections

Sections laid out one behind another leave no gaps and share no position, and so the blocks over
them fit, whatever edges between them are entered. An edge that names a block that is not among them
is refused, and the first such edge is the one that counts.
-/

namespace MainLocator

namespace Block

/-- The blocks lie one behind another without gaps, from `start` on and up to `stop`. -/
def Tile : Nat → List Block → Nat → Prop
  | start, [], stop => start = stop
  | start, block :: rest, stop =>
      block.start = start ∧ start ≤ block.stop ∧ Tile block.stop rest stop

theorem Tile.le
    {start stop : Nat} {blocks : List Block}
    (tile : Tile start blocks stop) :
    start ≤ stop := by
  induction blocks generalizing start with
  | nil =>
      exact Nat.le_of_eq tile
  | cons block rest inductionHypothesis =>
      obtain ⟨_, isRun, restTile⟩ := tile
      exact Nat.le_trans isRun (inductionHypothesis restTile)

/-- Each position between the ends lies in one of the blocks, and in no other. -/
theorem Tile.flatMap_positions
    {start stop : Nat} {blocks : List Block}
    (tile : Tile start blocks stop) :
    blocks.flatMap positions = List.range' start (stop - start) := by
  induction blocks generalizing start with
  | nil =>
      obtain rfl : start = stop := tile
      rw [Nat.sub_self]
      rfl
  | cons block rest inductionHypothesis =>
      obtain ⟨rfl, isRun, restTile⟩ := tile
      have isRest := restTile.le
      have whole : stop - block.start = (block.stop - block.start) + (stop - block.stop) := by
        omega
      have middle : block.start + (block.stop - block.start) = block.stop := by
        omega
      rw [List.flatMap_cons, inductionHypothesis restTile, positions, length, whole,
        ← List.range'_append_1, middle]

end Block

namespace Draft

variable {sections : List (List Operation)} {edges : List (BlockId × BlockId)}

/-! ## Places of sections -/

theorem offset_zero (sections : List (List Operation)) :
    offset sections 0 = 0 :=
  rfl

theorem offset_succ
    {number : Nat} (inside : number < sections.length) :
    offset sections (number + 1) = offset sections number + sections[number].length := by
  rw [offset, List.take_succ_eq_append_getElem inside, List.flatten_concat, List.length_append,
    offset]

theorem offset_mono
    (sections : List (List Operation)) {first second : Nat} (ordered : first ≤ second) :
    offset sections first ≤ offset sections second := by
  have isPrefix : sections.take first <+: sections.take second :=
    List.take_prefix_take_left ordered
  obtain ⟨between, whole⟩ := isPrefix
  rw [offset, offset, ← whole, List.flatten_append, List.length_append]
  exact Nat.le_add_right _ _

theorem offset_le
    (sections : List (List Operation)) {number : Nat} (inside : number ≤ sections.length) :
    offset sections number ≤ sections.flatten.length := by
  rw [← offset_length]
  exact offset_mono sections inside

/-- A section is found at its place among all operations. -/
theorem take_drop_flatten
    {number : Nat} (inside : number < sections.length) :
    (sections.flatten.drop (offset sections number)).take
      (offset sections (number + 1) - offset sections number) = sections[number] := by
  have split :
      sections.flatten =
        (sections.take number).flatten ++
          (sections[number] ++ (sections.drop (number + 1)).flatten) := by
    rw [← List.flatten_cons, List.getElem_cons_drop, ← List.flatten_append,
      List.take_append_drop]
  have length :
      offset sections (number + 1) - offset sections number = sections[number].length := by
    rw [offset_succ inside, Nat.add_sub_cancel_left]
  have place : (sections.take number).flatten.length = offset sections number := rfl
  rw [length, split, List.drop_left' place, List.take_left' rfl]

theorem getElem?_layout
    (number : Nat) (block : Block) :
    (layout sections edges)[number]? = some block ↔
      number < sections.length ∧ blockOver sections edges number = block := by
  rw [layout, List.getElem?_map]
  by_cases inside : number < sections.length
  · simp [inside]
  · simp [inside]

theorem tile_layout
    (sections : List (List Operation)) (edges : List (BlockId × BlockId)) :
    Block.Tile 0 (layout sections edges) sections.flatten.length := by
  suffices general :
      ∀ count number,
        Block.Tile (offset sections number)
          ((List.range' number count).map (blockOver sections edges))
          (offset sections (number + count)) by
    have whole := general sections.length 0
    rwa [offset_zero, Nat.zero_add, offset_length, ← List.range_eq_range'] at whole
  intro count
  induction count with
  | zero =>
      intro number
      rfl
  | succ count inductionHypothesis =>
      intro number
      refine ⟨rfl, offset_mono sections (Nat.le_succ number), ?_⟩
      have behind := inductionHypothesis (number + 1)
      rwa [Nat.add_right_comm] at behind

/-! ## Edges -/

/-- Both ends of the edge are among the first `count` blocks. -/
def Joins (count : Nat) (edge : BlockId × BlockId) : Prop :=
  edge.1.number.toNat < count ∧ edge.2.number.toNat < count

instance (count : Nat) (edge : BlockId × BlockId) : Decidable (Joins count edge) :=
  inferInstanceAs (Decidable (_ ∧ _))

/-- The first of the edges that does not join the first `count` blocks names `missing`, which is its
source if that is not among them, and its target otherwise. -/
inductive FirstMissing (count : Nat) (edges : List (BlockId × BlockId)) : BlockId → Prop where
  | source {front back : List (BlockId × BlockId)} {source target : BlockId} :
      edges = front ++ (source, target) :: back →
      (∀ edge ∈ front, Joins count edge) →
      count ≤ source.number.toNat →
      FirstMissing count edges source
  | target {front back : List (BlockId × BlockId)} {source target : BlockId} :
      edges = front ++ (source, target) :: back →
      (∀ edge ∈ front, Joins count edge) →
      source.number.toNat < count →
      count ≤ target.number.toNat →
      FirstMissing count edges target

theorem FirstMissing.not_forall_joins
    {count : Nat} {edges : List (BlockId × BlockId)} {missing : BlockId}
    (isMissing : FirstMissing count edges missing) :
    ¬ ∀ edge ∈ edges, Joins count edge := by
  intro join
  cases isMissing with
  | source split _ unknown =>
      have joins := join _ (split ▸ List.mem_append_right _ List.mem_cons_self)
      exact Nat.not_lt.mpr unknown joins.1
  | target split _ _ unknown =>
      have joins := join _ (split ▸ List.mem_append_right _ List.mem_cons_self)
      exact Nat.not_lt.mpr unknown joins.2

theorem joins_or_exists_firstMissing
    (count : Nat) (edges : List (BlockId × BlockId)) :
    (∀ edge ∈ edges, Joins count edge) ∨ ∃ missing, FirstMissing count edges missing := by
  induction edges with
  | nil =>
      exact .inl nofun
  | cons edge rest inductionHypothesis =>
      obtain ⟨source, target⟩ := edge
      by_cases sourceKnown : source.number.toNat < count
      · by_cases targetKnown : target.number.toNat < count
        · have extend :
              ∀ {front : List (BlockId × BlockId)}, (∀ edge ∈ front, Joins count edge) →
                ∀ edge ∈ (source, target) :: front, Joins count edge := by
            intro front join
            exact List.forall_mem_cons.mpr ⟨⟨sourceKnown, targetKnown⟩, join⟩
          rcases inductionHypothesis with join | ⟨missing, isMissing⟩
          · exact .inl (extend join)
          · cases isMissing with
            | source split join unknown =>
                exact .inr ⟨_, .source (congrArg _ split) (extend join) unknown⟩
            | target split join known unknown =>
                exact .inr ⟨_, .target (congrArg _ split) (extend join) known unknown⟩
        · have unknown := Nat.le_of_not_lt targetKnown
          have first := List.forall_mem_nil (Joins count)
          exact .inr ⟨target, .target (List.nil_append _).symm first sourceKnown unknown⟩
      · have unknown := Nat.le_of_not_lt sourceKnown
        have first := List.forall_mem_nil (Joins count)
        exact .inr ⟨source, .source (List.nil_append _).symm first unknown⟩

theorem eraseDups_concat (ids : List BlockId) (id : BlockId) :
    (ids ++ [id]).eraseDups =
      if id ∈ ids.eraseDups then ids.eraseDups else ids.eraseDups ++ [id] := by
  rw [List.eraseDups_append]
  by_cases known : id ∈ ids
  · simp [List.removeAll, known]
  · simp [List.removeAll, known, List.eraseDups_cons]

theorem sourcesInto_concat
    (edges : List (BlockId × BlockId)) (source target : BlockId) (number : Nat) :
    sourcesInto (edges ++ [(source, target)]) number =
      if target.number.toNat = number then
        if source ∈ sourcesInto edges number then sourcesInto edges number
        else sourcesInto edges number ++ [source]
      else sourcesInto edges number := by
  rw [sourcesInto, List.filter_append, List.map_append]
  by_cases enters : target.number.toNat = number
  · rw [if_pos enters, List.filter_cons_of_pos (by simpa using enters), List.filter_nil,
      List.map_singleton, eraseDups_concat, ← sourcesInto]
  · rw [if_neg enters, List.filter_cons_of_neg (by simpa using enters), List.filter_nil,
      List.map_nil, List.append_nil, sourcesInto]

/-- Entering one more edge changes the block it leads to, and no other. -/
theorem connect_layout
    {edge : BlockId × BlockId} (joins : Joins sections.length edge) :
    connect (layout sections edges) edge = .ok (layout sections (edges ++ [edge])) := by
  obtain ⟨source, target⟩ := edge
  rw [connect, length_layout, if_neg (Nat.not_le_of_lt joins.1),
    if_neg (Nat.not_le_of_lt joins.2)]
  -- A change in place and a new layout are compared block by block.
  refine congrArg Except.ok (List.ext_getElem? fun number => ?_)
  rw [List.getElem?_modify, layout, layout, List.getElem?_map, List.getElem?_map,
    Option.map_eq_map, Option.map_map]
  refine Option.map_congr fun _ isNumber => ?_
  obtain ⟨_, rfl⟩ := List.getElem?_eq_some_iff.mp isNumber
  rw [List.getElem_range]
  simp only [Function.comp_apply, blockOver, sourcesInto_concat]
  by_cases enters : target.number.toNat = number
  · simp only [enters, if_true, Block.addPredecessor]
    split
    · rfl
    · rfl
  · simp only [enters, if_false]

theorem foldlM_connect_of_joins
    (done : List (BlockId × BlockId))
    (join : ∀ edge ∈ edges, Joins sections.length edge) :
    edges.foldlM connect (layout sections done) = .ok (layout sections (done ++ edges)) := by
  induction edges generalizing done with
  | nil =>
      rw [List.append_nil]
      rfl
  | cons edge rest inductionHypothesis =>
      obtain ⟨joins, restJoin⟩ := List.forall_mem_cons.mp join
      rw [List.foldlM_cons, connect_layout joins, List.append_cons done edge rest]
      exact inductionHypothesis _ restJoin

theorem foldlM_connect_of_firstMissing
    {missing : BlockId} (isMissing : FirstMissing sections.length edges missing) :
    edges.foldlM connect (layout sections []) = .error (.unknownBlock missing) := by
  cases isMissing with
  | source split join unknown =>
      rw [split, List.foldlM_append, foldlM_connect_of_joins [] join]
      simp only [bind, Except.bind, List.foldlM_cons, connect, length_layout, unknown, if_true]
  | target split join known unknown =>
      rw [split, List.foldlM_append, foldlM_connect_of_joins [] join]
      simp only [bind, Except.bind, List.foldlM_cons, connect, length_layout,
        Nat.not_le_of_lt known, if_false, unknown, if_true]

/-! ## Blocks of a draft fit -/

theorem toNat_ofNat_of_few
    {number : Nat} (few : sections.length < UInt32.size) (inside : number < sections.length) :
    (UInt32.ofNat number).toNat = number :=
  UInt32.toNat_ofNat_of_lt' (Nat.lt_trans inside few)

theorem id_mem_layout
    {id : BlockId} (known : id.number.toNat < sections.length) :
    id ∈ (layout sections edges).map Block.id := by
  rw [layout, List.map_map, List.mem_map]
  refine ⟨id.number.toNat, List.mem_range.mpr known, ?_⟩
  exact congrArg BlockId.mk UInt32.ofNat_toNat

theorem fits_layout
    (join : ∀ edge ∈ edges, Joins sections.length edge) :
    Body.Fits sections.flatten.length ((layout sections edges).map Block.id)
      (layout sections edges) where
  inRange := by
    intro block member
    obtain ⟨number, isNumber, rfl⟩ := List.mem_map.mp member
    have inside := List.mem_range.mp isNumber
    exact ⟨offset_mono sections (Nat.le_succ number), offset_le sections inside⟩
  knowsPredecessors := by
    intro block member id isPredecessor
    obtain ⟨number, _, rfl⟩ := List.mem_map.mp member
    obtain ⟨edge, isEdge, rfl⟩ := List.mem_map.mp (List.mem_eraseDups.mp isPredecessor)
    exact id_mem_layout (join edge (List.mem_filter.mp isEdge).1).1
  disjoint := by
    rw [layout, List.pairwise_map]
    refine List.pairwise_lt_range.imp fun {first second} ordered position covers => ?_
    have before : offset sections (first + 1) ≤ offset sections second :=
      offset_mono sections ordered
    simp only [Block.covers_iff, blockOver] at covers ⊢
    omega

/-- Blocks in the order opened are in order already. -/
theorem ascend_layout
    (few : sections.length < UInt32.size) (edges : List (BlockId × BlockId)) :
    (layout sections edges).Pairwise fun left right => left.precedes right := by
  rw [layout, List.pairwise_map]
  refine List.pairwise_lt_range.imp_of_mem fun {first second} isFirst isSecond ordered => ?_
  have numbers : UInt32.ofNat first ≤ UInt32.ofNat second := by
    rw [UInt32.le_iff_toNat_le, toNat_ofNat_of_few few (List.mem_range.mp isFirst),
      toNat_ofNat_of_few few (List.mem_range.mp isSecond)]
    exact Nat.le_of_lt ordered
  rw [Block.precedes_iff]
  rcases Nat.lt_or_eq_of_le (offset_mono sections (Nat.le_of_lt ordered)) with isLess | same
  · exact .inl isLess
  · exact .inr ⟨same, numbers⟩

end Draft

end MainLocator
