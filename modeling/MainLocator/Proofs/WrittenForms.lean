import MainLocator.Codec.Program
import MainLocator.Proofs.LedgerFile

/-!
# Written forms are read back

Everything that has a form as JSON is read back from it as the same type. Forms of expressions nest
without bound, and are read back exactly if they keep to the nesting limit of the reader.
-/

namespace MainLocator

open Json (Value Decoder Decodes RoundTrips allFields? allFields?_record nestingLimit)

/-! ## Code -/

theorem Register.decodes_toJson (register : Register) :
    Decodes ofJson? register.toJson register := by
  intro depth within
  rw [ofJson?, toJson, Decodes.half register.number depth within]
  rfl

theorem RegisterVersion.decodes_toJson (value : RegisterVersion) :
    Decodes ofJson? value.toJson value := by
  refine .fields (fun _ _ => rfl) (by simp) fun depth ⟨register, version⟩ => ?_
  simp [value.register.decodes_toJson depth register, Decodes.half value.version depth version]

namespace Expression

theorem partOfJson?_record (whole : RegisterVersion) (part : Register) :
    Decodes partOfJson? (.record [("full", whole.toJson), ("partial", part.toJson)])
      (partialRegister whole part) := by
  refine .fields (fun _ _ => rfl) (by simp) fun depth ⟨wholeWithin, partWithin⟩ => ?_
  simp [whole.decodes_toJson depth wholeWithin, part.decodes_toJson depth partWithin]

/-- Two operands take one bracket for the tag and one for the pair. -/
theorem decodes_pair
    {tag : String} {combine : Expression → Expression → Expression} {left right : Expression}
    (reads :
      ∀ depth first second,
        ofJson? (depth + 2) (.object [(some tag, .array [first, second])]) = do
          return combine (← ofJson? depth first) (← ofJson? depth second))
    (leftDecodes : Decodes ofJson? left.toJson left)
    (rightDecodes : Decodes ofJson? right.toJson right) :
    Decodes ofJson? (.variant tag (.array [left.toJson, right.toJson])) (combine left right) := by
  refine .variant fun depth within => ?_
  cases depth with
  | zero =>
      cases within
  | succ depth =>
      simp only [Value.nesting_array_le_iff, List.forall_mem_cons] at within
      rw [reads, leftDecodes depth within.1, rightDecodes depth within.2.1]
      rfl

theorem decodes_toJson (expression : Expression) :
    Decodes ofJson? expression.toJson expression := by
  induction expression with
  | const value | pointer value =>
      refine .variant fun depth within => ?_
      rw [ofJson?]
      simp [Decodes.word value depth within]
  | register source =>
      refine .variant fun depth within => ?_
      simp [ofJson?, source.decodes_toJson depth within]
  | partialRegister whole part =>
      refine .variant fun depth within => ?_
      simp [ofJson?, partOfJson?_record whole part depth within]
  | zeroExtend operand inductionHypothesis | signExtend operand inductionHypothesis
  | load operand inductionHypothesis =>
      refine .variant fun depth within => ?_
      simp [ofJson?, inductionHypothesis depth within]
  | add left right leftHypothesis rightHypothesis =>
      exact decodes_pair (fun _ _ _ => by rw [ofJson?]) leftHypothesis rightHypothesis
  | subtract left right leftHypothesis rightHypothesis =>
      exact decodes_pair (fun _ _ _ => by rw [ofJson?]) leftHypothesis rightHypothesis
  | undefined =>
      intro depth _
      rw [toJson, Value.text, ofJson?]

/-! ### The nesting limit -/

theorem nesting_le_of_registerOfJson?
    {depth : Nat} {value result : RegisterVersion}
    (reads : RegisterVersion.ofJson? depth value.toJson = some result) :
    value.toJson.nesting ≤ depth := by
  cases depth with
  | zero =>
      cases reads
  | succ depth =>
      simp [RegisterVersion.toJson, Register.toJson, Value.nesting_record_le_iff]

theorem nesting_le_of_partOfJson?
    {depth : Nat} {whole : RegisterVersion} {part : Register} {result : Expression}
    (reads :
      partOfJson? depth (.record [("full", whole.toJson), ("partial", part.toJson)]) =
        some result) :
    (Value.record [("full", whole.toJson), ("partial", part.toJson)]).nesting ≤ depth := by
  cases depth with
  | zero =>
      cases reads
  | succ depth =>
      have found := allFields?_record [("full", whole.toJson), ("partial", part.toJson)] (by simp)
      simp only [List.map_cons, List.map_nil] at found
      rw [partOfJson?, found] at reads
      simp only [Option.bind_eq_bind, Option.bind_some, Option.bind_eq_some_iff] at reads
      obtain ⟨readWhole, wholeReads, _⟩ := reads
      have within := nesting_le_of_registerOfJson? wholeReads
      simpa [Value.nesting_record_le_iff, Register.toJson] using within

theorem exists_of_ofJson?_variant
    {depth : Nat} {tag : String} {content : Value} {result : Expression}
    (reads : ofJson? depth (.variant tag content) = some result) :
    ∃ inner, depth = inner + 1 := by
  cases depth with
  | zero => cases reads
  | succ inner => exact ⟨inner, rfl⟩

/-- Where anything is read from the written form, as many brackets may be open as it nests. -/
theorem nesting_le_of_ofJson?
    {depth : Nat} {expression result : Expression}
    (reads : ofJson? depth expression.toJson = some result) :
    expression.toJson.nesting ≤ depth := by
  induction expression generalizing depth result with
  | undefined =>
      simp [toJson]
  | const value | pointer value =>
      obtain ⟨inner, rfl⟩ := exists_of_ofJson?_variant reads
      simp [toJson]
  | register source =>
      obtain ⟨inner, rfl⟩ := exists_of_ofJson?_variant reads
      obtain ⟨_, sourceReads, _⟩ := Option.map_eq_some_iff.mp reads
      rw [toJson, Value.nesting_variant, Nat.add_le_add_iff_right]
      exact nesting_le_of_registerOfJson? sourceReads
  | partialRegister whole part =>
      obtain ⟨inner, rfl⟩ := exists_of_ofJson?_variant reads
      rw [toJson, Value.nesting_variant, Nat.add_le_add_iff_right]
      exact nesting_le_of_partOfJson? reads
  | zeroExtend operand inductionHypothesis | signExtend operand inductionHypothesis
  | load operand inductionHypothesis =>
      obtain ⟨inner, rfl⟩ := exists_of_ofJson?_variant reads
      obtain ⟨_, operandReads, _⟩ := Option.map_eq_some_iff.mp reads
      rw [toJson, Value.nesting_variant, Nat.add_le_add_iff_right]
      exact inductionHypothesis operandReads
  | add left right leftHypothesis rightHypothesis
  | subtract left right leftHypothesis rightHypothesis =>
      obtain ⟨inner, rfl⟩ := exists_of_ofJson?_variant reads
      cases inner with
      | zero =>
          cases reads
      | succ inner =>
          obtain ⟨_, leftReads, rest⟩ := Option.bind_eq_some_iff.mp reads
          obtain ⟨_, rightReads, _⟩ := Option.bind_eq_some_iff.mp rest
          rw [toJson, Value.nesting_variant, Value.nesting_pair, Nat.add_le_add_iff_right,
            Nat.add_le_add_iff_right, Nat.max_le]
          exact ⟨leftHypothesis leftReads, rightHypothesis rightReads⟩

end Expression

theorem CallOperands.decodes_toJson (operands : CallOperands) :
    Decodes ofJson? operands.toJson operands := by
  refine .fields (fun _ _ => rfl) (by simp) fun depth ⟨target, results, arguments⟩ => ?_
  simp [operands.target.decodes_toJson depth target,
    Decodes.list RegisterVersion.decodes_toJson operands.results depth results,
    Decodes.list Expression.decodes_toJson operands.arguments depth arguments]

namespace Operation

/-- The positions that an operation names are 64-bit numbers. -/
def Fits : Operation → Prop
  | goto target => target < UInt64.size
  | branch _ taken skipped => taken < UInt64.size ∧ skipped < UInt64.size
  | _ => True

theorem decodes_fields
    {tag : String} {members : List (String × Value)} {operation : Operation}
    {read : Nat → List Value → Option Operation}
    (isPlain : tag ∉ ["NoReturn", "Nop", "Call", "TailCall"])
    (asks :
      ∀ depth content,
        ofFields? depth tag content = (allFields? (members.map Prod.fst) content).bind (read depth))
    (distinct : (members.map Prod.fst).Nodup)
    (reads :
      ∀ depth, members.Forall (fun member => member.2.nesting ≤ depth) →
        read depth (members.map Prod.snd) = some operation) :
    Decodes ofJson? (.variant tag (.record members)) operation := by
  -- The depth of `ofFields?` is that inside the bracket around the fields.
  have content :
      Decodes (fun depth content => ofFields? (depth - 1) tag content) (.record members)
        operation :=
    .fields (fun depth content => asks depth content) distinct reads
  refine .variant fun depth within => ?_
  cases depth with
  | zero =>
      cases within
  | succ depth =>
      simp only [List.mem_cons, List.not_mem_nil, or_false, not_or] at isPlain
      rw [ofJson?]
      · exact content (depth + 1) within
      -- The alternatives in front are for the other four tags.
      all_goals simp_all

theorem decodes_toJson (operation : Operation) (fits : operation.Fits) :
    Decodes ofJson? operation.toJson operation := by
  cases operation with
  | assign destination source =>
      refine decodes_fields (by decide) (fun _ _ => rfl) (by simp) fun depth within => ?_
      obtain ⟨destinationWithin, sourceWithin⟩ := within
      simp [destination.decodes_toJson depth destinationWithin,
        source.decodes_toJson depth sourceWithin]
  | phi destination sources =>
      refine decodes_fields (by decide) (fun _ _ => rfl) (by simp) fun depth within => ?_
      obtain ⟨destinationWithin, sourcesWithin⟩ := within
      simp [destination.decodes_toJson depth destinationWithin,
        Decodes.list RegisterVersion.decodes_toJson sources depth sourcesWithin]
  | call operands | tailCall operands =>
      refine .variant fun depth within => ?_
      rw [ofJson?, operands.decodes_toJson depth within]
      rfl
  | store address value =>
      refine decodes_fields (by decide) (fun _ _ => rfl) (by simp) fun depth within => ?_
      obtain ⟨addressWithin, valueWithin⟩ := within
      simp [address.decodes_toJson depth addressWithin, value.decodes_toJson depth valueWithin]
  | ret target | jump target =>
      refine decodes_fields (by decide) (fun _ _ => rfl) (by simp) fun depth within => ?_
      simp [target.decodes_toJson depth within]
  | goto target =>
      refine decodes_fields (by decide) (fun _ _ => rfl) (by simp) fun depth within => ?_
      simp [Decodes.count fits depth within]
  | branch condition taken skipped =>
      obtain ⟨takenFits, skippedFits⟩ := fits
      refine decodes_fields (by decide) (fun _ _ => rfl) (by simp) fun depth within => ?_
      obtain ⟨conditionWithin, takenWithin, skippedWithin⟩ := within
      simp [condition.decodes_toJson depth conditionWithin,
        Decodes.count takenFits depth takenWithin, Decodes.count skippedFits depth skippedWithin]
  | noReturn | nop =>
      intro depth _
      rw [toJson, Value.text, ofJson?]

end Operation

/-- The positions that an instruction names, its own among them, are 64-bit numbers. -/
def Instruction.Fits (instruction : Instruction) : Prop :=
  instruction.index < UInt64.size ∧ instruction.operation.Fits

theorem Instruction.decodes_toJson (instruction : Instruction) (fits : instruction.Fits) :
    Decodes ofJson? instruction.toJson instruction := by
  refine .fields (fun _ _ => rfl) (by simp) fun depth ⟨index, address, operation⟩ => ?_
  simp [Decodes.count fits.1 depth index, Decodes.word instruction.address depth address,
    instruction.operation.decodes_toJson fits.2 depth operation]

theorem BlockId.decodes_toJson (id : BlockId) :
    Decodes ofJson? id.toJson id := by
  intro depth within
  rw [ofJson?, toJson, Decodes.half id.number depth within]
  rfl

/-- The bounds of a block are 64-bit numbers. -/
def Block.Fits (block : Block) : Prop :=
  block.start < UInt64.size ∧ block.stop < UInt64.size

theorem Block.decodes_toJson (block : Block) (fits : block.Fits) :
    Decodes ofJson? block.toJson block := by
  refine .fields (fun _ _ => rfl) (by simp) fun depth ⟨id, start, stop, predecessors⟩ => ?_
  simp [block.id.decodes_toJson depth id, Decodes.count fits.1 depth start,
    Decodes.count fits.2 depth stop,
    Decodes.list BlockId.decodes_toJson block.predecessors depth predecessors]

/-! ## Facts about programs -/

theorem CallType.decodes_toJson (type : CallType) :
    Decodes ofJson? type.toJson type :=
  .tag (by cases type <;> rfl)

theorem CallSite.decodes_toJson (site : CallSite) :
    Decodes ofJson? site.toJson site := by
  refine .fields (fun _ _ => rfl) (by simp) fun depth ⟨address, type⟩ => ?_
  simp [Decodes.word site.address depth address, site.type.decodes_toJson depth type]

theorem CallingConvention.decodes_toJson (convention : CallingConvention) :
    Decodes ofJson? convention.toJson convention := by
  refine .fields (fun _ _ => rfl) (by simp) fun depth ⟨name, arguments, result⟩ => ?_
  simp [Decodes.text convention.name depth name,
    Decodes.list Register.decodes_toJson convention.argumentRegisters depth arguments,
    convention.returnRegister.decodes_toJson depth result]

theorem SymbolKind.decodes_toJson (kind : SymbolKind) :
    Decodes ofJson? kind.toJson kind :=
  .tag (by cases kind <;> rfl)

theorem Symbol.decodes_toJson (symbol : Symbol) :
    Decodes ofJson? symbol.toJson symbol := by
  refine .fields (fun _ _ => rfl) (by simp) fun depth ⟨rawName, shortName, address, kind⟩ => ?_
  simp [Decodes.text symbol.rawName depth rawName, Decodes.text symbol.shortName depth shortName,
    Decodes.word symbol.address depth address, symbol.kind.decodes_toJson depth kind]

theorem Resolution.decodes_toJson (resolution : Resolution) :
    Decodes ofJson? resolution.toJson resolution :=
  .record fun depth _ => ofMembers?_members (fun _ => rfl) depth resolution

/-! ## Texts -/

theorem Block.nesting_toJson_le (block : Block) :
    block.toJson.nesting ≤ 2 := by
  simp [toJson, BlockId.toJson, Value.nesting_record_le_iff _ 1, Value.nesting_array_le_iff _ 0]

theorem CallSite.nesting_toJson_le (site : CallSite) :
    site.toJson.nesting ≤ 1 := by
  simp [toJson, CallType.toJson, Value.nesting_record_le_iff _ 0]

theorem CallingConvention.nesting_toJson_le (convention : CallingConvention) :
    convention.toJson.nesting ≤ 2 := by
  simp [toJson, Register.toJson, Value.nesting_record_le_iff _ 1, Value.nesting_array_le_iff _ 0]

theorem Symbol.nesting_toJson_le (symbol : Symbol) :
    symbol.toJson.nesting ≤ 1 := by
  simp [toJson, SymbolKind.toJson, Value.nesting_record_le_iff _ 0]

theorem Resolution.nesting_toJson_le (resolution : Resolution) :
    resolution.toJson.nesting ≤ 1 := by
  cases resolution with
  | unresolved | found | notFound => simp [toJson, members, Value.nesting_record_le_iff _ 0]

/-- What is written is read back, and writing it again gives the same text. Only code with
expressions can nest too deeply for the reader, and an expression is read back exactly if it does
not. -/
theorem written_forms_are_read_back :
    (∀ expression,
      RoundTrips Expression.toJson Expression.ofJson? expression ↔
        expression.toJson.nesting ≤ nestingLimit) ∧
      (∀ operands : CallOperands,
        operands.toJson.nesting ≤ nestingLimit →
          RoundTrips CallOperands.toJson CallOperands.ofJson? operands) ∧
        (∀ operation : Operation,
          operation.Fits →
            operation.toJson.nesting ≤ nestingLimit →
              RoundTrips Operation.toJson Operation.ofJson? operation) ∧
          (∀ instruction : Instruction,
            instruction.Fits →
              instruction.toJson.nesting ≤ nestingLimit →
                RoundTrips Instruction.toJson Instruction.ofJson? instruction) ∧
            (∀ block : Block, block.Fits → RoundTrips Block.toJson Block.ofJson? block) ∧
              (∀ site, RoundTrips CallSite.toJson CallSite.ofJson? site) ∧
                (∀ convention,
                  RoundTrips CallingConvention.toJson CallingConvention.ofJson? convention) ∧
                  (∀ symbol, RoundTrips Symbol.toJson Symbol.ofJson? symbol) ∧
                    ∀ resolution,
                      RoundTrips Resolution.toJson Resolution.ofJson? resolution := by
  refine ⟨fun expression => ⟨fun ⟨reads, _⟩ => ?_, expression.decodes_toJson.roundTrips⟩,
    fun operands => operands.decodes_toJson.roundTrips,
    fun operation fits => (operation.decodes_toJson fits).roundTrips,
    fun instruction fits => (instruction.decodes_toJson fits).roundTrips,
    fun block fits => ?_, fun site => ?_, fun convention => ?_, fun symbol => ?_,
    fun resolution => ?_⟩
  · rw [Json.decode?, Json.readDocument?_render] at reads
    exact Expression.nesting_le_of_ofJson? reads
  · exact (block.decodes_toJson fits).roundTrips
      (Nat.le_trans block.nesting_toJson_le (by decide))
  · exact site.decodes_toJson.roundTrips (Nat.le_trans site.nesting_toJson_le (by decide))
  · exact convention.decodes_toJson.roundTrips
      (Nat.le_trans convention.nesting_toJson_le (by decide))
  · exact symbol.decodes_toJson.roundTrips (Nat.le_trans symbol.nesting_toJson_le (by decide))
  · exact resolution.decodes_toJson.roundTrips
      (Nat.le_trans resolution.nesting_toJson_le (by decide))

/-- As many loads inside each other as the reader takes. -/
def nestedLoads : Expression :=
  Nat.repeat .load 125 (.register ⟨⟨7⟩, 4294967295⟩)

/-- A branch at the last position, as deep as the reader takes. -/
def lastBranch : Instruction :=
  ⟨18446744073709551615, 18446744073709551615,
    .branch (Nat.repeat .load 121 (.add (.const 18446744073709551615) .undefined))
      18446744073709551615 0⟩

theorem written_forms_lastBranch :
    RoundTrips Expression.toJson Expression.ofJson? nestedLoads ∧
      ¬ RoundTrips Expression.toJson Expression.ofJson? (.load nestedLoads) ∧
        RoundTrips CallOperands.toJson CallOperands.ofJson?
          ⟨.pointer 4198400, [⟨⟨0⟩, 1⟩, ⟨⟨0⟩, 1⟩], [.partialRegister ⟨⟨1⟩, 2⟩ ⟨3⟩, .undefined]⟩ ∧
          RoundTrips Operation.toJson Operation.ofJson? lastBranch.operation ∧
            RoundTrips Instruction.toJson Instruction.ofJson? lastBranch ∧
              RoundTrips Block.toJson Block.ofJson?
                ⟨⟨4294967295⟩, 18446744073709551615, 0, [⟨2⟩, ⟨1⟩]⟩ ∧
                RoundTrips CallSite.toJson CallSite.ofJson? ⟨4198400, .tail⟩ ∧
                  RoundTrips CallingConvention.toJson CallingConvention.ofJson?
                    ⟨"", [⟨2⟩, ⟨1⟩], ⟨0⟩⟩ ∧
                    RoundTrips Symbol.toJson Symbol.ofJson?
                      ⟨"\"\\\n𝑚ain", "main", 4198400, .importAddress⟩ ∧
                      RoundTrips Resolution.toJson Resolution.ofJson? (.notFound "\"state\"") := by
  obtain ⟨expressions, operands, operations, instructions, blocks, sites, conventions, symbols,
    resolutions⟩ := written_forms_are_read_back
  refine ⟨(expressions _).mpr ?_, fun trips => ?_, operands _ ?_, operations _ ?_ ?_,
    instructions _ ?_ ?_, blocks _ ?_, sites _, conventions _, symbols _, resolutions _⟩
  · decide +kernel
  · exact absurd ((expressions _).mp trips) (by decide +kernel)
  · decide +kernel
  · exact ⟨by decide, by decide⟩
  · decide +kernel
  · exact ⟨by decide, by decide, by decide⟩
  · decide +kernel
  · exact ⟨by decide, by decide⟩

end MainLocator
