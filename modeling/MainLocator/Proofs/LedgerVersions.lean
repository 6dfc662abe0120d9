import Mathlib.Data.Option.Basic
import MainLocator.Proofs.JsonMembers
import MainLocator.Proofs.LedgerFile

/-!
# Versions of ledger files

A ledger file says which version of the form it has, so that files of another version are told from
files that are no ledgers. But the version is looked at only when the whole file was read in the
form that is current: a file of another version is named as such exactly if it has that form too,
and is otherwise refused like any malformed text. What is loaded always states the current version.
-/

namespace MainLocator

open Json (Value Decoder Literal HasOne allFields?)

/-! ## Resolutions -/

namespace Resolution

namespace State

/-- The name of the state in files. -/
def name : State → String
  | unresolved => "unresolved"
  | found => "found"
  | notFound => "not_found"

/-- The number that may stand for the state in an entry of a ledger. -/
def number : State → Nat
  | unresolved => 0
  | found => 1
  | notFound => 2

theorem ofName?_eq_some_iff (value : Value) (state : State) :
    ofName? value = some state ↔ value = .text state.name := by
  constructor
  · intro isRead
    unfold ofName? at isRead
    split at isRead
    · cases isRead
      rfl
    · cases isRead
      rfl
    · cases isRead
      rfl
    · cases isRead
  · rintro rfl
    cases state <;> rfl

theorem ofNameOrNumber?_eq_some_iff (value : Value) (state : State) :
    ofNameOrNumber? value = some state ↔
      value = .text state.name ∨ value = .natural state.number := by
  constructor
  · intro isRead
    unfold ofNameOrNumber? at isRead
    split at isRead
    · cases isRead
      exact .inr rfl
    · cases isRead
      exact .inr rfl
    · cases isRead
      exact .inr rfl
    · exact .inl ((ofName?_eq_some_iff value state).mp isRead)
  · rintro (rfl | rfl)
    · exact (ofName?_eq_some_iff _ state).mpr rfl
    · cases state <;> rfl

end State

/-- The members have what belongs to the state, and with it describe the resolution. -/
inductive Completes (members : List (Literal × Value)) : State → Resolution → Prop where
  | unresolved : Completes members .unresolved .unresolved
  | found (address : Word) :
      HasOne members "address" (.natural address.toNat) →
      Completes members .found (.found address)
  | notFound (reason : String) :
      HasOne members "reason" (.text reason) →
      Completes members .notFound (.notFound reason)

theorem ofState?_eq_some_iff
    (state : State) (members : List (Literal × Value)) (resolution : Resolution) :
    ofState? state members = some resolution ↔ Completes members state resolution := by
  cases state with
  | unresolved =>
      constructor
      · intro isRead
        cases isRead
        exact .unresolved
      · rintro ⟨⟩
        rfl
  | found =>
      refine (Json.readMember_eq_some_iff
        (fun value => do return found (← Decoder.word 0 value)) resolution).trans ?_
      simp only [Option.bind_eq_bind, Option.bind_eq_some_iff, Json.Decoder.word_eq_some_iff]
      constructor
      · rintro ⟨_, isOne, address, rfl, isRead⟩
        cases isRead
        exact .found address isOne
      · intro completes
        cases completes with
        | found address isOne => exact ⟨_, isOne, address, rfl, rfl⟩
  | notFound =>
      refine (Json.readMember_eq_some_iff
        (fun value => do return notFound (← Decoder.text 0 value)) resolution).trans ?_
      simp only [Option.bind_eq_bind, Option.bind_eq_some_iff, Json.Decoder.text_eq_some_iff]
      constructor
      · rintro ⟨_, isOne, reason, rfl, isRead⟩
        cases isRead
        exact .notFound reason isOne
      · intro completes
        cases completes with
        | notFound reason isOne => exact ⟨_, isOne, reason, rfl, rfl⟩

/-- What belongs to the state is not its own member. -/
theorem completes_filter_ne_iff
    {members : List (Literal × Value)} {name : String} {state : State} {resolution : Resolution}
    (notAddress : "address" ≠ name) (notReason : "reason" ≠ name) :
    Completes (members.filter (·.1 ≠ some name)) state resolution ↔
      Completes members state resolution := by
  constructor
  · rintro (_ | ⟨address, isOne⟩ | ⟨reason, isOne⟩)
    · exact .unresolved
    · exact .found address ((Json.hasOne_filter_ne_iff notAddress).mp isOne)
    · exact .notFound reason ((Json.hasOne_filter_ne_iff notReason).mp isOne)
  · rintro (_ | ⟨address, isOne⟩ | ⟨reason, isOne⟩)
    · exact .unresolved
    · exact .found address ((Json.hasOne_filter_ne_iff notAddress).mpr isOne)
    · exact .notFound reason ((Json.hasOne_filter_ne_iff notReason).mpr isOne)

/-- The members have one state, by name or by number, and what belongs to it. -/
def Describes (members : List (Literal × Value)) (resolution : Resolution) : Prop :=
  ∃ state,
    (HasOne members "state" (.text state.name) ∨
      HasOne members "state" (.natural state.number)) ∧
      Completes members state resolution

theorem describes_filter_binary_iff
    (members : List (Literal × Value)) (resolution : Resolution) :
    Describes (members.filter (·.1 ≠ some "binary")) resolution ↔
      Describes members resolution := by
  have different : "state" ≠ "binary" := by decide
  have notAddress : "address" ≠ "binary" := by decide
  have notReason : "reason" ≠ "binary" := by decide
  constructor
  · rintro ⟨state, statesOne, completes⟩
    rw [Json.hasOne_filter_ne_iff different, Json.hasOne_filter_ne_iff different] at statesOne
    exact ⟨state, statesOne, (completes_filter_ne_iff notAddress notReason).mp completes⟩
  · rintro ⟨state, statesOne, completes⟩
    refine ⟨state, ?_, (completes_filter_ne_iff notAddress notReason).mpr completes⟩
    rwa [Json.hasOne_filter_ne_iff different, Json.hasOne_filter_ne_iff different]

theorem ofMembers?_eq_some_iff
    {depth : Nat} {members : List (Literal × Value)} (resolution : Resolution)
    (held : Value.areHeldMembers depth members = true) :
    ofMembers? State.ofNameOrNumber? depth members = some resolution ↔
      Describes members resolution := by
  have heldOthers :
      Value.areHeldMembers depth (members.filter (·.1 ≠ some "state")) = true := by
    rw [Json.areHeldMembers_iff] at held ⊢
    exact fun member isOther => held member (List.mem_of_mem_filter isOther)
  have notAddress : "address" ≠ "state" := by decide
  have notReason : "reason" ≠ "state" := by decide
  rw [ofMembers?, heldOthers]
  refine (Json.readMember_eq_some_iff
    (fun value => do
      ofState? (← State.ofNameOrNumber? value) (members.filter (·.1 ≠ some "state")))
    resolution).trans ?_
  simp only [Option.bind_eq_bind, Option.bind_eq_some_iff, State.ofNameOrNumber?_eq_some_iff,
    ofState?_eq_some_iff, completes_filter_ne_iff notAddress notReason]
  constructor
  · rintro ⟨_, isOne, state, rfl | rfl, completes⟩
    · exact ⟨state, .inl isOne, completes⟩
    · exact ⟨state, .inr isOne, completes⟩
  · rintro ⟨state, isNamed | isNumbered, completes⟩
    · exact ⟨_, isNamed, state, .inl rfl, completes⟩
    · exact ⟨_, isNumbered, state, .inr rfl, completes⟩

end Resolution

namespace Ledger

/-! ## Entries -/

/-- The members are those of an entry of a ledger, and may nest as many brackets as `depth`. -/
structure IsEntry
    (depth : Nat) (members : List (Literal × Value)) (entry : ProgramId × Resolution) : Prop where
  ofProgram : HasOne members "binary" (.natural entry.1.number.toNat)
  describes : Resolution.Describes members entry.2
  /-- All other members are held until the state is known, those that mean nothing as well. -/
  areHeld :
    ∀ member ∈ members,
      member.1 ≠ some "binary" → member.1.isSome = true ∧ member.2.isHeld depth = true

theorem entryOfJson?_object_eq_some_iff
    (depth : Nat) (members : List (Literal × Value)) (entry : ProgramId × Resolution) :
    entryOfJson? (depth + 1) (.object members) = some entry ↔ IsEntry depth members entry := by
  have heldOthers_iff :
      Value.areHeldMembers depth (members.filter (·.1 ≠ some "binary")) = true ↔
        ∀ member ∈ members,
          member.1 ≠ some "binary" → member.1.isSome = true ∧ member.2.isHeld depth = true := by
    simp [Json.areHeldMembers_iff]
  refine (Json.readMember_eq_some_iff
    (fun value => do
      guard (Value.areHeldMembers depth (members.filter (·.1 ≠ some "binary")))
      return (⟨← Decoder.word depth value⟩,
        ← Resolution.ofMembers? Resolution.State.ofNameOrNumber? depth
            (members.filter (·.1 ≠ some "binary")))) entry).trans ?_
  simp only [Option.bind_eq_bind, Option.bind_eq_some_iff, Option.guard_eq_some',
    Json.Decoder.word_eq_some_iff]
  constructor
  · rintro ⟨_, isOne, _, held, number, rfl, resolution, isRead, isEntry⟩
    cases isEntry
    have describes := (Resolution.ofMembers?_eq_some_iff resolution held).mp isRead
    exact ⟨isOne, (Resolution.describes_filter_binary_iff members resolution).mp describes,
      heldOthers_iff.mp held⟩
  · rintro ⟨ofProgram, describes, areHeld⟩
    have held := heldOthers_iff.mpr areHeld
    refine ⟨_, ofProgram, (), held, entry.1.number, rfl, entry.2, ?_, rfl⟩
    exact (Resolution.ofMembers?_eq_some_iff entry.2 held).mpr
      ((Resolution.describes_filter_binary_iff members entry.2).mpr describes)

theorem entryOfJson?_eq_some_iff
    (depth : Nat) (value : Value) (entry : ProgramId × Resolution) :
    entryOfJson? (depth + 1) value = some entry ↔
      ∃ members, value = .object members ∧ IsEntry depth members entry := by
  constructor
  · intro isRead
    cases value with
    | object members =>
        exact ⟨members, rfl, (entryOfJson?_object_eq_some_iff depth members entry).mp isRead⟩
    | _ => cases isRead
  · rintro ⟨members, rfl, isEntry⟩
    exact (entryOfJson?_object_eq_some_iff depth members entry).mpr isEntry

/-! ## Documents -/

/-- The members of a file have a list of entries of the current form. What else they have is not
looked at, as long as each name spells a text. -/
structure ListsEntries
    (depth : Nat) (members : List (Literal × Value))
    (entries : List (ProgramId × Resolution)) : Prop where
  areNamed : ∀ member ∈ members, member.1.isSome = true
  areEntries :
    ∃ elements,
      HasOne members "main_function_resolution" (.array elements) ∧
        List.Forall₂
          (fun element entry =>
            ∃ entryMembers, element = .object entryMembers ∧ IsEntry depth entryMembers entry)
          elements entries

theorem documentOfJson?_eq_some_iff
    (depth : Nat) (value : Value) (version : UInt32) (entries : List (ProgramId × Resolution)) :
    documentOfJson? (depth + 1) value = some (version, entries) ↔
      ∃ entriesValue,
        allFields? ["version", "main_function_resolution"] value =
            some [.natural version.toNat, entriesValue] ∧
          Decoder.list entryOfJson? depth entriesValue = some entries := by
  simp only [documentOfJson?, Option.bind_eq_bind, Option.bind_eq_some_iff]
  constructor
  · rintro ⟨values, areFields, isRead⟩
    split at isRead
    · rename_i versionValue entriesValue
      simp only [Option.bind_eq_some_iff, Json.Decoder.half_eq_some_iff] at isRead
      obtain ⟨_, rfl, _, areRead, same⟩ := isRead
      cases same
      exact ⟨entriesValue, areFields, areRead⟩
    · cases isRead
  · rintro ⟨entriesValue, areFields, areRead⟩
    refine ⟨_, areFields, ?_⟩
    simp only [Option.bind_eq_some_iff, Json.Decoder.half_eq_some_iff]
    exact ⟨version, rfl, entries, areRead, rfl⟩

theorem documentOfJson?_object_eq_some_iff
    (depth : Nat) (members : List (Literal × Value)) (version : UInt32)
    (entries : List (ProgramId × Resolution)) :
    documentOfJson? (depth + 3) (.object members) = some (version, entries) ↔
      HasOne members "version" (.natural version.toNat) ∧ ListsEntries depth members entries := by
  rw [documentOfJson?_eq_some_iff]
  simp only [Json.allFields?_object_eq_some_iff, Json.Decoder.list_eq_some_iff,
    entryOfJson?_eq_some_iff, List.forall₂_cons, List.forall₂_nil_left_iff, and_true]
  constructor
  · rintro ⟨_, ⟨areNamed, statesVersion, isOne⟩, elements, rfl, areEntries⟩
    exact ⟨statesVersion, areNamed, elements, isOne, areEntries⟩
  · rintro ⟨statesVersion, areNamed, elements, isOne, areEntries⟩
    exact ⟨_, ⟨areNamed, statesVersion, isOne⟩, elements, rfl, areEntries⟩

/-- The version that a document states, by name or in the first place. -/
inductive StatesVersion : Value → UInt32 → Prop where
  | member (members : List (Literal × Value)) (version : UInt32) :
      HasOne members "version" (.natural version.toNat) →
      StatesVersion (.object members) version
  | element (version : UInt32) (others : List Value) :
      StatesVersion (.array (.natural version.toNat :: others)) version

theorem statesVersion_of_documentOfJson?
    {depth : Nat} {value : Value} {version : UInt32} {entries : List (ProgramId × Resolution)}
    (isRead : documentOfJson? (depth + 1) value = some (version, entries)) :
    StatesVersion value version := by
  obtain ⟨entriesValue, areFields, -⟩ := (documentOfJson?_eq_some_iff _ _ _ _).mp isRead
  cases value with
  | object members =>
      have haveOne := ((Json.allFields?_object_eq_some_iff _ _ _).mp areFields).2
      exact .member members version (List.forall₂_cons.mp haveOne).1
  | array elements =>
      obtain ⟨rfl, -⟩ := (Json.allFields?_array_eq_some_iff _ _ _).mp areFields
      exact .element version [entriesValue]
  | _ => cases areFields

/-! ## Loading -/

theorem ofText_eq_malformed_iff (text : String) :
    ofText text = .error .malformed ↔ Json.decode? documentOfJson? text = none := by
  unfold ofText
  constructor
  · intro isRefused
    split at isRefused
    · assumption
    · split at isRefused
      · cases isRefused
      · cases isRefused
  · intro isUnread
    rw [isUnread]

theorem ofText_eq_unsupportedVersion_iff (text : String) (version : UInt32) :
    ofText text = .error (.unsupportedVersion version) ↔
      version ≠ formVersion ∧
        ∃ entries, Json.decode? documentOfJson? text = some (version, entries) := by
  unfold ofText
  constructor
  · intro isRefused
    split at isRefused
    · cases isRefused
    · rename_i entries isRead
      split at isRefused
      · cases isRefused
      · rename_i isOther
        cases isRefused
        exact ⟨isOther, entries, isRead⟩
  · rintro ⟨isOther, entries, isRead⟩
    simp only [isRead, if_neg isOther]

theorem ofText_eq_ok_iff (text : String) (ledger : Ledger) :
    ofText text = .ok ledger ↔
      ∃ entries,
        Json.decode? documentOfJson? text = some (formVersion, entries) ∧
          ledger = ofEntries entries := by
  unfold ofText
  constructor
  · intro isLoaded
    split at isLoaded
    · cases isLoaded
    · rename_i entries isRead
      split at isLoaded
      · rename_i isCurrent
        subst isCurrent
        cases isLoaded
        exact ⟨entries, isRead, rfl⟩
      · cases isLoaded
  · rintro ⟨entries, isRead, rfl⟩
    simp only [isRead, if_pos]

/-- No file is loaded that states another version than the current one, or none. If the members of
a file state another version, it is refused for this version exactly if they also list entries of
the current form, and otherwise as malformed. The three brackets around the members of an entry
count as nesting. -/
theorem only_the_current_version_is_loaded (text : String) :
    (∀ members version,
      Json.readDocument? text = some (.object members) →
        HasOne members "version" (.natural version.toNat) →
          version ≠ 1 →
            (ofFile (some text.toUTF8) = .error (.unsupportedVersion version) ↔
              ∃ entries, ListsEntries (Json.nestingLimit - 3) members entries) ∧
              (ofFile (some text.toUTF8) = .error .malformed ↔
                ¬∃ entries, ListsEntries (Json.nestingLimit - 3) members entries)) ∧
      ∀ ledger,
        ofFile (some text.toUTF8) = .ok ledger →
          ∃ value, Json.readDocument? text = some value ∧ StatesVersion value 1 := by
  rw [ofFile_toUTF8]
  constructor
  · intro members version isObject statesVersion isOther
    have decodes_iff (read : UInt32 × List (ProgramId × Resolution)) :
        Json.decode? documentOfJson? text = some read ↔
          version = read.1 ∧ ListsEntries (Json.nestingLimit - 3) members read.2 := by
      rw [Json.decode?, isObject]
      refine (documentOfJson?_object_eq_some_iff 124 members read.1 read.2).trans ?_
      refine and_congr_left fun _ => ⟨fun statesRead => ?_, fun same => same ▸ statesVersion⟩
      have sameNumber := statesVersion.unique statesRead
      simpa [Value.natural, UInt32.toNat_inj] using sameNumber
    constructor
    · rw [ofText_eq_unsupportedVersion_iff]
      simp only [decodes_iff, true_and]
      exact and_iff_right isOther
    · rw [ofText_eq_malformed_iff, Option.eq_none_iff_forall_ne_some]
      simp only [ne_eq, decodes_iff, Prod.forall, not_and, not_exists]
      exact ⟨fun noneIsRead entries => noneIsRead version entries rfl,
        fun noneIsListed _ entries _ => noneIsListed entries⟩
  · intro ledger isLoaded
    obtain ⟨entries, isRead, -⟩ := (ofText_eq_ok_iff text ledger).mp isLoaded
    obtain ⟨value, isDocument, isRead⟩ := Option.bind_eq_some_iff.mp isRead
    exact ⟨value, isDocument, statesVersion_of_documentOfJson? isRead⟩

/-- The members of a file of version 2 that has a member more than the current form. -/
def extendedMembers : List (String × Value) :=
  [("written_by", .text "a later version"), ("version", .natural 2),
    ("main_function_resolution", .array [entryToJson (⟨7⟩, .found 4096)])]

/-- The members of a file of version 2 that has nothing else of the current form. -/
def bareMembers : List (String × Value) :=
  [("version", .natural 2)]

theorem versions_extendedMembers :
    ofFile (some (Value.record extendedMembers).renderIndented.toUTF8) =
        .error (.unsupportedVersion 2) ∧
      ofFile (some (Value.record bareMembers).render.toUTF8) = .error .malformed ∧
        ∃ value, Json.readDocument? (text {}) = some value ∧ StatesVersion value 1 := by
  have isNotCurrent : (2 : UInt32) ≠ 1 := by decide
  refine ⟨?_, ?_, ?_⟩
  · have isEntry :=
      (entryOfJson?_eq_some_iff 124 _ _).mp (entryOfJson?_entryToJson 124 (⟨7⟩, .found 4096))
    have areListed :
        ∃ entries, ListsEntries (Json.nestingLimit - 3) (Value.named extendedMembers) entries :=
      ⟨_, by simp [Value.named, extendedMembers], _, rfl, .cons isEntry .nil⟩
    have statesTwo :
        HasOne (Value.named extendedMembers) "version" (.natural (2 : UInt32).toNat) := rfl
    exact ((only_the_current_version_is_loaded _).1 _ 2 (Json.readDocument?_renderIndented _)
      statesTwo isNotCurrent).1.mpr areListed
  · have areNotListed :
        ¬∃ entries, ListsEntries (Json.nestingLimit - 3) (Value.named bareMembers) entries := by
      rintro ⟨entries, -, elements, isOne, -⟩
      cases isOne
    have statesTwo :
        HasOne (Value.named bareMembers) "version" (.natural (2 : UInt32).toNat) := rfl
    exact ((only_the_current_version_is_loaded _).1 _ 2 (Json.readDocument?_render _) statesTwo
      isNotCurrent).2.mpr areNotListed
  · have isLoaded : ofFile (some (text {}).toUTF8) = .ok (ofEntries []) := by
      rw [ofFile_toUTF8, ofText_text]
      rfl
    exact (only_the_current_version_is_loaded (text {})).2 _ isLoaded

/-- Not every file that states another version is refused for it. -/
theorem not_unsupportedVersion_bareMembers :
    ¬∀ text members version,
        Json.readDocument? text = some (.object members) →
          HasOne members "version" (.natural version.toNat) →
            version ≠ 1 → ofFile (some text.toUTF8) = .error (.unsupportedVersion version) := by
  intro areNamed
  have isNamed := areNamed _ _ 2 (Json.readDocument?_render (.record bareMembers)) rfl (by decide)
  rw [ofFile_toUTF8, ofText_eq_unsupportedVersion_iff] at isNamed
  obtain ⟨-, entries, isRead⟩ := isNamed
  rw [Json.decode?, Json.readDocument?_render] at isRead
  obtain ⟨-, -, elements, isOne, -⟩ :=
    (documentOfJson?_object_eq_some_iff 124 (Value.named bareMembers) 2 entries).mp isRead
  cases isOne

end Ledger

end MainLocator
