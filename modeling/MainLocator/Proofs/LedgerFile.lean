import MainLocator.Codec.Resolution
import MainLocator.Proofs.JsonRecords

/-!
# Ledger files keep the ledger

What saving writes, loading reads back: the same entries, the unresolved ones included, and none of
the primed flags. An entry is one object for the program and its resolution, so reading it looks for
the program among all members and for the resolution among the others.
-/

namespace MainLocator

open Json (Value Decoder Literal member?)

/-! ## What can be held -/

namespace Json

theorem Value.isHeld_natural (depth : Nat) (number : Word) :
    (Value.natural number.toNat).isHeld depth = true := by
  rw [Value.natural, Value.isHeld]
  exact Number.isFinite_integer number.toNat_lt

theorem Value.isHeld_text (depth : Nat) (content : String) :
    (Value.text content).isHeld depth = true := by
  rw [Value.text, Value.isHeld]
  rfl

end Json

/-! ## Resolutions -/

namespace Resolution

theorem ofMembers?_named
    (stateOf : Value → Option State) (depth : Nat) (state : Value)
    {content : List (String × Value)}
    (absent : ∀ member ∈ content, member.1 ≠ "state")
    (held : Value.areHeldMembers depth (Value.named content) = true) :
    ofMembers? stateOf depth (Value.named (("state", state) :: content)) =
      (stateOf state).bind fun state => ofState? state (Value.named content) := by
  rw [ofMembers?, Json.member?_named_cons absent, Json.filter_named_cons absent, held]
  rfl

/-- The members of a resolution are read back however the state is read, as long as a text is read
as a name. -/
theorem ofMembers?_members
    {stateOf : Value → Option State}
    (onTexts : ∀ content, stateOf (.text content) = State.ofName? (.text content))
    (depth : Nat) (resolution : Resolution) :
    ofMembers? stateOf depth (Value.named resolution.members) = some resolution := by
  cases resolution with
  | unresolved =>
      rw [members, ofMembers?_named _ _ _ (by simp) (by rw [Value.named]; rfl), onTexts]
      rfl
  | found address =>
      have absent : ∀ member ∈ ([] : List (String × Value)), member.1 ≠ "address" := by
        simp
      have word := Json.member?_named_cons absent (.natural address.toNat)
      rw [members, ofMembers?_named _ _ _ (by simp), onTexts]
      · change ofState? .found _ = _
        rw [ofState?, word]
        simp [Decoder.word_natural]
      · simp [Value.named, Value.areHeldMembers, Value.isHeld_natural]
  | notFound reason =>
      have absent : ∀ member ∈ ([] : List (String × Value)), member.1 ≠ "reason" := by
        simp
      have text := Json.member?_named_cons absent (.text reason)
      rw [members, ofMembers?_named _ _ _ (by simp), onTexts]
      · change ofState? .notFound _ = _
        rw [ofState?, text]
        rfl
      · simp [Value.named, Value.areHeldMembers, Value.isHeld_text]

theorem areHeldMembers_members (depth : Nat) (resolution : Resolution) :
    Value.areHeldMembers depth (Value.named resolution.members) = true := by
  cases resolution with
  | unresolved => simp [members, Value.named, Value.areHeldMembers, Value.isHeld_text]
  | found =>
      simp [members, Value.named, Value.areHeldMembers, Value.isHeld_text, Value.isHeld_natural]
  | notFound => simp [members, Value.named, Value.areHeldMembers, Value.isHeld_text]

theorem ne_binary_of_mem_members (resolution : Resolution) :
    ∀ member ∈ resolution.members, member.1 ≠ "binary" := by
  cases resolution with
  | unresolved => simp [members]
  | found => simp [members]
  | notFound => simp [members]

end Resolution

namespace Ledger

/-! ## Entries and documents -/

theorem entryOfJson?_entryToJson (depth : Nat) (entry : ProgramId × Resolution) :
    entryOfJson? (depth + 1) (entryToJson entry) = some entry := by
  obtain ⟨id, resolution⟩ := entry
  have absent := resolution.ne_binary_of_mem_members
  have held := resolution.areHeldMembers_members depth
  have onTexts : ∀ content,
      Resolution.State.ofNameOrNumber? (.text content) =
        Resolution.State.ofName? (.text content) :=
    fun _ => rfl
  have reads := Resolution.ofMembers?_members onTexts depth resolution
  change entryOfJson? (depth + 1) (.object (Value.named _)) = _
  rw [entryOfJson?, Json.member?_named_cons absent, Json.filter_named_cons absent]
  unfold guard
  simp [held, reads, Decoder.word_natural]

theorem list_map_entryToJson (depth : Nat) (entries : List (ProgramId × Resolution)) :
    Decoder.list entryOfJson? (depth + 2) (.array (entries.map entryToJson)) = some entries := by
  have reads :
      ∀ entry ∈ entries, (entryOfJson? (depth + 1) ∘ entryToJson) entry = some (id entry) :=
    fun entry _ => entryOfJson?_entryToJson depth entry
  rw [Decoder.list, List.mapM_map, Json.mapM_eq_some_map id reads, List.map_id]

theorem documentOfJson?_toJson (depth : Nat) (ledger : Ledger) :
    documentOfJson? (depth + 3) ledger.toJson = some (formVersion, ledger.snapshot) := by
  have fields :
      Json.allFields? ["version", "main_function_resolution"] ledger.toJson =
        some [.natural formVersion.toNat, .array (ledger.snapshot.map entryToJson)] := by
    simp [Json.allFields?, Json.fields?, toJson, Value.record, member?]
  have version : Decoder.half (depth + 2) (.natural formVersion.toNat) = some formVersion := rfl
  rw [documentOfJson?, fields]
  simp [version, list_map_entryToJson]

/-! ## Saving and loading -/

/-- The entries of a ledger determine what is known from it. -/
theorem equiv_ofEntries_snapshot (ledger : Ledger) :
    (ofEntries ledger.snapshot).entries.Equiv ledger.entries := by
  apply Std.TreeMap.Equiv.of_forall_constGet?_eq
  intro id
  cases found : ledger.entries[id]? with
  | some resolution =>
      have listed : (id, resolution) ∈ ledger.snapshot :=
        Std.TreeMap.mem_toList_iff_getElem?_eq_some.mpr found
      exact Std.TreeMap.getElem?_ofList_of_mem Std.ReflCmp.compare_self
        Std.TreeMap.distinct_keys_toList listed
  | none =>
      have absent : ledger.entries.contains id = false := by
        rwa [Std.TreeMap.contains_eq_isSome_getElem?, Option.isSome_eq_false_iff,
          Option.isNone_iff_eq_none]
      apply Std.TreeMap.getElem?_ofList_of_contains_eq_false
      rwa [snapshot, Std.TreeMap.map_fst_toList_eq_keys, Std.TreeMap.contains_keys]

theorem snapshot_ofEntries_snapshot (ledger : Ledger) :
    (ofEntries ledger.snapshot).snapshot = ledger.snapshot :=
  (equiv_ofEntries_snapshot ledger).toList_eq

theorem get_ofEntries_snapshot (ledger : Ledger) (id : ProgramId) :
    (ofEntries ledger.snapshot).get id = ledger.get id :=
  (equiv_ofEntries_snapshot ledger).getD_eq

theorem ofText_text (ledger : Ledger) :
    ofText ledger.text = .ok (ofEntries ledger.snapshot) := by
  have reads : Json.decode? documentOfJson? ledger.text = some (formVersion, ledger.snapshot) := by
    rw [Json.decode?, text, Json.readDocument?_renderIndented]
    exact documentOfJson?_toJson 124 ledger
  rw [ofText, reads]
  rfl

theorem ofFile_toUTF8 (text : String) :
    ofFile (some text.toUTF8) = ofText text := by
  have decodes : String.fromUTF8? text.toUTF8 = some text :=
    dif_pos text.isValidUTF8
  rw [ofFile, Option.bind_some, decodes]

/-- Saving succeeds for every ledger, and loading what it wrote gives the same entries, the same
resolution of every program, and no primed program. Saving once more writes the same text. -/
theorem loading_restores_what_was_saved (ledger : Ledger) :
    ∃ text loaded,
      ledger.save true = .ok text ∧
        ofFile (some text.toUTF8) = .ok loaded ∧
          loaded.snapshot = ledger.snapshot ∧
            (∀ id, loaded.get id = ledger.get id) ∧
              (∀ id, loaded.isPrimed id = false) ∧
                loaded.save true = .ok text := by
  have sameEntries := snapshot_ofEntries_snapshot ledger
  have sameText : (ofEntries ledger.snapshot).text = ledger.text := by
    rw [text, text, toJson, toJson, sameEntries]
  refine ⟨ledger.text, ofEntries ledger.snapshot, rfl, ?_, sameEntries, ?_, ?_, ?_⟩
  · rw [ofFile_toUTF8, ofText_text]
  · exact get_ofEntries_snapshot ledger
  · exact isPrimed_ofEntries ledger.snapshot
  · exact congrArg Except.ok sameText

end Ledger

end MainLocator
