import MainLocator.Codec.Settings
import MainLocator.Proofs.JsonRecords

/-!
# Settings with fields left out

A settings file may have any of the fields, in any order, and others that nothing is known of. What
it has counts, what it leaves out keeps its default, and what cannot be used is refused only after
that.
-/

namespace MainLocator

open Json (Value Decoder Decodes member? member?_perm member?_named member?_named_append
  lookup_eq_some_of_mem lookup_eq_none_of_absent fields?_record readDocument?)
open scoped List

namespace Settings

inductive Field where
  | mainNames
  | exitNames
  | maxEntryCallSites
  | definesMain
  deriving DecidableEq

namespace Field

/-- In the order in which they are written. -/
def all : List Field :=
  [mainNames, exitNames, maxEntryCallSites, definesMain]

def name : Field → String
  | mainNames => "main_function_names"
  | exitNames => "exit_function_names"
  | maxEntryCallSites => "max_entry_call_sites"
  | definesMain => "define_main_symbol"

theorem mem_all (field : Field) : field ∈ all := by
  cases field <;> decide

theorem nodup_names : (all.map name).Nodup := by
  decide

theorem eq_of_name_eq {left right : Field} (same : left.name = right.name) : left = right :=
  List.inj_on_of_nodup_map nodup_names left.mem_all right.mem_all same

end Field

/-- What is written for a field. -/
def written (settings : Settings) : Field → Value
  | .mainNames => .array (settings.mainNames.map .text)
  | .exitNames => .array (settings.exitNames.map .text)
  | .maxEntryCallSites => .natural settings.maxEntryCallSites
  | .definesMain => .bool settings.definesMain

/-- The members for the given fields. -/
def members (settings : Settings) (given : Field → Bool) : List (String × Value) :=
  (Field.all.filter given).map fun field => (field.name, settings.written field)

theorem toJson_eq (settings : Settings) :
    settings.toJson = .record (settings.members fun _ => true) :=
  rfl

/-- The settings as they are for the given fields, and otherwise the defaults. -/
def keeping (settings : Settings) (given : Field → Bool) : Settings :=
  let standard : Settings := {}
  { mainNames := if given .mainNames then settings.mainNames else standard.mainNames
    exitNames := if given .exitNames then settings.exitNames else standard.exitNames
    maxEntryCallSites :=
      if given .maxEntryCallSites then settings.maxEntryCallSites else standard.maxEntryCallSites
    definesMain := if given .definesMain then settings.definesMain else standard.definesMain }

/-! ## Reading the fields -/

theorem nodup_members (settings : Settings) (given : Field → Bool) :
    ((settings.members given).map Prod.fst).Nodup := by
  rw [members, List.map_map]
  exact Field.nodup_names.sublist (List.filter_sublist.map Field.name)

theorem lookup_members (settings : Settings) (given : Field → Bool) (field : Field) :
    (settings.members given).lookup field.name =
      if given field then some (settings.written field) else none := by
  split
  · rename_i isGiven
    have isListed : field ∈ Field.all.filter given :=
      List.mem_filter.mpr ⟨field.mem_all, isGiven⟩
    have isMember : (field.name, settings.written field) ∈ settings.members given :=
      List.mem_map.mpr ⟨field, isListed, rfl⟩
    exact lookup_eq_some_of_mem (nodup_members settings given) isMember
  · rename_i isMissing
    refine lookup_eq_none_of_absent ?_
    rw [members, List.forall_mem_map]
    intro other isOther same
    rw [Field.eq_of_name_eq same] at isOther
    exact isMissing (List.mem_filter.mp isOther).2

theorem field?_ite
    {α : Type} {decoder : Decoder α} {depth : Nat} {value : Value} {result : α}
    (reads : decoder depth value = some result) (missing : α) (isGiven : Bool) :
    field? decoder depth missing (if isGiven then some value else none) =
      some (if isGiven then result else missing) := by
  cases isGiven with
  | false => rfl
  | true => exact reads

theorem list_text (names : List String) (depth : Nat) :
    Decoder.list Decoder.text (depth + 1) (.array (names.map .text)) = some names := by
  refine Decodes.list Decodes.text names (depth + 1) ?_
  simp [Value.nesting_array_le_iff]

section Arranged

variable {settings : Settings} {given : Field → Bool} {unknown arranged : List (String × Value)}
  (areUnknown : ∀ member ∈ unknown, ∀ field : Field, member.1 ≠ field.name)
  (arrangement : arranged ~ settings.members given ++ unknown)

include areUnknown arrangement

/-- A field is found if it is given, wherever it stands and whatever else there is. -/
theorem member?_arranged (field : Field) :
    member? (Value.named arranged) field.name =
      some (if given field then some (settings.written field) else none) := by
  have absent : ∀ member ∈ unknown, member.1 ≠ field.name :=
    fun member isMember => areUnknown member isMember field
  have sameMembers : Value.named arranged ~ Value.named (settings.members given ++ unknown) :=
    arrangement.map _
  rw [member?_perm sameMembers, member?_named_append _ absent,
    member?_named (nodup_members settings given), lookup_members]

/-- Two brackets suffice, for the object and for a list of names. What unknown members nest does not
count. -/
theorem ofJson?_arranged
    (fits : settings.maxEntryCallSites < UInt64.size) (depth : Nat) :
    ofJson? (depth + 2) (.record arranged) = some (settings.keeping given) := by
  have found := fields?_record Field.name
    (fun field => if given field then some (settings.written field) else none)
    fun field (_ : field ∈ Field.all) => member?_arranged areUnknown arrangement field
  have count := Decodes.count fits (depth + 1) (by simp)
  have bool : Decoder.bool (depth + 1) (.bool settings.definesMain) = some settings.definesMain :=
    rfl
  simp only [Field.all, Field.name, List.map_cons, List.map_nil, written] at found
  rw [ofJson?, found]
  simp only [Option.bind_eq_bind, Option.bind_some, field?_ite (list_text _ _), field?_ite count,
    field?_ite bool]
  rfl

/-- Whatever is given, what is read is validated with the defaults for the rest. -/
theorem ofText_arranged
    (fits : settings.maxEntryCallSites < UInt64.size)
    {text : String} (spells : readDocument? text = some (.record arranged)) :
    ofText text = (settings.keeping given).validate := by
  have reads : Json.decode? ofJson? text = some (settings.keeping given) := by
    rw [Json.decode?, spells]
    exact ofJson?_arranged areUnknown arrangement fits 125
  rw [ofText, reads]

end Arranged

theorem ofText_render_toJson
    (settings : Settings) (fits : settings.maxEntryCallSites < UInt64.size) :
    ofText settings.toJson.render = settings.validate := by
  rw [toJson_eq]
  have arrangement :
      settings.members (fun _ => true) ~ settings.members (fun _ => true) ++ [] := by
    rw [List.append_nil]
  exact ofText_arranged (by simp) arrangement fits (Json.readDocument?_render _)

/-! ## Refusals -/

theorem validate_eq (settings : Settings) :
    settings.validate =
      if settings.mainNames = [] then .error (.unusable .noMainNames)
      else if settings.maxEntryCallSites = 0 then .error (.unusable .noEntryCallSites)
      else .ok settings := by
  unfold validate fault?
  by_cases noNames : settings.mainNames = []
  · simp [noNames]
  · by_cases noCallSites : settings.maxEntryCallSites = 0
    · simp [noNames, noCallSites]
    · simp [noNames, noCallSites]

theorem validate_of_validate
    {settings valid : Settings} (isValid : settings.validate = .ok valid) :
    valid.validate = .ok valid := by
  have same : settings = valid := by
    unfold validate at isValid
    split at isValid
    · cases isValid
    · exact Except.ok.inj isValid
  rwa [same] at isValid

theorem validate_of_ofText
    {text : String} {settings : Settings} (reads : ofText text = .ok settings) :
    settings.validate = .ok settings := by
  unfold ofText at reads
  split at reads
  · exact validate_of_validate reads
  · cases reads

end Settings

/-- The field at fault. -/
def SettingsFault.field : SettingsFault → Settings.Field
  | noMainNames => .mainNames
  | noEntryCallSites => .maxEntryCallSites

theorem SettingsFault.exists_message_eq (fault : SettingsFault) :
    ∃ complaint, fault.message = "Invalid configuration: " ++ fault.field.name ++ complaint := by
  cases fault with
  | noMainNames => exact ⟨" must not be empty", by decide⟩
  | noEntryCallSites => exact ⟨" must be at least 1", by decide⟩

namespace Settings

/-- From an object with some fields of settings, in any order and among unknown members, the
settings are read with the defaults for the other fields. They are refused if there are no main
names then, or else if the bound is zero. -/
theorem given_fields_override_defaults
    (settings : Settings) (fits : settings.maxEntryCallSites < UInt64.size)
    (given : Field → Bool) {unknown arranged : List (String × Value)}
    (areUnknown : ∀ member ∈ unknown, ∀ field : Field, member.1 ≠ field.name)
    (arrangement : arranged ~ settings.members given ++ unknown)
    (text : String) (spells : readDocument? text = some (.record arranged)) :
    (ofText text =
      if (settings.keeping given).mainNames = [] then .error (.unusable .noMainNames)
      else if (settings.keeping given).maxEntryCallSites = 0 then
        .error (.unusable .noEntryCallSites)
      else .ok (settings.keeping given)) ∧
      (∀ fault : SettingsFault, ∃ complaint,
        fault.message = "Invalid configuration: " ++ fault.field.name ++ complaint) ∧
        ∀ other read, ofText other = .ok read → read.validate = .ok read := by
  refine ⟨?_, SettingsFault.exists_message_eq, fun _ _ => validate_of_ofText⟩
  rw [ofText_arranged areUnknown arrangement fits spells, validate_eq]

/-- Settings that can be used only if the bound is left out. -/
def unboundedSettings : Settings :=
  ⟨["start_here"], [], 0, false⟩

/-- All but the bound, from the last to the first, behind two unknown members of one name. -/
def unboundedMembers : List (String × Value) :=
  [("note", .array [.array []]), ("note", .null), ("define_main_symbol", .bool false),
    ("exit_function_names", .array []), ("main_function_names", .array [.text "start_here"])]

theorem given_fields_unboundedMembers :
    ofText (Value.record unboundedMembers).renderIndented =
        .ok ⟨["start_here"], [], 2, false⟩ ∧
      ofText (Value.record unboundedMembers).render = .ok ⟨["start_here"], [], 2, false⟩ ∧
        ofText (Settings.toJson ⟨[], ["exit"], 0, true⟩).render =
          .error (.unusable .noMainNames) := by
  let given : Field → Bool := fun field => field ≠ .maxEntryCallSites
  let unknown : List (String × Value) := [("note", .null), ("note", .array [.array []])]
  have isUnknown : ∀ field : Field, "note" ≠ field.name := by
    intro field
    cases field <;> decide
  have areUnknown : ∀ member ∈ unknown, ∀ field : Field, member.1 ≠ field.name := by
    simpa [unknown] using isUnknown
  have arrangement : unboundedMembers ~ unboundedSettings.members given ++ unknown :=
    List.reverse_perm (unboundedSettings.members given ++ unknown)
  have fromMembers :=
    given_fields_override_defaults unboundedSettings (by decide) given areUnknown arrangement
  refine ⟨(fromMembers _ (Json.readDocument?_renderIndented _)).1,
    (fromMembers _ (Json.readDocument?_render _)).1, ?_⟩
  have whole : ∀ settings : Settings,
      settings.members (fun _ => true) ~ settings.members (fun _ => true) ++ [] := by
    simp
  exact (given_fields_override_defaults _ (by decide) _ (by simp) (whole ⟨[], ["exit"], 0, true⟩) _
    (Json.readDocument?_render _)).1

end Settings

end MainLocator
