import Mathlib.Data.List.Forall2
import MainLocator.Json.Buffer
import MainLocator.Json.Decoder

/-!
# What decoders accept

Each decoder of a plain value accepts exactly the written forms of that value, and each reader of
members the objects that have one member of the name. So what is known of a value that was read is
known of the text as well.
-/

namespace MainLocator.Json

/-! ## Plain values -/

namespace Decoder

variable (depth : Nat) (value : Value)

theorem below_eq_some_iff (bound number : Nat) :
    below bound depth value = some number ↔ value = .natural number ∧ number < bound := by
  constructor
  · intro isRead
    unfold below at isRead
    split at isRead
    · split at isRead
      · cases isRead
        exact ⟨rfl, ‹_›⟩
      · cases isRead
    · cases isRead
  · rintro ⟨rfl, isBelow⟩
    exact if_pos isBelow

theorem word_eq_some_iff (word : Word) :
    Decoder.word depth value = some word ↔ value = .natural word.toNat := by
  simp only [Decoder.word, count, Option.map_eq_map, Option.map_eq_some_iff, below_eq_some_iff]
  constructor
  · rintro ⟨number, ⟨rfl, fits⟩, rfl⟩
    rw [UInt64.toNat_ofNat_of_lt' fits]
  · rintro rfl
    exact ⟨word.toNat, ⟨rfl, word.toNat_lt⟩, UInt64.ofNat_toNat⟩

theorem half_eq_some_iff (half : UInt32) :
    Decoder.half depth value = some half ↔ value = .natural half.toNat := by
  simp only [Decoder.half, Option.map_eq_map, Option.map_eq_some_iff, below_eq_some_iff]
  constructor
  · rintro ⟨number, ⟨rfl, fits⟩, rfl⟩
    rw [UInt32.toNat_ofNat_of_lt' fits]
  · rintro rfl
    exact ⟨half.toNat, ⟨rfl, half.toNat_lt⟩, UInt32.ofNat_toNat⟩

theorem text_eq_some_iff (content : String) :
    Decoder.text depth value = some content ↔ value = .text content := by
  constructor
  · intro isRead
    unfold text at isRead
    split at isRead
    · cases isRead
      rfl
    · cases isRead
  · rintro rfl
    rfl

end Decoder

/-! ## Lists -/

theorem mapM_eq_some_iff
    {α β : Type} (read : α → Option β) (sources : List α) (results : List β) :
    sources.mapM read = some results ↔
      List.Forall₂ (fun source result => read source = some result) sources results := by
  induction sources generalizing results with
  | nil =>
      rw [List.mapM_nil, List.forall₂_nil_left_iff]
      exact ⟨fun same => (Option.some.inj same).symm, fun same => congrArg some same.symm⟩
  | cons first others inductionHypothesis =>
      rw [List.mapM_cons, List.forall₂_cons_left_iff]
      simp only [Option.bind_eq_bind, Option.bind_eq_some_iff, inductionHypothesis]
      constructor
      · rintro ⟨result, isFirst, rest, areOthers, same⟩
        cases same
        exact ⟨result, rest, isFirst, areOthers, rfl⟩
      · rintro ⟨result, rest, isFirst, areOthers, rfl⟩
        exact ⟨result, isFirst, rest, areOthers, rfl⟩

theorem Decoder.list_eq_some_iff
    {α : Type} (element : Decoder α) (depth : Nat) (value : Value) (results : List α) :
    Decoder.list element (depth + 1) value = some results ↔
      ∃ elements,
        value = .array elements ∧
          List.Forall₂ (fun source result => element depth source = some result) elements
            results := by
  cases value with
  | array elements => simp [Decoder.list, mapM_eq_some_iff]
  | _ => simp [Decoder.list]

/-! ## Members -/

/-- One of the members has the name, and it has the value. -/
def HasOne (members : List (Literal × Value)) (name : String) (value : Value) : Prop :=
  members.filter (·.1 = some name) = [(some name, value)]

section Members

variable {members : List (Literal × Value)} {name : String} {value : Value}

theorem HasOne.unique
    {other : Value} (isOne : HasOne members name value) (isOther : HasOne members name other) :
    value = other := by
  rw [HasOne, isOne] at isOther
  cases isOther
  rfl

theorem member?_eq_some_some_iff :
    member? members name = some (some value) ↔ HasOne members name value := by
  have areNamed : ∀ member ∈ members.filter (·.1 = some name), member.1 = some name := by
    intro member isMember
    simpa using (List.mem_filter.mp isMember).2
  unfold member? HasOne
  split
  · simp [*]
  · rename_i label found isFound
    have sameName : label = some name := areNamed (label, found) (by simp [isFound])
    simp [isFound, sameName]
  · rename_i noMember notOne
    refine iff_of_false (by simp) fun isOne => notOne _ _ isOne

/-- Reading one of the members, which must be there. -/
theorem readMember_eq_some_iff
    {α : Type} (read : Value → Option α) (result : α) :
    (do
      let some value ← member? members name | none
      read value) = some result ↔
      ∃ value, HasOne members name value ∧ read value = some result := by
  simp only [Option.bind_eq_bind, Option.bind_eq_some_iff]
  constructor
  · rintro ⟨found, isMember, isRead⟩
    cases found with
    | none => cases isRead
    | some value => exact ⟨value, member?_eq_some_some_iff.mp isMember, isRead⟩
  · rintro ⟨value, isOne, isRead⟩
    exact ⟨some value, member?_eq_some_some_iff.mpr isOne, isRead⟩

/-- Members of another name may be left out. -/
theorem hasOne_filter_ne_iff {other : String} (different : name ≠ other) :
    HasOne (members.filter (·.1 ≠ some other)) name value ↔ HasOne members name value := by
  rw [HasOne, HasOne, List.filter_filter]
  have sameTest :
      (fun member : Literal × Value =>
          decide (member.1 = some name) && decide (member.1 ≠ some other)) =
        fun member => decide (member.1 = some name) := by
    funext member
    by_cases isNamed : member.1 = some name
    · simp [isNamed, different]
    · simp [isNamed]
  rw [sameTest]

theorem areHeldMembers_iff (depth : Nat) (members : List (Literal × Value)) :
    Value.areHeldMembers depth members = true ↔
      ∀ member ∈ members, member.1.isSome = true ∧ member.2.isHeld depth = true := by
  induction members with
  | nil => simp [Value.areHeldMembers]
  | cons first others inductionHypothesis =>
      rw [Value.areHeldMembers, Bool.and_eq_true, Bool.and_eq_true, inductionHypothesis,
        List.forall_mem_cons]

end Members

/-! ## Records -/

theorem mapM_id_eq_some_iff
    {α : Type} (found : List (Option α)) (values : List α) :
    found.mapM id = some values ↔ found = values.map some := by
  rw [mapM_eq_some_iff, ← List.forall₂_eq_eq_eq, List.forall₂_map_right_iff]
  rfl

/-- From an object, the fields of a record are read by name. -/
theorem allFields?_object_eq_some_iff
    (names : List String) (members : List (Literal × Value)) (values : List Value) :
    allFields? names (.object members) = some values ↔
      (∀ member ∈ members, member.1.isSome = true) ∧
        List.Forall₂ (HasOne members) names values := by
  simp only [allFields?, Option.bind_eq_bind, Option.bind_eq_some_iff, mapM_id_eq_some_iff,
    exists_eq_right, fields?, Option.ite_none_right_eq_some, List.all_eq_true]
  simp only [mapM_eq_some_iff, List.forall₂_map_right_iff, member?_eq_some_some_iff]

/-- From an array, the fields of a record are read in order. -/
theorem allFields?_array_eq_some_iff
    (names : List String) (elements values : List Value) :
    allFields? names (.array elements) = some values ↔
      elements = values ∧ elements.length = names.length := by
  simp only [allFields?, Option.bind_eq_bind, Option.bind_eq_some_iff, mapM_id_eq_some_iff,
    exists_eq_right, fields?, Option.ite_none_right_eq_some, Option.some.injEq]
  constructor
  · rintro ⟨fits, areFound⟩
    have nothingMissing : names.length - elements.length = 0 := by
      by_contra missing
      have isFound : none ∈ values.map some := by
        rw [← areFound]
        exact List.mem_append_right _ (List.mem_replicate.mpr ⟨missing, rfl⟩)
      simp at isFound
    rw [nothingMissing, List.replicate_zero, List.append_nil] at areFound
    exact ⟨(List.map_inj_right fun _ _ => Option.some.inj).mp areFound, by omega⟩
  · rintro ⟨rfl, sameLength⟩
    simp [sameLength]

end MainLocator.Json
