import Mathlib.Data.List.Nodup
import MainLocator.Json.Decoder
import MainLocator.Proofs.JsonText

/-!
# Records and lists are read back

A field of a record is found by its name, wherever it stands among the members and whatever else
stands there. What is written for a value is read back where as many brackets may be open as the
written form nests, and `Decodes` says this of a decoder, a written form and a value.
-/

namespace MainLocator.Json

open scoped List

/-! ## Nesting -/

namespace Value

mutual

/-- The most brackets that are open at once inside a value. -/
def nesting : Value → Nat
  | null | bool _ | number _ | string _ => 0
  | array elements => nestingOfElements elements + 1
  | object members => nestingOfMembers members + 1

def nestingOfElements : List Value → Nat
  | [] => 0
  | first :: others => max first.nesting (nestingOfElements others)

def nestingOfMembers : List (Literal × Value) → Nat
  | [] => 0
  | (_, first) :: others => max first.nesting (nestingOfMembers others)

end

theorem nestingOfElements_le_iff (elements : List Value) (depth : Nat) :
    nestingOfElements elements ≤ depth ↔ ∀ element ∈ elements, element.nesting ≤ depth := by
  induction elements with
  | nil =>
      simp [nestingOfElements]
  | cons first others inductionHypothesis =>
      rw [nestingOfElements, Nat.max_le, inductionHypothesis, List.forall_mem_cons]

theorem nestingOfMembers_le_iff (members : List (Literal × Value)) (depth : Nat) :
    nestingOfMembers members ≤ depth ↔ ∀ member ∈ members, member.2.nesting ≤ depth := by
  induction members with
  | nil =>
      simp [nestingOfMembers]
  | cons first others inductionHypothesis =>
      rw [nestingOfMembers, Nat.max_le, inductionHypothesis, List.forall_mem_cons]

theorem nesting_array_le_iff (elements : List Value) (depth : Nat) :
    (array elements).nesting ≤ depth + 1 ↔ ∀ element ∈ elements, element.nesting ≤ depth := by
  rw [nesting, Nat.add_le_add_iff_right, nestingOfElements_le_iff]

theorem nesting_record_le_iff (members : List (String × Value)) (depth : Nat) :
    (record members).nesting ≤ depth + 1 ↔ ∀ member ∈ members, member.2.nesting ≤ depth := by
  rw [record, nesting, Nat.add_le_add_iff_right, nestingOfMembers_le_iff, List.forall_mem_map]

@[simp]
theorem nesting_natural (number : Nat) :
    (natural number).nesting = 0 := by
  rw [natural, nesting]

@[simp]
theorem nesting_text (content : String) :
    (text content).nesting = 0 := by
  rw [text, nesting]

@[simp]
theorem nesting_variant (name : String) (content : Value) :
    (variant name content).nesting = content.nesting + 1 := by
  rw [variant, record, List.map_singleton, nesting, nestingOfMembers, nestingOfMembers,
    Nat.max_zero]

@[simp]
theorem nesting_pair (left right : Value) :
    (array [left, right]).nesting = max left.nesting right.nesting + 1 := by
  rw [nesting, nestingOfElements, nestingOfElements, nestingOfElements, Nat.max_zero]

end Value

/-! ## Members -/

/-- The members of a record as they are in the object. -/
def Value.named (members : List (String × Value)) : List (Literal × Value) :=
  members.map fun member => (some member.1, member.2)

section Members

variable {name : String} {members : List (String × Value)}
  (absent : ∀ member ∈ members, member.1 ≠ name)

include absent

theorem filter_named_eq_self :
    (Value.named members).filter (·.1 ≠ some name) = Value.named members := by
  rw [List.filter_eq_self]
  intro member isMember
  obtain ⟨original, isOriginal, rfl⟩ := List.mem_map.mp isMember
  simpa using absent original isOriginal

theorem filter_named_eq_nil :
    (Value.named members).filter (·.1 = some name) = [] := by
  rw [List.filter_eq_nil_iff]
  intro member isMember
  obtain ⟨original, isOriginal, rfl⟩ := List.mem_map.mp isMember
  simpa using absent original isOriginal

theorem filter_named_cons (value : Value) :
    (Value.named ((name, value) :: members)).filter (·.1 ≠ some name) = Value.named members := by
  rw [Value.named, List.map_cons, List.filter_cons_of_neg (by simp)]
  exact filter_named_eq_self absent

theorem member?_named_cons (value : Value) :
    member? (Value.named ((name, value) :: members)) name = some (some value) := by
  rw [member?, Value.named, List.map_cons, List.filter_cons_of_pos (by simp), ← Value.named,
    filter_named_eq_nil absent]

end Members

/-- Where no name is used twice, a name is looked up. -/
theorem member?_named
    {members : List (String × Value)} (distinct : (members.map Prod.fst).Nodup) (name : String) :
    member? (Value.named members) name = some (members.lookup name) := by
  induction members with
  | nil =>
      rfl
  | cons first others inductionHypothesis =>
      obtain ⟨firstName, value⟩ := first
      rw [List.map_cons, List.nodup_cons] at distinct
      obtain ⟨isNew, othersDistinct⟩ := distinct
      by_cases isFirst : firstName = name
      · subst isFirst
        have absent : ∀ member ∈ others, member.1 ≠ firstName := by
          intro member isMember same
          exact isNew (List.mem_map.mpr ⟨member, isMember, same⟩)
        rw [member?_named_cons absent, List.lookup_cons_self]
      · have skips :
            member? (Value.named ((firstName, value) :: others)) name =
              member? (Value.named others) name := by
          rw [member?, Value.named, List.map_cons, List.filter_cons_of_neg (by simpa using isFirst),
            ← Value.named, ← member?]
        have different : (name == firstName) = false := by
          simpa using Ne.symm isFirst
        rw [skips, inductionHypothesis othersDistinct, List.lookup_cons, different]

theorem lookup_eq_some_of_mem
    {members : List (String × Value)} (distinct : (members.map Prod.fst).Nodup)
    {name : String} {value : Value} (isMember : (name, value) ∈ members) :
    members.lookup name = some value := by
  obtain ⟨front, back, split⟩ := List.append_of_mem isMember
  rw [split, List.map_append, List.map_cons, List.nodup_middle, List.nodup_cons] at distinct
  refine List.lookup_eq_some_iff.mpr ⟨front, back, split, fun member isInFront => ?_⟩
  have isOther : member.1 ≠ name := by
    rintro rfl
    exact distinct.1 (List.mem_append_left _ (List.mem_map.mpr ⟨member, isInFront, rfl⟩))
  simpa using isOther.symm

theorem lookup_eq_none_of_absent
    {members : List (String × Value)} {name : String}
    (absent : ∀ member ∈ members, member.1 ≠ name) :
    members.lookup name = none := by
  rw [List.lookup_eq_none_iff]
  intro member isMember
  simpa using (absent member isMember).symm

/-- The order of the members does not matter. -/
theorem member?_perm
    {members others : List (Literal × Value)} (arranged : members ~ others) (name : String) :
    member? members name = member? others name := by
  have kept : members.filter (·.1 = some name) ~ others.filter (·.1 = some name) :=
    arranged.filter _
  unfold member?
  generalize members.filter (·.1 = some name) = left at kept
  generalize others.filter (·.1 = some name) = right at kept
  match left, right with
  | [], right =>
      rw [List.nil_perm.mp kept]
  | [first], right =>
      rw [List.singleton_perm.mp kept]
  | _ :: _ :: _, [] | _ :: _ :: _, [_] =>
      cases kept.length_eq
  | _ :: _ :: _, _ :: _ :: _ =>
      rfl

/-- Members of other names do not matter. -/
theorem member?_named_append
    (members : List (String × Value)) {others : List (String × Value)} {name : String}
    (absent : ∀ member ∈ others, member.1 ≠ name) :
    member? (Value.named (members ++ others)) name = member? (Value.named members) name := by
  rw [member?, member?, Value.named, List.map_append, List.filter_append, ← Value.named,
    ← Value.named, filter_named_eq_nil absent, List.append_nil]

/-! ## Records -/

theorem mapM_eq_some_map
    {α β : Type} {read : α → Option β} (result : α → β) {sources : List α}
    (each : ∀ source ∈ sources, read source = some (result source)) :
    sources.mapM read = some (sources.map result) := by
  induction sources with
  | nil =>
      rfl
  | cons first others inductionHypothesis =>
      rw [List.forall_mem_cons] at each
      rw [List.mapM_cons, each.1, inductionHypothesis each.2]
      rfl

theorem fields?_record
    {α : Type} (name : α → String) (value : α → Option Value)
    {sources : List α} {members : List (String × Value)}
    (found :
      ∀ source ∈ sources, member? (Value.named members) (name source) = some (value source)) :
    fields? (sources.map name) (.record members) = some (sources.map value) := by
  have spelled : (Value.named members).all (·.1.isSome) = true := by
    simp [Value.named]
  rw [Value.record, ← Value.named, fields?, if_pos spelled, List.mapM_map]
  exact mapM_eq_some_map value found

/-- A record that has exactly the fields asked for yields their values. -/
theorem allFields?_record
    (members : List (String × Value)) (distinct : (members.map Prod.fst).Nodup) :
    allFields? (members.map Prod.fst) (.record members) = some (members.map Prod.snd) := by
  let value : String × Value → Option Value := fun member => some member.2
  have found :
      ∀ member ∈ members, member? (Value.named members) member.1 = some (value member) := by
    intro member isMember
    rw [member?_named distinct, lookup_eq_some_of_mem distinct isMember]
  have present : ∀ member ∈ members, (id ∘ value) member = some member.2 :=
    fun _ _ => rfl
  rw [allFields?, fields?_record Prod.fst value found, Option.bind_eq_bind, Option.bind_some,
    List.mapM_map, mapM_eq_some_map Prod.snd present]

/-! ## Decoders -/

theorem Decoder.word_natural (depth : Nat) (number : Word) :
    Decoder.word depth (.natural number.toNat) = some number := by
  have fits : number.toNat < UInt64.size := number.toNat_lt
  simp [Decoder.word, Decoder.count, Decoder.below, Value.natural, fits]

/-- The decoder reads a written form as `result` wherever as many brackets may be open as the form
nests. -/
def Decodes {α : Type} (decoder : Decoder α) (written : Value) (result : α) : Prop :=
  ∀ depth, written.nesting ≤ depth → decoder depth written = some result

namespace Decodes

variable {α : Type} {decoder : Decoder α} {result : α}

theorem count {number : Nat} (fits : number < UInt64.size) :
    Decodes Decoder.count (.natural number) number := by
  intro depth _
  rw [Decoder.count, Value.natural, Decoder.below, if_pos fits]

theorem word (number : Word) :
    Decodes Decoder.word (.natural number.toNat) number :=
  fun depth _ => Decoder.word_natural depth number

theorem half (number : UInt32) :
    Decodes Decoder.half (.natural number.toNat) number := by
  intro depth _
  rw [Decoder.half, Value.natural, Decoder.below, if_pos number.toNat_lt, Option.map_eq_map,
    Option.map_some, UInt32.ofNat_toNat]

theorem text (content : String) :
    Decodes Decoder.text (.text content) content :=
  fun _ _ => rfl

theorem tag
    {variants : List (String × α)} {name : String}
    (isVariant : variants.lookup name = some result) :
    Decodes (Decoder.tag variants) (.text name) result :=
  fun _ _ => isVariant

theorem list
    {encode : α → Value} (each : ∀ element, Decodes decoder (encode element) element)
    (elements : List α) :
    Decodes (Decoder.list decoder) (.array (elements.map encode)) elements := by
  intro depth within
  cases depth with
  | zero =>
      cases within
  | succ depth =>
      rw [Value.nesting_array_le_iff, List.forall_mem_map] at within
      have reads : ∀ element ∈ elements, (decoder depth ∘ encode) element = some (id element) :=
        fun element isElement => each element depth (within element isElement)
      rw [Decoder.list, List.mapM_map, mapM_eq_some_map id reads, List.map_id]

/-- A record is read by reading its fields inside one more bracket. -/
theorem record
    {members : List (String × Value)}
    (reads :
      ∀ depth, (∀ member ∈ members, member.2.nesting ≤ depth) →
        decoder (depth + 1) (.record members) = some result) :
    Decodes decoder (.record members) result := by
  intro depth within
  cases depth with
  | zero =>
      cases within
  | succ depth =>
      exact reads depth ((Value.nesting_record_le_iff members depth).mp within)

theorem variant
    {name : String} {content : Value}
    (reads :
      ∀ depth, content.nesting ≤ depth →
        decoder (depth + 1) (.object [(some name, content)]) = some result) :
    Decodes decoder (.variant name content) result :=
  .record fun depth within => reads depth (within _ (List.mem_singleton_self _))

/-- A decoder that asks for the fields of a record finds them, and reads them inside one more
bracket. -/
theorem fields
    {members : List (String × Value)} {read : Nat → List Value → Option α}
    (asks :
      ∀ depth value,
        decoder (depth + 1) value = (allFields? (members.map Prod.fst) value).bind (read depth))
    (distinct : (members.map Prod.fst).Nodup)
    (reads :
      ∀ depth, members.Forall (fun member => member.2.nesting ≤ depth) →
        read depth (members.map Prod.snd) = some result) :
    Decodes decoder (.record members) result := by
  refine .record fun depth within => ?_
  rw [asks, allFields?_record members distinct]
  exact reads depth (List.forall_iff_forall_mem.mpr within)

end Decodes

/-! ## Texts -/

/-- Reading the compact text of a value yields the value, and writing what was read yields the same
text. -/
structure RoundTrips
    {α : Type} (encode : α → Value) (decoder : Decoder α) (value : α) : Prop where
  reads : decode? decoder (encode value).render = some value
  rewrites :
    (decode? decoder (encode value).render).map (fun again => (encode again).render) =
      some (encode value).render

theorem Decodes.roundTrips
    {α : Type} {encode : α → Value} {decoder : Decoder α} {value : α}
    (decodes : Decodes decoder (encode value) value)
    (within : (encode value).nesting ≤ nestingLimit) :
    RoundTrips encode decoder value := by
  have reads : decode? decoder (encode value).render = some value := by
    rw [decode?, readDocument?_render]
    exact decodes nestingLimit within
  exact ⟨reads, by rw [reads, Option.map_some]⟩

end MainLocator.Json
