import MainLocator.Proofs.JsonLiterals

/-!
# Texts are read back

Every value is read back from its compact and from its indented text. Both texts are written by one
printer, which is told by a `Layout` where blanks go; the reader skips blanks there, so one
induction on the value serves both. The fuel that the induction asks for is the length of the text.
-/

namespace MainLocator.Json

/-! ## Layouts -/

/-- The blanks of a written form. -/
structure Layout where
  /-- In front of an element, a member or a closing bracket inside as many brackets. -/
  lineBreak : Nat → List Char
  behindColon : List Char
  lineBreak_areBlank : ∀ level, ∀ character ∈ lineBreak level, isBlank character = true
  behindColon_areBlank : ∀ character ∈ behindColon, isBlank character = true

namespace Layout

def compact : Layout where
  lineBreak _ := []
  behindColon := []
  lineBreak_areBlank _ _ member := absurd member List.not_mem_nil
  behindColon_areBlank _ member := absurd member List.not_mem_nil

def indented : Layout where
  lineBreak := Value.lineBreak
  behindColon := [' ']
  lineBreak_areBlank level character member := by
    rcases List.mem_cons.mp member with rfl | isSpace
    · rfl
    · obtain rfl := List.eq_of_mem_replicate isSpace
      rfl
  behindColon_areBlank character member := by
    obtain rfl := List.mem_singleton.mp member
    rfl

@[simp]
theorem lineBreak_compact (level : Nat) : compact.lineBreak level = [] :=
  rfl

@[simp]
theorem behindColon_compact : compact.behindColon = [] :=
  rfl

@[simp]
theorem lineBreak_indented (level : Nat) : indented.lineBreak level = Value.lineBreak level :=
  rfl

@[simp]
theorem behindColon_indented : indented.behindColon = [' '] :=
  rfl

mutual

/-- The form of a value inside `level` brackets. -/
def write (layout : Layout) (level : Nat) : Value → List Char
  | .null => "null".toList
  | .bool true => "true".toList
  | .bool false => "false".toList
  | .number value => value.written
  | .string literal => quoteLiteral literal
  | .array [] => "[]".toList
  | .array (first :: others) =>
      '[' :: (layout.lineBreak (level + 1) ++
        (layout.write (level + 1) first ++ layout.writeElements level others))
  | .object [] => "\x7b\x7d".toList
  | .object (first :: others) =>
      '{' :: (layout.lineBreak (level + 1) ++
        (layout.writeMember (level + 1) first ++ layout.writeMembers level others))

/-- The elements behind the first, and the closing bracket. -/
def writeElements (layout : Layout) (level : Nat) : List Value → List Char
  | [] => layout.lineBreak level ++ [']']
  | first :: others =>
      ',' :: (layout.lineBreak (level + 1) ++
        (layout.write (level + 1) first ++ layout.writeElements level others))

def writeMember (layout : Layout) (level : Nat) : Literal × Value → List Char
  | (name, value) =>
      quoteLiteral name ++ ':' :: (layout.behindColon ++ layout.write level value)

/-- The members behind the first, and the closing brace. -/
def writeMembers (layout : Layout) (level : Nat) : List (Literal × Value) → List Char
  | [] => layout.lineBreak level ++ ['}']
  | first :: others =>
      ',' :: (layout.lineBreak (level + 1) ++
        (layout.writeMember (level + 1) first ++ layout.writeMembers level others))

end

/-! ### The two written forms -/

mutual

theorem write_compact (level : Nat) :
    ∀ value : Value, compact.write level value = value.compact
  | .null | .bool true | .bool false | .number _ | .string _ | .array [] | .object [] => by
      rw [write, Value.compact]
  | .array (first :: others) => by
      rw [write, Value.compact, write_compact (level + 1) first,
        writeElements_compact level others]
      simp
  | .object (first :: others) => by
      rw [write, Value.compact, writeMember_compact (level + 1) first,
        writeMembers_compact level others]
      simp

theorem writeElements_compact (level : Nat) :
    ∀ values : List Value, compact.writeElements level values = Value.compactElements values
  | [] => by
      rw [writeElements, Value.compactElements]
      simp
  | first :: others => by
      rw [writeElements, Value.compactElements, write_compact (level + 1) first,
        writeElements_compact level others]
      simp

theorem writeMember_compact (level : Nat) :
    ∀ member : Literal × Value, compact.writeMember level member = Value.compactMember member
  | (name, value) => by
      rw [writeMember, Value.compactMember, write_compact level value]
      simp

theorem writeMembers_compact (level : Nat) :
    ∀ members : List (Literal × Value),
      compact.writeMembers level members = Value.compactMembers members
  | [] => by
      rw [writeMembers, Value.compactMembers]
      simp
  | first :: others => by
      rw [writeMembers, Value.compactMembers, writeMember_compact (level + 1) first,
        writeMembers_compact level others]
      simp

end

mutual

theorem write_indented (level : Nat) :
    ∀ value : Value, indented.write level value = value.indented level
  | .null | .bool true | .bool false | .number _ | .string _ | .array [] | .object [] => by
      rw [write, Value.indented]
  | .array (first :: others) => by
      rw [write, Value.indented, write_indented (level + 1) first,
        writeElements_indented level others]
      simp
  | .object (first :: others) => by
      rw [write, Value.indented, writeMember_indented (level + 1) first,
        writeMembers_indented level others]
      simp

theorem writeElements_indented (level : Nat) :
    ∀ values : List Value,
      indented.writeElements level values = Value.indentedElements level values
  | [] => by
      rw [writeElements, Value.indentedElements]
      simp
  | first :: others => by
      rw [writeElements, Value.indentedElements, write_indented (level + 1) first,
        writeElements_indented level others]
      simp

theorem writeMember_indented (level : Nat) :
    ∀ member : Literal × Value,
      indented.writeMember level member = Value.indentedMember level member
  | (name, value) => by
      rw [writeMember, Value.indentedMember, write_indented level value]
      simp

theorem writeMembers_indented (level : Nat) :
    ∀ members : List (Literal × Value),
      indented.writeMembers level members = Value.indentedMembers level members
  | [] => by
      rw [writeMembers, Value.indentedMembers]
      simp
  | first :: others => by
      rw [writeMembers, Value.indentedMembers, writeMember_indented (level + 1) first,
        writeMembers_indented level others]
      simp

end

end Layout

/-! ## Blanks -/

section Blanks

variable {blanks : List Char} (areBlank : ∀ character ∈ blanks, isBlank character = true)

include areBlank

theorem skipBlanks_append (rest : List Char) :
    skipBlanks (blanks ++ rest) = skipBlanks rest :=
  List.dropWhile_append_of_pos areBlank

theorem readValue?_append (fuel : Nat) (input : List Char) :
    readValue? fuel (blanks ++ input) = readValue? fuel input := by
  cases fuel with
  | zero => rfl
  | succ fuel => rw [readValue?, readValue?, skipBlanks_append areBlank]

theorem readMember?_append (fuel : Nat) (input : List Char) :
    readMember? fuel (blanks ++ input) = readMember? fuel input := by
  cases fuel with
  | zero => rfl
  | succ fuel => rw [readMember?, readMember?, skipBlanks_append areBlank]

theorem endsNumber_append {rest : List Char} (ends : EndsNumber rest) :
    EndsNumber (blanks ++ rest) := by
  cases blanks with
  | nil =>
      exact ends
  | cons first others =>
      have isBlank := areBlank first List.mem_cons_self
      simp only [Json.isBlank, decide_eq_true_eq] at isBlank
      apply endsNumber_cons
      rcases isBlank with rfl | rfl | rfl | rfl
      all_goals decide

end Blanks

theorem skipBlanks_cons
    {first : Char} (notBlank : isBlank first = false) (others : List Char) :
    skipBlanks (first :: others) = first :: others := by
  rw [skipBlanks, List.dropWhile_cons_of_neg]
  simp [notBlank]

/-! ## First characters -/

theorem isBlank_of_startsNumber
    {first : Char} (starts : StartsNumber first) :
    isBlank first = false := by
  rcases starts with rfl | isDigit
  · rfl
  · have notSpace : first ≠ ' ' := ne_of_isDigit isDigit rfl
    have notTab : first ≠ '\t' := ne_of_isDigit isDigit rfl
    have notLineFeed : first ≠ '\n' := ne_of_isDigit isDigit rfl
    have notReturn : first ≠ '\r' := ne_of_isDigit isDigit rfl
    simp [isBlank, notSpace, notTab, notLineFeed, notReturn]

theorem exists_cons_quoteLiteral (literal : Literal) :
    ∃ others, quoteLiteral literal = '"' :: others := by
  cases literal with
  | none => exact ⟨_, rfl⟩
  | some content => exact ⟨_, rfl⟩

section Written

variable (layout : Layout) (level : Nat)

theorem exists_cons_write (value : Value) :
    ∃ first others,
      layout.write level value = first :: others ∧ isBlank first = false ∧ first ≠ ']' := by
  cases value with
  | null =>
      exact ⟨'n', _, Layout.write.eq_1 .., by decide, by decide⟩
  | bool truth =>
      cases truth with
      | true => exact ⟨'t', _, Layout.write.eq_2 .., by decide, by decide⟩
      | false => exact ⟨'f', _, Layout.write.eq_3 .., by decide, by decide⟩
  | number number =>
      obtain ⟨first, others, written, starts⟩ := exists_cons_numberWritten number
      refine ⟨first, others, by rw [Layout.write, written], isBlank_of_startsNumber starts, ?_⟩
      rintro rfl
      simp [StartsNumber] at starts
  | string literal =>
      obtain ⟨others, written⟩ := exists_cons_quoteLiteral literal
      exact ⟨'"', others, by rw [Layout.write, written], by decide, by decide⟩
  | array elements =>
      cases elements with
      | nil => exact ⟨'[', [']'], by rw [Layout.write]; rfl, by decide, by decide⟩
      | cons => exact ⟨'[', _, by rw [Layout.write], by decide, by decide⟩
  | object members =>
      cases members with
      | nil => exact ⟨'{', ['}'], by rw [Layout.write]; rfl, by decide, by decide⟩
      | cons => exact ⟨'{', _, by rw [Layout.write], by decide, by decide⟩

theorem exists_cons_writeMember (member : Literal × Value) :
    ∃ others, layout.writeMember level member = '"' :: others := by
  obtain ⟨others, written⟩ := exists_cons_quoteLiteral member.1
  rw [Layout.writeMember, written]
  exact ⟨_, rfl⟩

theorem endsNumber_writeElements (values : List Value) (rest : List Char) :
    EndsNumber (layout.writeElements level values ++ rest) := by
  cases values with
  | nil =>
      rw [Layout.writeElements, List.append_assoc]
      exact endsNumber_append (layout.lineBreak_areBlank level) (endsNumber_cons _ (by decide))
  | cons first others =>
      rw [Layout.writeElements]
      exact endsNumber_cons _ (by decide)

theorem endsNumber_writeMembers (members : List (Literal × Value)) (rest : List Char) :
    EndsNumber (layout.writeMembers level members ++ rest) := by
  cases members with
  | nil =>
      rw [Layout.writeMembers, List.append_assoc]
      exact endsNumber_append (layout.lineBreak_areBlank level) (endsNumber_cons _ (by decide))
  | cons first others =>
      rw [Layout.writeMembers]
      exact endsNumber_cons _ (by decide)

end Written

/-! ## Reading -/

section Reading

variable (fuel : Nat)

theorem readValue?_number
    {first : Char} (starts : StartsNumber first) (others : List Char) :
    readValue? (fuel + 1) (first :: others) =
      (readNumber? (first :: others)).map fun found => (.number found.1, found.2) := by
  rw [readValue?, skipBlanks_cons (isBlank_of_startsNumber starts)]
  split
  case h_7 =>
    cases readNumber? (first :: others) with
    | none => rfl
    | some found => rfl
  all_goals
    rename_i sameText
    injection sameText with sameFirst
    subst sameFirst
    simp [StartsNumber] at starts

theorem readValue?_array
    {blanks : List Char} (areBlank : ∀ character ∈ blanks, isBlank character = true)
    {first : Char} (notBlank : isBlank first = false) (notClosing : first ≠ ']')
    (others : List Char) :
    readValue? (fuel + 1) ('[' :: (blanks ++ first :: others)) =
      (readValue? fuel (first :: others)).bind fun head =>
        (readElements? fuel head.2).map fun tail => (.array (head.1 :: tail.1), tail.2) := by
  rw [readValue?, skipBlanks_cons (by decide)]
  simp only [skipBlanks_append areBlank, skipBlanks_cons notBlank]
  split
  · rename_i sameText
    injection sameText with sameFirst
    exact absurd sameFirst notClosing
  · simp only [Option.bind_eq_bind, Option.map_eq_bind]
    rfl

theorem readValue?_object
    {blanks : List Char} (areBlank : ∀ character ∈ blanks, isBlank character = true)
    (others : List Char) :
    readValue? (fuel + 1) ('{' :: (blanks ++ '"' :: others)) =
      (readMember? fuel ('"' :: others)).bind fun head =>
        (readMembers? fuel head.2).map fun tail => (.object (head.1 :: tail.1), tail.2) := by
  rw [readValue?, skipBlanks_cons (by decide)]
  simp only [skipBlanks_append areBlank]
  rw [skipBlanks_cons (by decide)]
  simp only [Option.bind_eq_bind, Option.map_eq_bind]
  rfl

end Reading

mutual

theorem readValue?_write (layout : Layout) :
    ∀ (value : Value) (level fuel : Nat) (rest : List Char),
      (layout.write level value).length ≤ fuel →
      EndsNumber rest →
        readValue? fuel (layout.write level value ++ rest) = some (value, rest)
  | value, level, 0, rest, enough, _ => by
      obtain ⟨first, others, written, _⟩ := exists_cons_write layout level value
      simp [written] at enough
  | .null, _, _ + 1, _, _, _ | .bool true, _, _ + 1, _, _, _ | .bool false, _, _ + 1, _, _, _
  | .array [], _, _ + 1, _, _, _ | .object [], _, _ + 1, _, _, _ => by
      rw [Layout.write]
      rfl
  | .number number, level, fuel + 1, rest, _, ends => by
      obtain ⟨first, others, written, starts⟩ := exists_cons_numberWritten number
      have reads := readNumber?_written number ends
      rw [written, List.cons_append] at reads
      rw [Layout.write, written, List.cons_append, readValue?_number fuel starts, reads]
      rfl
  | .string literal, level, fuel + 1, rest, _, _ => by
      obtain ⟨spelling, written, reads⟩ := exists_readLiteral?_quoteLiteral literal rest
      rw [Layout.write, written, readValue?, skipBlanks_cons (by decide)]
      simp [reads]
  | .array (first :: others), level, fuel + 1, rest, enough, _ => by
      simp only [Layout.write, List.length_cons, List.length_append] at enough
      have head := readValue?_write layout first (level + 1) fuel
        (layout.writeElements level others ++ rest) (by omega)
        (endsNumber_writeElements layout level others rest)
      have tail := readElements?_write layout others level fuel rest (by omega)
      obtain ⟨start, behind, written, notBlank, notClosing⟩ :=
        exists_cons_write layout (level + 1) first
      rw [written, List.cons_append] at head
      rw [Layout.write, List.cons_append, List.append_assoc, List.append_assoc, written,
        List.cons_append,
        readValue?_array fuel (layout.lineBreak_areBlank _) notBlank notClosing, head,
        Option.bind_some, tail]
      rfl
  | .object (first :: others), level, fuel + 1, rest, enough, _ => by
      simp only [Layout.write, List.length_cons, List.length_append] at enough
      have head := readMember?_write layout first (level + 1) fuel
        (layout.writeMembers level others ++ rest) (by omega)
        (endsNumber_writeMembers layout level others rest)
      have tail := readMembers?_write layout others level fuel rest (by omega)
      obtain ⟨behind, written⟩ := exists_cons_writeMember layout (level + 1) first
      rw [written, List.cons_append] at head
      rw [Layout.write, List.cons_append, List.append_assoc, List.append_assoc, written,
        List.cons_append, readValue?_object fuel (layout.lineBreak_areBlank _), head,
        Option.bind_some, tail]
      rfl

theorem readElements?_write (layout : Layout) :
    ∀ (values : List Value) (level fuel : Nat) (rest : List Char),
      (layout.writeElements level values).length ≤ fuel →
        readElements? fuel (layout.writeElements level values ++ rest) = some (values, rest)
  | [], _, 0, _, enough | _ :: _, _, 0, _, enough => by
      simp [Layout.writeElements] at enough
  | [], level, fuel + 1, rest, _ => by
      rw [Layout.writeElements, List.append_assoc, readElements?,
        skipBlanks_append (layout.lineBreak_areBlank level)]
      rfl
  | first :: others, level, fuel + 1, rest, enough => by
      simp only [Layout.writeElements, List.length_cons, List.length_append] at enough
      have head := readValue?_write layout first (level + 1) fuel
        (layout.writeElements level others ++ rest) (by omega)
        (endsNumber_writeElements layout level others rest)
      have tail := readElements?_write layout others level fuel rest (by omega)
      rw [Layout.writeElements, List.cons_append, List.append_assoc, List.append_assoc,
        readElements?, skipBlanks_cons (by decide)]
      simp [readValue?_append (layout.lineBreak_areBlank _), head, tail]

theorem readMember?_write (layout : Layout) :
    ∀ (member : Literal × Value) (level fuel : Nat) (rest : List Char),
      (layout.writeMember level member).length ≤ fuel →
      EndsNumber rest →
        readMember? fuel (layout.writeMember level member ++ rest) = some (member, rest)
  | (name, value), level, 0, rest, enough, _ => by
      simp [Layout.writeMember] at enough
  | (name, value), level, fuel + 1, rest, enough, ends => by
      simp only [Layout.writeMember, List.length_cons, List.length_append] at enough
      have content := readValue?_write layout value level fuel rest (by omega) ends
      obtain ⟨spelling, written, reads⟩ := exists_readLiteral?_quoteLiteral name
        (':' :: (layout.behindColon ++ (layout.write level value ++ rest)))
      rw [Layout.writeMember, List.append_assoc, List.cons_append, List.append_assoc, written,
        readMember?, skipBlanks_cons (by decide)]
      simp [reads, skipBlanks_cons, isBlank, readValue?_append layout.behindColon_areBlank,
        content]

theorem readMembers?_write (layout : Layout) :
    ∀ (members : List (Literal × Value)) (level fuel : Nat) (rest : List Char),
      (layout.writeMembers level members).length ≤ fuel →
        readMembers? fuel (layout.writeMembers level members ++ rest) = some (members, rest)
  | [], _, 0, _, enough | _ :: _, _, 0, _, enough => by
      simp [Layout.writeMembers] at enough
  | [], level, fuel + 1, rest, _ => by
      rw [Layout.writeMembers, List.append_assoc, readMembers?,
        skipBlanks_append (layout.lineBreak_areBlank level)]
      rfl
  | first :: others, level, fuel + 1, rest, enough => by
      simp only [Layout.writeMembers, List.length_cons, List.length_append] at enough
      have head := readMember?_write layout first (level + 1) fuel
        (layout.writeMembers level others ++ rest) (by omega)
        (endsNumber_writeMembers layout level others rest)
      have tail := readMembers?_write layout others level fuel rest (by omega)
      rw [Layout.writeMembers, List.cons_append, List.append_assoc, List.append_assoc,
        readMembers?, skipBlanks_cons (by decide)]
      simp [readMember?_append (layout.lineBreak_areBlank _), head, tail]

end

/-! ## Documents -/

theorem readDocument?_write (layout : Layout) (level : Nat) (value : Value) :
    readDocument? (String.ofList (layout.write level value)) = some value := by
  have reads := readValue?_write layout value level ((layout.write level value).length + 1) []
    (Nat.le_succ _) endsNumber_nil
  rw [List.append_nil] at reads
  simp only [readDocument?, String.toList_ofList, reads, Option.bind_eq_bind, Option.bind_some]
  rfl

theorem readDocument?_render (value : Value) :
    readDocument? value.render = some value := by
  rw [Value.render, ← Layout.write_compact 0]
  exact readDocument?_write .compact 0 value

theorem readDocument?_renderIndented (value : Value) :
    readDocument? value.renderIndented = some value := by
  rw [Value.renderIndented, ← Layout.write_indented]
  exact readDocument?_write .indented 0 value

end MainLocator.Json
