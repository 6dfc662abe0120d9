import MainLocator.Proofs.UniqueReading

/-!
# Texts of operations

An operation is written as the register versions that it sets, if there are any, and an action
behind them. What stands in a list ends with a comma, or with the character that closes the list, so
a list is told from a longer one. Register versions in front of an action are told from the action,
which never begins with a register where nothing is set.
-/

namespace MainLocator

open Numeral (EndsRun)

/-! ## Lists -/

section Lists

variable {α : Type} (write : α → String)

/-- The texts of a list, with commas between them. -/
def joined (list : List α) : List Char :=
  (", ".intercalate (list.map write)).toList

/-- The texts behind the first of a list, each behind a comma. -/
def behindCommas (list : List α) : List Char :=
  list.flatMap fun value => ',' :: ' ' :: (write value).toList

variable {write}

theorem joined_cons (first : α) (others : List α) :
    joined write (first :: others) = (write first).toList ++ behindCommas write others := by
  induction others generalizing first with
  | nil =>
      simp [joined, behindCommas]
  | cons second others inductionHypothesis =>
      have further := inductionHypothesis second
      simp only [joined, List.map_cons, String.intercalate_cons_cons, String.toList_append] at *
      rw [further]
      simp [behindCommas]

variable {isPart : Char → Bool} {closing : Char} {rest otherRest : List Char}

variable
  (reads : ReadsUniquely (fun value => (write value).toList) isPart)
  (commaEnds : isPart ',' = false) (closingEnds : isPart closing = false)

include commaEnds closingEnds in
/-- What stands in front of the other elements, or of the character that closes the list, ends. -/
theorem endsRun_behindCommas (list : List α) (rest : List Char) :
    EndsRun isPart (behindCommas write list ++ closing :: rest) := by
  cases list with
  | nil => exact endsRun_cons closingEnds rest
  | cons value others => exact endsRun_cons commaEnds _

include reads commaEnds closingEnds

theorem element_eq_of_append_eq
    {value other : α} {list otherList : List α}
    (same :
      (write value).toList ++ (behindCommas write list ++ closing :: rest) =
        (write other).toList ++ (behindCommas write otherList ++ closing :: otherRest)) :
    value = other ∧
      behindCommas write list ++ closing :: rest =
        behindCommas write otherList ++ closing :: otherRest := by
  exact reads value (endsRun_behindCommas commaEnds closingEnds list rest)
    (endsRun_behindCommas commaEnds closingEnds otherList otherRest) same

theorem behindCommas_inj
    (notComma : closing ≠ ',') {list otherList : List α}
    (same :
      behindCommas write list ++ closing :: rest =
        behindCommas write otherList ++ closing :: otherRest) :
    list = otherList ∧ rest = otherRest := by
  induction list generalizing otherList with
  | nil =>
      cases otherList with
      | nil => exact ⟨rfl, (List.cons.inj same).2⟩
      | cons other otherOthers => exact absurd (List.cons.inj same).1 notComma
  | cons value others inductionHypothesis =>
      cases otherList with
      | nil => exact absurd (List.cons.inj same).1.symm notComma
      | cons other otherOthers =>
          simp only [behindCommas, List.flatMap_cons, List.cons_append, List.append_assoc,
            List.cons.injEq, true_and] at same
          obtain ⟨rfl, sameTail⟩ := element_eq_of_append_eq reads commaEnds closingEnds same
          obtain ⟨rfl, sameRest⟩ := inductionHypothesis sameTail
          exact ⟨rfl, sameRest⟩

/-- A list of texts that do not begin with the character that closes the list is told from every
other. -/
theorem joined_inj
    (notComma : closing ≠ ',')
    (starts : ∀ value, ∃ first others, (write value).toList = first :: others ∧ first ≠ closing)
    {list otherList : List α}
    (same : joined write list ++ closing :: rest = joined write otherList ++ closing :: otherRest) :
    list = otherList ∧ rest = otherRest := by
  have opens : ∀ (value : α) (list : List α) (rest otherRest : List Char),
      joined write (value :: list) ++ rest ≠ closing :: otherRest := by
    intro value list rest otherRest
    obtain ⟨first, others, written, different⟩ := starts value
    rw [joined_cons, written]
    intro same
    exact different (List.cons.inj same).1
  cases list with
  | nil =>
      cases otherList with
      | nil => exact ⟨rfl, (List.cons.inj same).2⟩
      | cons other otherOthers => exact absurd same.symm (opens _ _ _ _)
  | cons value others =>
      cases otherList with
      | nil => exact absurd same (opens _ _ _ _)
      | cons other otherOthers =>
          rw [joined_cons, joined_cons, List.append_assoc, List.append_assoc] at same
          obtain ⟨rfl, sameTail⟩ := element_eq_of_append_eq reads commaEnds closingEnds same
          obtain ⟨rfl, sameRest⟩ := behindCommas_inj reads commaEnds closingEnds notComma sameTail
          exact ⟨rfl, sameRest⟩

end Lists

theorem RegisterVersion.joined_inj
    {closing : Char} (notComma : closing ≠ ',') (notRegister : closing ≠ 'r')
    (notDigit : closing.isDigit = false)
    {list otherList : List RegisterVersion} {rest otherRest : List Char}
    (same : joined text list ++ closing :: rest = joined text otherList ++ closing :: otherRest) :
    list = otherList ∧ rest = otherRest := by
  refine MainLocator.joined_inj readsUniquely rfl notDigit notComma (fun value => ?_) same
  obtain ⟨digit, others, written, _⟩ := value.exists_cons_text
  exact ⟨'r', _, written, notRegister.symm⟩

theorem Expression.joined_inj
    {list otherList : List Expression} {rest otherRest : List Char}
    (same : joined text list ++ ')' :: rest = joined text otherList ++ ')' :: otherRest) :
    list = otherList ∧ rest = otherRest := by
  refine MainLocator.joined_inj readsUniquely rfl rfl (by decide) (fun expression => ?_) same
  obtain ⟨others, written⟩ := expression.exists_cons_text
  refine ⟨_, others, written, ?_⟩
  cases expression <;> simp [lead]

/-! ## Actions -/

namespace Operation

/-- The register versions that an operation sets, and the sign behind them. -/
def setting (targets : List RegisterVersion) : List Char :=
  if targets.isEmpty then [] else joined RegisterVersion.text targets ++ [' ', '=', ' ']

/-- The target and the arguments of a call, and the closing bracket. -/
def callText (operands : CallOperands) : List Char :=
  operands.target.text.toList ++ ',' :: ' ' :: (joined Expression.text operands.arguments ++ [')'])

/-- What an operation is written as behind the register versions that it sets. -/
def action : Operation → List Char
  | assign _ source => source.text.toList
  | phi _ sources => 'φ' :: '(' :: (joined RegisterVersion.text sources ++ [')'])
  | call operands => ['c', 'a', 'l', 'l', '('] ++ callText operands
  | tailCall operands => ['t', 'a', 'i', 'l', 'c', 'a', 'l', 'l', '('] ++ callText operands
  | store address value => '[' :: address.text.toList ++ [']', ' ', '=', ' '] ++ value.text.toList
  | ret value => ['r', 'e', 't', ' '] ++ value.text.toList
  | jump target => ['j', 'u', 'm', 'p', ' '] ++ target.text.toList
  | goto target => ['g', 'o', 't', 'o', ' '] ++ Nat.toDigits 10 target
  | branch condition taken skipped =>
      ['i', 'f', ' ', '('] ++ condition.text.toList ++ [')', ' ', 't', 'h', 'e', 'n', ' '] ++
        Nat.toDigits 10 taken ++ [' ', 'e', 'l', 's', 'e', ' '] ++ Nat.toDigits 10 skipped
  | noReturn => ['n', 'o', 'r', 'e', 't', 'u', 'r', 'n']
  | nop => ['n', 'o', 'p']

/-- The first character of the action. -/
def lead : Operation → Char
  | assign _ source => source.lead
  | phi _ _ => 'φ'
  | call _ => 'c'
  | tailCall _ => 't'
  | store _ _ => '['
  | ret _ => 'r'
  | jump _ => 'j'
  | goto _ => 'g'
  | branch _ _ _ => 'i'
  | noReturn | nop => 'n'

theorem toList_callOperands_text (operands : CallOperands) (verb : String) :
    (operands.text verb).toList =
      setting operands.results ++ (verb.toList ++ '(' :: callText operands) := by
  obtain ⟨target, results, arguments⟩ := operands
  cases results with
  | nil => simp [CallOperands.text, setting, callText, joined]
  | cons first others => simp [CallOperands.text, setting, callText, joined]

theorem toList_text (operation : Operation) :
    operation.text.toList = setting operation.writes ++ operation.action := by
  cases operation with
  | assign destination source => simp [text, writes, action, setting, joined]
  | phi destination sources => simp [text, writes, action, setting, joined]
  | call operands => simp [text, writes, action, toList_callOperands_text]
  | tailCall operands => simp [text, writes, action, toList_callOperands_text]
  | goto target => simp [text, writes, action, setting, Numeral.toList_decimal]
  | branch condition taken skipped => simp [text, writes, action, setting, Numeral.toList_decimal]
  | _ => simp [text, writes, action, setting]

theorem exists_cons_action (operation : Operation) :
    ∃ others, operation.action = operation.lead :: others := by
  cases operation with
  | assign destination source => exact source.exists_cons_text
  | phi destination sources => exact ⟨_, rfl⟩
  | _ => simp [action, lead]

/-! ## What an operation sets -/

/-- The text begins with the letter of a register and a digit. -/
def BeginsWithRegister (written : List Char) : Prop :=
  ∃ digit others, written = 'r' :: digit :: others ∧ digit.isDigit = true

theorem setting_cons (first : RegisterVersion) (others : List RegisterVersion) :
    setting (first :: others) =
      joined RegisterVersion.text (first :: others) ++ [' ', '=', ' '] :=
  rfl

theorem beginsWithRegister_setting
    (first : RegisterVersion) (others : List RegisterVersion) (rest : List Char) :
    BeginsWithRegister (setting (first :: others) ++ rest) := by
  obtain ⟨digit, further, written, isDigit⟩ := first.exists_cons_text
  rw [setting_cons, joined_cons, written]
  exact ⟨digit, _, rfl, isDigit⟩

/-- Where nothing is set, the letter `r` begins a return. -/
theorem not_beginsWithRegister_action
    {operation : Operation} (setsNothing : operation.writes = []) :
    ¬ BeginsWithRegister operation.action := by
  rintro ⟨digit, others, written, isDigit⟩
  cases operation with
  | assign destination source => cases setsNothing
  | phi destination sources => cases setsNothing
  | ret value =>
      simp only [action, List.cons_append, List.nil_append, List.cons.injEq, true_and] at written
      rw [← written.1] at isDigit
      exact absurd isDigit (by decide)
  | _ => simp [action] at written

/-- What is set is told from the action behind it. -/
theorem setting_inj
    {targets otherTargets : List RegisterVersion} {rest otherRest : List Char}
    (isFree : targets = [] → ¬ BeginsWithRegister rest)
    (otherIsFree : otherTargets = [] → ¬ BeginsWithRegister otherRest)
    (same : setting targets ++ rest = setting otherTargets ++ otherRest) :
    targets = otherTargets ∧ rest = otherRest := by
  cases targets with
  | nil =>
      cases otherTargets with
      | nil => exact ⟨rfl, same⟩
      | cons first others =>
          refine absurd ?_ (isFree rfl)
          rw [show rest = setting (first :: others) ++ otherRest from same]
          exact beginsWithRegister_setting first others otherRest
  | cons first others =>
      cases otherTargets with
      | nil =>
          refine absurd ?_ (otherIsFree rfl)
          rw [show otherRest = setting (first :: others) ++ rest from same.symm]
          exact beginsWithRegister_setting first others rest
      | cons otherFirst otherOthers =>
          simp only [setting_cons, List.append_assoc, List.cons_append, List.nil_append] at same
          obtain ⟨sameTargets, sameTail⟩ :=
            RegisterVersion.joined_inj (by decide) (by decide) rfl same
          simp only [List.cons.injEq, true_and] at sameTail
          exact ⟨sameTargets, sameTail⟩

/-! ## One text, one operation -/

theorem callText_inj
    {operands others : CallOperands}
    (sameResults : operands.results = others.results)
    (same : callText operands = callText others) :
    operands = others := by
  obtain ⟨target, results, arguments⟩ := operands
  obtain ⟨otherTarget, otherResults, otherArguments⟩ := others
  obtain ⟨rfl, _, sameTail⟩ := (Expression.readsUniquely target).in_front rfl rfl same
  obtain ⟨rfl, _⟩ := Expression.joined_inj (List.cons.inj sameTail).2
  cases sameResults
  rfl

theorem lead_eq_of_action_eq
    {left right : Operation} (same : left.action = right.action) :
    left.lead = right.lead := by
  obtain ⟨leftOthers, leftWritten⟩ := left.exists_cons_action
  obtain ⟨rightOthers, rightWritten⟩ := right.exists_cons_action
  rw [leftWritten, rightWritten] at same
  exact (List.cons.inj same).1

/-- No expression begins like a phi or a call. -/
theorem lead_source (source : Expression) :
    source.lead ≠ 'φ' ∧ source.lead ≠ 'c' ∧ source.lead ≠ 't' := by
  cases source <;> simp [Expression.lead]

/-- Of the operations that set one register version, an assignment is told from the others by how
its source begins. -/
theorem eq_assign_of_action_eq
    {operation : Operation} {destination : RegisterVersion} {source : Expression}
    (sameTargets : operation.writes = [destination])
    (same : operation.action = (assign destination source).action) :
    operation = assign destination source := by
  have sameLead := lead_eq_of_action_eq same
  obtain ⟨notPhi, notCall, notTailCall⟩ := lead_source source
  cases operation with
  | assign otherDestination otherSource =>
      cases sameTargets
      rw [Expression.readsUniquely.injective same]
  | phi otherDestination sources => exact absurd sameLead.symm notPhi
  | call operands => exact absurd sameLead.symm notCall
  | tailCall operands => exact absurd sameLead.symm notTailCall
  | _ => cases sameTargets

/-- Operations that set the same are told apart by their actions: most by the first character. -/
theorem action_inj
    {left right : Operation}
    (sameTargets : left.writes = right.writes) (same : left.action = right.action) :
    left = right := by
  have sameLead := lead_eq_of_action_eq same
  cases left with
  | assign destination source => exact (eq_assign_of_action_eq sameTargets.symm same.symm).symm
  | phi destination sources =>
      cases right with
      | assign => exact eq_assign_of_action_eq sameTargets same
      | phi otherDestination otherSources =>
          cases sameTargets
          simp only [action, List.cons.injEq, true_and] at same
          obtain ⟨rfl, _⟩ := RegisterVersion.joined_inj (by decide) (by decide) rfl same
          rfl
      | _ => simp [lead] at sameLead
  | call operands =>
      cases right with
      | assign => exact eq_assign_of_action_eq sameTargets same
      | call otherOperands => rw [callText_inj sameTargets (List.append_cancel_left same)]
      | _ => simp [lead] at sameLead
  | tailCall operands =>
      cases right with
      | assign => exact eq_assign_of_action_eq sameTargets same
      | tailCall otherOperands => rw [callText_inj sameTargets (List.append_cancel_left same)]
      | _ => simp [lead] at sameLead
  | store address value =>
      cases right with
      | assign => exact eq_assign_of_action_eq sameTargets same
      | store otherAddress otherValue =>
          simp only [action, List.cons_append, List.nil_append, List.append_assoc, List.cons.injEq,
            true_and] at same
          obtain ⟨rfl, _, sameTail⟩ := (Expression.readsUniquely address).in_front rfl rfl same
          simp only [List.cons.injEq, true_and] at sameTail
          rw [Expression.readsUniquely.injective sameTail]
      | _ => simp [lead] at sameLead
  | ret value =>
      cases right with
      | assign => exact eq_assign_of_action_eq sameTargets same
      | ret otherValue =>
          rw [Expression.readsUniquely.injective (List.append_cancel_left same)]
      | _ => simp [lead] at sameLead
  | jump target =>
      cases right with
      | assign => exact eq_assign_of_action_eq sameTargets same
      | jump otherTarget =>
          rw [Expression.readsUniquely.injective (List.append_cancel_left same)]
      | _ => simp [lead] at sameLead
  | goto target =>
      cases right with
      | assign => exact eq_assign_of_action_eq sameTargets same
      | goto otherTarget =>
          rw [Numeral.toDigits_ten_injective (List.append_cancel_left same)]
      | _ => simp [lead] at sameLead
  | branch condition taken skipped =>
      cases right with
      | assign => exact eq_assign_of_action_eq sameTargets same
      | branch otherCondition otherTaken otherSkipped =>
          simp only [action, List.cons_append, List.nil_append, List.append_assoc, List.cons.injEq,
            true_and] at same
          obtain ⟨rfl, _, sameTail⟩ := (Expression.readsUniquely condition).in_front rfl rfl same
          simp only [List.cons.injEq, true_and] at sameTail
          obtain ⟨rfl, _, sameEnd⟩ := (readsUniquely_decimal taken).in_front rfl rfl sameTail
          simp only [List.cons.injEq, true_and] at sameEnd
          rw [Numeral.toDigits_ten_injective sameEnd]
      | _ => simp [lead] at sameLead
  | noReturn =>
      cases right with
      | assign => exact eq_assign_of_action_eq sameTargets same
      | noReturn => rfl
      | nop => simp [action] at same
      | _ => simp [lead] at sameLead
  | nop =>
      cases right with
      | assign => exact eq_assign_of_action_eq sameTargets same
      | noReturn => simp [action] at same
      | nop => rfl
      | _ => simp [lead] at sameLead

theorem text_injective : Function.Injective text := by
  intro left right same
  have sameWritten := congrArg String.toList same
  rw [toList_text, toList_text] at sameWritten
  obtain ⟨sameTargets, sameAction⟩ :=
    setting_inj not_beginsWithRegister_action not_beginsWithRegister_action sameWritten
  exact action_inj sameTargets sameAction

end Operation

theorem Expression.text_injective : Function.Injective text := by
  intro left right same
  exact readsUniquely.injective (congrArg String.toList same)

/-- Expressions of one text are the same, and so are operations of one text. -/
theorem texts_are_unambiguous :
    Function.Injective Expression.text ∧ Function.Injective Operation.text :=
  ⟨Expression.text_injective, Operation.text_injective⟩

end MainLocator
