import MainLocator.Program.Basic

/-!
# Looking up symbols of a growing program

Analysis adds symbols and requests to a program, in any order and number. A symbol that was found,
by its address or by its raw name, is found ever after: what came with the program is not hidden,
and of the symbols inferred for one address or name the first stays. Every other question about the
program keeps its answer.
-/

namespace MainLocator

/-! ## Additions -/

/-- One thing that analysis adds to a program. -/
inductive Addition where
  | symbol (inferred : Symbol)
  /-- The procedure at an address is to be analysed sooner. -/
  | request (address : Word)

namespace Addition

/-- The symbols among additions, in order. -/
def symbols : List Addition → List Symbol
  | [] => []
  | symbol inferred :: rest => inferred :: symbols rest
  | request _ :: rest => symbols rest

/-- The requests among additions, in order. -/
def requests : List Addition → List Word
  | [] => []
  | symbol _ :: rest => requests rest
  | request address :: rest => address :: requests rest

end Addition

namespace Program

def add (program : Program) : Addition → Program
  | .symbol inferred => program.infer inferred
  | .request address => program.request address

def addEach (program : Program) (additions : List Addition) : Program :=
  additions.foldl add program

theorem addEach_eq (program : Program) (additions : List Addition) :
    program.addEach additions =
      { program with
        inferredSymbols := program.inferredSymbols ++ Addition.symbols additions
        requests := program.requests ++ Addition.requests additions } := by
  induction additions generalizing program with
  | nil =>
      simp [addEach, Addition.symbols, Addition.requests]
  | cons addition rest inductionHypothesis =>
      rw [addEach, List.foldl_cons, ← addEach, inductionHypothesis]
      cases addition with
      | symbol inferred =>
          simp [add, infer, Addition.symbols, Addition.requests]
      | request address =>
          simp [add, request, Addition.symbols, Addition.requests]

/-- The program is what building and analysis have made of an empty one. -/
inductive IsBuilt : Program → Prop where
  | empty (id : ProgramId) (platform : Platform) :
      IsBuilt { id, platform }
  | entryPoint {program : Program} (address : Word) :
      IsBuilt program → IsBuilt { program with entryPoint := some address }
  | symbol {program : Program} (symbol : Symbol) :
      IsBuilt program → IsBuilt (program.addSymbol symbol)
  | procedure {program : Program} (procedure : Procedure) :
      IsBuilt program → IsBuilt (program.addProcedure procedure)
  | call {program : Program} (caller callee : Word) (site : CallSite) :
      IsBuilt program → IsBuilt (program.addCall caller callee site)
  | segment {program : Program} (segment : Segment) :
      IsBuilt program → IsBuilt (program.addSegment segment)
  | dataVariable {program : Program} (address : Word) :
      IsBuilt program → IsBuilt (program.addDataVariable address)
  | addition {program : Program} (addition : Addition) :
      IsBuilt program → IsBuilt (program.add addition)

/-- A symbol that came with a program is filed under its own address. -/
theorem IsBuilt.address_eq
    {program : Program} (built : program.IsBuilt)
    {address : Word} {symbol : Symbol} (given : program.symbols[address]? = some symbol) :
    symbol.address = address := by
  induction built with
  | empty =>
      simp at given
  | symbol added _ inductionHypothesis =>
      rw [addSymbol, Std.TreeMap.getElem?_insert] at given
      by_cases same : compare added.address address = .eq
      · rw [if_pos same] at given
        cases given
        exact Std.LawfulEqOrd.eq_of_compare same
      · rw [if_neg same] at given
        exact inductionHypothesis given
  | addition added _ inductionHypothesis =>
      cases added with
      | symbol | request =>
          exact inductionHypothesis given
  | entryPoint _ _ inductionHypothesis | procedure _ _ inductionHypothesis
  | call _ _ _ _ inductionHypothesis | segment _ _ inductionHypothesis
  | dataVariable _ _ inductionHypothesis =>
      exact inductionHypothesis given

end Program

/-! ## The symbol that is found -/

/-- No symbol in front of `symbol` fits. -/
def IsFirst (fits : Symbol → Prop) (symbols : List Symbol) (symbol : Symbol) : Prop :=
  fits symbol ∧
    ∃ front back, symbols = front ++ symbol :: back ∧ ∀ earlier ∈ front, ¬ fits earlier

theorem find?_eq_some_iff_isFirst
    (fits : Symbol → Prop) [DecidablePred fits] (symbols : List Symbol) (symbol : Symbol) :
    symbols.find? (fits ·) = some symbol ↔ IsFirst fits symbols symbol := by
  rw [List.find?_eq_some_iff_append, IsFirst]
  simp only [decide_eq_true_eq, Bool.not_eq_true', decide_eq_false_iff_not]

namespace Program

/-- The symbol at an address: the given one, else the first that was inferred. -/
inductive FoundAt
    (given : Std.TreeMap Word Symbol) (inferred : List Symbol) (address : Word) :
    Symbol → Prop where
  | given {symbol : Symbol} :
      given[address]? = some symbol →
      FoundAt given inferred address symbol
  | inferred {symbol : Symbol} :
      given[address]? = none →
      IsFirst (·.address = address) inferred symbol →
      FoundAt given inferred address symbol

/-- The symbol of a raw name: of the given ones that at the lowest address, else the first that was
inferred. -/
inductive FoundUnder
    (given : Std.TreeMap Word Symbol) (inferred : List Symbol) (rawName : String) :
    Symbol → Prop where
  | given {address : Word} {symbol : Symbol} :
      given[address]? = some symbol →
      symbol.rawName = rawName →
      (∀ (lower : Word) (other : Symbol),
        lower < address → given[lower]? = some other → other.rawName ≠ rawName) →
      FoundUnder given inferred rawName symbol
  | inferred {symbol : Symbol} :
      (∀ (address : Word) (other : Symbol),
        given[address]? = some other → other.rawName ≠ rawName) →
      IsFirst (·.rawName = rawName) inferred symbol →
      FoundUnder given inferred rawName symbol

theorem find?_values_eq_some_iff
    (given : Std.TreeMap Word Symbol) (rawName : String) (symbol : Symbol) :
    (given.toList.map Prod.snd).find? (·.rawName = rawName) = some symbol ↔
      ∃ address : Word,
        given[address]? = some symbol ∧ symbol.rawName = rawName ∧
          ∀ (lower : Word) (other : Symbol),
            lower < address → given[lower]? = some other → other.rawName ≠ rawName := by
  have ordered := given.ordered_keys_toList.imp fun before => Std.compare_eq_lt.mp before
  have mem_toList_iff (address : Word) (other : Symbol) :
      (address, other) ∈ given.toList ↔ given[address]? = some other :=
    Std.TreeMap.mem_toList_iff_getElem?_eq_some
  rw [List.find?_map, Option.map_eq_some_iff]
  simp only [List.find?_eq_some_iff_append, Function.comp_apply, decide_eq_true_eq,
    Bool.not_eq_true', decide_eq_false_iff_not]
  constructor
  · rintro ⟨⟨address, found⟩, ⟨named, front, back, split, unfit⟩, rfl⟩
    rw [split] at ordered mem_toList_iff
    refine ⟨address, (mem_toList_iff address found).mp (by simp), named, ?_⟩
    intro lower other below isGiven
    rcases List.mem_append.mp ((mem_toList_iff lower other).mpr isGiven) with inFront | inRest
    · exact unfit (lower, other) inFront
    · rcases List.mem_cons.mp inRest with same | inBack
      · cases same
        exact absurd below (UInt64.lt_irrefl address)
      · have above : address < lower :=
          List.rel_of_pairwise_cons (List.pairwise_append.mp ordered).2.1 inBack
        exact absurd below (UInt64.lt_asymm above)
  · rintro ⟨address, isGiven, named, unfit⟩
    obtain ⟨front, back, split⟩ := List.append_of_mem ((mem_toList_iff address symbol).mpr isGiven)
    rw [split] at ordered mem_toList_iff
    refine ⟨(address, symbol), ⟨named, front, back, split, ?_⟩, rfl⟩
    rintro ⟨lower, other⟩ inFront
    have below : lower < address :=
      (List.pairwise_append.mp ordered).2.2 _ inFront _ List.mem_cons_self
    exact unfit lower other below ((mem_toList_iff lower other).mp (List.mem_append_left _ inFront))

theorem find?_values_eq_none_iff
    (given : Std.TreeMap Word Symbol) (rawName : String) :
    (given.toList.map Prod.snd).find? (·.rawName = rawName) = none ↔
      ∀ (address : Word) (other : Symbol),
        given[address]? = some other → other.rawName ≠ rawName := by
  simp only [List.find?_eq_none, List.mem_map, Prod.exists, exists_eq_right, decide_eq_true_eq,
    Std.TreeMap.mem_toList_iff_getElem?_eq_some, forall_exists_index]
  exact forall_comm

variable (program : Program)

theorem symbolAt?_eq_some_iff (address : Word) (symbol : Symbol) :
    program.symbolAt? address = some symbol ↔
      FoundAt program.symbols program.inferredSymbols address symbol := by
  rw [symbolAt?, Option.orElse_eq_orElse, Option.orElse_eq_or, Option.or_eq_some_iff,
    find?_eq_some_iff_isFirst]
  constructor
  · rintro (isGiven | ⟨noneGiven, isFirst⟩)
    · exact .given isGiven
    · exact .inferred noneGiven isFirst
  · intro found
    cases found with
    | given isGiven => exact Or.inl isGiven
    | inferred noneGiven isFirst => exact Or.inr ⟨noneGiven, isFirst⟩

theorem symbolNamed?_eq_some_iff (rawName : String) (symbol : Symbol) :
    program.symbolNamed? rawName = some symbol ↔
      FoundUnder program.symbols program.inferredSymbols rawName symbol := by
  rw [symbolNamed?, Option.orElse_eq_orElse, Option.orElse_eq_or, Option.or_eq_some_iff,
    find?_values_eq_some_iff, find?_values_eq_none_iff, find?_eq_some_iff_isFirst]
  constructor
  · rintro (⟨address, isGiven, named, isLowest⟩ | ⟨noneGiven, isFirst⟩)
    · exact .given isGiven named isLowest
    · exact .inferred noneGiven isFirst
  · intro found
    cases found with
    | given isGiven named isLowest => exact Or.inl ⟨_, isGiven, named, isLowest⟩
    | inferred noneGiven isFirst => exact Or.inr ⟨noneGiven, isFirst⟩

/-- Of the given symbols of one name, that at the lowest address is found. -/
theorem IsBuilt.exists_lowest
    {program : Program} (built : program.IsBuilt)
    {address : Word} {given : Symbol} (isGiven : program.symbols[address]? = some given) :
    ∃ lowest,
      program.symbolNamed? given.rawName = some lowest ∧
        program.symbols[lowest.address]? = some lowest ∧ lowest.rawName = given.rawName ∧
          lowest.address ≤ given.address := by
  have isSome :
      ((program.symbols.toList.map Prod.snd).find? (·.rawName = given.rawName)).isSome := by
    rw [Option.isSome_iff_ne_none, ne_eq, find?_values_eq_none_iff]
    intro absent
    exact absent address given isGiven rfl
  obtain ⟨lowest, isFound⟩ := Option.isSome_iff_exists.mp isSome
  obtain ⟨place, isPlaced, named, isLowest⟩ :=
    (find?_values_eq_some_iff program.symbols given.rawName lowest).mp isFound
  obtain rfl : lowest.address = place := built.address_eq isPlaced
  obtain rfl : given.address = address := built.address_eq isGiven
  refine ⟨lowest, ?_, isPlaced, named, ?_⟩
  · exact (program.symbolNamed?_eq_some_iff _ _).mpr (.given isPlaced named isLowest)
  · apply UInt64.not_lt.mp
    intro below
    exact isLowest given.address given below isGiven rfl

/-! ## What additions change -/

/-- How the answer of a look-up may change when symbols are inferred: a symbol stays found, and
where none was found, the first of the new ones that fits is. -/
structure KeepsFound
    (fits : Symbol → Prop) (inferred : List Symbol) (before after : Option Symbol) : Prop where
  kept : ∀ symbol, before = some symbol → after = some symbol
  gained : before = none → ∀ symbol, after = some symbol ↔ IsFirst fits inferred symbol

theorem keepsFound_or
    (fits : Symbol → Prop) [DecidablePred fits] (inferred : List Symbol) (before : Option Symbol) :
    KeepsFound fits inferred before (before.or (inferred.find? (fits ·))) where
  kept := by
    rintro symbol rfl
    exact Option.some_or
  gained := by
    rintro rfl symbol
    rw [Option.none_or, find?_eq_some_iff_isFirst]

theorem symbolAt?_addEach
    (program : Program) (additions : List Addition) (address : Word) :
    (program.addEach additions).symbolAt? address =
      (program.symbolAt? address).or
        ((Addition.symbols additions).find? (·.address = address)) := by
  rw [addEach_eq, symbolAt?, symbolAt?]
  simp only [List.find?_append, Option.orElse_eq_orElse, Option.orElse_eq_or, Option.or_assoc]

theorem symbolNamed?_addEach
    (program : Program) (additions : List Addition) (rawName : String) :
    (program.addEach additions).symbolNamed? rawName =
      (program.symbolNamed? rawName).or
        ((Addition.symbols additions).find? (·.rawName = rawName)) := by
  rw [addEach_eq, symbolNamed?, symbolNamed?]
  simp only [List.find?_append, Option.orElse_eq_orElse, Option.orElse_eq_or, Option.or_assoc]

/-- Whatever is asked of the programs besides symbols, they answer alike. -/
structure AnswersAlike (left right : Program) : Prop where
  id : left.id = right.id
  platform : left.platform = right.platform
  entryPoint : left.entryPoint = right.entryPoint
  proceduresAt : ∀ address, left.proceduresAt address = right.proceduresAt address
  sortedProcedures : left.sortedProcedures = right.sortedProcedures
  procedureAt? :
    ∀ platform address, left.procedureAt? platform address = right.procedureAt? platform address
  ownProcedureAt? : ∀ address, left.ownProcedureAt? address = right.ownProcedureAt? address
  entryProcedure? : left.entryProcedure? = right.entryProcedure?
  referencesTo : ∀ address, left.referencesTo address = right.referencesTo address
  callSites : ∀ caller, left.calls.callSites caller = right.calls.callSites caller
  calleesAt : ∀ address, left.calls.calleesAt address = right.calls.calleesAt address
  isDataVariable : ∀ address, address ∈ left.dataVariables ↔ address ∈ right.dataVariables
  byteAt? : ∀ address, left.byteAt? address = right.byteAt? address
  halfAt? : ∀ address, left.halfAt? address = right.halfAt? address

theorem answersAlike_addEach (program : Program) (additions : List Addition) :
    program.AnswersAlike (program.addEach additions) := by
  rw [addEach_eq]
  constructor
  case isDataVariable =>
    intro address
    exact Iff.rfl
  all_goals
    intros
    rfl

/-- After any additions, a look-up by address or raw name finds a given symbol if there is one, the
one at the lowest address if several have the name, and else the first that was inferred, before or
by the additions. So a symbol that was found is still found, and where none was, one is found only
if a symbol of that address or name was added. All other answers are as before. -/
theorem additions_hide_nothing (program : Program) (additions : List Addition) :
    (∀ address symbol,
      (program.addEach additions).symbolAt? address = some symbol ↔
        FoundAt program.symbols (program.inferredSymbols ++ Addition.symbols additions) address
          symbol) ∧
      (∀ rawName symbol,
        (program.addEach additions).symbolNamed? rawName = some symbol ↔
          FoundUnder program.symbols (program.inferredSymbols ++ Addition.symbols additions)
            rawName symbol) ∧
        (∀ address,
          KeepsFound (·.address = address) (Addition.symbols additions)
            (program.symbolAt? address) ((program.addEach additions).symbolAt? address)) ∧
          (∀ rawName,
            KeepsFound (·.rawName = rawName) (Addition.symbols additions)
              (program.symbolNamed? rawName)
              ((program.addEach additions).symbolNamed? rawName)) ∧
            (program.IsBuilt → ∀ (address : Word) (given : Symbol),
              program.symbols[address]? = some given →
                ∃ lowest,
                  (program.addEach additions).symbolNamed? given.rawName = some lowest ∧
                    program.symbols[lowest.address]? = some lowest ∧
                      lowest.rawName = given.rawName ∧ lowest.address ≤ given.address) ∧
              program.AnswersAlike (program.addEach additions) := by
  have atKeeps (address : Word) :
      KeepsFound (·.address = address) (Addition.symbols additions)
        (program.symbolAt? address) ((program.addEach additions).symbolAt? address) := by
    rw [symbolAt?_addEach]
    exact keepsFound_or _ _ _
  have nameKeeps (rawName : String) :
      KeepsFound (·.rawName = rawName) (Addition.symbols additions)
        (program.symbolNamed? rawName) ((program.addEach additions).symbolNamed? rawName) := by
    rw [symbolNamed?_addEach]
    exact keepsFound_or _ _ _
  refine ⟨?_, ?_, atKeeps, nameKeeps, ?_, answersAlike_addEach program additions⟩
  · intro address symbol
    rw [symbolAt?_eq_some_iff, addEach_eq]
  · intro rawName symbol
    rw [symbolNamed?_eq_some_iff, addEach_eq]
  · intro built address given isGiven
    obtain ⟨lowest, isFound, rest⟩ := built.exists_lowest isGiven
    exact ⟨lowest, (nameKeeps given.rawName).kept lowest isFound, rest⟩

/-- A program that came with two symbols of one name, the higher added first. -/
def twiceStarted : Program :=
  ((({ id := ⟨7⟩, platform := .windowsX64 } : Program).addSymbol
    (.plain .function "start" 0x2000)).addSymbol
      (.plain .data "start" 0x1000)).infer (.plain .function "main" 0x3000)

/-- Symbols of names and addresses that are taken, and one that is new. -/
def collidingAdditions : List Addition :=
  [.symbol (.plain .function "main" 0x1000), .request 0x3000,
    .symbol (.plain .function "start" 0x0800), .symbol (.plain .function "wmain" 0x0800),
    .symbol (.plain .function "wmain" 0x3000)]

theorem lookups_twiceStarted :
    let grown := twiceStarted.addEach collidingAdditions
    twiceStarted.symbolAt? 0x3000 = some (.plain .function "main" 0x3000) ∧
      grown.symbolAt? 0x3000 = some (.plain .function "main" 0x3000) ∧
        twiceStarted.symbolNamed? "wmain" = none ∧
          grown.symbolNamed? "wmain" = some (.plain .function "wmain" 0x0800) ∧
            (∃ lowest,
              grown.symbolNamed? "start" = some lowest ∧
                lowest.rawName = "start" ∧ lowest.address ≤ 0x1000) ∧
              grown.symbolAt? 0x0800 = some (.plain .function "start" 0x0800) := by
  have built : twiceStarted.IsBuilt :=
    .addition (.symbol _) (.symbol _ (.symbol _ (.empty _ _)))
  have mainStands : twiceStarted.symbolAt? 0x3000 = some (.plain .function "main" 0x3000) := by
    decide +kernel
  have noWide : twiceStarted.symbolNamed? "wmain" = none := by
    decide +kernel
  obtain ⟨foundAt, _, atKeeps, nameKeeps, lowestWins, _⟩ :=
    additions_hide_nothing twiceStarted collidingAdditions
  refine ⟨mainStands, (atKeeps _).kept _ mainStands, noWide, ?_, ?_, ?_⟩
  · refine ((nameKeeps _).gained noWide _).mpr ⟨rfl, ?_⟩
    exact ⟨[.plain .function "main" 0x1000, .plain .function "start" 0x0800],
      [.plain .function "wmain" 0x3000], rfl, by decide⟩
  · obtain ⟨lowest, isFound, _, named, below⟩ :=
      lowestWins built 0x1000 (.plain .data "start" 0x1000) (by decide +kernel)
    exact ⟨lowest, isFound, named, below⟩
  · refine (foundAt _ _).mpr (.inferred (by decide +kernel) ⟨rfl, ?_⟩)
    exact ⟨[.plain .function "main" 0x3000, .plain .function "main" 0x1000],
      [.plain .function "wmain" 0x0800, .plain .function "wmain" 0x3000], rfl, by decide⟩

end Program

end MainLocator
