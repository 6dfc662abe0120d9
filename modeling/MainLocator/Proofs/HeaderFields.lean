import Mathlib.Data.Option.Basic
import MainLocator.Program.Image

/-!
# Memory and header fields

Segments may overlap, be empty, or reach past the last address. A byte is read from the first
segment over its place, and a number of two bytes only if both places are addresses. Places are
counted without bound here, so that no sum in a statement wraps: a header field is read at the
address of its header plus its distance, or not at all.
-/

namespace MainLocator

/-- What holds of addresses only holds of a checked sum exactly if it holds of the true sum. -/
theorem Word.exists_add?_eq_some_and_iff
    (holds : Nat → Prop) (bounded : ∀ place, holds place → place < UInt64.size)
    (left right : Word) :
    (∃ sum, add? left right = some sum ∧ holds sum.toNat) ↔
      holds (left.toNat + right.toNat) := by
  simp only [add?_eq_some_iff]
  constructor
  · rintro ⟨sum, isSum, holdsSum⟩
    rwa [isSum] at holdsSum
  · intro holdsSum
    have isSum := UInt64.toNat_ofNat_of_lt' (bounded _ holdsSum)
    exact ⟨UInt64.ofNat (left.toNat + right.toNat), isSum, isSum.symm ▸ holdsSum⟩

/-! ## Bytes -/

/-- The place is one of the segment's, counted from its base without wrapping. -/
def Segment.Covers (segment : Segment) (place : Nat) : Prop :=
  segment.base.toNat ≤ place ∧ place < segment.base.toNat + segment.bytes.size

theorem Segment.byteAt?_eq_some_iff_covers
    (segment : Segment) (address : Word) (byte : UInt8) :
    segment.byteAt? address = some byte ↔
      segment.Covers address.toNat ∧
        segment.bytes[address.toNat - segment.base.toNat]? = some byte := by
  rw [byteAt?_eq_some_iff]
  constructor
  · rintro ⟨distance, sum, isByte⟩
    have inside : distance < segment.bytes.size := (Array.getElem?_eq_some_iff.mp isByte).1
    obtain rfl : distance = address.toNat - segment.base.toNat := by
      omega
    exact ⟨⟨by omega, by omega⟩, isByte⟩
  · rintro ⟨⟨fromBase, _⟩, isByte⟩
    exact ⟨address.toNat - segment.base.toNat, by omega, isByte⟩

theorem Segment.byteAt?_eq_none_iff (segment : Segment) (address : Word) :
    segment.byteAt? address = none ↔ ¬ segment.Covers address.toNat := by
  simp only [Option.eq_none_iff_forall_ne_some, ne_eq, byteAt?_eq_some_iff_covers, not_and]
  constructor
  · intro noByte covers
    have inside : address.toNat - segment.base.toNat < segment.bytes.size := by
      have fromBase := covers.1
      have inBytes := covers.2
      omega
    exact noByte _ covers (Array.getElem?_eq_getElem inside)
  · intro notCovers _ covers
    exact absurd covers notCovers

namespace Program

variable (program : Program)

/-- The place is an address, and the first segment over it has the byte there. -/
def HoldsByte (place : Nat) (byte : UInt8) : Prop :=
  place < UInt64.size ∧
    ∃ front segment back,
      program.segments = front ++ segment :: back ∧
        (∀ earlier ∈ front, ¬ earlier.Covers place) ∧
          segment.Covers place ∧ segment.bytes[place - segment.base.toNat]? = some byte

/-- Some segment is over the place, which is an address. -/
def IsMapped (place : Nat) : Prop :=
  place < UInt64.size ∧ ∃ segment ∈ program.segments, segment.Covers place

/-- The number stands at the place and the next, low byte first. -/
def HoldsHalf (place : Nat) (half : UInt16) : Prop :=
  ∃ low high,
    program.HoldsByte place low ∧ program.HoldsByte (place + 1) high ∧
      half.toNat = low.toNat + 256 * high.toNat

variable {program}

theorem byteAt?_eq_some_iff (address : Word) (byte : UInt8) :
    program.byteAt? address = some byte ↔ program.HoldsByte address.toNat byte := by
  rw [byteAt?, List.findSome?_eq_some_iff, HoldsByte]
  simp only [Segment.byteAt?_eq_some_iff_covers, Segment.byteAt?_eq_none_iff]
  constructor
  · rintro ⟨front, segment, back, split, ⟨covers, isByte⟩, notCovers⟩
    exact ⟨address.toNat_lt, front, segment, back, split, notCovers, covers, isByte⟩
  · rintro ⟨_, front, segment, back, split, notCovers, covers, isByte⟩
    exact ⟨front, segment, back, split, ⟨covers, isByte⟩, notCovers⟩

theorem byteAt?_eq_none_iff (address : Word) :
    program.byteAt? address = none ↔ ¬ program.IsMapped address.toNat := by
  rw [byteAt?, List.findSome?_eq_none_iff, IsMapped]
  simp only [Segment.byteAt?_eq_none_iff, address.toNat_lt, true_and, not_exists, not_and]

theorem isMapped_iff_exists_holdsByte (place : Nat) :
    program.IsMapped place ↔ ∃ byte, program.HoldsByte place byte := by
  by_cases isAddress : place < UInt64.size
  · obtain ⟨address, rfl⟩ : ∃ address : Word, address.toNat = place :=
      ⟨UInt64.ofNat place, UInt64.toNat_ofNat_of_lt' isAddress⟩
    simp only [← byteAt?_eq_some_iff, ← Option.ne_none_iff_exists', ne_eq, byteAt?_eq_none_iff,
      Classical.not_not]
  · simp only [IsMapped, HoldsByte, isAddress, false_and, exists_false]

/-! ## Numbers of two bytes -/

theorem toNat_half (low high : UInt8) :
    (low.toUInt16 + 256 * high.toUInt16).toNat = low.toNat + 256 * high.toNat := by
  have lowBound := low.toNat_lt
  have highBound := high.toNat_lt
  have wide : (256 : UInt16).toNat = 256 := rfl
  rw [UInt16.toNat_add, UInt16.toNat_mul, UInt8.toNat_toUInt16, UInt8.toNat_toUInt16, wide]
  omega

theorem HoldsHalf.lt {place : Nat} {half : UInt16} (holds : program.HoldsHalf place half) :
    place < UInt64.size := by
  obtain ⟨low, _, lowHolds, _⟩ := holds
  exact lowHolds.1

theorem halfAt?_eq_some_iff (address : Word) (half : UInt16) :
    program.halfAt? address = some half ↔ program.HoldsHalf address.toNat half := by
  have isHalf (low high : UInt8) :
      low.toUInt16 + 256 * high.toUInt16 = half ↔
        half.toNat = low.toNat + 256 * high.toNat := by
    rw [← UInt16.toNat_inj, toNat_half, eq_comm]
  have isNext (high : UInt8) :
      (∃ next, Word.add? address 1 = some next ∧ program.HoldsByte next.toNat high) ↔
        program.HoldsByte (address.toNat + 1) high :=
    Word.exists_add?_eq_some_and_iff (program.HoldsByte · high) (fun _ isHeld => isHeld.1) address 1
  simp only [halfAt?, Option.bind_eq_bind, Option.bind_eq_some_iff, Option.pure_def,
    Option.some.injEq, isHalf, byteAt?_eq_some_iff, HoldsHalf, ← isNext]
  constructor
  · rintro ⟨low, lowHolds, next, isSum, high, highHolds, value⟩
    exact ⟨low, high, lowHolds, ⟨next, isSum, highHolds⟩, value⟩
  · rintro ⟨low, high, lowHolds, ⟨next, isSum, highHolds⟩, value⟩
    exact ⟨low, lowHolds, next, isSum, high, highHolds, value⟩

theorem exists_holdsHalf_iff (place : Nat) :
    (∃ half, program.HoldsHalf place half) ↔
      program.IsMapped place ∧ program.IsMapped (place + 1) := by
  simp only [isMapped_iff_exists_holdsByte]
  constructor
  · rintro ⟨half, low, high, lowHolds, highHolds, _⟩
    exact ⟨⟨low, lowHolds⟩, high, highHolds⟩
  · rintro ⟨⟨low, lowHolds⟩, high, highHolds⟩
    exact ⟨_, low, high, lowHolds, highHolds, toNat_half low high⟩

/-! ## More segments -/

theorem HoldsByte.addSegments
    {place : Nat} {byte : UInt8} (holds : program.HoldsByte place byte) (added : List Segment) :
    (added.foldl addSegment program).HoldsByte place byte := by
  induction added generalizing program with
  | nil => exact holds
  | cons segment rest inductionHypothesis =>
      obtain ⟨isAddress, front, first, back, split, firstHolds⟩ := holds
      apply inductionHypothesis
      refine ⟨isAddress, front, first, back ++ [segment], ?_, firstHolds⟩
      rw [addSegment, split, List.append_assoc, List.cons_append]

theorem HoldsHalf.addSegments
    {place : Nat} {half : UInt16} (holds : program.HoldsHalf place half) (added : List Segment) :
    (added.foldl addSegment program).HoldsHalf place half := by
  obtain ⟨low, high, lowHolds, highHolds, value⟩ := holds
  exact ⟨low, high, lowHolds.addSegments added, highHolds.addSegments added, value⟩

/-! ## Header fields -/

variable (program) in
/-- The number stands at the distance from a data variable that the symbol names. -/
def HoldsField (anchor : String) (distance : Nat) (half : UInt16) : Prop :=
  ∃ symbol,
    program.symbolNamed? anchor = some symbol ∧ symbol.address ∈ program.dataVariables ∧
      program.HoldsHalf (symbol.address.toNat + distance) half

variable (program) in
/-- Why no number can be read at the distance from the data variable that the symbol names. -/
inductive LacksField (anchor : String) (distance : Nat) : Prop where
  | unnamed :
      program.symbolNamed? anchor = none →
      LacksField anchor distance
  | unmarked {symbol : Symbol} :
      program.symbolNamed? anchor = some symbol →
      symbol.address ∉ program.dataVariables →
      LacksField anchor distance
  | beyond {symbol : Symbol} :
      program.symbolNamed? anchor = some symbol →
      UInt64.size ≤ symbol.address.toNat + distance + 1 →
      LacksField anchor distance
  | unmapped {symbol : Symbol} {place : Nat} :
      program.symbolNamed? anchor = some symbol →
      place = symbol.address.toNat + distance ∨ place = symbol.address.toNat + distance + 1 →
      (∀ segment ∈ program.segments, ¬ segment.Covers place) →
      LacksField anchor distance

theorem fieldAt?_eq_some_iff (anchor : String) (offset : Word) (half : UInt16) :
    program.fieldAt? anchor offset = some half ↔
      program.HoldsField anchor offset.toNat half := by
  have isSum (symbol : Symbol) :=
    Word.exists_add?_eq_some_and_iff (program.HoldsHalf · half) (fun _ isHeld => isHeld.lt)
      symbol.address offset
  simp only [fieldAt?, HoldsField, ← isSum, ← halfAt?_eq_some_iff, Option.bind_eq_bind,
    Option.bind_eq_some_iff, Option.guard_eq_some', exists_const]

/-- Each way to lack a field is a failure of one part of holding it, and there is no other. -/
theorem lacksField_iff (anchor : String) (distance : Nat) :
    program.LacksField anchor distance ↔ ∀ half, ¬ program.HoldsField anchor distance half := by
  constructor
  · intro lacks half
    rintro ⟨symbol, isNamed, isMarked, holds⟩
    have mapped := (exists_holdsHalf_iff _).mp ⟨half, holds⟩
    have isSame {other : Symbol} (isOther : program.symbolNamed? anchor = some other) :
        symbol = other :=
      Option.some.inj (isNamed.symm.trans isOther)
    cases lacks with
    | unnamed noSymbol =>
        rw [isNamed] at noSymbol
        cases noSymbol
    | unmarked isOther notMarked =>
        obtain rfl := isSame isOther
        exact notMarked isMarked
    | beyond isOther outside =>
        obtain rfl := isSame isOther
        exact absurd mapped.2.1 (Nat.not_lt.mpr outside)
    | unmapped isOther isPlace uncovered =>
        obtain rfl := isSame isOther
        rcases isPlace with rfl | rfl
        · obtain ⟨_, segment, member, covers⟩ := mapped.1
          exact uncovered segment member covers
        · obtain ⟨_, segment, member, covers⟩ := mapped.2
          exact uncovered segment member covers
  · intro noField
    cases isNamed : program.symbolNamed? anchor with
    | none =>
        exact .unnamed isNamed
    | some symbol =>
        by_cases isMarked : symbol.address ∈ program.dataVariables
        · by_cases outside : UInt64.size ≤ symbol.address.toNat + distance + 1
          · exact .beyond isNamed outside
          · have notMapped :
                ¬ (program.IsMapped (symbol.address.toNat + distance) ∧
                  program.IsMapped (symbol.address.toNat + distance + 1)) := by
              rw [← exists_holdsHalf_iff]
              rintro ⟨half, holds⟩
              exact noField half ⟨symbol, isNamed, isMarked, holds⟩
            rcases Classical.not_and_iff_not_or_not.mp notMapped with notLow | notHigh
            · refine .unmapped isNamed (.inl rfl) fun segment member covers => ?_
              exact notLow ⟨by omega, segment, member, covers⟩
            · refine .unmapped isNamed (.inr rfl) fun segment member covers => ?_
              exact notHigh ⟨by omega, segment, member, covers⟩
        · exact .unmarked isNamed isMarked

theorem fieldAt?_eq_none_iff (anchor : String) (offset : Word) :
    program.fieldAt? anchor offset = none ↔ program.LacksField anchor offset.toNat := by
  simp only [lacksField_iff, ← fieldAt?_eq_some_iff, Option.eq_none_iff_forall_ne_some, ne_eq]

/-! ## Kinds of images -/

theorem isLibrary_eq_true_iff :
    program.isLibrary = true ↔
      ∃ characteristics,
        program.HoldsField "__coff_header" 0x16 characteristics ∧
          characteristics &&& 0x2000 = 0x2000 := by
  rw [isLibrary, Option.any_eq_true]
  simp only [fieldAt?_eq_some_iff, decide_eq_true_eq]
  rfl

theorem isLibrary_eq_false_of_lacksField (lacks : program.LacksField "__coff_header" 0x16) :
    program.isLibrary = false := by
  rw [← Bool.not_eq_true, isLibrary_eq_true_iff]
  rintro ⟨characteristics, holds, _⟩
  exact (lacksField_iff _ _).mp lacks characteristics holds

theorem isDriver_eq_true_iff_of_first
    {front back : List String} {anchor : String} {subsystem : UInt16}
    (split : ["__pe64_optional_header", "__pe32_optional_header"] = front ++ anchor :: back)
    (earlierLack : ∀ earlier ∈ front, program.LacksField earlier 0x44)
    (holds : program.HoldsField anchor 0x44 subsystem) :
    program.isDriver = true ↔ subsystem = 1 := by
  have decides :
      optionalHeaderSymbols.findSome? (program.fieldAt? · subsystemOffset) = some subsystem := by
    refine List.findSome?_eq_some_iff.mpr ⟨front, anchor, back, split, ?_, ?_⟩
    · exact (fieldAt?_eq_some_iff anchor subsystemOffset subsystem).mpr holds
    · intro earlier inFront
      exact (fieldAt?_eq_none_iff earlier subsystemOffset).mpr (earlierLack earlier inFront)
  rw [isDriver, decides, Option.any_some, decide_eq_true_eq]
  rfl

theorem isDriver_eq_false_of_lacksField
    (allLack :
      ∀ anchor ∈ ["__pe64_optional_header", "__pe32_optional_header"],
        program.LacksField anchor 0x44) :
    program.isDriver = false := by
  have noneReadable :
      optionalHeaderSymbols.findSome? (program.fieldAt? · subsystemOffset) = none := by
    refine List.findSome?_eq_none_iff.mpr fun anchor member => ?_
    exact (fieldAt?_eq_none_iff anchor subsystemOffset).mpr (allLack anchor member)
  rw [isDriver, noneReadable, Option.any_none]

/-- A number is read at an address exactly if the address and the next are both mapped, byte by byte
from the first segment over each, and is read alike when segments are added. So a header field is
read at the true sum of the header's address and its distance, or lacks for one of the listed
reasons. An image whose file header lacks the characteristics is no library. The first optional
header that does not lack the subsystem tells whether an image is a driver, and without one it is
none. -/
theorem header_fields_are_read_in_place (program : Program) :
    (∀ address half,
      program.halfAt? address = some half ↔ program.HoldsHalf address.toNat half) ∧
      (∀ address,
        (program.halfAt? address).isSome = true ↔
          program.IsMapped address.toNat ∧ program.IsMapped (address.toNat + 1)) ∧
        (∀ (added : List Segment) address half,
          program.halfAt? address = some half →
            (added.foldl addSegment program).halfAt? address = some half) ∧
          (∀ anchor offset half,
            program.fieldAt? anchor offset = some half ↔
              program.HoldsField anchor offset.toNat half) ∧
            (∀ anchor offset,
              program.fieldAt? anchor offset = none ↔
                program.LacksField anchor offset.toNat) ∧
              (program.isLibrary = true ↔
                ∃ characteristics,
                  program.HoldsField "__coff_header" 0x16 characteristics ∧
                    characteristics &&& 0x2000 = 0x2000) ∧
                (program.LacksField "__coff_header" 0x16 → program.isLibrary = false) ∧
                  (∀ front anchor back subsystem,
                    ["__pe64_optional_header", "__pe32_optional_header"] =
                        front ++ anchor :: back →
                      (∀ earlier ∈ front, program.LacksField earlier 0x44) →
                        program.HoldsField anchor 0x44 subsystem →
                          (program.isDriver = true ↔ subsystem = 1)) ∧
                    ((∀ anchor ∈ ["__pe64_optional_header", "__pe32_optional_header"],
                      program.LacksField anchor 0x44) → program.isDriver = false) := by
  refine ⟨halfAt?_eq_some_iff, ?_, ?_, fieldAt?_eq_some_iff, fieldAt?_eq_none_iff,
    isLibrary_eq_true_iff, isLibrary_eq_false_of_lacksField, ?_, isDriver_eq_false_of_lacksField⟩
  · intro address
    rw [Option.isSome_iff_exists, ← exists_holdsHalf_iff]
    simp only [halfAt?_eq_some_iff]
  · intro added address half isRead
    rw [halfAt?_eq_some_iff] at isRead ⊢
    exact isRead.addSegments added
  · intro front anchor back subsystem
    exact isDriver_eq_true_iff_of_first

/-- An image with its characteristics across two segments, which a later one overlaps, and with an
optional header whose subsystem would end behind the last address. -/
def scatteredImage : Program :=
  { id := ⟨3⟩
    platform := .windowsX64
    segments :=
      [⟨0x400096, #[0x22]⟩, ⟨0x400000, #[]⟩, ⟨0x400097, #[0x20, 0xff]⟩, ⟨0x400096, #[0xff, 0xff]⟩,
        ⟨0x500044, #[0x01, 0x00]⟩]
    inferredSymbols :=
      [.plain .data "__coff_header" 0x400080,
        .plain .data "__pe64_optional_header" 0xffffffffffffffbb,
        .plain .data "__pe32_optional_header" 0x500000]
    dataVariables := .ofList ([0x400080, 0xffffffffffffffbb, 0x500000] : List Word) }

theorem headers_scatteredImage :
    scatteredImage.halfAt? 0x400096 = some 0x2022 ∧
      ([⟨0x400000, #[1, 2, 3]⟩].foldl addSegment scatteredImage).halfAt? 0x400096 =
          some 0x2022 ∧
        scatteredImage.isLibrary = true ∧
          scatteredImage.LacksField "__pe64_optional_header" 0x44 ∧
            scatteredImage.isDriver = true := by
  have characteristics : scatteredImage.halfAt? 0x400096 = some 0x2022 := by
    decide +kernel
  have subsystem : scatteredImage.halfAt? 0x500044 = some 1 := by
    decide +kernel
  have named :
      scatteredImage.symbolNamed? "__pe64_optional_header" =
        some (.plain .data "__pe64_optional_header" 0xffffffffffffffbb) := by
    decide +kernel
  have outside : scatteredImage.LacksField "__pe64_optional_header" 0x44 :=
    .beyond named (by decide)
  obtain ⟨halves, _, keeps, _, _, library, _, driver, _⟩ :=
    header_fields_are_read_in_place scatteredImage
  refine ⟨characteristics, keeps _ _ _ characteristics, ?_, outside, ?_⟩
  · refine library.mpr ⟨0x2022, ⟨.plain .data "__coff_header" 0x400080, ?_, ?_, ?_⟩, by decide⟩
    · decide +kernel
    · decide +kernel
    · exact (halves _ _).mp characteristics
  · refine (driver ["__pe64_optional_header"] "__pe32_optional_header" [] 1 rfl ?_ ?_).mpr rfl
    · intro earlier member
      obtain rfl := List.mem_singleton.mp member
      exact outside
    · refine ⟨.plain .data "__pe32_optional_header" 0x500000, ?_, ?_, ?_⟩
      · decide +kernel
      · decide +kernel
      · exact (halves _ _).mp subsystem

end Program

end MainLocator
