import Mathlib.Data.List.Basic
import Mathlib.Data.List.TakeWhile
import SceneEdit.Path.Basic
import SceneEdit.Proofs.Text

/-!
# The grammar of paths

A spelling takes a path apart as it is written: into segments between dots, and each segment into a
name and the digits between its brackets. A text is read as a path exactly if it is a spelling,
blanks around it aside, and no text has two spellings (`Path.Spelling.chars_injective`).

Digits may start with zeros that do not count. Printing leaves them out: a printed path is the plain
spelling of the path, so reading it gives the path back, and a plain spelling is printed as it was.
-/

namespace SceneEdit

/-! ### Digits -/

namespace Numeral

theorem digitChar_of_isDigit {c : Char} (digit : c.isDigit = true) :
    Nat.digitChar (c.toNat - '0'.toNat) = c ∧ c.toNat - '0'.toNat < 10 := by
  have range : 48 ≤ c.toNat ∧ c.toNat ≤ 57 := Char.isDigit_iff_toNat.mp digit
  have small : c.toNat - '0'.toNat < 10 := by
    show c.toNat - 48 < 10
    omega
  refine ⟨Char.toNat_inj.mp ?_, small⟩
  rw [Nat.toNat_digitChar_of_lt_ten small]
  show 48 + (c.toNat - 48) = c.toNat
  omega

theorem noDot_noBlank_of_isDigit {c : Char} (digit : c.isDigit = true) :
    c ≠ '.' ∧ Text.isBlank c = false := by
  have range : 48 ≤ c.toNat ∧ c.toNat ≤ 57 := Char.isDigit_iff_toNat.mp digit
  constructor
  · rintro rfl
    revert digit
    decide
  · simp only [Text.isBlank, Bool.or_eq_false_iff, Bool.and_eq_false_iff, decide_eq_false_iff_not]
    omega

theorem digitsValue_toDigits (value : Nat) : digitsValue (Nat.toDigits 10 value) = value :=
  Nat.ofDigitChars_ten_toDigits

/-- More digits after those of a number that is not zero. -/
theorem toDigits_append {value : Nat} (positive : 0 < value) {run : List Char}
    (digits : ∀ c ∈ run, c.isDigit = true) :
    Nat.toDigits 10 value ++ run = Nat.toDigits 10 (Nat.ofDigitChars 10 run value) := by
  induction run generalizing value with
  | nil => simp [Nat.ofDigitChars]
  | cons c rest ih =>
      obtain ⟨digit, digits⟩ := List.forall_mem_cons.mp digits
      obtain ⟨same, small⟩ := digitChar_of_isDigit digit
      have longer := Nat.toDigits_append_toDigits (b := 10) (by decide) positive small
      rw [Nat.toDigits_of_lt_base small, same] at longer
      rw [Nat.ofDigitChars_cons, ← ih (by omega) digits, ← longer, List.append_assoc,
        List.singleton_append]

/-- Digits without a leading zero are those that their value is printed with. -/
theorem toDigits_digitsValue {run : List Char} (given : run ≠ [])
    (digits : ∀ c ∈ run, c.isDigit = true) (plain : run.head? = some '0' → run = ['0']) :
    Nat.toDigits 10 (digitsValue run) = run := by
  obtain ⟨c, rest, rfl⟩ := List.exists_cons_of_ne_nil given
  by_cases zero : c = '0'
  · obtain ⟨-, rfl⟩ := List.cons.inj (plain (congrArg some zero))
    rw [zero]
    rfl
  · obtain ⟨digit, digits⟩ := List.forall_mem_cons.mp digits
    obtain ⟨same, small⟩ := digitChar_of_isDigit digit
    have positive : 0 < c.toNat - '0'.toNat := by
      apply Nat.pos_of_ne_zero
      intro none
      rw [none] at same
      exact zero same.symm
    have printed := toDigits_append positive digits
    rw [Nat.toDigits_of_lt_base small, same] at printed
    rw [digitsValue, ← Nat.ofDigitChars_eq_foldl, Nat.ofDigitChars_cons, Nat.mul_zero,
      Nat.zero_add, ← printed, List.singleton_append]

end Numeral

/-! ### Spellings -/

namespace Path

/-- Digits that are the place of an item: some, and their value has 64 bits. -/
structure IsPlace (run : List Char) : Prop where
  given : run ≠ []
  digits : ∀ c ∈ run, c.isDigit = true
  fits : Numeral.digitsValue run < twoTo 64

/-- The digits of a place in their brackets. -/
def bracketed (run : List Char) : List Char := '[' :: (run ++ [']'])

/-- A segment as it is written: a name, and the digits of each place. -/
@[ext] structure SegmentSpelling where
  name : List Char
  runs : List (List Char)
  named : name ≠ []
  nameChars : ∀ c ∈ name, c ≠ '.' ∧ c ≠ '[' ∧ c ≠ ']' ∧ Text.isBlank c = false
  places : ∀ run ∈ runs, IsPlace run

theorem isNameChar_iff {c : Char} :
    isNameChar c = true ↔ c ≠ '.' ∧ c ≠ '[' ∧ c ≠ ']' ∧ Text.isBlank c = false := by
  simp only [isNameChar, Bool.and_eq_true, decide_eq_true_eq, Bool.not_eq_true', and_assoc]

namespace SegmentSpelling

def chars (spelling : SegmentSpelling) : List Char :=
  spelling.name ++ spelling.runs.flatMap bracketed

/-- The segment that is written. -/
def segment (spelling : SegmentSpelling) : Segment :=
  ⟨String.ofList spelling.name, spelling.runs.map Numeral.digitsValue⟩

/-- No place has a zero before its other digits. -/
def Plain (spelling : SegmentSpelling) : Prop :=
  ∀ run ∈ spelling.runs, run.head? = some '0' → run = ['0']

end SegmentSpelling

/-- A path as it is written: segments with dots between them. -/
@[ext] structure Spelling where
  parents : List SegmentSpelling
  last : SegmentSpelling

namespace Spelling

def segments (spelling : Spelling) : List SegmentSpelling := spelling.parents ++ [spelling.last]

def chars (spelling : Spelling) : List Char :=
  ['.'].intercalate (spelling.segments.map SegmentSpelling.chars)

/-- The path that is written. -/
def path (spelling : Spelling) : Path :=
  ⟨spelling.parents.map SegmentSpelling.segment, spelling.last.segment⟩

/-- No place has a zero before its other digits. -/
def Plain (spelling : Spelling) : Prop := ∀ segment ∈ spelling.segments, segment.Plain

end Spelling

/-! ### Places -/

section

variable {text run rest : List Char} {runs : List (List Char)}

theorem takeWhile_digits (digits : ∀ c ∈ run, c.isDigit = true) (rest : List Char) :
    (run ++ ']' :: rest).takeWhile Char.isDigit = run := by
  rw [List.takeWhile_append_of_pos digits, List.takeWhile_cons_of_neg (by decide),
    List.append_nil]

theorem dropWhile_digits (digits : ∀ c ∈ run, c.isDigit = true) (rest : List Char) :
    (run ++ ']' :: rest).dropWhile Char.isDigit = ']' :: rest := by
  rw [List.dropWhile_append_of_pos digits, List.dropWhile_cons_of_neg (by decide)]

theorem flatMap_bracketed_cons (run : List Char) (runs : List (List Char)) :
    (run :: runs).flatMap bracketed = '[' :: (run ++ ']' :: runs.flatMap bracketed) := by
  simp [bracketed]

theorem place?_eq_some_iff {index : Nat} :
    (Numeral.natural? run).filter (· < indexBound) = some index ↔
      IsPlace run ∧ Numeral.digitsValue run = index := by
  have bound : indexBound = twoTo 64 := rfl
  rw [Option.filter_eq_some_iff, Numeral.natural?, decide_eq_true_eq, bound]
  constructor
  · rintro ⟨read, fits⟩
    split at read
    · rename_i digits
      cases read
      exact ⟨⟨digits.1, List.all_eq_true.mp digits.2, fits⟩, rfl⟩
    · cases read
  · rintro ⟨place, rfl⟩
    exact ⟨if_pos ⟨place.given, List.all_eq_true.mpr place.digits⟩, place.fits⟩

theorem indices?_flatMap (places : ∀ run ∈ runs, IsPlace run) :
    indices? (runs.flatMap bracketed) = some (runs.map Numeral.digitsValue) := by
  induction runs with
  | nil => simp [indices?]
  | cons run runs ih =>
      obtain ⟨place, places⟩ := List.forall_mem_cons.mp places
      rw [flatMap_bracketed_cons, indices?]
      split
      · rename_i more closed
        rw [dropWhile_digits place.digits] at closed
        cases closed
        rw [takeWhile_digits place.digits, place?_eq_some_iff.mpr ⟨place, rfl⟩, ih places]
        rfl
      · rename_i unclosed
        exact absurd (dropWhile_digits place.digits _) (unclosed _)

theorem exists_runs_of_indices? {indices : List Nat} (read : indices? text = some indices) :
    ∃ runs : List (List Char), (∀ run ∈ runs, IsPlace run) ∧ runs.flatMap bracketed = text ∧
      runs.map Numeral.digitsValue = indices := by
  fun_induction indices? text generalizing indices with
  | case1 => exact ⟨[], by simp, rfl, Option.some.inj read⟩
  | case2 rest more closed ih =>
      obtain ⟨index, first, read⟩ := Option.bind_eq_some_iff.mp read
      obtain ⟨others, next, same⟩ := Option.bind_eq_some_iff.mp read
      obtain ⟨runs, places, rfl, rfl⟩ := ih next
      obtain ⟨place, rfl⟩ := place?_eq_some_iff.mp first
      refine ⟨rest.takeWhile Char.isDigit :: runs, List.forall_mem_cons.mpr ⟨place, places⟩, ?_,
        Option.some.inj same⟩
      rw [flatMap_bracketed_cons, ← closed, List.takeWhile_append_dropWhile]
  | case3 => cases read
  | case4 => cases read

/-- Places are taken apart in one way only. -/
theorem eq_of_flatMap_bracketed {runs' : List (List Char)} (places : ∀ run ∈ runs, IsPlace run)
    (places' : ∀ run ∈ runs', IsPlace run)
    (same : runs.flatMap bracketed = runs'.flatMap bracketed) : runs = runs' := by
  induction runs generalizing runs' with
  | nil =>
      cases runs' with
      | nil => rfl
      | cons run' runs' => cases same
  | cons run runs ih =>
      cases runs' with
      | nil => cases same
      | cons run' runs' =>
          obtain ⟨place, places⟩ := List.forall_mem_cons.mp places
          obtain ⟨place', places'⟩ := List.forall_mem_cons.mp places'
          rw [flatMap_bracketed_cons, flatMap_bracketed_cons] at same
          have inside := (List.cons.inj same).2
          have first := congrArg (List.takeWhile Char.isDigit) inside
          have others := congrArg (List.dropWhile Char.isDigit) inside
          rw [takeWhile_digits place.digits, takeWhile_digits place'.digits] at first
          rw [dropWhile_digits place.digits, dropWhile_digits place'.digits] at others
          rw [first, ih places places' (List.cons.inj others).2]

end

/-! ### Segments -/

namespace SegmentSpelling

/-- The name ends where the places start. -/
theorem span_chars (spelling : SegmentSpelling) :
    spelling.chars.takeWhile isNameChar = spelling.name ∧
      spelling.chars.dropWhile isNameChar = spelling.runs.flatMap bracketed := by
  have ends : (spelling.runs.flatMap bracketed).takeWhile isNameChar = [] ∧
      (spelling.runs.flatMap bracketed).dropWhile isNameChar =
        spelling.runs.flatMap bracketed := by
    cases spelling.runs with
    | nil => exact ⟨rfl, rfl⟩
    | cons run runs =>
        rw [flatMap_bracketed_cons]
        exact ⟨List.takeWhile_cons_of_neg (by decide), List.dropWhile_cons_of_neg (by decide)⟩
  have name : ∀ c ∈ spelling.name, isNameChar c = true :=
    fun c member => isNameChar_iff.mpr (spelling.nameChars c member)
  rw [chars, List.takeWhile_append_of_pos name, List.dropWhile_append_of_pos name, ends.1, ends.2,
    List.append_nil]
  exact ⟨rfl, rfl⟩

theorem chars_injective : Function.Injective chars := by
  intro first second same
  have name := congrArg (List.takeWhile isNameChar) same
  have runs := congrArg (List.dropWhile isNameChar) same
  rw [first.span_chars.1, second.span_chars.1] at name
  rw [first.span_chars.2, second.span_chars.2] at runs
  exact SegmentSpelling.ext name (eq_of_flatMap_bracketed first.places second.places runs)

/-- No dot and no blank is inside a segment. -/
theorem noDot_noBlank_of_mem_chars {spelling : SegmentSpelling} {c : Char}
    (member : c ∈ spelling.chars) : c ≠ '.' ∧ Text.isBlank c = false := by
  rcases List.mem_append.mp member with inName | inPlaces
  · obtain ⟨noDot, -, -, noBlank⟩ := spelling.nameChars c inName
    exact ⟨noDot, noBlank⟩
  · obtain ⟨run, inside, here⟩ := List.mem_flatMap.mp inPlaces
    rcases List.mem_cons.mp here with rfl | here
    · decide
    · rcases List.mem_append.mp here with digit | bracket
      · exact Numeral.noDot_noBlank_of_isDigit ((spelling.places run inside).digits c digit)
      · rw [List.mem_singleton.mp bracket]
        decide

end SegmentSpelling

theorem segment?_eq_some_iff {text : List Char} {segment : Segment} :
    segment? text = some segment ↔
      ∃ spelling : SegmentSpelling, spelling.chars = text ∧ spelling.segment = segment := by
  constructor
  · intro read
    rw [segment?] at read
    split at read
    · cases read
    · rename_i named
      obtain ⟨indices, found, rfl⟩ := Option.map_eq_some_iff.mp read
      obtain ⟨runs, places, rest, rfl⟩ := exists_runs_of_indices? found
      refine ⟨⟨text.takeWhile isNameChar, runs, by simpa using named, fun c member =>
        isNameChar_iff.mp (List.mem_takeWhile_imp member), places⟩, ?_, rfl⟩
      rw [SegmentSpelling.chars, rest, List.takeWhile_append_dropWhile]
  · rintro ⟨spelling, rfl, rfl⟩
    obtain ⟨name, places⟩ := spelling.span_chars
    rw [segment?]
    simp only [name, places, indices?_flatMap spelling.places, List.isEmpty_iff,
      if_neg spelling.named]
    rfl

/-- Pieces that are read one by one. -/
theorem mapM_segment?_eq_some_iff {pieces : List (List Char)} {segments : List Segment} :
    pieces.mapM segment? = some segments ↔
      ∃ spellings : List SegmentSpelling, spellings.map SegmentSpelling.chars = pieces ∧
        spellings.map SegmentSpelling.segment = segments := by
  induction pieces generalizing segments with
  | nil =>
      simp only [List.mapM_nil, Option.pure_def, Option.some.injEq, List.map_eq_nil_iff,
        exists_eq_left, List.map_nil]
  | cons piece rest ih =>
      simp only [List.mapM_cons, Option.bind_eq_bind, Option.pure_def, Option.bind_eq_some_iff,
        Option.some.injEq, segment?_eq_some_iff, ih]
      constructor
      · rintro ⟨_, ⟨first, rfl, rfl⟩, _, ⟨others, rfl, rfl⟩, rfl⟩
        exact ⟨first :: others, rfl, rfl⟩
      · rintro ⟨_ | ⟨first, others⟩, same, rfl⟩
        · cases same
        · obtain ⟨rfl, rfl⟩ := List.cons.inj same
          exact ⟨_, ⟨first, rfl, rfl⟩, _, ⟨others, rfl, rfl⟩, rfl⟩

/-! ### Paths -/

theorem ofSegments?_eq_some_iff {segments : List Segment} {path : Path} :
    ofSegments? segments = some path ↔ path.segments = segments := by
  rw [ofSegments?, Option.map_eq_some_iff, Path.segments]
  constructor
  · rintro ⟨last, ends, rfl⟩
    exact List.dropLast_append_getLast? last ends
  · rintro rfl
    exact ⟨path.last, by simp, by simp⟩

/-- What is joined is made of what stands between and of the parts. -/
theorem mem_or_mem_of_mem_intercalate {c : Char} {between : List Char} {parts : List (List Char)}
    (member : c ∈ between.intercalate parts) : c ∈ between ∨ ∃ part ∈ parts, c ∈ part := by
  induction parts with
  | nil => simp at member
  | cons part rest ih =>
      cases rest with
      | nil => exact Or.inr ⟨part, List.mem_cons_self, by simpa using member⟩
      | cons next more =>
          rw [List.intercalate_cons_cons, List.mem_append, List.mem_append] at member
          rcases member with (here | here) | later
          · exact Or.inr ⟨part, List.mem_cons_self, here⟩
          · exact Or.inl here
          · exact (ih later).imp_right fun ⟨part, inside, here⟩ =>
              ⟨part, List.mem_cons_of_mem _ inside, here⟩

namespace Spelling

theorem segments_path (spelling : Spelling) :
    spelling.path.segments = spelling.segments.map SegmentSpelling.segment := by
  simp [path, Path.segments, segments]

/-- Some segments, put together. -/
theorem exists_segments_eq {spellings : List SegmentSpelling} (given : spellings ≠ []) :
    ∃ spelling : Spelling, spelling.segments = spellings :=
  ⟨⟨spellings.dropLast, spellings.getLast given⟩, List.dropLast_append_getLast given⟩

theorem segments_injective : Function.Injective segments := by
  intro first second same
  obtain ⟨parents, last⟩ := List.append_inj' same rfl
  exact Spelling.ext parents (List.cons.inj last).1

/-- The segments are the pieces between dots. -/
theorem splitOn_chars (spelling : Spelling) :
    spelling.chars.splitOn '.' = spelling.segments.map SegmentSpelling.chars := by
  refine List.splitOn_intercalate '.' ?_ (by simp [segments])
  intro chars member inside
  obtain ⟨segment, -, rfl⟩ := List.mem_map.mp member
  exact (SegmentSpelling.noDot_noBlank_of_mem_chars inside).1 rfl

/-- A text is taken apart in one way only. -/
theorem chars_injective : Function.Injective chars := by
  intro first second same
  have pieces := congrArg (List.splitOn '.') same
  rw [first.splitOn_chars, second.splitOn_chars] at pieces
  exact segments_injective (SegmentSpelling.chars_injective.list_map pieces)

theorem isBlank_of_mem_chars {spelling : Spelling} {c : Char} (member : c ∈ spelling.chars) :
    Text.isBlank c = false := by
  rcases mem_or_mem_of_mem_intercalate member with dot | ⟨part, inside, here⟩
  · rw [List.mem_singleton.mp dot]
    decide
  · obtain ⟨segment, -, rfl⟩ := List.mem_map.mp inside
    exact (SegmentSpelling.noDot_noBlank_of_mem_chars here).2

theorem trimmed_chars (spelling : Spelling) : Text.trimmed spelling.chars = spelling.chars :=
  Text.strip_eq_self fun _ member => isBlank_of_mem_chars member

theorem chars_ne_nil (spelling : Spelling) : spelling.chars ≠ [] := by
  intro empty
  have pieces := spelling.splitOn_chars
  rw [empty] at pieces
  have alone : spelling.segments.map SegmentSpelling.chars = [[]] := pieces.symm
  obtain ⟨segment, -, none⟩ := List.mem_map.mp (alone ▸ List.mem_singleton_self [])
  exact segment.named (List.append_eq_nil_iff.mp none).1

end Spelling

theorem parseChars?_eq_some_iff {text : List Char} {path : Path} :
    parseChars? text = some path ↔
      ∃ spelling : Spelling, spelling.chars = text ∧ spelling.path = path := by
  rw [parseChars?, Option.bind_eq_some_iff]
  simp only [mapM_segment?_eq_some_iff]
  constructor
  · rintro ⟨_, ⟨spellings, pieces, rfl⟩, made⟩
    have given : spellings ≠ [] := by
      rintro rfl
      exact List.splitOnP_ne_nil _ text pieces.symm
    obtain ⟨spelling, rfl⟩ := Spelling.exists_segments_eq given
    refine ⟨spelling, ?_, ?_⟩
    · rw [Spelling.chars, pieces, List.intercalate_splitOn]
    · rw [ofSegments?_eq_some_iff.mpr spelling.segments_path] at made
      exact Option.some.inj made
  · rintro ⟨spelling, rfl, rfl⟩
    exact ⟨_, ⟨spelling.segments, spelling.splitOn_chars.symm, rfl⟩,
      ofSegments?_eq_some_iff.mpr spelling.segments_path⟩

/-- A text is read as a path exactly if it is a spelling of the path, blanks around it aside. -/
theorem parse_eq_ok_iff {text : String} {path : Path} :
    parse text = .ok path ↔
      ∃ spelling : Spelling, spelling.chars = Text.trimmed text.toList ∧ spelling.path = path := by
  rw [parse]
  split
  · rename_i blank
    constructor
    · rintro ⟨⟩
    · rintro ⟨spelling, same, -⟩
      exact absurd (same.trans (List.isEmpty_iff.mp blank)) spelling.chars_ne_nil
  · rw [← parseChars?_eq_some_iff]
    cases parseChars? (Text.trimmed text.toList) <;> simp

theorem error_of_parse {text : String} {report : Report} (refused : parse text = .error report) :
    ∃ reason, report = { error := .path text reason } := by
  rw [parse] at refused
  split at refused
  · cases refused
    exact ⟨_, rfl⟩
  · split at refused
    · cases refused
    · cases refused
      exact ⟨_, rfl⟩

/-! ### Printing -/

namespace SegmentSpelling

/-- The spelling of the same segment whose places have no zero before their other digits. -/
def plain (spelling : SegmentSpelling) : SegmentSpelling :=
  { spelling with
    runs := spelling.runs.map fun run => Nat.toDigits 10 (Numeral.digitsValue run)
    places := by
      intro run member
      obtain ⟨old, inside, rfl⟩ := List.mem_map.mp member
      refine ⟨Nat.toDigits_ne_nil, fun c => Nat.isDigit_of_mem_toDigits (by decide) (by decide), ?_⟩
      rw [Numeral.digitsValue_toDigits]
      exact (spelling.places old inside).fits }

theorem segment_plain (spelling : SegmentSpelling) :
    spelling.plain.segment = spelling.segment := by
  simp [segment, plain, Function.comp_def, Numeral.digitsValue_toDigits]

theorem plain_eq_self {spelling : SegmentSpelling} (plain : spelling.Plain) :
    spelling.plain = spelling := by
  refine SegmentSpelling.ext rfl ((List.map_congr_left fun run member => ?_).trans (List.map_id _))
  have place := spelling.places run member
  exact Numeral.toDigits_digitsValue place.given place.digits (plain run member)

/-- A segment is printed in its plain spelling. -/
theorem toList_text_segment (spelling : SegmentSpelling) :
    spelling.segment.text.toList = spelling.plain.chars := by
  have place : ∀ index : Nat, s!"[{index}]".toList = bracketed (Nat.toDigits 10 index) := by
    intro index
    rw [Nat.toString_eq_ofList_toDigits]
    simp only [String.toList_append, String.toList_ofList, List.append_assoc]
    rfl
  simp only [segment, Segment.text, chars, plain, String.toList_append, String.toList_ofList,
    String.toList_join, List.flatMap_map, List.map_map, Function.comp_def, place]

end SegmentSpelling

namespace Spelling

/-- The spelling of the same path whose places have no zero before their other digits. -/
def plain (spelling : Spelling) : Spelling :=
  ⟨spelling.parents.map SegmentSpelling.plain, spelling.last.plain⟩

theorem path_plain (spelling : Spelling) : spelling.plain.path = spelling.path := by
  simp [path, plain, SegmentSpelling.segment_plain]

theorem plain_eq_self {spelling : Spelling} (plain : spelling.Plain) :
    spelling.plain = spelling := by
  obtain ⟨parents, last⟩ := List.forall_mem_append.mp plain
  refine Spelling.ext ((List.map_congr_left fun segment member => ?_).trans (List.map_id _)) ?_
  · exact SegmentSpelling.plain_eq_self (parents segment member)
  · exact SegmentSpelling.plain_eq_self (last spelling.last List.mem_cons_self)

/-- A path is printed in its plain spelling. -/
theorem toList_text_path (spelling : Spelling) :
    spelling.path.text.toList = spelling.plain.chars := by
  have segments : spelling.plain.segments = spelling.segments.map SegmentSpelling.plain := by
    simp [Spelling.segments, plain]
  have parts : spelling.path.segments.map (fun segment => segment.text.toList) =
      spelling.plain.segments.map SegmentSpelling.chars := by
    simp only [segments_path, segments, List.map_map, Function.comp_def,
      SegmentSpelling.toList_text_segment]
  rw [text, String.toList_intercalate, List.map_map, chars, ← parts]
  rfl

end Spelling

/-- Reading is exact: a text is a path precisely if it is a spelling of one, blanks around it aside,
and no text has two spellings. What is printed is read back; a plain spelling is printed as it was
written; and a text that is no path is refused with the text as it was given. -/
theorem parse_exact (text : String) :
    ((∃ path, parse text = .ok path) ↔
      ∃ spelling : Spelling, spelling.chars = Text.trimmed text.toList) ∧
    (∀ spelling : Spelling, spelling.chars = Text.trimmed text.toList →
      parse text = .ok spelling.path ∧
      (∀ other : Spelling, other.chars = Text.trimmed text.toList → other = spelling) ∧
      (spelling.Plain → spelling.path.text = Text.trim text)) ∧
    (∀ path, parse text = .ok path → parse path.text = .ok path) ∧
    ∀ report, parse text = .error report → ∃ reason, report = { error := .path text reason } := by
  refine ⟨⟨?_, ?_⟩, fun spelling written => ⟨?_, ?_, ?_⟩, ?_, fun report => error_of_parse⟩
  · rintro ⟨path, read⟩
    obtain ⟨spelling, written, -⟩ := parse_eq_ok_iff.mp read
    exact ⟨spelling, written⟩
  · rintro ⟨spelling, written⟩
    exact ⟨spelling.path, parse_eq_ok_iff.mpr ⟨spelling, written, rfl⟩⟩
  · exact parse_eq_ok_iff.mpr ⟨spelling, written, rfl⟩
  · exact fun other written' => Spelling.chars_injective (written'.trans written.symm)
  · intro plain
    rw [← String.toList_inj, spelling.toList_text_path, Spelling.plain_eq_self plain, written,
      Text.trim, String.toList_ofList]
  · intro path read
    obtain ⟨spelling, -, rfl⟩ := parse_eq_ok_iff.mp read
    refine parse_eq_ok_iff.mpr ⟨spelling.plain, ?_, spelling.path_plain⟩
    rw [spelling.toList_text_path, Spelling.trimmed_chars]

/-- Blanks around a path and a zero before a place do not count. -/
theorem parse_exact_of_grid :
    let path : Path := ⟨[⟨"grid", [1, 20]⟩], ⟨"weight", []⟩⟩
    parse " grid[01][20].weight\n" = .ok path ∧ parse path.text = .ok path := by
  let grid : SegmentSpelling :=
    { name := "grid".toList
      runs := [['0', '1'], ['2', '0']]
      named := by decide
      nameChars := by simp [Text.isBlank]
      places := List.forall_mem_cons.mpr ⟨⟨by decide, by simp, by decide⟩,
        List.forall_mem_singleton.mpr ⟨by decide, by simp, by decide⟩⟩ }
  let weight : SegmentSpelling := ⟨"weight".toList, [], by decide, by simp [Text.isBlank], by simp⟩
  obtain ⟨-, reads, prints, -⟩ := parse_exact " grid[01][20].weight\n"
  have read := (reads ⟨[grid], weight⟩ (by decide +kernel)).1
  exact ⟨read, prints _ read⟩

end Path
end SceneEdit
