import Mathlib.Data.List.TakeWhile
import PolySchema.Identifier
import PolySchema.Text.Cut

/-! Trimming and cutting undo padding and joining. Texts without blanks at their ends come back from
padding, and texts without the character that they are cut at come back from joining. -/
namespace PolySchema.Text

/-- A text that starts and ends with a character that is not blank. -/
structure Tight (text : List Char) : Prop where
  first : ∃ c, text.head? = some c ∧ isBlank c = false
  last : ∃ c, text.getLast? = some c ∧ isBlank c = false

def Blank (text : List Char) : Prop := ∀ c ∈ text, isBlank c = true

theorem Tight.ne_nil (tight : Tight text) : text ≠ [] := by
  obtain ⟨c, found, _⟩ := tight.first
  rintro rfl
  simp at found

theorem Tight.reverse (tight : Tight text) : Tight text.reverse :=
  ⟨by simpa using tight.last, by simpa using tight.first⟩

/-- What stands between two tight texts does not matter. -/
theorem Tight.enclose (left : Tight before) (right : Tight after) (middle : List Char) :
    Tight (before ++ (middle ++ after)) := by
  obtain ⟨c, start, first⟩ := left.first
  obtain ⟨d, finish, last⟩ := right.last
  exact ⟨⟨c, by simp [start], first⟩, ⟨d, by simp [finish], last⟩⟩

theorem Tight.append (left : Tight before) (right : Tight after) : Tight (before ++ after) :=
  left.enclose right []

theorem Tight.singleton (visible : isBlank c = false) : Tight [c] :=
  ⟨⟨c, rfl, visible⟩, ⟨c, rfl, visible⟩⟩

theorem Blank.reverse (blank : Blank text) : Blank text.reverse := by
  intro c member
  exact blank c (List.mem_reverse.mp member)

theorem blank_nil : Blank [] := by simp [Blank]

theorem blank_space : Blank [' '] := by
  intro c member
  rw [List.mem_singleton.mp member]
  decide

private theorem dropWhile_padding {p : Char → Bool} {pad text : List Char} {c : Char}
    (padding : ∀ d ∈ pad, p d = true) (start : text.head? = some c) (kept : p c = false) :
    (pad ++ text).dropWhile p = text := by
  induction pad with
  | nil =>
    cases text with
    | nil => simp at start
    | cons d rest =>
      have same : d = c := by simpa using start
      simp [same, kept]
  | cons d pad ih =>
    have blank := padding d (by simp)
    simp [blank, ih fun other member => padding other (by simp [member])]

theorem trimStart_padding (first : ∃ c, text.head? = some c ∧ isBlank c = false)
    (padding : Blank pad) : trimStart (pad ++ text) = text := by
  obtain ⟨c, start, visible⟩ := first
  exact dropWhile_padding padding start visible

theorem trimEnd_padding (tight : Tight text) (padding : Blank pad) :
    trimEnd (text ++ pad) = text := by
  obtain ⟨c, start, visible⟩ := tight.reverse.first
  rw [trimEnd, dropEndWhile, List.reverse_append, dropWhile_padding padding.reverse start visible,
    List.reverse_reverse]

theorem trim_padding (tight : Tight text) (before : Blank left) (after : Blank right) :
    trim (left ++ (text ++ right)) = text := by
  have start : trimStart (left ++ (text ++ right)) = text ++ right := by
    obtain ⟨c, first, visible⟩ := tight.first
    exact trimStart_padding ⟨c, by simp [first], visible⟩ before
  rw [trim, start, trimEnd_padding tight after]

theorem Tight.trim_eq (tight : Tight text) : trim text = text := by
  simpa using trim_padding tight blank_nil blank_nil

theorem Tight.trimEnd_eq (tight : Tight text) : trimEnd text = text := by
  simpa using trimEnd_padding tight blank_nil

theorem trim_blank (blank : Blank text) : trim text = [] := by
  have start : trimStart text = [] := by
    exact List.dropWhile_eq_nil_iff.mpr blank
  simp [trim, start, trimEnd, dropEndWhile]

theorem trim_append_blank (text : List Char) (padding : Blank pad) :
    trim (text ++ pad) = trim text := by
  have ending (front : List Char) : trimEnd (front ++ pad) = trimEnd front := by
    have dropped : pad.reverse.dropWhile isBlank = [] :=
      List.dropWhile_eq_nil_iff.mpr padding.reverse
    simp [trimEnd, dropEndWhile, List.dropWhile_append, dropped]
  by_cases start : trimStart text = []
  · have blank : Blank (text ++ pad) := by
      intro c member
      exact (List.mem_append.mp member).elim (List.dropWhile_eq_nil_iff.mp start c) (padding c)
    rw [trim_blank blank, trim, start]
    rfl
  · have kept : trimStart (text ++ pad) = trimStart text ++ pad := by
      have visible : (text.dropWhile isBlank).isEmpty = false := by simpa [trimStart] using start
      simp [trimStart, List.dropWhile_append, visible]
    rw [trim, kept, ending, trim]

private theorem mem_dropWhile {p : Char → Bool} {text : List Char} {c : Char} (member : c ∈ text)
    (kept : p c = false) : c ∈ text.dropWhile p := by
  induction text with
  | nil => cases member
  | cons d rest ih =>
    rcases List.mem_cons.mp member with rfl | later
    · simp [kept]
    · by_cases dropped : p d = true
      · simpa [dropped] using ih later
      · simp [dropped, later]

theorem mem_trim {text : List Char} {c : Char} (member : c ∈ text) (visible : isBlank c = false) :
    c ∈ trim text := by
  have start : c ∈ trimStart text := mem_dropWhile member visible
  exact List.mem_reverse.mpr (mem_dropWhile (List.mem_reverse.mpr start) visible)

private theorem head?_dropWhile {p : Char → Bool} {text : List Char} {c : Char}
    (found : (text.dropWhile p).head? = some c) : p c = false := by
  have kept := List.head?_dropWhile_not p text
  rwa [found] at kept

theorem exists_trimEnd (text : List Char) :
    ∃ right, Blank right ∧ text = trimEnd text ++ right := by
  refine ⟨(text.reverse.takeWhile isBlank).reverse, ?_, ?_⟩
  · intro c member
    exact List.mem_takeWhile_imp (List.mem_reverse.mp member)
  · rw [trimEnd, dropEndWhile, ← List.reverse_append, List.takeWhile_append_dropWhile,
      List.reverse_reverse]

/-- Trimming takes nothing but blanks off the two ends. -/
theorem exists_trim (text : List Char) :
    ∃ left right, Blank left ∧ Blank right ∧ text = left ++ (trim text ++ right) := by
  obtain ⟨right, after, shape⟩ := exists_trimEnd (trimStart text)
  refine ⟨text.takeWhile isBlank, right, ?_, after, ?_⟩
  · intro c member
    exact List.mem_takeWhile_imp member
  · rw [trim, ← shape, trimStart, List.takeWhile_append_dropWhile]

theorem tight_trim {text : List Char} (nonempty : trim text ≠ []) : Tight (trim text) := by
  have last := List.getLast?_eq_some_getLast nonempty
  have first := List.head?_eq_some_head nonempty
  refine ⟨⟨_, first, ?_⟩, ⟨_, last, ?_⟩⟩
  · obtain ⟨right, _, shape⟩ := exists_trimEnd (trimStart text)
    have start : (trimStart text).head? = some ((trim text).head nonempty) := by
      rw [shape, List.head?_append, ← trim, first, Option.some_or]
    exact head?_dropWhile start
  · have ending : (trim text).getLast? = ((trimStart text).reverse.dropWhile isBlank).head? :=
      List.getLast?_reverse
    exact head?_dropWhile (ending.symm.trans last)

theorem trim_trim (text : List Char) : trim (trim text) = trim text := by
  by_cases empty : trim text = []
  · rw [empty]
    exact trim_blank blank_nil
  · exact (tight_trim empty).trim_eq

theorem dropEnding?_append (text ending : List Char) :
    dropEnding? ending (text ++ ending) = some text :=
  dropEnding?_eq_some_iff.mpr rfl

theorem dropEnding?_eq_none_iff {text ending : List Char} :
    dropEnding? ending text = none ↔ ¬ ending <:+ text := by
  rw [dropEnding?, ite_eq_right_iff, ← List.isSuffixOf_iff_suffix]
  simp

theorem dropEnding?_of_last {text ending : List Char} {c d : Char}
    (last : text.getLast? = some c) (other : ending.getLast? = some d) (different : c ≠ d) :
    dropEnding? ending text = none := by
  cases found : dropEnding? ending text with
  | none => rfl
  | some rest =>
    rw [dropEnding?_eq_some_iff.mp found, List.getLast?_append, other] at last
    exact absurd (Option.some.inj last).symm different

theorem dropEndWhile_of_last {p : Char → Bool} {text : List Char} {c : Char}
    (last : text.getLast? = some c) (kept : p c = false) : dropEndWhile p text = text := by
  have start : text.reverse.head? = some c := by simpa using last
  have unpadded := dropWhile_padding (List.forall_mem_nil _) start kept
  rw [dropEndWhile, ← List.nil_append text.reverse, unpadded, List.reverse_reverse]

/-- Splitting a text is splitting a list. -/
theorem splitWhere_eq_splitOnP (p : Char → Bool) (text : List Char) :
    splitWhere p text = text.splitOnP p := by
  induction text with
  | nil => rfl
  | cons c rest ih => rw [splitWhere, List.splitOnP_cons_eq_if_modifyHead, ih]

theorem length_splitWhere (p : Char → Bool) (text : List Char) :
    (splitWhere p text).length = text.countP p + 1 := by
  induction text with
  | nil => rfl
  | cons c rest ih =>
    by_cases here : p c = true
    · simp [splitWhere, here, ih]
    · simp [splitWhere, here, ih]

theorem of_mem_splitWhere {p : Char → Bool} {text piece : List Char}
    (member : piece ∈ splitWhere p text) : ∀ c ∈ piece, p c = false := by
  induction text generalizing piece with
  | nil =>
    rw [List.mem_singleton.mp member]
    exact List.forall_mem_nil _
  | cons c rest ih =>
    by_cases here : p c = true
    · rw [splitWhere, if_pos here] at member
      rcases List.mem_cons.mp member with rfl | later
      · exact List.forall_mem_nil _
      · exact ih later
    · rw [splitWhere, if_neg here] at member
      cases pieces : splitWhere p rest with
      | nil =>
        rw [pieces] at member
        cases member
      | cons first others =>
        rw [pieces] at ih member
        rcases List.mem_cons.mp member with rfl | later
        · exact List.forall_mem_cons.mpr
            ⟨Bool.eq_false_iff.mpr here, ih List.mem_cons_self⟩
        · exact ih (List.mem_cons_of_mem _ later)

theorem words_append_blank {c : Char} (blank : isBlank c = true) (first second : List Char) :
    words (first ++ c :: second) = words first ++ words second := by
  simp only [words, splitWhere_eq_splitOnP, List.splitOnP_append_cons first second blank,
    List.filter_append]

theorem words_single {word : List Char} (nonempty : word ≠ [])
    (visible : ∀ c ∈ word, isBlank c = false) : words word = [word] := by
  rw [words, splitWhere_eq_splitOnP, List.splitOnP_eq_singleton visible]
  simp [nonempty]

/-- What holds of the parts of a joined text holds of the whole if it passes on to joined texts. -/
theorem intercalate_induction {valid : List Char → Prop} {separator : List Char}
    {items : List (List Char)} (empty : valid [])
    (append : ∀ {first second}, valid first → valid second → valid (first ++ second))
    (between : valid separator) (each : ∀ item ∈ items, valid item) :
    valid (separator.intercalate items) := by
  induction items with
  | nil => exact empty
  | cons item rest ih =>
    obtain ⟨first, others⟩ := List.forall_mem_cons.mp each
    cases rest with
    | nil => simpa using first
    | cons next rest =>
      rw [List.intercalate_cons_cons]
      exact append (append first between) (ih others)

/-- A joined text has only characters of its parts. -/
theorem not_mem_intercalate {c : Char} {separator : List Char} {items : List (List Char)}
    (between : c ∉ separator) (absent : ∀ item ∈ items, c ∉ item) :
    c ∉ separator.intercalate items := by
  refine intercalate_induction List.not_mem_nil ?_ between absent
  intro first second left right
  simp [left, right]

theorem cutFirst?_append {needle : Char} {before : List Char} (absent : needle ∉ before)
    (after : List Char) : cutFirst? needle (before ++ needle :: after) = some (before, after) := by
  induction before with
  | nil => simp [cutFirst?]
  | cons c rest ih =>
    obtain ⟨different, later⟩ := not_or.mp (mt List.mem_cons.mpr absent)
    simp [cutFirst?, Ne.symm different, ih later]

theorem cutFirst?_eq_none {needle : Char} {text : List Char} (absent : needle ∉ text) :
    cutFirst? needle text = none := by
  induction text with
  | nil => rfl
  | cons c rest ih =>
    obtain ⟨different, later⟩ := not_or.mp (mt List.mem_cons.mpr absent)
    simp [cutFirst?, Ne.symm different, ih later]

end PolySchema.Text

namespace PolySchema

theorem ne_of_isIdentifierChar {c d : Char} (inside : isIdentifierChar c = true)
    (outside : isIdentifierChar d = false) : c ≠ d := by
  rintro rfl
  rw [inside] at outside
  cases outside

theorem isIdentifierChar_of_start {c : Char} (start : isIdentifierStart c = true) :
    isIdentifierChar c = true := by
  simp only [isIdentifierStart, Bool.or_eq_true] at start
  simp only [isIdentifierChar, Char.isAlphanum, Bool.or_eq_true]
  exact start.elim (fun letter => .inl (.inl letter)) .inr

private theorem bounds_of_isIdentifierChar {c : Char} (inside : isIdentifierChar c = true) :
    48 ≤ c.toNat ∧ c.toNat ≤ 122 := by
  have letter : c.isAlpha = (c.isUpper || c.isLower) := rfl
  have upper : c.isUpper = decide (c.val ≥ 'A'.val ∧ c.val ≤ 'Z'.val) := rfl
  have lower : c.isLower = (decide (c.val ≥ 'a'.val) && decide (c.val ≤ 'z'.val)) := rfl
  simp only [isIdentifierChar, Char.isAlphanum, letter, upper, lower, Char.isDigit,
    Bool.or_eq_true, Bool.and_eq_true, decide_eq_true_eq, beq_iff_eq, ge_iff_le,
    UInt32.le_iff_toNat_le] at inside
  rcases inside with ((upper | lower) | digit) | rfl
  · exact ⟨Nat.le_trans (by decide) upper.1, Nat.le_trans upper.2 (by decide)⟩
  · exact ⟨Nat.le_trans (by decide) lower.1, lower.2⟩
  · exact ⟨digit.1, Nat.le_trans digit.2 (by decide)⟩
  · decide

private theorem bounds_of_isBlank {c : Char} (blank : Text.isBlank c = true) :
    c.toNat ≤ 32 ∨ 133 ≤ c.toNat := by
  have apart : ∀ range ∈ Text.blankRanges, range.2 ≤ 32 ∨ 133 ≤ range.1 := by decide
  obtain ⟨range, member, inside⟩ := List.any_eq_true.mp blank
  simp only [Bool.and_eq_true, decide_eq_true_eq] at inside
  exact (apart range member).imp inside.2.trans fun low => low.trans inside.1

theorem isBlank_of_isIdentifierChar {c : Char} (inside : isIdentifierChar c = true) :
    Text.isBlank c = false := by
  have within := bounds_of_isIdentifierChar inside
  refine Bool.eq_false_iff.mpr fun blank => ?_
  have without := bounds_of_isBlank blank
  omega

theorem isIdentifierChar_of_mem {name : List Char} (valid : isIdentifier name = true)
    (member : c ∈ name) : isIdentifierChar c = true := by
  cases name with
  | nil => cases member
  | cons first rest =>
    simp only [isIdentifier, Bool.and_eq_true, List.all_eq_true] at valid
    rcases List.mem_cons.mp member with rfl | later
    · exact isIdentifierChar_of_start valid.1.1
    · exact valid.1.2 c later

theorem not_mem_of_isIdentifier {name : List Char} (valid : isIdentifier name = true)
    (outside : isIdentifierChar c = false) : c ∉ name := by
  intro member
  exact ne_of_isIdentifierChar (isIdentifierChar_of_mem valid member) outside rfl

theorem visible_of_isIdentifier {name : List Char} (valid : isIdentifier name = true) :
    ∀ c ∈ name, Text.isBlank c = false := by
  intro c member
  exact isBlank_of_isIdentifierChar (isIdentifierChar_of_mem valid member)

theorem ne_nil_of_isIdentifier {name : List Char} (valid : isIdentifier name = true) :
    name ≠ [] := by
  rintro rfl
  cases valid

theorem tight_of_isIdentifier {name : List Char} (valid : isIdentifier name = true) :
    Text.Tight name := by
  have visible {c : Char} (member : c ∈ name) : Text.isBlank c = false :=
    isBlank_of_isIdentifierChar (isIdentifierChar_of_mem valid member)
  have nonempty := ne_nil_of_isIdentifier valid
  exact ⟨⟨_, List.head?_eq_some_head nonempty, visible (List.head_mem nonempty)⟩,
    ⟨_, List.getLast?_eq_some_getLast nonempty, visible (List.getLast_mem nonempty)⟩⟩

end PolySchema
