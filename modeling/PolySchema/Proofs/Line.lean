import PolySchema.Line
import PolySchema.Proofs.Text.Part

/-! Scanning a source. Carriage returns and the end of the last line make no difference to
significant lines, so scanning only looks at what stands between line feeds. -/
namespace PolySchema.Line

/-- The same line under another number. -/
def relocate (move : Nat → Nat) (line : Line) : Line := ⟨move line.number, line.text⟩

private theorem trim_dropReturn (line : List Char) :
    Text.trim (Text.dropReturn line) = Text.trim line := by
  cases found : Text.dropEnding? ['\r'] line with
  | none => simp [Text.dropReturn, found]
  | some rest =>
    have returned : Text.Blank ['\r'] := by
      intro c member
      rw [List.mem_singleton.mp member]
      decide
    rw [Text.dropReturn, found, Option.getD_some, Text.dropEnding?_eq_some_iff.mp found,
      Text.trim_append_blank rest returned]

/-- The trimmed pieces with their numbers, from a given number on. -/
def enumerate (start : Nat) (pieces : List (List Char)) : List Line :=
  (pieces.zipIdx start).map fun entry => ⟨entry.2, Text.trim entry.1⟩

theorem enumerate_append (start : Nat) (first second : List (List Char)) :
    enumerate start (first ++ second) =
      enumerate start first ++ enumerate (start + first.length) second := by
  simp [enumerate, List.zipIdx_append]

theorem map_text_enumerate (start : Nat) (pieces : List (List Char)) :
    (enumerate start pieces).map Line.text = pieces.map Text.trim := by
  have texts : (enumerate start pieces).map Line.text =
      ((pieces.zipIdx start).map Prod.fst).map Text.trim := by
    rw [enumerate, List.map_map, List.map_map]
    rfl
  rw [texts, List.zipIdx_map_fst]

private theorem enumerate_map_dropReturn (start : Nat) (pieces : List (List Char)) :
    enumerate start (pieces.map Text.dropReturn) = enumerate start pieces := by
  simp [enumerate, List.zipIdx_map, Function.comp_def, trim_dropReturn]

theorem enumerate_add (start offset : Nat) (pieces : List (List Char)) :
    enumerate (start + offset) pieces = (enumerate start pieces).map (relocate (· + offset)) := by
  rw [enumerate, enumerate, Nat.add_comm, ← List.map_snd_add_zipIdx_eq_zipIdx]
  simp [Function.comp_def, relocate]

/-- An empty last piece counts as no line, but would not be significant either. -/
private theorem filter_enumerate_last (front : List (List Char)) (last : List Char) :
    (enumerate 1 (front.map Text.dropReturn ++
      ((some last).filter fun line => !line.isEmpty).toList)).filter isSignificant =
      (enumerate 1 (front ++ [last])).filter isSignificant := by
  rw [enumerate_append, enumerate_append, enumerate_map_dropReturn]
  cases last with
  | nil => simp [enumerate, isSignificant, Option.filter, Text.trim_blank Text.blank_nil]
  | cons c rest => simp [enumerate, Option.filter]

/-- The significant lines are the significant ones among what stands between line feeds. -/
theorem scan_eq (source : List Char) :
    scan source = (enumerate 1 (source.splitOn '\n')).filter isSignificant := by
  have nonempty := List.splitOn_ne_nil '\n' source
  have split : Text.splitWhere (· == '\n') source = source.splitOn '\n' :=
    Text.splitWhere_eq_splitOnP _ source
  have lines : Text.lines source = (source.splitOn '\n').dropLast.map Text.dropReturn ++
      ((some ((source.splitOn '\n').getLast nonempty)).filter fun line => !line.isEmpty).toList := by
    rw [Text.lines, split, List.getLast?_eq_some_getLast nonempty]
  calc scan source = (enumerate 1 (Text.lines source)).filter isSignificant := rfl
    _ = _ := by rw [lines, filter_enumerate_last, List.dropLast_concat_getLast]

theorem filter_relocate (move : Nat → Nat) (lines : List Line) :
    (lines.map (relocate move)).filter isSignificant =
      (lines.filter isSignificant).map (relocate move) := by
  rw [List.filter_map]
  rfl

/-- Scanning two joined sources is scanning each, with the lines of the second counted on. -/
theorem scan_append (first second : List Char) :
    scan (first ++ '\n' :: second) =
      scan first ++ (scan second).map (relocate (· + (1 + first.count '\n'))) := by
  have length : (first.splitOn '\n').length = 1 + first.count '\n' := by
    have pieces := Text.length_splitWhere (· == '\n') first
    rw [Text.splitWhere_eq_splitOnP] at pieces
    rw [Nat.add_comm]
    exact pieces
  rw [scan_eq, scan_eq first, scan_eq second, List.splitOn_append_cons_self, enumerate_append,
    List.filter_append, length, enumerate_add, filter_relocate]

theorem of_mem_scan {source : List Char} {line : Line} (member : line ∈ scan source) :
    ∃ index text, (Text.lines source)[index]? = some text ∧ line = ⟨index + 1, Text.trim text⟩ ∧
      Text.trim text ≠ [] ∧ ¬ ['/', '/'] <+: Text.trim text := by
  obtain ⟨listed, significant⟩ := List.mem_filter.mp member
  obtain ⟨⟨text, number⟩, numbered, rfl⟩ := List.mem_map.mp listed
  obtain ⟨counted, found⟩ := List.mk_mem_zipIdx_iff_le_and_getElem?_sub.mp numbered
  simp only [isSignificant, commentMark, Bool.and_eq_true, Bool.not_eq_true', ← Bool.not_eq_true,
    List.isEmpty_iff, List.isPrefixOf_iff_prefix] at significant
  refine ⟨number - 1, text, found, ?_, significant⟩
  rw [Nat.sub_add_cancel counted]

theorem unbroken_of_mem_scan {source : List Char} {line : Line} (member : line ∈ scan source) :
    '\n' ∉ line.text := by
  obtain ⟨index, text, found, rfl, _⟩ := of_mem_scan member
  have unbroken := Text.unbroken_of_mem_lines (List.mem_of_getElem? found)
  exact fun broken => unbroken ((Text.isInfix_trim text).subset broken)

theorem pairwise_number_scan (source : List Char) :
    ((scan source).map Line.number).Pairwise (· < ·) := by
  have pieces : ((enumerate 1 (source.splitOn '\n')).map Line.number).Pairwise (· < ·) := by
    rw [enumerate, List.map_map]
    exact List.zipIdx_map_snd 1 (source.splitOn '\n') ▸ List.pairwise_lt_range'
  rw [scan_eq]
  exact pieces.sublist (List.filter_sublist.map Line.number)

theorem number_not_mem_of_scan {source : List Char} {front back : List Line} {line : Line}
    (scanned : scan source = front ++ line :: back) :
    line.number ∉ front.map Line.number ∧ line.number ∉ back.map Line.number := by
  have increasing := pairwise_number_scan source
  rw [scanned, List.map_append, List.map_cons, List.pairwise_append,
    List.pairwise_cons] at increasing
  obtain ⟨_, ⟨after, _⟩, before⟩ := increasing
  constructor
  · intro member
    exact Nat.lt_irrefl _ (before _ member _ List.mem_cons_self)
  · intro member
    exact Nat.lt_irrefl _ (after _ member)

/-- A text that is one significant line by itself, and stays one whatever is put behind it on the
line. -/
structure IsLineText (text : List Char) : Prop where
  tight : Text.Tight text
  unbroken : '\n' ∉ text
  start : text.head? ≠ some '/'

namespace IsLineText

variable {text suffix name rest : List Char}

theorem uncommented (valid : IsLineText text) : commentMark.isPrefixOf text = false := by
  cases text with
  | nil => rfl
  | cons c rest =>
    have other : c ≠ '/' := fun same => valid.start (congrArg some same)
    simp [commentMark, List.isPrefixOf, other.symm]

theorem append (valid : IsLineText text) (unbroken : '\n' ∉ suffix)
    (last : ∃ c, suffix.getLast? = some c ∧ Text.isBlank c = false) :
    IsLineText (text ++ suffix) := by
  obtain ⟨first, found, visible⟩ := valid.tight.first
  obtain ⟨final, ending, shown⟩ := last
  refine ⟨⟨⟨first, ?_, visible⟩, final, ?_, shown⟩, ?_, ?_⟩
  · rw [List.head?_append, found, Option.some_or]
  · rw [List.getLast?_append, ending, Option.some_or]
  · simp [valid.unbroken, unbroken]
  · have start := valid.start
    rw [found] at start
    rwa [List.head?_append, found, Option.some_or]

theorem of_name (valid : isIdentifier name = true) (tight : Text.Tight (name ++ rest))
    (unbroken : '\n' ∉ rest) : IsLineText (name ++ rest) := by
  refine ⟨tight, ?_, ?_⟩
  · have named : '\n' ∉ name := not_mem_of_isIdentifier valid rfl
    simp [named, unbroken]
  · cases name with
    | nil => cases valid
    | cons c others =>
      have start : isIdentifierChar c = true := isIdentifierChar_of_mem valid (by simp)
      simpa using ne_of_isIdentifierChar start rfl

end IsLineText

/-- Scanning undoes joining lines. -/
theorem map_text_scan_intercalate {texts : List (List Char)}
    (valid : ∀ text ∈ texts, IsLineText text) :
    (scan (['\n'].intercalate texts)).map Line.text = texts := by
  by_cases empty : texts = []
  · subst empty
    rfl
  · have pieces := List.splitOn_intercalate '\n' (fun text member => (valid text member).unbroken)
      empty
    have trimmed : (enumerate 1 texts).map Line.text = texts := by
      rw [map_text_enumerate]
      exact (List.map_congr_left fun text member => (valid text member).tight.trim_eq).trans
        (List.map_id' texts)
    have significant : ∀ line ∈ enumerate 1 texts, isSignificant line = true := by
      intro line member
      have shape := valid line.text (trimmed ▸ List.mem_map_of_mem member)
      simp [isSignificant, shape.tight.ne_nil, shape.uncommented]
    rw [scan_eq, pieces, List.filter_eq_self.mpr significant, trimmed]

end PolySchema.Line
