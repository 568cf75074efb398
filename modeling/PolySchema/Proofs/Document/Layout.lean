import PolySchema.Proofs.Document.Attribution
import PolySchema.Proofs.Document.Relocation

namespace PolySchema

namespace Line

/-- Whether a trimmed line is neither blank nor a comment. -/
def isSignificantText (text : List Char) : Bool := !text.isEmpty && !commentMark.isPrefixOf text

/-- The lines of a source, trimmed, without blank lines and comments. -/
def texts (source : List Char) : List (List Char) :=
  ((Text.lines source).map Text.trim).filter isSignificantText

/-- The numbers, counted from one, of the lines that are neither blank nor comments. -/
def numbers (source : List Char) : List Nat :=
  (((Text.lines source).zipIdx 1).filter fun entry =>
    isSignificantText (Text.trim entry.1)).map Prod.snd

theorem map_text_scan (source : List Char) : (scan source).map Line.text = texts source := by
  rw [texts, ← map_text_enumerate 1, List.filter_map]
  rfl

theorem map_number_scan (source : List Char) : (scan source).map Line.number = numbers source := by
  rw [scan, List.filter_map, List.map_map]
  rfl

theorem texts_append (first second : List Char) :
    texts (first ++ '\n' :: second) = texts first ++ texts second := by
  simp only [← map_text_scan, scan_append, List.map_append, List.map_map]
  rfl

theorem IsLineText.texts_padded {text pad : List Char} (valid : IsLineText text)
    (blank : Text.Blank pad) (unbroken : '\n' ∉ pad) : texts (pad ++ text) = [text] := by
  have whole : '\n' ∉ pad ++ text := by simp [unbroken, valid.unbroken]
  have trimmed : Text.trim (pad ++ text) = text := by
    simpa using Text.trim_padding valid.tight blank Text.blank_nil
  have significant : isSignificant ⟨1, text⟩ = true := by
    simp [isSignificant, valid.tight.ne_nil, valid.uncommented]
  have pieces : (pad ++ text).splitOn '\n' = [pad ++ text] := by
    have unbroken : ∀ line ∈ [pad ++ text], '\n' ∉ line := List.forall_mem_singleton.mpr whole
    simpa using List.splitOn_intercalate '\n' unbroken (List.cons_ne_nil _ _)
  rw [← map_text_scan, scan_eq, pieces]
  simp [enumerate, trimmed, significant]

/-- Texts numbered by their places. -/
def inOrder (texts : List (List Char)) : List Line :=
  texts.zipIdx.map fun entry => ⟨entry.2, entry.1⟩

/-- Lines are their texts in order, under other numbers. -/
theorem eq_relocate_inOrder (lines : List Line) :
    lines = (inOrder (lines.map Line.text)).map
      (relocate fun place => (lines.map Line.number).getD place 0) := by
  apply List.ext_getElem?
  intro place
  cases found : lines[place]? with
  | none => simp [inOrder, found]
  | some line => simp [inOrder, found, relocate]

theorem lt_of_mem_inOrder {texts : List (List Char)} {line : Line}
    (member : line ∈ inOrder texts) : line.number < texts.length := by
  obtain ⟨entry, present, rfl⟩ := List.mem_map.mp member
  exact List.snd_lt_of_mem_zipIdx present

end Line

/-- The same problem, reported under numbers that stand at the same place in two lists. -/
structure Diagnostic.Alike (first second : List Nat) (left right : Diagnostic) : Prop where
  kind : left.kind = right.kind
  context : left.context = right.context
  place : ∃ place number other : Nat, first[place]? = some number ∧ second[place]? = some other ∧
    left.line = some number ∧ right.line = some other

namespace Document

theorem ofLines_eq_relocate (lines : List Line) :
    Document.ofLines lines = (Document.ofLines (Line.inOrder (lines.map Line.text))).relocate
      fun place => (lines.map Line.number).getD place 0 := by
  rw [← Relocation.ofLines, ← Line.eq_relocate_inOrder]

theorem exists_place {texts : List (List Char)} {diagnostic : Diagnostic}
    (member : diagnostic ∈ (Document.ofLines (Line.inOrder texts)).diagnostics) :
    ∃ place < texts.length, diagnostic.line = some place := by
  obtain ⟨line, present, quotes⟩ :=
    (follow_ofLines (Line.inOrder texts)).exists_quoted diagnostic member
  exact ⟨line.number, Line.lt_of_mem_inOrder present, quotes.number⟩

theorem ofLines_alike {first second : List Line}
    (same : first.map Line.text = second.map Line.text) :
    (Document.ofLines first).value = (Document.ofLines second).value ∧
      List.Forall₂ (Diagnostic.Alike (first.map Line.number) (second.map Line.number))
        (Document.ofLines first).diagnostics (Document.ofLines second).diagnostics := by
  have length : second.length = first.length := by
    simpa using (congrArg List.length same).symm
  rw [ofLines_eq_relocate first, ofLines_eq_relocate second, ← same]
  refine ⟨rfl, ?_⟩
  rw [Reported.relocate, Reported.relocate, List.forall₂_map_left_iff, List.forall₂_map_right_iff,
    List.forall₂_same]
  intro diagnostic member
  obtain ⟨place, bound, line⟩ := exists_place member
  rw [List.length_map] at bound
  refine ⟨rfl, rfl, place, (first[place]).number, (second[place]).number, ?_, ?_, ?_, ?_⟩
  · simp [bound]
  · simp [length, bound]
  · simp [Diagnostic.relocate, line, bound]
  · simp [Diagnostic.relocate, line, length, bound]

/-- Two sources with the same significant lines hold the same document. Their diagnostics are the
same one by one, each under the number that the line it is about has in its source. -/
theorem read_of_texts_eq {first second : String}
    (same : Line.texts first.toList = Line.texts second.toList) :
    (Document.read first).value = (Document.read second).value ∧
      List.Forall₂
        (Diagnostic.Alike (Line.numbers first.toList) (Line.numbers second.toList))
        (Document.read first).diagnostics (Document.read second).diagnostics := by
  rw [← Line.map_text_scan, ← Line.map_text_scan] at same
  rw [← Line.map_number_scan, ← Line.map_number_scan]
  exact ofLines_alike same

/-- Carriage returns, tabs, and comments inside a body that is never closed. -/
theorem read_of_texts_eq_returns :
    let first := "struct Point \x7b\r\n\r\n\t// no type\r\n  x Int32 \r\n\ty: Record<>\r"
    let second := "struct Point \x7b\nx Int32\ny: Record<>\n"
    Line.texts first.toList = Line.texts second.toList ∧
      Line.numbers first.toList = [1, 4, 5] ∧ Line.numbers second.toList = [1, 2, 3] ∧
      (Document.read first).value = (Document.read second).value ∧
      List.Forall₂ (Diagnostic.Alike [1, 4, 5] [1, 2, 3])
        (Document.read first).diagnostics (Document.read second).diagnostics := by
  intro first second
  have same : Line.texts first.toList = Line.texts second.toList := by decide
  have numbers : Line.numbers first.toList = [1, 4, 5] ∧ Line.numbers second.toList = [1, 2, 3] :=
    ⟨by decide, by decide⟩
  have alike := read_of_texts_eq same
  rw [numbers.1, numbers.2] at alike
  exact ⟨same, numbers.1, numbers.2, alike⟩

end Document
end PolySchema
