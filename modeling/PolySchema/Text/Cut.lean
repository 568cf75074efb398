import PolySchema.Text.Blank

namespace PolySchema.Text

/-- The maximal stretches without a character satisfying `p`, empty ones included. -/
def splitWhere (p : Char → Bool) : List Char → List (List Char)
  | [] => [[]]
  | c :: rest =>
    if p c then [] :: splitWhere p rest else (splitWhere p rest).modifyHead (c :: ·)

/-- The texts before and after the first `needle`. -/
def cutFirst? (needle : Char) : List Char → Option (List Char × List Char)
  | [] => none
  | c :: rest =>
    if c == needle then some ([], rest)
    else (cutFirst? needle rest).map fun cut => (c :: cut.1, cut.2)

/-- The text without the given ending, if it has that ending. -/
def dropEnding? (ending text : List Char) : Option (List Char) :=
  if ending.isSuffixOf text then some (text.take (text.length - ending.length)) else none

/-- The non-empty stretches between blank characters. -/
def words (text : List Char) : List (List Char) :=
  (splitWhere isBlank text).filter fun word => !word.isEmpty

/-- A carriage return directly before a line feed belongs to the line's end. -/
def dropReturn (line : List Char) : List Char := (dropEnding? ['\r'] line).getD line

/-- The lines of a text. Only a line feed ends a line, and one at the very end starts no further
line; a carriage return at the end of an unfinished last line is content. -/
def lines (text : List Char) : List (List Char) :=
  let pieces := splitWhere (· == '\n') text
  pieces.dropLast.map dropReturn ++ (pieces.getLast?.filter fun line => !line.isEmpty).toList

theorem cutFirst?_eq_some {needle : Char} {text before after : List Char}
    (found : cutFirst? needle text = some (before, after)) :
    text = before ++ needle :: after := by
  induction text generalizing before with
  | nil => simp [cutFirst?] at found
  | cons c rest ih =>
    by_cases same : c = needle
    · simp [cutFirst?, same] at found
      simp [found, same]
    · simp only [cutFirst?, beq_iff_eq, same, if_false, Option.map_eq_some_iff] at found
      obtain ⟨⟨first, last⟩, cut, shape⟩ := found
      cases shape
      simp [ih cut]

theorem dropEnding?_eq_some_iff {ending text rest : List Char} :
    dropEnding? ending text = some rest ↔ text = rest ++ ending := by
  unfold dropEnding?
  constructor
  · intro found
    split at found
    · rename_i suffix
      obtain ⟨front, rfl⟩ := List.isSuffixOf_iff_suffix.mp suffix
      simp at found
      rw [found]
    · cases found
  · rintro rfl
    have suffix : ending.isSuffixOf (rest ++ ending) = true :=
      List.isSuffixOf_iff_suffix.mpr (List.suffix_append rest ending)
    simp [suffix]

end PolySchema.Text
