import Mathlib.Data.List.Forall2
import PolySchema.Proofs.Text.Nesting
import PolySchema.Proofs.Text.Part
import PolySchema.Proofs.Text.Slice

namespace PolySchema.Text

variable {separator needle : Char} {depth : Nat} {text piece front back : List Char}

/-- The pieces are what stands before the first separator that is found, and the pieces of what
stands behind it. -/
theorem topPieces_eq_cutTopFrom? (plain : opens separator = false ∧ closes separator = false)
    (depth : Nat) (text : List Char) :
    topPieces separator depth text = match cutTopFrom? separator depth text with
      | none => [text]
      | some (before, after) => before :: topPieces separator 0 after := by
  induction text generalizing depth with
  | nil => rfl
  | cons c rest ih =>
    by_cases here : c = separator ∧ depth = 0
    · obtain ⟨rfl, rfl⟩ := here
      simp [topPieces, cutTopFrom?, plain]
    · have inside : (c == separator && depth == 0) = false := by simpa using here
      rw [topPieces, cutTopFrom?, inside, ih (depthAfter depth c)]
      cases cutTopFrom? separator (depthAfter depth c) rest <;> rfl

theorem splitTop_of_absent (plain : opens separator = false ∧ closes separator = false)
    (absent : cutTop? separator text = none) : splitTop separator text = [trim text] := by
  rw [splitTop, topPieces_eq_cutTopFrom? plain, ← cutTop?, absent]
  rfl

theorem splitTop_of_found (plain : opens separator = false ∧ closes separator = false)
    {before after : List Char} (found : cutTop? separator text = some (before, after)) :
    splitTop separator text = trim before :: splitTop separator after := by
  rw [splitTop, topPieces_eq_cutTopFrom? plain, ← cutTop?, found]
  rfl

/-- No separator is found in a piece. The first piece is read from the depth at which the text
starts, all others from zero. -/
private theorem absent_of_topPieces (plain : opens separator = false ∧ closes separator = false)
    (depth : Nat) (text : List Char) :
    ∃ first others, topPieces separator depth text = first :: others ∧
      cutTopFrom? separator depth first = none ∧
      ∀ piece ∈ others, cutTop? separator piece = none := by
  induction text generalizing depth with
  | nil => exact ⟨[], [], rfl, rfl, List.forall_mem_nil _⟩
  | cons c rest ih =>
    by_cases here : c = separator ∧ depth = 0
    · obtain ⟨rfl, rfl⟩ := here
      -- The piece that starts behind the separator is one of the others now.
      obtain ⟨first, others, pieces, start, later⟩ := ih 0
      refine ⟨[], first :: others, ?_, rfl, List.forall_mem_cons.mpr ⟨start, later⟩⟩
      simp [topPieces, plain, pieces]
    · have inside : (c == separator && depth == 0) = false := by simpa using here
      obtain ⟨first, others, pieces, start, later⟩ := ih (depthAfter depth c)
      refine ⟨c :: first, others, ?_, ?_, later⟩
      · rw [topPieces, inside, pieces]
        rfl
      · rw [cutTopFrom?, inside, start]
        rfl

theorem absent_of_mem_topPieces (plain : opens separator = false ∧ closes separator = false)
    (member : piece ∈ topPieces separator 0 text) : cutTop? separator piece = none := by
  obtain ⟨first, others, pieces, start, later⟩ := absent_of_topPieces plain 0 text
  rw [pieces] at member
  rcases List.mem_cons.mp member with rfl | other
  · exact start
  · exact later piece other

private theorem cutTopFrom?_start (absent : cutTopFrom? needle depth (front ++ back) = none) :
    cutTopFrom? needle depth front = none := by
  induction front generalizing depth with
  | nil => rfl
  | cons c rest ih =>
    rw [List.cons_append, cutTopFrom?] at absent
    rw [cutTopFrom?]
    split at absent
    · cases absent
    · rename_i inside
      rw [if_neg inside, ih (Option.map_eq_none_iff.mp absent)]
      rfl

private theorem cutTopFrom?_behind_blank (blank : Blank front)
    (absent : cutTopFrom? needle depth (front ++ back) = none) :
    cutTopFrom? needle depth back = none := by
  induction front with
  | nil => exact absent
  | cons c rest ih =>
    obtain ⟨first, others⟩ := List.forall_mem_cons.mp blank
    rw [List.cons_append, cutTopFrom?, depthAfter_flat (flat_of_class (by decide) first)] at absent
    split at absent
    · cases absent
    · exact ih others (Option.map_eq_none_iff.mp absent)

theorem cutTop?_trim (absent : cutTop? needle text = none) : cutTop? needle (trim text) = none := by
  obtain ⟨left, right, before, _, shape⟩ := exists_trim text
  rw [shape] at absent
  exact cutTopFrom?_start (cutTopFrom?_behind_blank before absent)

theorem splitTop_piece (plain : opens separator = false ∧ closes separator = false)
    (member : piece ∈ splitTop separator text) : splitTop separator piece = [piece] := by
  obtain ⟨raw, inside, rfl⟩ := List.mem_map.mp member
  rw [splitTop_of_absent plain (cutTop?_trim (absent_of_mem_topPieces plain inside)), trim_trim]

/-- A text with blanks around it. -/
def Padded (text whole : List Char) : Prop :=
  ∃ left right, Blank left ∧ Blank right ∧ whole = left ++ (text ++ right)

theorem exists_padded_splitTop (separator : Char) (text : List Char) :
    ∃ padded, List.Forall₂ Padded (splitTop separator text) padded ∧
      [separator].intercalate padded = text := by
  refine ⟨topPieces separator 0 text, ?_, intercalate_topPieces separator 0 text⟩
  rw [splitTop, List.forall₂_map_left_iff, List.forall₂_same]
  exact fun raw _ => exists_trim raw

/-- Splitting at a character that is no bracket follows the search for it: where it is not found,
the trimmed text is the only piece, and where it is found, the piece before it comes first and what
follows it is split in turn. So the text is made up of its pieces, and no piece is split again. -/
theorem splitTop_topOffset? (plain : opens separator = false ∧ closes separator = false)
    (text : List Char) :
    (topOffset? separator text = none → splitTop separator text = [trim text]) ∧
    (∀ offset, topOffset? separator text = some offset →
      ∃ before after, slice text 0 offset = .ok before ∧
        slice text (offset + separator.utf8Size) (byteSize text) = .ok after ∧
        splitTop separator text = trim before :: splitTop separator after) ∧
    (∃ padded, List.Forall₂ Padded (splitTop separator text) padded ∧
      [separator].intercalate padded = text) ∧
    ∀ piece ∈ splitTop separator text, splitTop separator piece = [piece] := by
  refine ⟨?_, ?_, exists_padded_splitTop separator text, fun piece => splitTop_piece plain⟩
  · intro missing
    exact splitTop_of_absent plain (Option.map_eq_none_iff.mp missing)
  · intro offset place
    obtain ⟨⟨before, after⟩, found, rfl⟩ := Option.map_eq_some_iff.mp place
    have cut := cutTop?_eq_some found
    exact ⟨before, after, slice_before cut, slice_past cut, splitTop_of_found plain found⟩

/-- Closing brackets without partner, and a separator of three bytes inside and outside of
brackets. -/
theorem splitTop_topOffset?_stray :
    let inner := ['<', 'b', '→', 'c', '>', ')']
    let text := [')', 'é', '→'] ++ (inner ++ ['→', ' ', 'd', ' '])
    (opens '→' = false ∧ closes '→' = false) ∧ topOffset? '→' text = some 3 ∧
      splitTop '→' text = [')', 'é'] :: splitTop '→' (inner ++ ['→', ' ', 'd', ' ']) ∧
      splitTop '→' inner = [inner] := by
  intro inner text
  have plain : opens '→' = false ∧ closes '→' = false := by decide
  obtain ⟨_, found, _, pieces⟩ := splitTop_topOffset? plain text
  obtain ⟨before, after, first, rest, split⟩ := found 3 rfl
  cases first
  cases rest
  exact ⟨plain, rfl, split, pieces inner (by decide)⟩

end PolySchema.Text
