import PolySchema.Proofs.Text.Cut
import PolySchema.Text.Bracket

namespace PolySchema.Text

variable {text before after piece : List Char} {c : Char}

theorem isPrefix_dropEndWhile (p : Char → Bool) (text : List Char) :
    dropEndWhile p text <+: text := by
  have suffix := List.dropWhile_suffix p (l := text.reverse)
  rwa [← List.reverse_prefix, List.reverse_reverse] at suffix

theorem isInfix_trim (text : List Char) : trim text <:+: text :=
  (isPrefix_dropEndWhile isBlank _).isInfix.trans (List.dropWhile_suffix isBlank).isInfix

theorem isInfix_before (cut : text = before ++ c :: after) : before <:+: text :=
  cut ▸ (List.prefix_append before (c :: after)).isInfix

theorem isInfix_after (cut : text = before ++ c :: after) : after <:+: text :=
  cut ▸ ((List.suffix_cons c after).trans (List.suffix_append before (c :: after))).isInfix

theorem topPieces_ne_nil (separator : Char) (depth : Nat) (text : List Char) :
    topPieces separator depth text ≠ [] := by
  induction text generalizing depth with
  | nil => exact List.cons_ne_nil _ _
  | cons c rest ih =>
    rw [topPieces]
    split
    · exact List.cons_ne_nil _ _
    · rw [Ne, List.modifyHead_eq_nil_iff]
      exact ih _

/-- Pieces with the separator between them make up the text. -/
theorem intercalate_topPieces (separator : Char) (depth : Nat) (text : List Char) :
    [separator].intercalate (topPieces separator depth text) = text := by
  induction text generalizing depth with
  | nil => rfl
  | cons c rest ih =>
    rw [topPieces]
    split
    · rename_i here
      simp only [Bool.and_eq_true, beq_iff_eq] at here
      obtain ⟨first, others, shape⟩ :=
        List.exists_cons_of_ne_nil (topPieces_ne_nil separator depth rest)
      rw [shape, List.intercalate_cons_cons, ← shape, ih, here.1.1.1]
      rfl
    · have whole := ih (depthAfter depth c)
      obtain ⟨first, others, shape⟩ :=
        List.exists_cons_of_ne_nil (topPieces_ne_nil separator (depthAfter depth c) rest)
      rw [shape] at whole
      rw [shape, List.modifyHead_cons, ← whole]
      cases others <;> simp

private theorem isInfix_intercalate {separator : List Char} {pieces : List (List Char)}
    (member : piece ∈ pieces) : piece <:+: separator.intercalate pieces := by
  induction pieces with
  | nil => cases member
  | cons first rest ih =>
    cases rest with
    | nil =>
      rw [List.intercalate_singleton]
      exact List.mem_singleton.mp member ▸ List.infix_rfl
    | cons second others =>
      rw [List.intercalate_cons_cons]
      rcases List.mem_cons.mp member with rfl | later
      · exact ((List.prefix_append piece separator).trans (List.prefix_append _ _)).isInfix
      · exact (ih later).trans (List.suffix_append _ _).isInfix

theorem isInfix_of_mem_splitTop {separator : Char} (member : piece ∈ splitTop separator text) :
    piece <:+: text := by
  obtain ⟨raw, inside, rfl⟩ := List.mem_map.mp member
  have stretch : raw <:+: [separator].intercalate (topPieces separator 0 text) :=
    isInfix_intercalate inside
  rw [intercalate_topPieces] at stretch
  exact (isInfix_trim raw).trans stretch

theorem isInfix_of_mem_items (member : piece ∈ items text) : piece <:+: text :=
  isInfix_of_mem_splitTop (List.mem_filter.mp member).1

theorem isPrefix_dropReturn (line : List Char) : dropReturn line <+: line := by
  cases found : dropEnding? ['\r'] line with
  | none =>
    rw [dropReturn, found]
    exact List.prefix_rfl
  | some rest =>
    rw [dropReturn, found, Option.getD_some, dropEnding?_eq_some_iff.mp found]
    exact List.prefix_append rest _

theorem unbroken_of_mem_lines {text line : List Char} (member : line ∈ lines text) :
    '\n' ∉ line := by
  have piece {line : List Char} (inside : line ∈ splitWhere (· == '\n') text) : '\n' ∉ line := by
    intro broken
    simpa using of_mem_splitWhere inside _ broken
  rcases List.mem_append.mp member with front | last
  · obtain ⟨whole, inside, rfl⟩ := List.mem_map.mp front
    exact fun broken =>
      piece (List.dropLast_subset _ inside) ((isPrefix_dropReturn whole).subset broken)
  · obtain ⟨found, _⟩ := Option.filter_eq_some_iff.mp (Option.mem_toList.mp last)
    exact piece (List.mem_of_getLast? found)

theorem eq_nil_of_lines {text : List Char} (empty : lines text = []) : text = [] := by
  have nonempty := List.splitOn_ne_nil '\n' text
  have split : splitWhere (· == '\n') text = text.splitOn '\n' := splitWhere_eq_splitOnP _ text
  rw [lines, split, List.getLast?_eq_some_getLast nonempty] at empty
  obtain ⟨front, last⟩ := List.append_eq_nil_iff.mp empty
  have blank : (text.splitOn '\n').getLast nonempty = [] := by simpa using last
  have whole : [[]] = text.splitOn '\n' := by
    rw [← List.dropLast_concat_getLast nonempty, List.map_eq_nil_iff.mp front, blank]
    rfl
  calc text = ['\n'].intercalate (text.splitOn '\n') := (List.intercalate_splitOn '\n').symm
    _ = [] := by rw [← whole, List.intercalate_singleton]

end PolySchema.Text
