import PolySchema.Output
import PolySchema.Proofs.Text.Cut

/-! The layout of generated text. Blocks whose lines are neither broken nor empty come back when the
text is cut at its empty lines. -/
namespace PolySchema

namespace Text

/-- The texts between empty lines. Cuts are made where two line feeds follow each other, from the
start on. -/
def paragraphs : List Char → List (List Char)
  | [] => [[]]
  | '\n' :: '\n' :: rest => [] :: paragraphs rest
  | c :: rest => (paragraphs rest).modifyHead (c :: ·)

/-- A line that is not empty and does not go on after a line feed. -/
structure IsLine (line : List Char) : Prop where
  nonempty : line ≠ []
  unbroken : '\n' ∉ line

private theorem paragraphs_cons {c : Char} {rest : List Char}
    (apart : c = '\n' → rest.head? ≠ some '\n') :
    paragraphs (c :: rest) = (paragraphs rest).modifyHead (c :: ·) := by
  rw [paragraphs]
  rintro after rfl rfl
  exact apart rfl rfl

private theorem paragraphs_append {line : List Char} (unbroken : '\n' ∉ line) (rest : List Char) :
    paragraphs (line ++ rest) = (paragraphs rest).modifyHead (line ++ ·) := by
  induction line with
  | nil => exact (congrFun List.modifyHead_id _).symm
  | cons c line ih =>
    obtain ⟨other, later⟩ := not_or.mp (mt List.mem_cons.mpr unbroken)
    rw [List.cons_append, paragraphs_cons fun same => absurd same.symm other, ih later,
      List.modifyHead_modifyHead]
    rfl

/-- Single line feeds between lines that are not empty are no cuts either. -/
private theorem paragraphs_lines {lines : List (List Char)} (valid : ∀ line ∈ lines, IsLine line)
    (rest : List Char) : paragraphs (['\n'].intercalate lines ++ rest) =
      (paragraphs rest).modifyHead (['\n'].intercalate lines ++ ·) := by
  induction lines with
  | nil => exact (congrFun List.modifyHead_id _).symm
  | cons line lines ih =>
    obtain ⟨first, others⟩ := List.forall_mem_cons.mp valid
    cases lines with
    | nil =>
      rw [List.intercalate_singleton]
      exact paragraphs_append first.unbroken rest
    | cons next lines =>
      have joined := ih others
      have second := others next List.mem_cons_self
      obtain ⟨c, tail, rfl⟩ := List.exists_cons_of_ne_nil second.nonempty
      have start : c ≠ '\n' := fun same => second.unbroken (same ▸ List.mem_cons_self)
      have apart : (['\n'].intercalate ((c :: tail) :: lines) ++ rest).head? ≠ some '\n' := by
        rw [List.intercalate_cons_cons_left]
        simpa using start
      rw [List.intercalate_cons_cons, List.append_assoc, List.append_assoc,
        paragraphs_append first.unbroken, List.singleton_append, paragraphs_cons fun _ => apart,
        joined, List.modifyHead_modifyHead, List.modifyHead_modifyHead]
      simp [Function.comp_def]

/-- Blocks of lines come back when their joined text is cut at the empty lines. -/
theorem paragraphs_intercalate {blocks : List (List (List Char))} (nonempty : blocks ≠ [])
    (valid : ∀ block ∈ blocks, ∀ line ∈ block, IsLine line) :
    paragraphs (['\n', '\n'].intercalate (blocks.map ['\n'].intercalate)) =
      blocks.map ['\n'].intercalate := by
  induction blocks with
  | nil => exact absurd rfl nonempty
  | cons block blocks ih =>
    obtain ⟨first, others⟩ := List.forall_mem_cons.mp valid
    cases blocks with
    | nil => simpa [paragraphs] using paragraphs_lines first []
    | cons next blocks =>
      have joined := ih (List.cons_ne_nil _ _) others
      simp only [List.map_cons] at joined ⊢
      rw [List.intercalate_cons_cons, List.append_assoc, paragraphs_lines first, List.cons_append,
        List.singleton_append, paragraphs, joined, List.modifyHead_cons, List.append_nil]

/-- A text with something on its last line. -/
def Unended (text : List Char) : Prop := ∃ c, text.getLast? = some c ∧ c ≠ '\n'

theorem IsLine.unended {line : List Char} (valid : IsLine line) : Unended line := by
  have last := List.getLast?_eq_some_getLast valid.nonempty
  refine ⟨_, last, fun same => valid.unbroken ?_⟩
  exact same ▸ List.getLast_mem valid.nonempty

theorem Unended.intercalate {items : List (List Char)} (nonempty : items ≠ [])
    (each : ∀ item ∈ items, Unended item) (separator : List Char) :
    Unended (separator.intercalate items) := by
  induction items with
  | nil => exact absurd rfl nonempty
  | cons item items ih =>
    obtain ⟨first, others⟩ := List.forall_mem_cons.mp each
    cases items with
    | nil =>
      rw [List.intercalate_singleton]
      exact first
    | cons next items =>
      obtain ⟨c, last, visible⟩ := ih (List.cons_ne_nil _ _) others
      refine ⟨c, ?_, visible⟩
      rw [List.intercalate_cons_cons, List.getLast?_append, last, Option.some_or]

end Text

namespace Output

/-- The generated text without the end of its last line. -/
def body (output : Output) : List Char :=
  (Text.dropEnding? ['\n'] output.text.toList).getD output.text.toList

variable (settings : Settings) (target : Target) (resolution : Resolution)

private theorem toList_layOut (blocks : List String) :
    (layOut blocks).toList = ("\n\n".intercalate blocks).toList ++
      if "\n\n".intercalate blocks = "" then [] else ['\n'] := by
  unfold layOut
  by_cases empty : "\n\n".intercalate blocks = ""
  · simp [empty]
  · simp [empty]

theorem body_ofResolution : (ofResolution settings target resolution).body =
    ("\n\n".intercalate (blocks settings target resolution.items)).toList := by
  rw [body, ofResolution, toList_layOut]
  split
  · rename_i empty
    rw [empty]
    rfl
  · rw [Text.dropEnding?_append, Option.getD_some]

theorem text_ofResolution : (ofResolution settings target resolution).text.toList =
    (ofResolution settings target resolution).body ++
      if (ofResolution settings target resolution).body = [] then [] else ['\n'] := by
  rw [body_ofResolution, ofResolution, toList_layOut]
  simp only [String.toList_eq_nil_iff]

end Output
end PolySchema
