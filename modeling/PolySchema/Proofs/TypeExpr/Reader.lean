import PolySchema.Proofs.Reported
import PolySchema.Proofs.Text.Part
import PolySchema.TypeExpr.Reader

/-! What reading does with each form of a type text, and induction along the parts of a text that
are read further. -/
namespace PolySchema

namespace TypeForm

variable {text part : List Char}

private theorem isInfix_of_mem_ofMapArgument {argument : List Char}
    (member : part ∈ (ofMapArgument argument).parts) : part <:+: argument := by
  unfold ofMapArgument at member
  split at member
  · rename_i key value pieces
    split at member
    · cases member
    · have piece : part ∈ Text.splitTop ',' argument := by
        rw [pieces]
        exact member
      exact Text.isInfix_of_mem_splitTop piece
  · cases member

theorem isInfix_of_mem_parts (member : part ∈ (ofText text).parts) : part <:+: text := by
  unfold ofText at member
  split at member
  · cases member
  · split at member
    · rename_i rest marked
      rw [List.mem_singleton.mp member, Text.dropEnding?_eq_some_iff.mp marked]
      exact (List.prefix_append rest _).isInfix
    · split at member
      · rename_i base argument found
        obtain ⟨before, bracket, cut, _⟩ := application?_eq_some found
        have whole : argument <:+: text :=
          (List.prefix_append argument [bracket]).isInfix.trans (Text.isInfix_after cut)
        split at member
        · exact (isInfix_of_mem_ofMapArgument member).trans whole
        · rwa [List.mem_singleton.mp member]
      · split at member
        · rename_i element paired
          rw [List.mem_singleton.mp member, Text.dropEnding?_eq_some_iff.mp paired]
          exact (List.prefix_append element _).isInfix
        · split at member
          · rename_i body found
            obtain ⟨bracket, rfl, _⟩ := recordBody?_eq_some found
            refine (Text.isInfix_of_mem_items member).trans ?_
            exact (List.prefix_append body [bracket]).isInfix.trans (List.suffix_cons _ _).isInfix
          · cases member

end TypeForm

namespace FieldText

private theorem isPrefix_unmark (text : List Char) : (unmark text).1 <+: text := by
  unfold unmark
  split
  · rename_i rest marked
    rw [Text.dropEnding?_eq_some_iff.mp marked]
    exact (Text.isPrefix_dropEndWhile _ rest).trans (List.prefix_append rest _)
  · exact List.prefix_rfl

/-- The name of a field is an identifier, and its type is a stretch of the field text. -/
theorem of_ofText? {text : List Char} {parts : FieldText} (found : ofText? text = some parts) :
    isIdentifier parts.name = true ∧ parts.type <:+: text := by
  unfold ofText? at found
  split at found
  · cases found
  · rename_i before after cut
    dsimp only at found
    split at found
    · rename_i valid
      rw [Bool.and_eq_true] at valid
      cases found
      refine ⟨valid.1, (isPrefix_unmark _).isInfix.trans ?_⟩
      exact (Text.isInfix_trim after).trans (Text.isInfix_after (Text.cutTop?_eq_some cut))
    · cases found

end FieldText

namespace TypeExpr

variable {line : Nat} {text : List Char}

theorem read_of_empty (form : TypeForm.ofText (Text.trim text) = .empty) :
    TypeExpr.read line text = do
      Reported.report .emptyTypeExpression line (Text.trim text)
      return .named "Any" := by
  rw [TypeExpr.read]
  split <;> simp_all

theorem read_of_marked {rest : List Char} (form : TypeForm.ofText (Text.trim text) = .marked rest) :
    TypeExpr.read line text = (do
      Reported.report .misplacedOptional line (Text.trim text)
      TypeExpr.read line rest) := by
  rw [TypeExpr.read]
  split <;> simp_all

theorem read_of_map {key value : List Char}
    (form : TypeForm.ofText (Text.trim text) = .map key value) :
    TypeExpr.read line text = do
      let key ← TypeExpr.read line key
      let value ← TypeExpr.read line value
      return .map key value := by
  rw [TypeExpr.read]
  split <;> simp_all

theorem read_of_mapArity (form : TypeForm.ofText (Text.trim text) = .mapArity) :
    TypeExpr.read line text = do
      Reported.report .recordArity line (Text.trim text)
      return .map (.named "String") (.named "Any") := by
  rw [TypeExpr.read]
  split <;> simp_all

theorem read_of_generic {base argument : List Char}
    (form : TypeForm.ofText (Text.trim text) = .generic base argument) :
    TypeExpr.read line text = .generic (String.ofList base) <$> TypeExpr.read line argument := by
  rw [TypeExpr.read]
  split <;> simp_all [bind_pure_comp]

theorem read_of_array {element : List Char}
    (form : TypeForm.ofText (Text.trim text) = .array element) :
    TypeExpr.read line text = .array <$> TypeExpr.read line element := by
  rw [TypeExpr.read]
  split <;> simp_all [bind_pure_comp]

theorem read_of_name (form : TypeForm.ofText (Text.trim text) = .name) :
    TypeExpr.read line text = pure (.named (String.ofList (Text.trim text))) := by
  rw [TypeExpr.read]
  split <;> simp_all

end TypeExpr

namespace Field

variable {kind : Diagnostic.Kind} {line : Nat} {text : List Char}

theorem read_of_none (found : FieldText.ofText? text = none) :
    Field.read kind line text = do
      Reported.report kind line text
      return none := by
  rw [Field.read]
  split <;> simp_all

theorem read_of_parts {parts : FieldText} (found : FieldText.ofText? text = some parts) :
    Field.read kind line text = do
      let type ← TypeExpr.read line parts.type
      return some ⟨String.ofList parts.name, type, parts.optional⟩ := by
  rw [Field.read]
  split <;> simp_all

theorem exists_parts_of_read {field : Field} (read : (Field.read kind line text).value = some field) :
    ∃ parts, FieldText.ofText? text = some parts ∧
      field = ⟨String.ofList parts.name, (TypeExpr.read line parts.type).value, parts.optional⟩ := by
  cases found : FieldText.ofText? text with
  | none =>
    rw [read_of_none found] at read
    cases read
  | some parts =>
    rw [read_of_parts found] at read
    cases read
    exact ⟨parts, rfl, rfl⟩

theorem exists_parts_of_mem_readItems {items : List (List Char)} {field : Field}
    (member : field ∈ (Field.readItems kind line items).value) :
    ∃ item ∈ items, ∃ parts, FieldText.ofText? item = some parts ∧
      field = ⟨String.ofList parts.name, (TypeExpr.read line parts.type).value, parts.optional⟩ := by
  obtain ⟨item, present, read⟩ := Reported.mem_value_collect.mp member
  exact ⟨item, present, exists_parts_of_read read⟩

end Field

/-- What is read further from a text: a part of its form, or the type of a field that is one. -/
inductive TypeExpr.ReadsOn (text : List Char) : List Char → Prop where
  | part : part ∈ (TypeForm.ofText (Text.trim text)).parts → ReadsOn text part
  | field : TypeForm.ofText (Text.trim text) = .record items → item ∈ items →
      FieldText.ofText? item = some parts → ReadsOn text parts.type

theorem TypeExpr.ReadsOn.length_lt {text inner : List Char} (nested : TypeExpr.ReadsOn text inner) :
    inner.length < text.length := by
  have shorter {part : List Char} (member : part ∈ (TypeForm.ofText (Text.trim text)).parts) :
      part.length < text.length :=
    Nat.lt_of_lt_of_le (TypeForm.length_lt_of_mem_parts member) (Text.length_trim_le text)
  cases nested with
  | part member => exact shorter member
  | field form member found =>
    exact Nat.lt_trans (FieldText.length_type_lt found) (shorter (by rw [form]; exact member))

theorem TypeExpr.ReadsOn.isInfix {text inner : List Char} (nested : TypeExpr.ReadsOn text inner) :
    inner <:+: text := by
  have stretch {part : List Char} (member : part ∈ (TypeForm.ofText (Text.trim text)).parts) :
      part <:+: text := (TypeForm.isInfix_of_mem_parts member).trans (Text.isInfix_trim text)
  cases nested with
  | part member => exact stretch member
  | field form member found =>
    exact (FieldText.of_ofText? found).2.trans (stretch (by rw [form]; exact member))

/-- A property of texts holds if it passes from what is read further to the text. -/
theorem TypeExpr.text_induction {motive : List Char → Prop}
    (step : ∀ text, (∀ inner, TypeExpr.ReadsOn text inner → motive inner) → motive text)
    (text : List Char) : motive text :=
  (measure List.length).wf.induction text fun text ih =>
    step text fun inner nested => ih inner nested.length_lt

end PolySchema
