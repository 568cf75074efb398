import PolySchema.Proofs.Document.Reader

/-! What is reported quotes what was read. Readers report problems of a few kinds each, under the
number of the line that they were given, and with a stretch of the text as context. -/
namespace PolySchema

/-- The diagnostic is of one of the kinds, carries the number of the line and quotes a stretch of
it. -/
structure Diagnostic.Quotes (kinds : List Diagnostic.Kind) (line : Line)
    (diagnostic : Diagnostic) : Prop where
  kind : diagnostic.kind ∈ kinds
  number : diagnostic.line = some line.number
  context : diagnostic.context.toList <:+: line.text

namespace Diagnostic.Quotes

variable {kinds more : List Diagnostic.Kind} {line : Nat} {text inner : List Char}

theorem widen {diagnostic : Diagnostic} (quotes : Quotes kinds ⟨line, inner⟩ diagnostic)
    (within : kinds ⊆ more) (stretch : inner <:+: text) : Quotes more ⟨line, text⟩ diagnostic :=
  ⟨within quotes.kind, quotes.number, quotes.context.trans stretch⟩

theorem each_report {kind : Diagnostic.Kind} (listed : kind ∈ kinds) (stretch : inner <:+: text) :
    (Reported.report kind line inner).Each (Quotes kinds ⟨line, text⟩) := by
  refine .report ⟨listed, rfl, ?_⟩
  rwa [String.toList_ofList]

end Diagnostic.Quotes

/-- The kinds of problems that a type expression can have. -/
def TypeExpr.problems : List Diagnostic.Kind :=
  [.emptyTypeExpression, .misplacedOptional, .recordArity, .malformedRecordField]

section

open Diagnostic (Quotes)

variable {line : Nat}

private theorem Field.each_read_of (kind : Diagnostic.Kind) {text : List Char}
    (inner : ∀ parts, FieldText.ofText? text = some parts →
      (TypeExpr.read line parts.type).Each (Quotes TypeExpr.problems ⟨line, parts.type⟩)) :
    (Field.read kind line text).Each (Quotes (kind :: TypeExpr.problems) ⟨line, text⟩) := by
  cases found : FieldText.ofText? text with
  | none =>
    rw [Field.read_of_none found]
    exact .bind (Quotes.each_report List.mem_cons_self List.infix_rfl) (.pure _)
  | some parts =>
    rw [Field.read_of_parts found]
    refine .bind ((inner parts found).mono fun _ quotes => ?_) (.pure _)
    exact quotes.widen (List.subset_cons_self _ _) (FieldText.of_ofText? found).2

theorem TypeExpr.each_read (line : Nat) (text : List Char) :
    (TypeExpr.read line text).Each (Quotes TypeExpr.problems ⟨line, text⟩) := by
  induction text using TypeExpr.text_induction with
  | step text ih =>
    have whole : Text.trim text <:+: text := Text.isInfix_trim text
    have part (inner : List Char) (own : inner ∈ (TypeForm.ofText (Text.trim text)).parts) :
        (TypeExpr.read line inner).Each (Quotes TypeExpr.problems ⟨line, text⟩) :=
      (ih inner (.part own)).mono fun _ quotes =>
        quotes.widen (List.Subset.refl _) (TypeExpr.ReadsOn.part own).isInfix
    generalize form : TypeForm.ofText (Text.trim text) = shape at part
    cases shape with
    | empty =>
      rw [TypeExpr.read_of_empty form]
      exact .bind (Quotes.each_report (by decide) whole) (.pure _)
    | marked rest =>
      rw [TypeExpr.read_of_marked form]
      exact .bind (Quotes.each_report (by decide) whole) (part rest (by simp [TypeForm.parts]))
    | map key value =>
      rw [TypeExpr.read_of_map form]
      exact .bind (part key (by simp [TypeForm.parts]))
        (.bind (part value (by simp [TypeForm.parts])) (.pure _))
    | mapArity =>
      rw [TypeExpr.read_of_mapArity form]
      exact .bind (Quotes.each_report (by decide) whole) (.pure _)
    | generic base argument =>
      rw [TypeExpr.read_of_generic form]
      exact .map _ (part argument (by simp [TypeForm.parts]))
    | array element =>
      rw [TypeExpr.read_of_array form]
      exact .map _ (part element (by simp [TypeForm.parts]))
    | record items =>
      rw [TypeExpr.read_of_record form]
      refine .bind (.collect fun item present => ?_) (.pure _)
      have own : item ∈ (TypeForm.ofText (Text.trim text)).parts := by
        rw [form]
        exact present
      have field := Field.each_read_of .malformedRecordField fun parts found =>
        ih parts.type (.field form present found)
      exact field.mono fun _ quotes =>
        quotes.widen (by decide) (TypeExpr.ReadsOn.part own).isInfix
    | name =>
      rw [TypeExpr.read_of_name form]
      exact .pure _

theorem Field.each_read (kind : Diagnostic.Kind) (line : Nat) (text : List Char) :
    (Field.read kind line text).Each (Quotes (kind :: TypeExpr.problems) ⟨line, text⟩) :=
  Field.each_read_of kind fun parts _ => TypeExpr.each_read line parts.type

/-- The kinds of problems that a signature can have besides not being one. -/
def FunctionDef.problems : List Diagnostic.Kind := .malformedParameter :: TypeExpr.problems

theorem FunctionDef.each_read (kind : Diagnostic.Kind) (line : Nat) (text : List Char) :
    (FunctionDef.read kind line text).Each
      (Quotes (kind :: FunctionDef.problems) ⟨line, text⟩) := by
  have whole := isInfix_trimStatement text
  unfold FunctionDef.read
  split
  · exact .bind (Quotes.each_report List.mem_cons_self whole) (.pure _)
  · rename_i parts found
    have cut := SignatureText.isCutFrom_of_ofText? found
    refine .bind (.collect fun item present => ?_) (.bind ?_ (.pure _))
    · refine (Field.each_read .malformedParameter line item).mono fun _ quotes => ?_
      exact quotes.widen (List.subset_cons_self _ _)
        (((Text.isInfix_of_mem_items present).trans cut.parameters).trans whole)
    · refine (TypeExpr.each_read line parts.returnType).mono fun _ quotes => ?_
      refine quotes.widen ?_ (cut.returnType.trans whole)
      exact List.Subset.trans (List.subset_cons_self _ _) (List.subset_cons_self _ _)

theorem Method.each_read (item : Line) :
    (Method.read item).Each (Quotes (.malformedMethod :: FunctionDef.problems) item) := by
  refine .bind (FunctionDef.each_read .malformedMethod item.number item.text) ?_
  split
  · exact .pure _
  · split
    · exact .pure _
    · exact .bind (Quotes.each_report List.mem_cons_self List.infix_rfl) (.pure _)

theorem AliasDef.each_read (line : Line) : (AliasDef.read line).Each
    (Quotes (.malformedTypeAlias :: TypeExpr.problems) line) := by
  unfold AliasDef.read
  split
  · exact .bind (Quotes.each_report List.mem_cons_self List.infix_rfl) (.pure _)
  · rename_i name text found
    refine .bind ((TypeExpr.each_read line.number text).mono fun _ quotes => ?_) (.pure _)
    exact quotes.widen (List.subset_cons_self _ _) (AliasDef.of_split? found).2

theorem Block.each_readName (block : Block) : block.readName.Each
    (Quotes [.unterminatedBody, .malformedHeader] ⟨block.line, block.header⟩) := by
  have report {kind : Diagnostic.Kind} (listed : kind ∈ [.unterminatedBody, .malformedHeader]) :
      (Reported.report kind block.line block.header).Each
        (Quotes [.unterminatedBody, .malformedHeader] ⟨block.line, block.header⟩) :=
    Quotes.each_report listed List.infix_rfl
  have unfinished := report List.mem_cons_self
  have malformed := report (List.mem_cons_of_mem _ List.mem_cons_self)
  unfold Block.readName
  cases block.name? with
  | none =>
    dsimp only
    split
    · exact .bind unfinished (.bind malformed (.pure _))
    · exact .bind malformed (.pure _)
  | some names =>
    dsimp only
    split
    · exact .bind unfinished (.pure _)
    · exact .pure _

end

end PolySchema
