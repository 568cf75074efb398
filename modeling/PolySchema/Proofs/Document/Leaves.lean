import PolySchema.Proofs.Document.Names

namespace PolySchema

/-- An alias line with any type text. The semicolon at the end keeps those of the text. -/
def AliasDef.lineText (text : List Char) : List Char :=
  Keyword.alias.word.toList ++ ' ' :: (['A'] ++ ([' ', '=', ' '] ++ (text ++ [' ', ';'])))

namespace AliasDef

variable {text : List Char}

private theorem isLineText_lineText (unbroken : '\n' ∉ text) :
    Line.IsLineText (lineText text) := by
  have word := Keyword.alias.isIdentifier_word
  refine .of_name word ?_ (by simpa using unbroken)
  have ending : lineText text =
      Keyword.alias.word.toList ++ ([' ', 'A', ' ', '=', ' '] ++ (text ++ [' ']) ++ [';']) := by
    simp [lineText]
  rw [← lineText, ending]
  exact (tight_of_isIdentifier word).enclose (.singleton (by decide)) _

private theorem operand_lineText (text : List Char) :
    Keyword.operand .alias (lineText text) = ['A', ' ', '=', ' '] ++ (text ++ [' ']) := by
  have kept : Text.dropEndWhile (· == ';') (lineText text) =
      Keyword.alias.word.toList ++ ' ' :: (['A', ' ', '=', ' '] ++ (text ++ [' '])) := by
    simp [Text.dropEndWhile, lineText]
  rw [Keyword.operand, kept, ← String.length_toList, List.drop_left]
  exact Text.trimStart_padding ⟨'A', rfl, by decide⟩ Text.blank_space

private theorem split?_lineText (tight : Text.Tight text) :
    AliasDef.split? (lineText text) = some (['A'], text) := by
  have cut : Text.cutTop? '=' (['A', ' ', '=', ' '] ++ (text ++ [' '])) =
      some (['A', ' '], [' '] ++ (text ++ [' '])) := rfl
  have before : Text.trim ['A', ' '] = ['A'] := by decide
  have after : Text.trim ([' '] ++ (text ++ [' '])) = text :=
    Text.trim_padding tight Text.blank_space Text.blank_space
  have valid : isIdentifier ['A'] = true := by decide
  simp only [AliasDef.split?, operand_lineText, cut, before, after, valid,
    List.isEmpty_eq_false_iff.mpr tight.ne_nil, Bool.not_false, Bool.and_self, ↓reduceIte]

end AliasDef

namespace Document

theorem read_lineText {text : List Char} (bare : IsBareText text) :
    Document.read (String.ofList (AliasDef.lineText text)) =
      pure ⟨[.alias ⟨"A", .named (String.ofList text)⟩]⟩ := by
  have texts := Line.map_text_scan_intercalate
    (List.forall_mem_singleton.mpr (AliasDef.isLineText_lineText bare.unbroken))
  rw [List.intercalate_singleton] at texts
  obtain ⟨line, scanned, same⟩ := List.map_eq_singleton_iff.mp texts
  have keyword : Keyword.ofLine? line.text = some .alias := by
    rw [same]
    exact Keyword.alias.ofLine?_word (by decide) _
  have form : TypeForm.ofText (Text.trim text) = .name := by
    rw [bare.tight.trim_eq]
    exact bare.form
  have statement : (Statement.alias line).read =
      pure (some (.alias ⟨"A", .named (String.ofList text)⟩)) := by
    simp only [Statement.read, AliasDef.read, same, AliasDef.split?_lineText bare.tight,
      TypeExpr.read_of_name form, bare.tight.trim_eq, pure_bind, map_pure, Option.map_some]
  rw [Document.read, String.toList_ofList, scanned, Document.ofLines, Statement.group_cons,
    Statement.take, keyword, Statement.group, List.map_singleton, statement]
  rfl

/-- A source without problems can have any text as a type that has no other form than that of a
name, and no others. -/
theorem exists_clean_leaf_iff (name : String) :
    (∃ source, (Document.read source).diagnostics = [] ∧
      TypeExpr.named name ∈ (Document.read source).value.subexpressions) ↔
      IsBareText name.toList := by
  constructor
  · rintro ⟨source, _, member⟩
    obtain ⟨outer, present, nested⟩ := List.mem_flatMap.mp member
    exact (allNames_read source).types outer present _ nested
  · intro bare
    refine ⟨String.ofList (AliasDef.lineText name.toList), ?_⟩
    rw [read_lineText bare, String.ofList_toList]
    exact ⟨rfl, List.mem_cons_self⟩

/-- The semicolon after a field becomes part of its type. -/
theorem read_clean_semicolon :
    let document := Document.read "struct Point \x7b x: Int32; \x7d"
    document = ⟨⟨[.struct ⟨"Point", [⟨"x", .named "Int32;", false⟩], none⟩]⟩, []⟩ ∧
      .named "Int32;" ∈ document.value.subexpressions ∧ isIdentifier "Int32;".toList = false := by
  intro document
  let line : Line := ⟨1, "struct Point \x7b x: Int32; \x7d".toList⟩
  let block : Block := ⟨1, "struct Point".toList, [⟨1, " x: Int32; ".toList⟩], true⟩
  let decl : StructDef := ⟨"Point", [⟨"x", .named "Int32;", false⟩], none⟩
  have field : Field.read .malformedField 1 "x: Int32;".toList =
      pure (some ⟨"x", .named "Int32;", false⟩) := by
    have parts : FieldText.ofText? "x: Int32;".toList =
        some ⟨['x'], "Int32;".toList, false⟩ := rfl
    rw [Field.read_of_parts parts, TypeExpr.read_of_name rfl]
    rfl
  have statement : (Statement.struct block).read = pure (some (.struct decl)) := by
    have names : block.readName = pure (some ("Point", none)) := rfl
    have items : block.items = [⟨1, "x: Int32;".toList⟩] := rfl
    rw [Statement.read, StructDef.read, names, pure_bind, items, List.map_singleton, field]
    rfl
  have read : document = pure ⟨[.struct decl]⟩ := by
    have scanned : Line.scan line.text = [line] := rfl
    have taken : Statement.take line [] = (.struct block, []) := rfl
    change Document.ofLines (Line.scan line.text) = _
    rw [scanned, Document.ofLines, Statement.group_cons, taken, Statement.group,
      List.map_singleton, statement]
    rfl
  rw [read]
  exact ⟨rfl, List.mem_cons_self, by decide⟩

end Document
end PolySchema
