import PolySchema.Document.Reader
import PolySchema.Proofs.Document.Printed

namespace PolySchema

/-- Lines with the texts of printed values are read to these values. -/
private theorem Reported.collect_printed {read : Line → Reported (Option α)}
    {print : α → List Char} {lines : List Line} {values : List α}
    (texts : lines.map Line.text = values.map print)
    (each : ∀ value ∈ values, ∀ number, read ⟨number, print value⟩ = pure (some value)) :
    Reported.collect (lines.map read) = pure values := by
  induction values generalizing lines with
  | nil =>
    rw [List.map_nil, List.map_eq_nil_iff] at texts
    rw [texts]
    rfl
  | cons value values ih =>
    obtain ⟨⟨number, text⟩, others, rfl, shape, later⟩ := List.map_eq_cons_iff.mp texts
    subst shape
    rw [List.map_cons, Reported.collect_cons, each value (by simp),
      ih later fun other member => each other (by simp [member])]
    rfl

section Header

variable {keyword : Keyword} {name : String} {parent : Option String}

private theorem words_of_isIdentifier {name : List Char} (valid : isIdentifier name = true) :
    Text.words name = [name] :=
  Text.words_single (ne_nil_of_isIdentifier valid) (visible_of_isIdentifier valid)

private theorem words_parentText (valid : ∀ name ∈ parent, isIdentifier name.toList = true)
    (front : List Char) : Text.words (front ++ parentText parent) =
      Text.words front ++ (parent.map fun name => ["extends".toList, name.toList]).getD [] := by
  cases parent with
  | none => simp [parentText]
  | some parent =>
    have shape : front ++ parentText (some parent) =
        front ++ ' ' :: ("extends".toList ++ ' ' :: parent.toList) := by
      simp [parentText]
    have link : Text.words "extends".toList = ["extends".toList] := rfl
    rw [shape, Text.words_append_blank (by decide), Text.words_append_blank (by decide), link,
      words_of_isIdentifier (valid parent rfl)]
    rfl

private theorem words_printHeader (valid : isIdentifier name.toList = true)
    (parental : ∀ name ∈ parent, isIdentifier name.toList = true) :
    Text.words (printHeader keyword name parent).toList =
      keyword.word.toList :: name.toList ::
        (parent.map fun name => ["extends".toList, name.toList]).getD [] := by
  rw [toList_printHeader, Text.words_append_blank (by decide), words_parentText parental,
    words_of_isIdentifier keyword.isIdentifier_word, words_of_isIdentifier valid]
  rfl

theorem Block.readName_printHeader {block : Block} (valid : isIdentifier name.toList = true)
    (parental : ∀ name ∈ parent, isIdentifier name.toList = true)
    (header : block.header = (printHeader keyword name parent).toList)
    (closed : block.closed = true) : block.readName = pure (some (name, parent)) := by
  have names : block.name? = some (name, parent) := by
    rw [Block.name?, header, words_printHeader valid parental]
    cases parent with
    | none => simp [valid]
    | some parent => simp [valid, parental parent rfl]
  simp [Block.readName, closed, names]

theorem Keyword.ofLine?_printHeader (valid : isIdentifier name.toList = true)
    (suffix : List Char) :
    Keyword.ofLine? ((printHeader keyword name parent).toList ++ suffix) = some keyword := by
  rw [toList_printHeader]
  simpa using keyword.ofLine?_word valid (parentText parent ++ suffix)

private theorem brace_not_mem_printHeader (valid : isIdentifier name.toList = true)
    (parental : ∀ name ∈ parent, isIdentifier name.toList = true) :
    '{' ∉ (printHeader keyword name parent).toList := by
  have word : '{' ∉ keyword.word.toList := not_mem_of_isIdentifier keyword.isIdentifier_word rfl
  have named : '{' ∉ name.toList := not_mem_of_isIdentifier valid rfl
  rw [toList_printHeader]
  cases parent with
  | none => simp [parentText, word, named]
  | some parent =>
    have extended : '{' ∉ parent.toList := not_mem_of_isIdentifier (parental parent rfl) rfl
    simp [parentText, word, named, extended]

/-- A printed body below its header is one block with the names and the items that were printed. -/
theorem Block.exists_take_print (layout : BodyLayout) (keyword : Keyword)
    (valid : isIdentifier name.toList = true)
    (parental : ∀ name ∈ parent, isIdentifier name.toList = true) {items : List String}
    (itemised : ∀ item ∈ items, IsBodyItem item.toList) {lines : List Line}
    (texts : lines.map Line.text =
      (layout.print (printHeader keyword name parent) items).map String.toList)
    (rest : List Line) :
    ∃ first others block, lines = first :: others ∧
      Keyword.ofLine? first.text = some keyword ∧
      Block.take first (others ++ rest) = (block, rest) ∧
      block.readName = pure (some (name, parent)) ∧
      block.items.map Line.text = items.map String.toList := by
  obtain ⟨first, others, block, split, ⟨suffix, start⟩, taken, header, closed, inside⟩ :=
    layout.take_print (brace_not_mem_printHeader valid parental)
      (isLineText_printHeader valid parental).tight itemised texts rest
  refine ⟨first, others, block, split, ?_, taken, ?_, inside⟩
  · rw [start]
    exact Keyword.ofLine?_printHeader valid suffix
  · exact Block.readName_printHeader valid parental header closed

end Header

theorem Field.isBodyItem_print {field : Field} (valid : field.isExpressible = true) :
    IsBodyItem field.print.toList := by
  refine ⟨Field.isItem_of_isExpressible valid, field.name.toList, ':', _, field.toList_print, ?_,
    rfl, by decide⟩
  rw [Field.isExpressible, Bool.and_eq_true] at valid
  exact valid.1

theorem Method.isBodyItem_print {method : Method} (valid : method.signature.Expressible) :
    IsBodyItem method.print.toList := by
  have text := toList_printSignature method.signature
  rw [← FunctionDef.signatureText, ← Method.toList_print, List.append_assoc] at text
  refine ⟨?_, method.name.toList, '(', _, text, valid.name, rfl, by decide⟩
  rw [Method.toList_print]
  exact FunctionDef.isItem_signatureText valid

/-- The lines make up one statement, whatever comes after them, and the declaration is read from
it. -/
def Declaration.IsReadFrom (declaration : Declaration) (lines : List Line) : Prop :=
  ∀ rest, ∃ statement, Statement.group (lines ++ rest) = statement :: Statement.group rest ∧
    statement.read = pure (some declaration)

theorem StructDef.isReadFrom_print {decl : StructDef} (valid : decl.Expressible)
    (layout : BodyLayout) {lines : List Line}
    (texts : lines.map Line.text = ((Declaration.struct decl).print layout).map String.toList) :
    (Declaration.struct decl).IsReadFrom lines := by
  intro rest
  have itemised : ∀ item ∈ decl.fields.map Field.print, IsBodyItem item.toList := by
    intro item member
    obtain ⟨field, present, rfl⟩ := List.mem_map.mp member
    exact Field.isBodyItem_print (valid.fields field present)
  obtain ⟨first, others, block, rfl, keyword, taken, names, inside⟩ :=
    Block.exists_take_print layout .struct valid.name valid.parent itemised texts rest
  have fields : Reported.collect (block.items.map fun item =>
      Field.read .malformedField item.number item.text) = pure decl.fields := by
    rw [List.map_map] at inside
    exact Reported.collect_printed inside fun field member number =>
      Field.read_of_isExpressible (valid.fields field member) _ number
  refine ⟨.struct block, ?_, ?_⟩
  · simp only [List.cons_append, Statement.group_cons, Statement.take, keyword, taken]
  · simp only [Statement.read, StructDef.read, names, fields, pure_bind, map_pure, Option.map_some]

theorem InterfaceDef.isReadFrom_print {decl : InterfaceDef} (valid : decl.Expressible)
    (layout : BodyLayout) {lines : List Line}
    (texts : lines.map Line.text = ((Declaration.interface decl).print layout).map String.toList) :
    (Declaration.interface decl).IsReadFrom lines := by
  intro rest
  have itemised : ∀ item ∈ decl.methods.map Method.print, IsBodyItem item.toList := by
    intro item member
    obtain ⟨method, present, rfl⟩ := List.mem_map.mp member
    exact Method.isBodyItem_print (valid.methods method present)
  obtain ⟨first, others, block, rfl, keyword, taken, names, inside⟩ :=
    Block.exists_take_print layout .interface valid.name valid.parent itemised texts rest
  have methods : Reported.collect (block.items.map Method.read) = pure decl.methods := by
    rw [List.map_map] at inside
    exact Reported.collect_printed inside fun method member number =>
      Method.read_print (valid.methods method member) number
  refine ⟨.interface block, ?_, ?_⟩
  · simp only [List.cons_append, Statement.group_cons, Statement.take, keyword, taken]
  · simp only [Statement.read, InterfaceDef.read, names, methods, pure_bind, map_pure,
      Option.map_some]

theorem Keyword.operand_append (keyword : Keyword) {text : List Char} {c : Char}
    (tight : Text.Tight text) (last : text.getLast? = some c) (other : c ≠ ';') :
    keyword.operand (keyword.word.toList ++ ' ' :: text) = text := by
  have ending : (keyword.word.toList ++ ' ' :: text).getLast? = some c := by
    rw [List.getLast?_append, List.getLast?_cons, last]
    rfl
  have kept : Text.dropEndWhile (· == ';') (keyword.word.toList ++ ' ' :: text) =
      keyword.word.toList ++ ' ' :: text :=
    Text.dropEndWhile_of_last ending (by simpa using other)
  have operand := Text.trimStart_padding tight.first Text.blank_space
  rw [Keyword.operand, kept, ← String.length_toList, List.drop_left]
  exact operand

theorem FunctionDef.isReadFrom_print {decl : FunctionDef} (valid : decl.Expressible)
    (layout : BodyLayout) {lines : List Line}
    (texts : lines.map Line.text = ((Declaration.function decl).print layout).map String.toList) :
    (Declaration.function decl).IsReadFrom lines := by
  intro rest
  rw [Declaration.print, List.map_singleton, FunctionDef.toList_print] at texts
  obtain ⟨line, rfl, text⟩ := List.map_eq_singleton_iff.mp texts
  have keyword : Keyword.ofLine? line.text = some .function := by
    rw [text, signatureText, toList_printSignature, List.append_assoc]
    exact Keyword.function.ofLine?_word valid.name _
  obtain ⟨c, last, other⟩ := last_signatureText valid
  refine ⟨.function line, ?_, ?_⟩
  · simp only [List.singleton_append, Statement.group_cons, Statement.take, keyword]
  · simp only [Statement.read, text,
      Keyword.operand_append .function (tight_signatureText valid) last other,
      read_signatureText valid, map_pure, Option.map_some]

private theorem AliasDef.split?_append {name type : List Char} (valid : isIdentifier name = true)
    (shape : IsTypeText type) :
    AliasDef.split? (Keyword.alias.word.toList ++ ' ' :: (name ++ ([' ', '=', ' '] ++ type))) =
      some (name, type) := by
  obtain ⟨c, last, other⟩ := shape.last_ne ';' rfl rfl
  have tight : Text.Tight (name ++ ([' ', '=', ' '] ++ type)) :=
    (tight_of_isIdentifier valid).enclose shape.tight _
  have ending : (name ++ ([' ', '=', ' '] ++ type)).getLast? = some c := by
    simp [List.getLast?_append, List.getLast?_cons, last]
  have front : Text.Nested (· ≠ '=') (name ++ [' ']) :=
    ((IsTypeText.of_isIdentifier valid).nested_ne '=' rfl rfl).append
      (.of_marks (by simp) rfl)
  have cut : Text.cutTop? '=' (name ++ ([' ', '=', ' '] ++ type)) =
      some (name ++ [' '], [' '] ++ type) := by
    simpa using Text.cutTop?_nested front (by simp) ([' '] ++ type)
  have before : Text.trim (name ++ [' ']) = name := by
    simpa using Text.trim_padding (tight_of_isIdentifier valid) Text.blank_nil Text.blank_space
  have after : Text.trim ([' '] ++ type) = type := by
    simpa using Text.trim_padding shape.tight Text.blank_space Text.blank_nil
  simp only [AliasDef.split?, Keyword.operand_append .alias tight ending other, cut, before, after,
    valid, List.isEmpty_eq_false_iff.mpr shape.ne_nil, Bool.not_false, Bool.and_self, ↓reduceIte]

theorem AliasDef.isReadFrom_print {decl : AliasDef} (valid : decl.Expressible)
    (layout : BodyLayout) {lines : List Line}
    (texts : lines.map Line.text = ((Declaration.alias decl).print layout).map String.toList) :
    (Declaration.alias decl).IsReadFrom lines := by
  intro rest
  rw [Declaration.print, List.map_singleton, AliasDef.toList_print] at texts
  obtain ⟨line, rfl, text⟩ := List.map_eq_singleton_iff.mp texts
  have keyword : Keyword.ofLine? line.text = some .alias := by
    rw [text]
    exact Keyword.alias.ofLine?_word valid.name _
  have shape := TypeExpr.isTypeText_print (TypeExpr.isWritable_of_isExpressible valid.type)
  refine ⟨.alias line, ?_, ?_⟩
  · simp only [List.singleton_append, Statement.group_cons, Statement.take, keyword]
  · simp only [Statement.read, AliasDef.read, text, AliasDef.split?_append valid.name shape,
      TypeExpr.read_of_isExpressible valid.type, pure_bind, map_pure, Option.map_some,
      String.ofList_toList]

/-- Every declaration is read from its printed lines. -/
theorem Declaration.isReadFrom_print {declaration : Declaration} (valid : declaration.Expressible)
    (layout : BodyLayout) {lines : List Line}
    (texts : lines.map Line.text = (declaration.print layout).map String.toList) :
    declaration.IsReadFrom lines := by
  match declaration, valid with
  | .struct decl, valid => exact StructDef.isReadFrom_print valid layout texts
  | .interface decl, valid => exact InterfaceDef.isReadFrom_print valid layout texts
  | .function decl, valid => exact FunctionDef.isReadFrom_print valid layout texts
  | .alias decl, valid => exact AliasDef.isReadFrom_print valid layout texts

namespace Document

/-- Reading printed declarations one after another gives them all. -/
theorem collect_group_print {declarations : List Declaration}
    (valid : ∀ declaration ∈ declarations, declaration.Expressible) (layout : Nat → BodyLayout)
    (start : Nat) {lines : List Line}
    (texts : lines.map Line.text = ((declarations.zipIdx start).flatMap fun entry =>
      entry.1.print (layout entry.2)).map String.toList) :
    Reported.collect ((Statement.group lines).map Statement.read) = pure declarations := by
  induction declarations generalizing start lines with
  | nil =>
    rw [List.map_eq_nil_iff.mp texts, Statement.group]
    rfl
  | cons declaration rest ih =>
    rw [List.zipIdx_cons, List.flatMap_cons, List.map_append] at texts
    obtain ⟨front, back, rfl, own, later⟩ := List.map_eq_append_iff.mp texts
    obtain ⟨statement, grouped, read⟩ :=
      Declaration.isReadFrom_print (valid declaration (by simp)) (layout start) own back
    have tail := ih (fun other member => valid other (by simp [member])) (start + 1) later
    rw [grouped, List.map_cons, Reported.collect_cons, read, tail]
    rfl

private theorem isLineText_print {document : Document} (valid : document.Expressible)
    (layout : Nat → BodyLayout) :
    ∀ text ∈ (document.declarations.zipIdx.flatMap fun entry =>
      entry.1.print (layout entry.2)).map String.toList, Line.IsLineText text := by
  intro text member
  rw [List.map_flatMap] at member
  obtain ⟨entry, present, inside⟩ := List.mem_flatMap.mp member
  have own := valid entry.1 (List.fst_mem_of_mem_zipIdx present)
  exact Declaration.isLineText_print own _ text inside

/-- Reading a printed document gives it back and finds nothing wrong, whatever the layouts of its
bodies. -/
theorem read_print_eq {document : Document} (valid : document.Expressible)
    (layout : Nat → BodyLayout) : Document.read (document.print layout) = ⟨document, []⟩ := by
  have source : (document.print layout).toList = ['\n'].intercalate
      ((document.declarations.zipIdx.flatMap fun entry =>
        entry.1.print (layout entry.2)).map String.toList) := by
    rw [Document.print, String.toList_intercalate]
    rfl
  have texts := Line.map_text_scan_intercalate (isLineText_print valid layout)
  have collected := collect_group_print valid layout 0 texts
  rw [Document.read, source, Document.ofLines, collected]
  rfl

/-- A document with the words of the language for names, in all layouts. -/
theorem read_print_eq_keywords :
    let document : Document := ⟨[
      .struct ⟨"struct", [
        ⟨"type", .map (.named "string") (.array (.generic "Set" (.named "T"))), true⟩,
        ⟨"function", .record [⟨"extends", .record [], false⟩], false⟩], some "extends"⟩,
      .interface ⟨"interface", [
        ⟨"type", [⟨"struct", .named "Record", true⟩], .named "void"⟩], none⟩,
      .struct ⟨"Empty", [], none⟩,
      .function ⟨"type", ["T", "U"], [⟨"x", .named "T", false⟩], .generic "Pair" (.named "U")⟩,
      .alias ⟨"type", .array (.array (.named "type"))⟩]⟩
    let layout : Nat → BodyLayout
      | 0 => .lines true (· == 0)
      | 1 => .lines false fun _ => true
      | _ => .inline
    document.Expressible ∧ Document.read (document.print layout) = ⟨document, []⟩ :=
  ⟨by decide, read_print_eq (by decide) _⟩

end Document
end PolySchema
