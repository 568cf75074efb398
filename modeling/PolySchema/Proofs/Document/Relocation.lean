import PolySchema.Document.Reader
import PolySchema.Proofs.Line
import PolySchema.Proofs.Statement
import PolySchema.Proofs.TypeExpr.Reader

/-! Line numbers are labels: they are copied into diagnostics and nothing else depends on them. So
reading lines under other numbers gives the same document, with the diagnostics under the other
numbers. -/
namespace PolySchema

/-- The same diagnostic under another line number. -/
def Diagnostic.relocate (move : Nat → Nat) (diagnostic : Diagnostic) : Diagnostic :=
  { diagnostic with line := diagnostic.line.map move }

namespace Reported

/-- The same value, with its diagnostics under other line numbers. -/
def relocate (move : Nat → Nat) (reported : Reported α) : Reported α :=
  ⟨reported.value, reported.diagnostics.map (Diagnostic.relocate move)⟩

variable (move : Nat → Nat)

@[simp] theorem relocate_pure (value : α) :
    (pure value : Reported α).relocate move = pure value := rfl

@[simp] theorem relocate_bind (step : Reported α) (next : α → Reported β) :
    (step >>= next).relocate move =
      step.relocate move >>= fun value => (next value).relocate move := by
  apply Reported.ext
  · rfl
  · simp [relocate]

@[simp] theorem relocate_map (f : α → β) (step : Reported α) :
    (f <$> step).relocate move = f <$> step.relocate move := by
  apply Reported.ext
  · rfl
  · simp [relocate]

@[simp] theorem relocate_report (kind : Diagnostic.Kind) (line : Nat) (context : List Char) :
    (report kind line context).relocate move = report kind (move line) context := rfl

/-- Steps that can be renumbered each can be renumbered together. -/
theorem relocate_collect {first second : α → Reported (Option β)} {items : List α}
    (each : ∀ item ∈ items, second item = (first item).relocate move) :
    collect (items.map second) = (collect (items.map first)).relocate move := by
  induction items with
  | nil => rfl
  | cons item rest ih =>
    have tail := ih fun other member => each other (List.mem_cons_of_mem _ member)
    rw [List.map_cons, List.map_cons, collect_cons, collect_cons, each item List.mem_cons_self,
      tail]
    simp

end Reported

namespace Relocation

variable (move : Nat → Nat)

private theorem readField_of (kind : Diagnostic.Kind) (line : Nat) {text : List Char}
    (inner : ∀ parts, FieldText.ofText? text = some parts →
      TypeExpr.read (move line) parts.type = (TypeExpr.read line parts.type).relocate move) :
    Field.read kind (move line) text = (Field.read kind line text).relocate move := by
  cases found : FieldText.ofText? text with
  | none =>
    rw [Field.read_of_none found, Field.read_of_none found]
    simp
  | some parts =>
    rw [Field.read_of_parts found, Field.read_of_parts found, inner parts found]
    simp

theorem readType (line : Nat) (text : List Char) :
    TypeExpr.read (move line) text = (TypeExpr.read line text).relocate move := by
  induction text using TypeExpr.text_induction with
  | step text ih =>
    have part (inner : List Char) (member : inner ∈ (TypeForm.ofText (Text.trim text)).parts) :=
      ih inner (.part member)
    cases form : TypeForm.ofText (Text.trim text) with
    | empty =>
      rw [TypeExpr.read_of_empty form, TypeExpr.read_of_empty form]
      simp
    | marked rest =>
      rw [TypeExpr.read_of_marked form, TypeExpr.read_of_marked form,
        part rest (by simp [form, TypeForm.parts])]
      simp
    | map key value =>
      rw [TypeExpr.read_of_map form, TypeExpr.read_of_map form,
        part key (by simp [form, TypeForm.parts]), part value (by simp [form, TypeForm.parts])]
      simp
    | mapArity =>
      rw [TypeExpr.read_of_mapArity form, TypeExpr.read_of_mapArity form]
      simp
    | generic base argument =>
      rw [TypeExpr.read_of_generic form, TypeExpr.read_of_generic form,
        part argument (by simp [form, TypeForm.parts])]
      simp
    | array element =>
      rw [TypeExpr.read_of_array form, TypeExpr.read_of_array form,
        part element (by simp [form, TypeForm.parts])]
      simp
    | record items =>
      have fields : Field.readItems .malformedRecordField (move line) items =
          (Field.readItems .malformedRecordField line items).relocate move :=
        Reported.relocate_collect move fun item member =>
          readField_of move _ line fun parts found => ih parts.type (.field form member found)
      rw [TypeExpr.read_of_record form, TypeExpr.read_of_record form, fields]
      simp
    | name =>
      rw [TypeExpr.read_of_name form, TypeExpr.read_of_name form]
      simp

theorem readField (kind : Diagnostic.Kind) (line : Nat) (text : List Char) :
    Field.read kind (move line) text = (Field.read kind line text).relocate move :=
  readField_of move kind line fun parts _ => readType move line parts.type

theorem readFunction (kind : Diagnostic.Kind) (line : Nat) (text : List Char) :
    FunctionDef.read kind (move line) text = (FunctionDef.read kind line text).relocate move := by
  cases found : SignatureText.ofText? (trimStatement text) with
  | none =>
    simp only [FunctionDef.read, found]
    simp
  | some parts =>
    have parameters :
        Field.readItems .malformedParameter (move line) (Text.items parts.parameters) =
        (Field.readItems .malformedParameter line (Text.items parts.parameters)).relocate move :=
      Reported.relocate_collect move fun item _ => readField move _ line item
    simp only [FunctionDef.read, found, parameters, readType]
    simp

theorem readMethod (item : Line) :
    Method.read (item.relocate move) = (Method.read item).relocate move := by
  simp only [Method.read, Line.relocate, readFunction, Reported.relocate_bind]
  congr 1
  funext signature
  cases signature with
  | none => rfl
  | some signature => cases found : signature.method? <;> simp [found]

end Relocation

/-- The same block under other line numbers. -/
def Block.relocate (move : Nat → Nat) (block : Block) : Block :=
  ⟨move block.line, block.header, block.body.map (Line.relocate move), block.closed⟩

/-- The same statement under other line numbers. -/
def Statement.relocate (move : Nat → Nat) : Statement → Statement
  | .struct block => .struct (block.relocate move)
  | .interface block => .interface (block.relocate move)
  | .function line => .function (line.relocate move)
  | .alias line => .alias (line.relocate move)
  | .stray line => .stray (line.relocate move)

namespace Relocation

variable (move : Nat → Nat)

theorem takeTail (opened : Bool) (lines : List Line) :
    BlockTail.take opened (lines.map (Line.relocate move)) =
      ⟨(BlockTail.take opened lines).body.map (Line.relocate move),
        (BlockTail.take opened lines).closed,
        (BlockTail.take opened lines).rest.map (Line.relocate move)⟩ := by
  induction lines generalizing opened with
  | nil => rfl
  | cons line rest ih =>
    have text : (line.relocate move).text = line.text := rfl
    simp only [List.map_cons, BlockTail.take, text, ih]
    split
    · rfl
    · split
      · rfl
      · split <;> rfl

theorem takeBlock (first : Line) (rest : List Line) :
    Block.take (first.relocate move) (rest.map (Line.relocate move)) =
      ((Block.take first rest).1.relocate move,
        (Block.take first rest).2.map (Line.relocate move)) := by
  have text : (first.relocate move).text = first.text := rfl
  simp only [Block.take, text, takeTail]
  split
  · rfl
  · split <;> rfl

theorem takeStatement (first : Line) (rest : List Line) :
    Statement.take (first.relocate move) (rest.map (Line.relocate move)) =
      ((Statement.take first rest).1.relocate move,
        (Statement.take first rest).2.map (Line.relocate move)) := by
  have text : (first.relocate move).text = first.text := rfl
  simp only [Statement.take, text, takeBlock]
  split <;> rfl

theorem group (lines : List Line) :
    Statement.group (lines.map (Line.relocate move)) =
      (Statement.group lines).map (Statement.relocate move) := by
  induction lines using Statement.induction with
  | nil => simp [Statement.group]
  | cons first rest ih =>
    rw [List.map_cons, Statement.group_cons, Statement.group_cons, takeStatement, ih, List.map_cons]

theorem items (block : Block) :
    (block.relocate move).items = block.items.map (Line.relocate move) := by
  simp [Block.items, Block.relocate, Line.relocate, List.flatMap_map, List.map_flatMap,
    Function.comp_def]

theorem readName (block : Block) :
    (block.relocate move).readName = block.readName.relocate move := by
  have name : (block.relocate move).name? = block.name? := rfl
  have closed : (block.relocate move).closed = block.closed := rfl
  have line : (block.relocate move).line = move block.line := rfl
  have header : (block.relocate move).header = block.header := rfl
  simp only [Block.readName, name, closed, line, header]
  cases block.closed <;> cases block.name? <;> rfl

theorem readStruct (block : Block) :
    StructDef.read (block.relocate move) = (StructDef.read block).relocate move := by
  have fields : Reported.collect ((block.relocate move).items.map fun item =>
      Field.read .malformedField item.number item.text) =
      (Reported.collect (block.items.map fun item =>
        Field.read .malformedField item.number item.text)).relocate move := by
    rw [items, List.map_map]
    exact Reported.relocate_collect move fun item _ => readField move _ item.number item.text
  simp only [StructDef.read, readName, fields, Reported.relocate_bind]
  congr 1
  funext names
  cases names with
  | none => rfl
  | some names => simp

theorem readInterface (block : Block) :
    InterfaceDef.read (block.relocate move) = (InterfaceDef.read block).relocate move := by
  have methods : Reported.collect ((block.relocate move).items.map Method.read) =
      (Reported.collect (block.items.map Method.read)).relocate move := by
    rw [items, List.map_map]
    exact Reported.relocate_collect move fun item _ => readMethod move item
  simp only [InterfaceDef.read, readName, methods, Reported.relocate_bind]
  congr 1
  funext names
  cases names with
  | none => rfl
  | some names => simp

theorem readAlias (line : Line) :
    AliasDef.read (line.relocate move) = (AliasDef.read line).relocate move := by
  have text : (line.relocate move).text = line.text := rfl
  have number : (line.relocate move).number = move line.number := rfl
  cases found : AliasDef.split? line.text with
  | none =>
    simp only [AliasDef.read, text, number, found]
    simp
  | some parts =>
    simp only [AliasDef.read, text, number, found, readType]
    simp

theorem readStatement (statement : Statement) :
    (statement.relocate move).read = statement.read.relocate move := by
  match statement with
  | .struct block => simp [Statement.relocate, Statement.read, readStruct]
  | .interface block => simp [Statement.relocate, Statement.read, readInterface]
  | .function line => simp [Statement.relocate, Statement.read, Line.relocate, readFunction]
  | .alias line => simp [Statement.relocate, Statement.read, readAlias]
  | .stray line => simp [Statement.relocate, Statement.read, Line.relocate]

/-- Reading lines under other numbers changes the numbers of the diagnostics only. -/
theorem ofLines (lines : List Line) :
    Document.ofLines (lines.map (Line.relocate move)) = (Document.ofLines lines).relocate move := by
  have statements : Reported.collect ((Statement.group (lines.map (Line.relocate move))).map
      Statement.read) =
      (Reported.collect ((Statement.group lines).map Statement.read)).relocate move := by
    rw [group, List.map_map]
    exact Reported.relocate_collect move fun statement _ => readStatement move statement
  rw [Document.ofLines, statements, Document.ofLines, Reported.relocate_map]

end Relocation
end PolySchema
