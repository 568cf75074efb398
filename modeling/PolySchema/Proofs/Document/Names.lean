import PolySchema.Proofs.Document.Expressible
import PolySchema.Proofs.Document.Extent
import PolySchema.Proofs.Document.Reader
import PolySchema.Proofs.Line
import PolySchema.Proofs.TypeExpr.Names

namespace PolySchema

/-- The names in a signature outside of its types. -/
def FunctionDef.names (decl : FunctionDef) : List String :=
  decl.name :: (decl.typeParameters ++ decl.parameters.map Field.name)

def FunctionDef.types (decl : FunctionDef) : List TypeExpr :=
  decl.parameters.map Field.type ++ [decl.returnType]

namespace Declaration

/-- The names in a declaration outside of its types. -/
def names : Declaration → List String
  | .struct decl => decl.name :: (decl.parent.toList ++ decl.fields.map Field.name)
  | .interface decl =>
    decl.name :: (decl.parent.toList ++ decl.methods.flatMap fun method => method.signature.names)
  | .function decl => decl.names
  | .alias decl => [decl.name]

def types : Declaration → List TypeExpr
  | .struct decl => decl.fields.map Field.type
  | .interface decl => decl.methods.flatMap Method.types
  | .function decl => decl.types
  | .alias decl => [decl.type]

end Declaration

namespace Document

/-- The names in a document outside of its types. -/
def names (document : Document) : List String := document.declarations.flatMap Declaration.names

def types (document : Document) : List TypeExpr := document.declarations.flatMap Declaration.types

/-- The types in a document and all that they nest. -/
def subexpressions (document : Document) : List TypeExpr :=
  document.types.flatMap TypeExpr.subexpressions

end Document

/-- All names are identifiers, and so are those in the types, up to leaves. -/
structure AllNames (leaf : List Char → Prop) (names : List String) (types : List TypeExpr) :
    Prop where
  names : ∀ name ∈ names, isIdentifier name.toList = true
  types : ∀ type ∈ types, type.AllNames leaf

namespace AllNames

variable {leaf : List Char → Prop}

theorem of_fields {fields : List Field} (valid : ∀ field ∈ fields, field.AllNames leaf) :
    AllNames leaf (fields.map Field.name) (fields.map Field.type) := by
  constructor
  · intro name member
    obtain ⟨field, present, rfl⟩ := List.mem_map.mp member
    exact (valid field present).1
  · intro type member
    obtain ⟨field, present, rfl⟩ := List.mem_map.mp member
    exact (valid field present).2

theorem flatMap {items : List α} {names : α → List String} {types : α → List TypeExpr}
    (each : ∀ item ∈ items, AllNames leaf (names item) (types item)) :
    AllNames leaf (items.flatMap names) (items.flatMap types) := by
  constructor
  · intro name member
    obtain ⟨item, present, own⟩ := List.mem_flatMap.mp member
    exact (each item present).names name own
  · intro type member
    obtain ⟨item, present, own⟩ := List.mem_flatMap.mp member
    exact (each item present).types type own

theorem of_header {block : Block} {header : String × Option String} {names : List String}
    {types : List TypeExpr} (found : block.name? = some header)
    (body : AllNames leaf names types) :
    AllNames leaf (header.1 :: (header.2.toList ++ names)) types := by
  obtain ⟨own, parent⟩ := Block.isIdentifier_of_name? found
  refine ⟨List.forall_mem_cons.mpr ⟨own, ?_⟩, body.types⟩
  intro name member
  rcases List.mem_append.mp member with above | inside
  · exact parent name (Option.mem_toList.mp above)
  · exact body.names name inside

end AllNames

theorem FunctionDef.allNames_read {kind : Diagnostic.Kind} {line : Nat} {text : List Char}
    {decl : FunctionDef} (unbroken : '\n' ∉ text)
    (read : (FunctionDef.read kind line text).value = some decl) :
    AllNames IsBareText decl.names decl.types := by
  rw [FunctionDef.value_read] at read
  obtain ⟨parts, found, rfl⟩ := Option.map_eq_some_iff.mp read
  have cut := SignatureText.isCutFrom_of_ofText? found
  have inside := not_mem_of_isInfix (isInfix_trimStatement text) unbroken
  have parameter (field : Field)
      (member : field ∈ (Field.readItems .malformedParameter line
        (Text.items parts.parameters)).value) : field.AllNames IsBareText := by
    obtain ⟨item, present, own⟩ := Reported.mem_value_collect.mp member
    refine Field.allNames_read (not_mem_of_isInfix ?_ inside) own
    exact (Text.isInfix_of_mem_items present).trans cut.parameters
  have parameters := AllNames.of_fields parameter
  constructor
  · refine List.forall_mem_cons.mpr ⟨?_, List.forall_mem_append.mpr ⟨?_, parameters.names⟩⟩
    · rw [String.toList_ofList]
      exact cut.name
    · intro name member
      obtain ⟨parameter, present, rfl⟩ := List.mem_map.mp member
      rw [String.toList_ofList]
      exact cut.typeParameters parameter present
  · refine List.forall_mem_append.mpr ⟨parameters.types, List.forall_mem_singleton.mpr ?_⟩
    exact TypeExpr.allNames_read line (not_mem_of_isInfix cut.returnType inside)

theorem Method.signature_of_method? {decl : FunctionDef} {method : Method}
    (found : decl.method? = some method) : method.signature = decl := by
  unfold FunctionDef.method? at found
  split at found
  · rename_i plain
    cases found
    rw [Method.signature, ← List.isEmpty_iff.mp plain]
  · cases found

theorem Method.allNames_read {item : Line} {method : Method} (unbroken : '\n' ∉ item.text)
    (read : (Method.read item).value = some method) :
    AllNames IsBareText method.signature.names method.types := by
  change AllNames IsBareText method.signature.names method.signature.types
  rw [Method.value_read] at read
  obtain ⟨decl, signature, plain⟩ := Option.bind_eq_some_iff.mp read
  rw [signature_of_method? plain]
  exact FunctionDef.allNames_read unbroken signature

theorem AliasDef.allNames_read {line : Line} {decl : AliasDef} (unbroken : '\n' ∉ line.text)
    (read : (AliasDef.read line).value = some decl) :
    AllNames IsBareText [decl.name] [decl.type] := by
  rw [AliasDef.value_read] at read
  obtain ⟨parts, found, rfl⟩ := Option.map_eq_some_iff.mp read
  obtain ⟨valid, stretch⟩ := AliasDef.of_split? found
  constructor
  · rw [List.forall_mem_singleton, String.toList_ofList]
    exact valid
  · rw [List.forall_mem_singleton]
    exact TypeExpr.allNames_read line.number (not_mem_of_isInfix stretch unbroken)

private theorem Block.unbroken_of_mem_items {block : Block} {item : Line}
    (unbroken : ∀ line ∈ block.lines, '\n' ∉ line.text) (member : item ∈ block.items) :
    '\n' ∉ item.text := by
  obtain ⟨line, inside, stretch⟩ := Block.exists_within_of_mem_items member
  exact not_mem_of_isInfix stretch.text (unbroken line (List.mem_cons_of_mem _ inside))

theorem Statement.allNames_read {statement : Statement} {declaration : Declaration}
    (unbroken : ∀ line ∈ statement.lines, '\n' ∉ line.text)
    (read : statement.read.value = some declaration) :
    AllNames IsBareText declaration.names declaration.types := by
  rcases statement with block | block | line | line | line
  · rw [Statement.read, Reported.value_map] at read
    obtain ⟨decl, own, rfl⟩ := Option.map_eq_some_iff.mp read
    obtain ⟨header, fields⟩ := StructDef.of_read own
    refine .of_header header (.of_fields fun field member => ?_)
    obtain ⟨item, present, read⟩ := fields field member
    exact Field.allNames_read (Block.unbroken_of_mem_items unbroken present) read
  · rw [Statement.read, Reported.value_map] at read
    obtain ⟨decl, own, rfl⟩ := Option.map_eq_some_iff.mp read
    obtain ⟨header, methods⟩ := InterfaceDef.of_read own
    refine .of_header header (.flatMap fun method member => ?_)
    obtain ⟨item, present, read⟩ := methods method member
    exact Method.allNames_read (Block.unbroken_of_mem_items unbroken present) read
  · rw [Statement.read, Reported.value_map] at read
    obtain ⟨decl, own, rfl⟩ := Option.map_eq_some_iff.mp read
    have inside := not_mem_of_isInfix (Keyword.isInfix_operand .function line.text)
      (unbroken line (List.mem_singleton_self line))
    exact FunctionDef.allNames_read inside own
  · rw [Statement.read, Reported.value_map] at read
    obtain ⟨decl, own, rfl⟩ := Option.map_eq_some_iff.mp read
    exact AliasDef.allNames_read (unbroken line (List.mem_singleton_self line)) own
  · cases read

namespace Document

/-- Every name in a document that is read, with the texts that stand for types by themselves. -/
theorem allNames_read (source : String) :
    AllNames IsBareText (Document.read source).value.names (Document.read source).value.types := by
  rw [Document.read]
  refine .flatMap fun declaration member => ?_
  obtain ⟨statement, grouped, read⟩ := mem_declarations_ofLines.mp member
  refine Statement.allNames_read (fun inner held => ?_) read
  obtain ⟨line, present, stretch⟩ := Statement.exists_within_of_group grouped held
  exact not_mem_of_isInfix stretch.text (Line.unbroken_of_mem_scan present)

/-- Whatever the source is, all names in the document are identifiers up to the texts that stand for
types by themselves. These are not empty, have no blanks at their ends and are on one line, and they
end neither in a question mark nor in a pair of brackets. No type is classified. -/
theorem read_names (source : String) :
    (∀ name ∈ (Document.read source).value.names, isIdentifier name.toList = true) ∧
      ∀ type ∈ (Document.read source).value.subexpressions, type.HasNames fun leaf =>
        Text.Tight leaf ∧ '\n' ∉ leaf ∧ ¬ ['?'] <:+ leaf ∧ ¬ ['[', ']'] <:+ leaf := by
  have valid := allNames_read source
  refine ⟨valid.names, fun type member => ?_⟩
  obtain ⟨outer, present, nested⟩ := List.mem_flatMap.mp member
  exact (valid.types outer present type nested).mono fun leaf bare =>
    ⟨bare.tight, bare.unbroken, bare.unmarked, bare.unpaired⟩

end Document
end PolySchema
