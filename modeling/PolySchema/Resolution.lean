import PolySchema.Diagnostic
import PolySchema.Lineage.Index

namespace PolySchema

structure FlatStruct where
  name : String
  /-- The names of the ancestors, the most remote first. -/
  ancestors : List String
  /-- The fields of the ancestors in the same order, then the struct's own. -/
  fields : List Field
  /-- How many of the fields are inherited. -/
  inherited : Nat

def FlatStruct.ownFields (decl : FlatStruct) : List Field := decl.fields.drop decl.inherited

inductive ResolvedItem where
  | struct (decl : FlatStruct)
  | interface (decl : InterfaceDef)
  | function (decl : FunctionDef)
  | alias (decl : AliasDef)

namespace ResolvedItem

def name : ResolvedItem → String
  | .struct decl => decl.name
  | .interface decl => decl.name
  | .function decl => decl.name
  | .alias decl => decl.name

def keyword : ResolvedItem → Keyword
  | .struct _ => .struct
  | .interface _ => .interface
  | .function _ => .function
  | .alias _ => .alias

/-- Keyword and name, as diagnostics refer to a declaration. -/
def title (item : ResolvedItem) : String := item.keyword.word ++ " " ++ item.name

/-- The type expressions that are rendered for a declaration. The record of an alias is declared
under the alias's name, so its field types stand for it. -/
def types : ResolvedItem → List TypeExpr
  | .struct decl => decl.fields.map Field.type
  | .interface decl => decl.methods.flatMap Method.types
  | .function decl => decl.parameters.map Field.type ++ [decl.returnType]
  | .alias decl =>
    match decl.type.fields? with
    | some fields => fields.map Field.type
    | none => [decl.type]

def struct? : ResolvedItem → Option FlatStruct
  | .struct decl => some decl
  | _ => none

def interface? : ResolvedItem → Option InterfaceDef
  | .interface decl => some decl
  | _ => none

end ResolvedItem

structure Resolution where
  items : List ResolvedItem
  diagnostics : List Diagnostic

namespace Resolution

/-- The first resolved struct of a name. -/
def struct? (resolution : Resolution) (name : String) : Option FlatStruct :=
  (resolution.items.filterMap ResolvedItem.struct?).find? fun decl => decl.name == name

/-- The first resolved interface of a name. -/
def interface? (resolution : Resolution) (name : String) : Option InterfaceDef :=
  (resolution.items.filterMap ResolvedItem.interface?).find? fun decl =>
    decl.name == name

end Resolution

namespace Document

/-- The declarations whose names are among `seen` or come up earlier in the list. -/
def repeatedFrom (seen : List String) : List Declaration → List Declaration
  | [] => []
  | declaration :: rest =>
    if seen.contains declaration.name then declaration :: repeatedFrom seen rest
    else repeatedFrom (declaration.name :: seen) rest

/-- One diagnostic for every declaration whose name was used before. -/
def duplicates (document : Document) : List Diagnostic :=
  (repeatedFrom [] document.declarations).map fun declaration =>
    ⟨.duplicateDeclaration, none, declaration.keyword.word ++ " " ++ declaration.name⟩

/-- The parent that a declaration names, if the document has none of that name and kind. -/
def missingParent? (document : Document) : Declaration → Option String
  | .struct decl => decl.parent.filter fun parent => (document.struct? parent).isNone
  | .interface decl => decl.parent.filter fun parent => (document.interface? parent).isNone
  | .function _ | .alias _ => none

/-- One diagnostic for every parent that is not declared. -/
def unresolvedParents (document : Document) : List Diagnostic :=
  document.declarations.filterMap fun declaration =>
    (document.missingParent? declaration).map fun parent =>
      ⟨.unresolvedParent, none, declaration.name ++ " extends " ++ parent⟩

end Document

/-- The fields of the ancestors before the struct's own. A lineage that runs into a cycle is cut
there, and reported. -/
def StructDef.flatten (lineage : Lineage) (decl : StructDef) : Reported FlatStruct :=
  let inherited := lineage.ancestors.flatMap fun ancestor => ancestor.fields.map Field.classify
  { value :=
      { name := decl.name
        ancestors := lineage.ancestors.map StructDef.name
        fields := inherited ++ decl.fields.map Field.classify
        inherited := inherited.length }
    diagnostics := lineage.cycle.toList.map fun link =>
      ⟨.inheritanceCycle, none, decl.name ++ " via " ++ link.1 ++ " extends " ++ link.2⟩ }

/-- Resolve a declaration, given the lineages of structs. -/
def Declaration.resolve (lineage : StructDef → Lineage) : Declaration → Reported ResolvedItem
  | .struct decl => .struct <$> decl.flatten (lineage decl)
  | .interface decl => pure (.interface decl.classify)
  | .function decl => pure (.function decl.classify)
  | .alias decl => pure (.alias decl.classify)

/-- Resolve every declaration, given the lineages of structs. -/
def Document.resolveWith (document : Document) (lineage : StructDef → Lineage) : Resolution :=
  let resolved := document.declarations.map (Declaration.resolve lineage)
  { items := resolved.map Reported.value
    diagnostics := document.duplicates ++ document.unresolvedParents ++
      resolved.flatMap Reported.diagnostics }

def Document.resolve (document : Document) : Resolution :=
  let index := StructIndex.ofList document.structs
  document.resolveWith index.lineage

/-- Resolution looks up parents in the document's list of structs; the index only speeds it up. -/
theorem Document.resolve_eq (document : Document) :
    document.resolve = document.resolveWith (StructDef.lineage document.structs) := by
  simp only [Document.resolve]
  congr 1
  funext decl
  exact StructIndex.lineage_eq _ decl

end PolySchema
