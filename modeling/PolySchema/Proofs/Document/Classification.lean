import PolySchema.Proofs.Document.ResolvedNames
import PolySchema.Proofs.TypeExpr.Classification

namespace PolySchema

def StructDef.classify (decl : StructDef) : StructDef :=
  { decl with fields := decl.fields.map Field.classify }

/-- The declaration with every type classified. -/
def Declaration.classify : Declaration → Declaration
  | .struct decl => .struct decl.classify
  | .interface decl => .interface decl.classify
  | .function decl => .function decl.classify
  | .alias decl => .alias decl.classify

theorem Declaration.name_classify (declaration : Declaration) :
    declaration.classify.name = declaration.name := by
  cases declaration <;> rfl

theorem Declaration.keyword_classify (declaration : Declaration) :
    declaration.classify.keyword = declaration.keyword := by
  cases declaration <;> rfl

/-- The document with every type classified. -/
def Document.classify (document : Document) : Document :=
  ⟨document.declarations.map Declaration.classify⟩

theorem Method.classify_classify (method : Method) :
    method.classify.classify = method.classify := by
  simp only [Method.classify, Field.map_classify_classify, TypeExpr.classify_classify]

theorem InterfaceDef.classify_classify (decl : InterfaceDef) :
    decl.classify.classify = decl.classify := by
  simp only [InterfaceDef.classify, List.map_map]
  congr 1
  exact List.map_congr_left fun method _ => method.classify_classify

theorem FunctionDef.classify_classify (decl : FunctionDef) :
    decl.classify.classify = decl.classify := by
  simp only [FunctionDef.classify, Field.map_classify_classify, TypeExpr.classify_classify]

theorem AliasDef.classify_classify (decl : AliasDef) : decl.classify.classify = decl.classify := by
  simp only [AliasDef.classify, TypeExpr.classify_classify]

section Lineage

variable {structs : List StructDef} {seen : List String} {current : StructDef}
variable {above : List StructDef} {closing : Option (String × String)}

theorem StructDef.first?_classify (structs : List StructDef) (name : String) :
    first? (structs.map classify) name = (first? structs name).map classify := by
  rw [first?, List.find?_map]
  rfl

theorem StructDef.parent?_classify (structs : List StructDef) (decl : StructDef) :
    decl.classify.parent? (structs.map classify) = (decl.parent? structs).map classify := by
  rw [parent?, parent?, Option.map_bind]
  exact congrArg decl.parent.bind (funext fun name => first?_classify structs name)

theorem StructDef.parent?_classify_eq_some {decl next : StructDef}
    (found : decl.parent? structs = some next) :
    decl.classify.parent? (structs.map classify) = some next.classify := by
  rw [parent?_classify, found]
  rfl

/-- The walk up a lineage looks at names and parents only. -/
theorem Lineage.Trace.classify (trace : Trace structs seen current above closing) :
    Trace (structs.map StructDef.classify) seen current.classify (above.map StructDef.classify)
      closing := by
  induction trace with
  | top missing =>
    apply Trace.top
    rw [StructDef.parent?_classify, missing]
    rfl
  | back found known =>
    have stop := Trace.back (StructDef.parent?_classify_eq_some found) known
    exact stop
  | up found fresh _ ih => exact .up (StructDef.parent?_classify_eq_some found) fresh ih

theorem StructDef.lineage_classify (structs : List StructDef) (decl : StructDef) :
    decl.classify.lineage (structs.map classify) =
      ⟨(decl.lineage structs).ancestors.map classify, (decl.lineage structs).cycle⟩ := by
  have walk := (Lineage.trace_climb structs [decl.name] decl).classify.climb_eq
  have start : [decl.classify.name] = [decl.name] := rfl
  rw [lineage, start, walk, lineage, List.map_reverse]

theorem StructDef.flatten_classify (lineage : Lineage) (decl : StructDef) :
    decl.classify.flatten ⟨lineage.ancestors.map classify, lineage.cycle⟩ =
      decl.flatten lineage := by
  have own : decl.classify.fields.map Field.classify = decl.fields.map Field.classify :=
    Field.map_classify_classify decl.fields
  have inherited : ((lineage.ancestors.map classify).flatMap fun ancestor =>
      ancestor.fields.map Field.classify) =
      lineage.ancestors.flatMap fun ancestor => ancestor.fields.map Field.classify := by
    rw [List.flatMap_map]
    exact List.flatMap_congr fun ancestor _ => Field.map_classify_classify ancestor.fields
  simp only [flatten, own, inherited, List.map_map]
  rfl

end Lineage

namespace Document

variable (document : Document)

theorem structs_classify :
    document.classify.structs = document.structs.map StructDef.classify := by
  rw [structs, classify, List.filterMap_map, structs, List.map_filterMap]
  congr 1
  funext declaration
  cases declaration <;> rfl

theorem interfaces_classify :
    document.classify.interfaces = document.interfaces.map InterfaceDef.classify := by
  rw [interfaces, classify, List.filterMap_map, interfaces, List.map_filterMap]
  congr 1
  funext declaration
  cases declaration <;> rfl

/-- A declaration is resolved to the same item and reported alike. -/
theorem resolveDeclaration_classify (declaration : Declaration) :
    document.classify.resolveDeclaration declaration.classify =
      document.resolveDeclaration declaration := by
  rw [resolveDeclaration, resolveDeclaration, structs_classify]
  rcases declaration with decl | decl | decl | decl
  · rw [Declaration.classify, Declaration.resolve, Declaration.resolve, StructDef.lineage_classify,
      StructDef.flatten_classify]
  · rw [Declaration.classify, Declaration.resolve, decl.classify_classify, Declaration.resolve]
  · rw [Declaration.classify, Declaration.resolve, decl.classify_classify, Declaration.resolve]
  · rw [Declaration.classify, Declaration.resolve, decl.classify_classify, Declaration.resolve]

theorem duplicates_classify : document.classify.duplicates = document.duplicates := by
  have repeats (seen : List String) (declarations : List Declaration) :
      repeatedFrom seen (declarations.map Declaration.classify) =
        (repeatedFrom seen declarations).map Declaration.classify := by
    induction declarations generalizing seen with
    | nil => rfl
    | cons declaration rest ih =>
      rw [List.map_cons, repeatedFrom, repeatedFrom, declaration.name_classify, ih, ih]
      split <;> rfl
  rw [duplicates, classify, repeats, List.map_map, duplicates]
  refine List.map_congr_left fun declaration _ => ?_
  rw [Function.comp_apply, declaration.name_classify, declaration.keyword_classify]

theorem missingParent?_classify (declaration : Declaration) :
    document.classify.missingParent? declaration.classify =
      document.missingParent? declaration := by
  rcases declaration with decl | decl | decl | decl
  · simp only [Declaration.classify, missingParent?, struct?, structs_classify,
      StructDef.first?_classify, Option.isNone_map]
    rfl
  · simp only [Declaration.classify, missingParent?, interface?, interfaces_classify,
      List.find?_map, Option.isNone_map]
    rfl
  · rfl
  · rfl

theorem unresolvedParents_classify :
    document.classify.unresolvedParents = document.unresolvedParents := by
  rw [unresolvedParents, unresolvedParents, classify, List.filterMap_map]
  congr 1
  funext declaration
  have same := document.missingParent?_classify declaration
  rw [classify] at same
  rw [Function.comp_apply, same, declaration.name_classify]

theorem classify_resolve : document.classify.resolve = document.resolve := by
  have resolved : document.classify.declarations.map document.classify.resolveDeclaration =
      document.declarations.map document.resolveDeclaration := by
    rw [classify, List.map_map]
    exact List.map_congr_left fun declaration _ => document.resolveDeclaration_classify declaration
  rw [resolve_eq, resolve_eq, resolveWith, resolveWith, duplicates_classify,
    unresolvedParents_classify]
  exact congrArg (fun resolved : List (Reported ResolvedItem) => Resolution.mk
    (resolved.map Reported.value) (document.duplicates ++ document.unresolvedParents ++
      resolved.flatMap Reported.diagnostics)) resolved

end Document

/-- The types in a resolved declaration, that of an alias as a whole. -/
def ResolvedItem.declaredTypes : ResolvedItem → List TypeExpr
  | .struct decl => decl.fields.map Field.type
  | .interface decl => decl.methods.flatMap Method.types
  | .function decl => decl.types
  | .alias decl => [decl.type]

theorem Field.map_type_classify (fields : List Field) :
    (fields.map Field.classify).map Field.type = (fields.map Field.type).map TypeExpr.classify := by
  simp only [List.map_map, Function.comp_def, Field.classify_eq]

theorem Method.types_classify (method : Method) :
    method.classify.types = method.types.map TypeExpr.classify := by
  rw [Method.types, Method.types, List.map_append, ← Field.map_type_classify]
  rfl

theorem FunctionDef.types_classify (decl : FunctionDef) :
    decl.classify.types = decl.types.map TypeExpr.classify := by
  rw [FunctionDef.types, FunctionDef.types, List.map_append, ← Field.map_type_classify]
  rfl

/-- All types in what a declaration is resolved to were classified, inherited ones included. -/
theorem Declaration.exists_types_resolve (lineage : StructDef → Lineage)
    (declaration : Declaration) :
    ∃ types : List TypeExpr,
      (declaration.resolve lineage).value.declaredTypes = types.map TypeExpr.classify := by
  rcases declaration with decl | decl | decl | decl
  · refine ⟨((lineage decl).ancestors.flatMap StructDef.fields ++ decl.fields).map Field.type, ?_⟩
    rw [← Field.map_type_classify, List.map_append, List.map_flatMap]
    rfl
  · refine ⟨decl.methods.flatMap Method.types, ?_⟩
    rw [List.map_flatMap]
    simp only [← Method.types_classify]
    exact List.flatMap_map ..
  · exact ⟨decl.types, decl.types_classify⟩
  · exact ⟨[decl.type], rfl⟩

/-- No name of a primitive is left at any depth of what a document is resolved to. Classification
goes through a type in order and changes nothing but such names, so that doing it again changes
nothing, and doing it before makes no difference to what is resolved and reported. -/
theorem Document.resolve_classified (document : Document) :
    (∀ item ∈ document.resolve.items, ∀ type ∈ item.declaredTypes, ∀ name,
      TypeExpr.named name ∈ type.subexpressions → Primitive.ofName? name = none) ∧
    (∀ type : TypeExpr, type.classify.classify = type.classify ∧
      type.classify.subexpressions = type.subexpressions.map TypeExpr.classify ∧
      type.classify.subexpressions.map TypeExpr.label =
        type.subexpressions.map fun inner => inner.label.classify) ∧
    (∀ field : Field, field.classify = ⟨field.name, field.type.classify, field.optional⟩) ∧
    document.classify.resolve = document.resolve := by
  refine ⟨?_, fun type => ⟨type.classify_classify, type.subexpressions_classify, ?_⟩,
    Field.classify_eq, document.classify_resolve⟩
  · intro item member type declared name left
    rw [items_resolve] at member
    obtain ⟨declaration, _, rfl⟩ := List.mem_map.mp member
    obtain ⟨types, same⟩ := declaration.exists_types_resolve (StructDef.lineage document.structs)
    rw [resolveDeclaration, same] at declared
    obtain ⟨original, _, rfl⟩ := List.mem_map.mp declared
    exact TypeExpr.ofName?_eq_none_of_mem_classify left
  · rw [type.subexpressions_classify, List.map_map]
    exact List.map_congr_left fun inner _ => inner.label_classify

end PolySchema
