import PolySchema.Output
import PolySchema.Proofs.Document.Reordering
import PolySchema.Proofs.Target.Shape
import PolySchema.Proofs.TypeExpr.Places

namespace PolySchema

def Declaration.function? : Declaration → Option FunctionDef
  | .function decl => some decl
  | _ => none

/-- Whether the type is a record of one field. -/
def TypeExpr.isSingle : TypeExpr → Bool
  | .record fields => fields.length == 1
  | _ => false

/-- The type at a place in a signature, whose branches are the parameters and then the result. -/
def signatureAt? (parameters : List Field) (returnType : TypeExpr) : List Nat → Option TypeExpr :=
  findBelow (parameters.map Field.type ++ [returnType]) TypeExpr.at?

namespace ResolvedItem

/-- The type at a place in a declaration. A struct branches into its fields and an interface into
its methods. An alias is the type that it stands for, but a record under an alias is no type by
itself and branches into its fields. -/
def at? : ResolvedItem → List Nat → Option TypeExpr
  | .struct decl => findBelow decl.fields fun field => field.type.at?
  | .interface decl => findBelow decl.methods fun method =>
      signatureAt? method.parameters method.returnType
  | .function decl => signatureAt? decl.parameters decl.returnType
  | .alias decl =>
    match decl.type.fields? with
    | some fields => findBelow fields fun field => field.type.at?
    | none => decl.type.at?

private theorem inPlaceOrder_flatMap (types : List TypeExpr) :
    InPlaceOrder (findBelow types TypeExpr.at?) (types.flatMap TypeExpr.subexpressions) :=
  .below fun type _ => type.inPlaceOrder_subexpressions

private theorem inPlaceOrder_fields (fields : List Field) :
    InPlaceOrder (findBelow fields fun field => field.type.at?)
      ((fields.map Field.type).flatMap TypeExpr.subexpressions) := by
  rw [List.flatMap_map]
  exact .below fun field _ => field.type.inPlaceOrder_subexpressions

/-- The types of a declaration are walked through in the order of their places. -/
theorem inPlaceOrder_types (item : ResolvedItem) :
    InPlaceOrder item.at? (item.types.flatMap TypeExpr.subexpressions) := by
  rcases item with decl | decl | decl | decl
  · exact inPlaceOrder_fields decl.fields
  · rw [types, List.flatMap_assoc]
    exact .below fun method _ => inPlaceOrder_flatMap method.types
  · exact inPlaceOrder_flatMap _
  · rw [types, at?]
    cases decl.type.fields? with
    | some fields => exact inPlaceOrder_fields fields
    | none =>
      rw [List.flatMap_singleton]
      exact decl.type.inPlaceOrder_subexpressions

end ResolvedItem

namespace Document

/-- The document without its functions. -/
def withoutFunctions (document : Document) : Document :=
  ⟨document.declarations.filter fun declaration => declaration.function?.isNone⟩

theorem structs_withoutFunctions (document : Document) :
    document.withoutFunctions.structs = document.structs := by
  rw [structs, structs, withoutFunctions, List.filterMap_filter]
  congr 1
  funext declaration
  cases declaration <;> rfl

theorem structural_resolve {document : Document} {diagnostic : Diagnostic}
    (member : diagnostic ∈ document.resolve.diagnostics) :
    diagnostic.kind.category = .structural := by
  rw [diagnostics_resolve, List.mem_append, List.mem_append] at member
  rcases member with (repeated | missing) | cyclic
  · obtain ⟨declaration, _, rfl⟩ := List.mem_map.mp repeated
    rfl
  · obtain ⟨declaration, _, found⟩ := List.mem_filterMap.mp missing
    obtain ⟨parent, _, rfl⟩ := Option.map_eq_some_iff.mp found
    rfl
  · obtain ⟨decl, _, reported⟩ := List.mem_flatMap.mp cyclic
    obtain ⟨link, _, rfl⟩ := List.mem_map.mp reported
    rfl

end Document

namespace Output

variable (settings : Settings)

/-- Settings have no say in what is lost. -/
theorem losses_eq (target : Target) (item : ResolvedItem) :
    losses settings target item =
      if target.expresses item.keyword then approximations target item
      else [⟨.unsupportedDeclaration target.name, none, item.title⟩] := by
  rw [← Target.isSome_render settings, losses]
  cases target.render settings item <;> rfl

theorem approximations_eq_nil {target : Target} (exact : ∀ type, target.approximates type = false)
    (item : ResolvedItem) : approximations target item = [] := by
  have nothing : (item.types.flatMap TypeExpr.subexpressions).filter target.approximates = [] :=
    List.filter_eq_nil_iff.mpr fun type _ => by rw [exact type]; exact Bool.false_ne_true
  rw [approximations, nothing, List.map_nil]

theorem losses_rust (item : ResolvedItem) : losses settings .rust item = [] := by
  rw [losses_eq]
  exact approximations_eq_nil (fun _ => rfl) item

theorem losses_typeScript (document : Document) (declaration : Declaration) :
    losses settings .typeScript (document.resolveDeclaration declaration).value =
      (declaration.function?.map fun decl => (⟨.unsupportedDeclaration "TypeScript", none,
        "function " ++ decl.name⟩ : Diagnostic)).toList := by
  rw [losses_eq]
  cases declaration with
  | function decl => rfl
  | _ => exact approximations_eq_nil (fun _ => rfl) _

theorem losses_swift (item : ResolvedItem) :
    losses settings .swift item =
      ((item.types.flatMap TypeExpr.subexpressions).filter TypeExpr.isSingle).map fun type =>
        ⟨.approximatedType "Swift", none,
          item.keyword.word ++ " " ++ item.name ++ ": " ++ type.print⟩ := by
  have same : Target.approximates .swift = TypeExpr.isSingle := by
    funext type
    cases type with
    | record fields => rcases fields with _ | ⟨first, _ | ⟨second, rest⟩⟩ <;> rfl
    | _ => rfl
  rw [losses_eq, ← same]
  rfl

theorem targetCapability_losses {target : Target} {item : ResolvedItem} {diagnostic : Diagnostic}
    (member : diagnostic ∈ losses settings target item) :
    diagnostic.kind.category = .targetCapability := by
  rw [losses_eq] at member
  split at member
  · obtain ⟨type, _, rfl⟩ := List.mem_map.mp member
    rfl
  · rw [List.mem_singleton.mp member]
    rfl

theorem blocks_typeScript_withoutFunctions (document : Document) :
    blocks settings .typeScript document.withoutFunctions.resolve.items =
      blocks settings .typeScript document.resolve.items := by
  have resolved : document.withoutFunctions.resolveDeclaration = document.resolveDeclaration := by
    funext declaration
    rw [Document.resolveDeclaration, Document.resolveDeclaration,
      Document.structs_withoutFunctions]
  rw [blocks, blocks, Document.items_resolve, Document.items_resolve, resolved,
    Document.withoutFunctions, List.filterMap_map, List.filterMap_map, List.filterMap_filter]
  congr 2
  funext declaration
  cases declaration <;> rfl

/-- Whatever the settings are, the diagnostics of a document are those of its resolution, and then
those of the target. Rust has none. TypeScript has one for every function. Swift has one for every
place in a resolved declaration that holds a record of one field, in the order of the places.
Functions make no difference to the TypeScript text. -/
theorem diagnostics_ofDocument (document : Document) :
    let resolution := document.resolve
    (ofDocument settings .rust document).diagnostics = resolution.diagnostics ∧
    (ofDocument settings .typeScript document).diagnostics = resolution.diagnostics ++
      (document.declarations.filterMap Declaration.function?).map (fun decl =>
        ⟨.unsupportedDeclaration "TypeScript", none, "function " ++ decl.name⟩) ∧
    (∃ singles : ResolvedItem → List TypeExpr,
      (∀ item, InPlaceOrder (fun place => (item.at? place).filter TypeExpr.isSingle)
        (singles item)) ∧
      (ofDocument settings .swift document).diagnostics = resolution.diagnostics ++
        resolution.items.flatMap fun item => (singles item).map fun type =>
          ⟨.approximatedType "Swift", none,
            item.keyword.word ++ " " ++ item.name ++ ": " ++ type.print⟩) ∧
    (∀ diagnostic ∈ resolution.diagnostics, diagnostic.kind.category = .structural) ∧
    (∀ target, ∃ own, (ofDocument settings target document).diagnostics =
        resolution.diagnostics ++ own ∧
      ∀ diagnostic ∈ own, diagnostic.kind.category = .targetCapability) ∧
    (ofDocument settings .typeScript document).text =
      (ofDocument settings .typeScript document.withoutFunctions).text := by
  intro resolution
  refine ⟨?_, ?_, ?_, fun _ => Document.structural_resolve, fun target => ?_, ?_⟩
  · have nothing : resolution.items.flatMap (losses settings .rust) = [] :=
      List.flatMap_eq_nil_iff.mpr fun item _ => losses_rust settings item
    rw [ofDocument, ofResolution, nothing, List.append_nil]
  · rw [ofDocument, ofResolution, Document.items_resolve, List.flatMap_map, List.map_filterMap,
      List.filterMap_eq_flatMap_toList]
    simp only [losses_typeScript]
    rfl
  · refine ⟨fun item => (item.types.flatMap TypeExpr.subexpressions).filter TypeExpr.isSingle,
      fun item => item.inPlaceOrder_types.filter _, ?_⟩
    rw [ofDocument, ofResolution, funext (losses_swift settings)]
  · refine ⟨_, rfl, fun diagnostic member => ?_⟩
    obtain ⟨item, _, own⟩ := List.mem_flatMap.mp member
    exact targetCapability_losses settings own
  · rw [ofDocument, ofDocument, ofResolution, ofResolution, blocks_typeScript_withoutFunctions]

end Output
end PolySchema
