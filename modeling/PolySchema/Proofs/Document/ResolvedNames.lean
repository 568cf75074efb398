import PolySchema.Proofs.Document.Names
import PolySchema.Proofs.Document.Reordering
import PolySchema.Proofs.Lineage.Stop
import PolySchema.Proofs.Target.Spelling

namespace PolySchema

variable {valid : String → Prop}

/-- The names in a signature are valid. -/
structure FunctionDef.EachName (valid : String → Prop) (decl : FunctionDef) : Prop where
  name : valid decl.name
  typeParameters : ∀ parameter ∈ decl.typeParameters, valid parameter
  parameters : ∀ parameter ∈ decl.parameters, parameter.EachName valid
  returnType : decl.returnType.EachName valid

/-- The names in a resolved declaration are valid. -/
def ResolvedItem.EachName (valid : String → Prop) : ResolvedItem → Prop
  | .struct decl => valid decl.name ∧ ∀ field ∈ decl.fields, field.EachName valid
  | .interface decl => valid decl.name ∧ (∀ parent ∈ decl.parent, valid parent) ∧
      ∀ method ∈ decl.methods, method.signature.EachName valid
  | .function decl => decl.EachName valid
  | .alias decl => valid decl.name ∧ decl.type.EachName valid

theorem Field.eachName_of_mem {fields : List Field}
    (names : ∀ name ∈ fields.map Field.name, valid name)
    (types : ∀ type ∈ fields.map Field.type, type.EachName valid) :
    ∀ field ∈ fields, field.EachName valid := fun field member =>
  ⟨names field.name (List.mem_map_of_mem member), types field.type (List.mem_map_of_mem member)⟩

namespace FunctionDef

variable {decl : FunctionDef}

theorem EachName.of_forall (names : ∀ name ∈ decl.names, valid name)
    (types : ∀ type ∈ decl.types, type.EachName valid) : decl.EachName valid := by
  obtain ⟨own, others⟩ := List.forall_mem_cons.mp names
  obtain ⟨typeParameters, parameters⟩ := List.forall_mem_append.mp others
  obtain ⟨parameterTypes, returnType⟩ := List.forall_mem_append.mp types
  exact ⟨own, typeParameters, Field.eachName_of_mem parameters parameterTypes,
    List.forall_mem_singleton.mp returnType⟩

theorem EachName.classify (names : decl.EachName valid) : decl.classify.EachName valid where
  name := names.name
  typeParameters := names.typeParameters
  parameters := List.forall_mem_map.mpr fun field member => (names.parameters field member).classify
  returnType := names.returnType.classify

end FunctionDef

theorem Lineage.mem_of_ancestor {structs : List StructDef} {decl ancestor : StructDef}
    (above : ancestor ∈ (decl.lineage structs).ancestors) : ancestor ∈ structs := by
  have trace := trace_climb structs [decl.name] decl
  exact List.mem_of_find?_eq_some (trace.first_of_mem ancestor (List.mem_reverse.mp above))

namespace Document

variable {document : Document} (names : ∀ name ∈ document.names, valid name)
  (types : ∀ type ∈ document.types, type.EachName valid)

include names types

private theorem eachName_fields {decl : StructDef} (member : decl ∈ document.structs) :
    ∀ field ∈ decl.fields.map Field.classify, field.EachName valid := by
  obtain ⟨declaration, declared, same⟩ := List.mem_filterMap.mp member
  cases declaration with
  | struct own =>
    cases same
    refine List.forall_mem_map.mpr fun field inside => Field.EachName.classify ?_
    refine Field.eachName_of_mem (fun name shown => ?_) (fun type shown => ?_) field inside
    · refine names name (List.mem_flatMap.mpr ⟨_, declared, ?_⟩)
      exact List.mem_cons_of_mem _ (List.mem_append_right _ shown)
    · exact types type (List.mem_flatMap.mpr ⟨_, declared, shown⟩)
  | _ => cases same

/-- Names that are valid in the document are valid in what its declarations are resolved to. -/
theorem eachName_resolveDeclaration {declaration : Declaration}
    (member : declaration ∈ document.declarations) :
    (document.resolveDeclaration declaration).value.EachName valid := by
  have own (name : String) (inside : name ∈ declaration.names) : valid name :=
    names name (List.mem_flatMap.mpr ⟨declaration, member, inside⟩)
  have inner (type : TypeExpr) (inside : type ∈ declaration.types) : type.EachName valid :=
    types type (List.mem_flatMap.mpr ⟨declaration, member, inside⟩)
  rcases declaration with decl | decl | decl | decl
  · have declared : decl ∈ document.structs := List.mem_filterMap.mpr ⟨_, member, rfl⟩
    refine ⟨own decl.name List.mem_cons_self, List.forall_mem_append.mpr ⟨?_, ?_⟩⟩
    · refine List.forall_mem_flatMap.mpr fun ancestor above => ?_
      exact eachName_fields names types (Lineage.mem_of_ancestor above)
    · exact eachName_fields names types declared
  · obtain ⟨name, others⟩ := List.forall_mem_cons.mp own
    obtain ⟨parent, methods⟩ := List.forall_mem_append.mp others
    refine ⟨name, fun above named => parent above (Option.mem_toList.mpr named), ?_⟩
    refine List.forall_mem_map.mpr fun method present => ?_
    have signature : method.signature.EachName valid :=
      .of_forall (fun name inside => methods name (List.mem_flatMap.mpr ⟨method, present, inside⟩))
        fun type inside => inner type (List.mem_flatMap.mpr ⟨method, present, inside⟩)
    exact signature.classify
  · exact (FunctionDef.EachName.of_forall own inner).classify
  · exact ⟨own decl.name List.mem_cons_self, (inner decl.type List.mem_cons_self).classify⟩

end Document
end PolySchema
