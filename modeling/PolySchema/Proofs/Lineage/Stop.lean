import PolySchema.Proofs.Resolution

namespace PolySchema

namespace Lineage.Trace

variable {structs : List StructDef} {seen : List String} {current : StructDef}
variable {above : List StructDef} {closing : Option (String × String)}

theorem first_of_mem (trace : Trace structs seen current above closing) :
    ∀ ancestor ∈ above, StructDef.first? structs ancestor.name = some ancestor := by
  induction trace with
  | top => exact List.forall_mem_nil _
  | back => exact List.forall_mem_nil _
  | up found _ _ ih => exact List.forall_mem_cons.mpr ⟨(StructDef.parent?_eq_some.mp found).2, ih⟩

end Lineage.Trace

namespace Document

variable {document : Document} {decl : StructDef}

end Document
end PolySchema
