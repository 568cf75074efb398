import PolySchema.Lineage

/-! The walk up a lineage as a relation, beside the function that walks. What the walk finds is then
told by induction on its steps. -/
namespace PolySchema

/-- The struct that the parent of a struct stands for. -/
def StructDef.parent? (structs : List StructDef) (decl : StructDef) : Option StructDef :=
  decl.parent.bind (StructDef.first? structs)

theorem StructDef.parent?_eq_some {structs : List StructDef} {decl next : StructDef} :
    decl.parent? structs = some next ↔
      decl.parent = some next.name ∧ StructDef.first? structs next.name = some next := by
  rw [StructDef.parent?, Option.bind_eq_some_iff]
  constructor
  · rintro ⟨parent, named, found⟩
    obtain rfl := StructDef.name_of_first? found
    exact ⟨named, found⟩
  · rintro ⟨named, found⟩
    exact ⟨next.name, named, found⟩

namespace Lineage

/-- A walk from `current` past the names in `seen`: the ancestors, the nearest first, and the link
that leads back to a name on the way. -/
inductive Trace (structs : List StructDef) :
    List String → StructDef → List StructDef → Option (String × String) → Prop where
  | top : current.parent? structs = none → Trace structs seen current [] none
  | back : current.parent? structs = some next → next.name ∈ seen →
      Trace structs seen current [] (some (current.name, next.name))
  | up : current.parent? structs = some next → next.name ∉ seen →
      Trace structs (next.name :: seen) next above closing →
      Trace structs seen current (next :: above) closing

/-- The walk always comes to an end, and its result is that of a trace. -/
theorem trace_climb (structs : List StructDef) (seen : List String) (current : StructDef) :
    Trace structs seen current (climb structs seen current).1 (climb structs seen current).2 := by
  fun_induction climb structs seen current with
  | case1 seen current root =>
    apply Trace.top
    rw [StructDef.parent?, root, Option.bind_none]
  | case2 seen current parent named missing =>
    apply Trace.top
    rw [StructDef.parent?, named, Option.bind_some, missing]
  | case3 seen current parent named next found known =>
    obtain rfl := StructDef.name_of_first? found
    exact .back (StructDef.parent?_eq_some.mpr ⟨named, found⟩) known
  | case4 seen current parent named next found known above ih =>
    obtain rfl := StructDef.name_of_first? found
    exact .up (StructDef.parent?_eq_some.mpr ⟨named, found⟩) known ih

namespace Trace

variable {structs : List StructDef} {seen : List String} {current : StructDef}
variable {above : List StructDef} {closing : Option (String × String)}

/-- There is one walk only. -/
theorem climb_eq (trace : Trace structs seen current above closing) :
    climb structs seen current = (above, closing) := by
  induction trace with
  | @top seen current missing =>
    cases named : current.parent with
    | none => exact climb_of_root named
    | some parent =>
      rw [StructDef.parent?, named, Option.bind_some] at missing
      exact climb_of_missing named missing
  | back found known =>
    obtain ⟨named, first⟩ := StructDef.parent?_eq_some.mp found
    exact climb_of_seen named first known
  | up found fresh _ ih =>
    obtain ⟨named, first⟩ := StructDef.parent?_eq_some.mp found
    rw [climb_of_fresh named first fresh, ih]

theorem of_subset (trace : Trace structs seen current above closing) (ended : closing = none)
    {fewer : List String} (within : fewer ⊆ seen) : Trace structs fewer current above closing := by
  induction trace generalizing fewer with
  | top missing => exact .top missing
  | back => cases ended
  | up found fresh _ ih =>
    refine .up found (fun member => fresh (within member)) (ih ended ?_)
    exact List.cons_subset_cons _ within

end Trace
end Lineage
end PolySchema
