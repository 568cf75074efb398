import PolySchema.Proofs.Document.Reordering
import PolySchema.Proofs.Output.Layout

namespace PolySchema

namespace StructDef

variable {structs : List StructDef} {decl : StructDef} {name : String}

/-- The parent of every struct in the list is the name of one. -/
def ParentsDeclared (structs : List StructDef) : Prop :=
  ∀ decl ∈ structs, ∀ parent ∈ decl.parent, (first? structs parent).isSome = true

theorem first?_append_of_isSome (found : (first? structs name).isSome = true)
    (more : List StructDef) : first? (structs ++ more) name = first? structs name := by
  rw [first?, List.find?_append]
  exact Option.or_of_isSome found

theorem parent?_append (declared : ParentsDeclared structs) (member : decl ∈ structs)
    (more : List StructDef) : decl.parent? (structs ++ more) = decl.parent? structs := by
  cases named : decl.parent with
  | none => simp only [parent?, named, Option.bind_none]
  | some parent =>
    simp only [parent?, named, Option.bind_some]
    exact first?_append_of_isSome (declared decl member parent named) more

end StructDef

namespace Lineage

variable {structs : List StructDef} {seen : List String} {current : StructDef}
variable {above : List StructDef} {closing : Option (String × String)}

/-- A walk among the structs meets none of those behind them. -/
theorem Trace.append (declared : StructDef.ParentsDeclared structs) (member : current ∈ structs)
    (trace : Trace structs seen current above closing) (more : List StructDef) :
    Trace (structs ++ more) seen current above closing := by
  induction trace with
  | top missing => exact .top ((StructDef.parent?_append declared member more).trans missing)
  | back found known =>
    exact .back ((StructDef.parent?_append declared member more).trans found) known
  | up found fresh _ ih =>
    have next := List.mem_of_find?_eq_some (StructDef.parent?_eq_some.mp found).2
    exact .up ((StructDef.parent?_append declared member more).trans found) fresh (ih next)

theorem lineage_append (declared : StructDef.ParentsDeclared structs) (member : current ∈ structs)
    (more : List StructDef) : current.lineage (structs ++ more) = current.lineage structs := by
  have trace := (trace_climb structs [current.name] current).append declared member more
  rw [StructDef.lineage, StructDef.lineage, trace.climb_eq]

end Lineage

namespace Document

variable {document : Document}

theorem structs_append (document : Document) (more : List Declaration) :
    (document.append more).structs = document.structs ++ more.filterMap Declaration.struct? :=
  List.filterMap_append

theorem resolveDeclaration_append (declared : StructDef.ParentsDeclared document.structs)
    {declaration : Declaration} (member : declaration ∈ document.declarations)
    (more : List Declaration) :
    (document.append more).resolveDeclaration declaration =
      document.resolveDeclaration declaration := by
  cases declaration with
  | struct decl =>
    have own : decl ∈ document.structs := List.mem_filterMap.mpr ⟨.struct decl, member, rfl⟩
    rw [resolveDeclaration, resolveDeclaration, Declaration.resolve, Declaration.resolve,
      structs_append, Lineage.lineage_append declared own]
  | _ => rfl

theorem items_resolve_append (declared : StructDef.ParentsDeclared document.structs)
    (more : List Declaration) :
    (document.append more).resolve.items = document.resolve.items ++
      more.map fun declaration =>
        ((document.append more).resolveDeclaration declaration).value := by
  rw [items_resolve, items_resolve, append, List.map_append]
  congr 1
  refine List.map_congr_left fun declaration member => ?_
  exact congrArg Reported.value (resolveDeclaration_append declared member more)

end Document

namespace Output

private theorem isPrefix_intercalate (separator : String) (front back : List String) :
    (separator.intercalate front).toList <+: (separator.intercalate (front ++ back)).toList := by
  by_cases nothing : front = []
  · rw [nothing, String.intercalate_nil]
    exact List.nil_prefix
  · by_cases last : back = []
    · simp [last]
    · rw [String.intercalate_append_of_ne_nil nothing last, String.append_assoc,
        String.toList_append]
      exact List.prefix_append _ _

theorem blocks_append (settings : Settings) (target : Target) (items more : List ResolvedItem) :
    blocks settings target (items ++ more) = blocks settings target items ++
      more.filterMap fun item =>
        (target.render settings item).map (Snippet.render settings.indent) := by
  rw [blocks, blocks, List.filterMap_append, List.append_assoc]

/-- Whatever is declared behind a document in which every parent of a struct is declared, be it a
name of the document once more: the resolved items of the document stay the first ones, and the text
that was generated for it, up to the end of its last line, stays the start of the text. -/
theorem ofDocument_append (settings : Settings) (target : Target) {document : Document}
    (declared : StructDef.ParentsDeclared document.structs) (more : List Declaration) :
    document.resolve.items <+: (document.append more).resolve.items ∧
      (ofDocument settings target document).body <+:
        (ofDocument settings target (document.append more)).text.toList := by
  have items := Document.items_resolve_append declared more
  constructor
  · rw [items]
    exact List.prefix_append _ _
  · rw [ofDocument, ofDocument, text_ofResolution, body_ofResolution, body_ofResolution, items,
      blocks_append]
    exact (isPrefix_intercalate _ _ _).trans (List.prefix_append _ _)

/-- Two structs on a cycle and one that runs into it, with another struct behind them that has the
name of the first parent. -/
theorem ofDocument_append_shadowed :
    let document : Document := ⟨[
      .struct ⟨"Outer", [⟨"id", .named "Int32", false⟩], some "First"⟩,
      .struct ⟨"First", [⟨"next", .named "Second", true⟩], some "Second"⟩,
      .struct ⟨"Second", [], some "First"⟩]⟩
    let more : List Declaration := [
      .struct ⟨"First", [⟨"late", .named "String", false⟩], some "Missing"⟩,
      .interface ⟨"Outer", [], none⟩]
    let settings : Settings := { exported := true, banner := some "generated" }
    StructDef.ParentsDeclared document.structs ∧
      document.resolve.items <+: (document.append more).resolve.items ∧
      (ofDocument settings .rust document).body <+:
        (ofDocument settings .rust (document.append more)).text.toList := by
  intro document more settings
  have declared : StructDef.ParentsDeclared document.structs := by
    simp [StructDef.ParentsDeclared, document, Document.structs, Declaration.struct?,
      StructDef.first?]
  exact ⟨declared, ofDocument_append settings .rust declared more⟩

end Output
end PolySchema
