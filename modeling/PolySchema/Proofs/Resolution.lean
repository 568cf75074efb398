import PolySchema.Proofs.Lineage.Link
import PolySchema.Resolution

namespace PolySchema

open Relation (TransGen)

/-- What resolving a struct of the document gives and reports. -/
def Document.resolveStruct (document : Document) (decl : StructDef) : Reported FlatStruct :=
  decl.flatten (decl.lineage document.structs)

namespace Document

variable {document : Document} {decl : StructDef}

theorem getElem?_resolve {index : Nat}
    (declared : document.declarations[index]? = some (.struct decl)) :
    document.resolve.items[index]? = some (.struct (document.resolveStruct decl).value) := by
  rw [Document.resolve_eq, Document.resolveWith, List.map_map, List.getElem?_map, declared]
  rfl

private theorem filterMap_struct?_resolve (document : Document) :
    document.resolve.items.filterMap ResolvedItem.struct? =
      document.structs.map fun decl => (document.resolveStruct decl).value := by
  rw [Document.resolve_eq, Document.resolveWith, List.map_map, List.filterMap_map, Document.structs,
    List.map_filterMap]
  congr 1
  funext declaration
  cases declaration <;> rfl

theorem struct?_resolve (document : Document) (name : String) :
    document.resolve.struct? name =
      (document.struct? name).map fun decl => (document.resolveStruct decl).value := by
  rw [Resolution.struct?, filterMap_struct?_resolve, List.find?_map]
  rfl

private theorem flatMap_diagnostics_resolve (lineage : StructDef → Lineage)
    (declarations : List Declaration) :
    (declarations.flatMap fun declaration => (declaration.resolve lineage).diagnostics) =
      (declarations.filterMap Declaration.struct?).flatMap fun decl =>
        (decl.flatten (lineage decl)).diagnostics := by
  induction declarations with
  | nil => rfl
  | cons declaration rest ih =>
    rw [List.flatMap_cons, ih]
    cases declaration <;> simp [Declaration.resolve, Declaration.struct?, List.filterMap_cons]

theorem diagnostics_resolve (document : Document) :
    document.resolve.diagnostics = document.duplicates ++ document.unresolvedParents ++
      document.structs.flatMap fun decl => (document.resolveStruct decl).diagnostics := by
  rw [Document.resolve_eq, Document.resolveWith, List.flatMap_map, flatMap_diagnostics_resolve]
  rfl

theorem resolveStruct_of_top (missing : decl.parent? document.structs = none) :
    document.resolveStruct decl = pure ⟨decl.name, [], decl.fields.map Field.classify, 0⟩ := by
  have trace : Lineage.Trace document.structs [decl.name] decl [] none := .top missing
  rw [resolveStruct, StructDef.lineage, trace.climb_eq]
  rfl

private theorem lineage_of_parent? {next : StructDef}
    (found : decl.parent? document.structs = some next)
    (acyclic : (decl.lineage document.structs).cycle = none) :
    (decl.lineage document.structs).ancestors =
      (next.lineage document.structs).ancestors ++ [next] := by
  have trace := Lineage.trace_climb document.structs [decl.name] decl
  simp only [StructDef.lineage] at acyclic ⊢
  generalize Lineage.climb document.structs [decl.name] decl = walk at trace acyclic ⊢
  obtain ⟨above, closing⟩ := walk
  cases trace with
  | top missing =>
    rw [missing] at found
    cases found
  | back => cases acyclic
  | up step fresh tail =>
    rw [found, Option.some.injEq] at step
    subst step
    -- By itself the parent starts with fewer names to keep away from. Only a cycle could tell the
    -- two walks apart.
    have own := (tail.of_subset acyclic (List.cons_subset_cons _ (List.nil_subset _))).climb_eq
    rw [own, List.reverse_cons]

private theorem cycle_of_diagnostics
    (clean : ∀ diagnostic ∈ (document.resolveStruct decl).diagnostics,
      diagnostic.kind ≠ .inheritanceCycle) : (decl.lineage document.structs).cycle = none := by
  cases closing : (decl.lineage document.structs).cycle with
  | none => rfl
  | some link =>
    refine absurd rfl (clean ⟨.inheritanceCycle, none,
      decl.name ++ " via " ++ link.1 ++ " extends " ++ link.2⟩ ?_)
    simp [resolveStruct, StructDef.flatten, closing]

/-- A struct has the fields of its resolved parent and then its own, unless it has no declared
parent or runs into a cycle. In all cases its own fields are those after the inherited ones. -/
theorem resolve_struct_fields {index : Nat}
    (declared : document.declarations[index]? = some (.struct decl)) :
    ∃ flat, document.resolve.items[index]? = some (.struct flat) ∧
      flat = (document.resolveStruct decl).value ∧ flat.name = decl.name ∧
      ((∀ parent ∈ decl.parent, document.struct? parent = none) →
        flat.ancestors = [] ∧ flat.inherited = 0 ∧
        flat.fields = decl.fields.map Field.classify) ∧
      (∀ parent base, decl.parent = some parent → document.struct? parent = some base →
        (∀ diagnostic ∈ (document.resolveStruct decl).diagnostics,
          diagnostic.kind ≠ .inheritanceCycle) →
        ∃ flatBase, document.resolve.struct? parent = some flatBase ∧
          flatBase = (document.resolveStruct base).value ∧
          flat.fields = flatBase.fields ++ decl.fields.map Field.classify ∧
          flat.inherited = flatBase.fields.length ∧
          flat.ancestors = flatBase.ancestors ++ [parent]) ∧
      flat.inherited ≤ flat.fields.length ∧ flat.ownFields = decl.fields.map Field.classify := by
  refine ⟨_, getElem?_resolve declared, rfl, rfl, ?_, ?_, ?_, ?_⟩
  · intro undeclared
    have missing : decl.parent? document.structs = none := by
      cases named : decl.parent with
      | none => rw [StructDef.parent?, named, Option.bind_none]
      | some parent =>
        rw [StructDef.parent?, named, Option.bind_some]
        exact undeclared parent named
    rw [resolveStruct_of_top missing]
    exact ⟨rfl, rfl, rfl⟩
  · intro parent base named found clean
    obtain rfl := StructDef.name_of_first? found
    have step := StructDef.parent?_eq_some.mpr ⟨named, found⟩
    have ancestors := lineage_of_parent? step (cycle_of_diagnostics clean)
    refine ⟨_, ?_, rfl, ?_, ?_, ?_⟩
    · rw [struct?_resolve, found]
      rfl
    · simp [resolveStruct, StructDef.flatten, ancestors]
    · simp [resolveStruct, StructDef.flatten, ancestors]
    · simp [resolveStruct, StructDef.flatten, ancestors]
  · simp [resolveStruct, StructDef.flatten]
  · simp [resolveStruct, StructDef.flatten, FlatStruct.ownFields]

/-- Parents that are declared later, and a second struct of a parent's name. -/
theorem resolve_struct_fields_forward :
    let entity : StructDef := ⟨"Entity", [⟨"id", .named "string", false⟩], none⟩
    let user : StructDef := ⟨"User", [⟨"name", .named "string", true⟩], some "Entity"⟩
    let other : StructDef := ⟨"User", [], some "Admin"⟩
    let admin : StructDef := ⟨"Admin", [⟨"level", .named "number", false⟩], some "User"⟩
    let document : Document := ⟨[.struct admin, .struct user, .struct other, .struct entity]⟩
    let flat := (document.resolveStruct admin).value
    document.declarations[0]? = some (.struct admin) ∧
      (document.resolveStruct admin).diagnostics = [] ∧
      ∃ flatBase, document.resolve.struct? "User" = some flatBase ∧
        flatBase = (document.resolveStruct user).value ∧
        flat.fields = flatBase.fields ++ admin.fields.map Field.classify ∧
        flat.inherited = flatBase.fields.length ∧
        flat.ancestors = flatBase.ancestors ++ ["User"] := by
  intro entity user other admin document flat
  have trace : Lineage.Trace document.structs [admin.name] admin [user, entity] none :=
    .up rfl (by decide) (.up rfl (by decide) (.top rfl))
  have clean : (document.resolveStruct admin).diagnostics = [] := by
    rw [resolveStruct, StructDef.lineage, trace.climb_eq]
    rfl
  obtain ⟨_, _, rfl, _, _, inherits, _⟩ := @resolve_struct_fields document admin 0 rfl
  refine ⟨rfl, clean, inherits "User" user rfl rfl ?_⟩
  rw [clean]
  exact fun _ member => absurd member List.not_mem_nil

theorem exists_trace (document : Document) (decl : StructDef) :
    ∃ above closing, Lineage.Trace document.structs [decl.name] decl above closing ∧
      (document.resolveStruct decl).value.ancestors = (above.map StructDef.name).reverse ∧
      (document.resolveStruct decl).value.fields =
        ((decl :: above).reverse.flatMap fun ancestor => ancestor.fields.map Field.classify) ∧
      (document.resolveStruct decl).diagnostics = closing.toList.map fun link =>
        ⟨.inheritanceCycle, none, decl.name ++ " via " ++ link.1 ++ " extends " ++ link.2⟩ := by
  refine ⟨_, _, Lineage.trace_climb document.structs [decl.name] decl, ?_, ?_, rfl⟩
  · rw [← List.map_reverse]
    rfl
  · rw [List.reverse_cons, List.flatMap_append, List.flatMap_singleton]
    rfl

/-- The first struct of a name has for ancestors exactly the names that can be reached from it by
links. It is reported once if a cycle can be reached, with a link that closes one, and else not. -/
theorem resolve_struct_cycle (first : document.struct? decl.name = some decl) :
    let resolved := document.resolveStruct decl
    let ancestors := resolved.value.ancestors
    let structs := document.structs
    document.resolve.struct? decl.name = some resolved.value ∧
      document.resolve.diagnostics = document.duplicates ++ document.unresolvedParents ++
        structs.flatMap (fun other => (document.resolveStruct other).diagnostics) ∧
      (Lineage.RunsIntoCycle structs decl.name → ∃ child parent,
        resolved.diagnostics = [⟨.inheritanceCycle, none,
          decl.name ++ " via " ++ child ++ " extends " ++ parent⟩] ∧
        Lineage.Link structs child parent ∧
        child ∈ decl.name :: ancestors ∧ parent ∈ decl.name :: ancestors) ∧
      (¬ Lineage.RunsIntoCycle structs decl.name → resolved.diagnostics = []) ∧
      (∀ name, name ∈ ancestors ↔
        TransGen (Lineage.Link structs) decl.name name ∧ name ≠ decl.name) ∧
      ancestors.Nodup ∧ ancestors.length < structs.length := by
  obtain ⟨above, closing, trace, ancestors, _, diagnostics⟩ := exists_trace document decl
  dsimp only
  rw [ancestors]
  refine ⟨?_, document.diagnostics_resolve, ?_, ?_, ?_, ?_, ?_⟩
  · rw [struct?_resolve, first]
    rfl
  · intro cycle
    cases closing with
    | none => exact absurd cycle (trace.acyclic first rfl)
    | some link =>
      obtain ⟨closes, start, back, _⟩ := trace.closing_link first rfl
      exact ⟨link.1, link.2, diagnostics, closes, by simpa using start, by simpa using back⟩
  · intro acyclic
    cases closing with
    | none => exact diagnostics
    | some link => exact absurd (trace.runsIntoCycle first rfl) acyclic
  · intro name
    rw [List.mem_reverse]
    exact trace.mem_iff first
  · exact (List.reverse_perm _).nodup_iff.mpr (trace.nodup first)
  · simpa using trace.length_lt first

/-- A struct that is not on the cycle that it runs into. -/
theorem resolve_struct_cycle_tail :
    let first : StructDef := ⟨"First", [], some "Second"⟩
    let second : StructDef := ⟨"Second", [], some "First"⟩
    let outer : StructDef := ⟨"Outer", [], some "First"⟩
    let document : Document := ⟨[.struct outer, .struct first, .struct second, .struct outer]⟩
    document.struct? outer.name = some outer ∧
      Lineage.RunsIntoCycle document.structs outer.name ∧
      ∃ child parent, (document.resolveStruct outer).diagnostics = [⟨.inheritanceCycle, none,
        outer.name ++ " via " ++ child ++ " extends " ++ parent⟩] := by
  intro first second outer document
  have runs : Lineage.RunsIntoCycle document.structs outer.name := by
    refine ⟨"First", .single ⟨outer, rfl, rfl, rfl⟩, ?_⟩
    exact .head ⟨first, rfl, rfl, rfl⟩ (.single ⟨second, rfl, rfl, rfl⟩)
  obtain ⟨_, _, reported, _⟩ := @resolve_struct_cycle document outer rfl
  obtain ⟨child, parent, diagnostics, _⟩ := reported runs
  exact ⟨rfl, runs, child, parent, diagnostics⟩

end Document
end PolySchema
