import PolySchema.Proofs.Resolution

namespace PolySchema

/-- With one item for each key, the first item of a key is the same in any order. -/
private theorem find?_eq_of_perm {key : α → String} {items others : List α}
    (perm : items.Perm others) (distinct : items.Pairwise fun left right => key left ≠ key right)
    (name : String) :
    items.find? (fun item => key item == name) = others.find? (fun item => key item == name) := by
  induction perm with
  | nil => rfl
  | cons item _ ih =>
    rw [List.find?_cons, List.find?_cons, ih distinct.of_cons]
  | swap first second rest =>
    have different : key second ≠ key first := List.rel_of_pairwise_cons distinct List.mem_cons_self
    by_cases found : key first = name
    · have other : key second ≠ name := fun same => different (same.trans found.symm)
      simp [found, other]
    · simp [List.find?_cons, found]
  | trans left _ leftIh rightIh =>
    exact (leftIh distinct).trans (rightIh (left.pairwise distinct Ne.symm))

namespace Lineage

variable {structs others : List StructDef}

/-- A walk looks at nothing but the first struct of each name. -/
theorem Trace.of_first?_eq (same : StructDef.first? structs = StructDef.first? others)
    (trace : Trace structs seen current above closing) :
    Trace others seen current above closing := by
  have parent (decl : StructDef) : decl.parent? others = decl.parent? structs := by
    rw [StructDef.parent?, StructDef.parent?, same]
  induction trace with
  | top missing => exact .top ((parent _).trans missing)
  | back found known => exact .back ((parent _).trans found) known
  | up found fresh _ ih => exact .up ((parent _).trans found) fresh ih

theorem climb_eq_of_first?_eq (same : StructDef.first? structs = StructDef.first? others)
    (seen : List String) (current : StructDef) :
    climb structs seen current = climb others seen current :=
  ((trace_climb structs seen current).of_first?_eq same).climb_eq.symm

end Lineage

namespace Document

/-- Two documents in which every name stands for the same struct and the same interface. -/
structure SameNames (document other : Document) : Prop where
  struct : document.struct? = other.struct?
  interface : document.interface? = other.interface?

variable {document other : Document}

private theorem find?_filterMap_of_perm {pick : Declaration → Option α} {key : α → String}
    {first second : List Declaration}
    (named : ∀ declaration item, pick declaration = some item → key item = declaration.name)
    (perm : first.Perm second) (distinct : (first.map Declaration.name).Nodup) (name : String) :
    (first.filterMap pick).find? (fun item => key item == name) =
      (second.filterMap pick).find? (fun item => key item == name) := by
  refine find?_eq_of_perm (perm.filterMap pick) ?_ name
  refine List.pairwise_filterMap.mpr ((List.pairwise_map.mp distinct).imp ?_)
  intro left right different item found next other same
  rw [named left item found, named right next other] at same
  exact different same

theorem SameNames.of_perm (perm : document.declarations.Perm other.declarations)
    (distinct : (document.declarations.map Declaration.name).Nodup) : SameNames document other := by
  constructor
  · funext name
    refine find?_filterMap_of_perm ?_ perm distinct name
    rintro (_ | _ | _ | _) item ⟨⟩
    rfl
  · funext name
    refine find?_filterMap_of_perm ?_ perm distinct name
    rintro (_ | _ | _ | _) item ⟨⟩
    rfl

/-- What a declaration is resolved to in a document. -/
def resolveDeclaration (document : Document) (declaration : Declaration) :
    Reported ResolvedItem :=
  declaration.resolve (StructDef.lineage document.structs)

namespace SameNames

theorem lineage_eq (same : SameNames document other) :
    StructDef.lineage document.structs = StructDef.lineage other.structs := by
  funext decl
  rw [StructDef.lineage, StructDef.lineage, Lineage.climb_eq_of_first?_eq same.struct]

theorem resolveDeclaration_eq (same : SameNames document other) :
    document.resolveDeclaration = other.resolveDeclaration := by
  funext declaration
  rw [resolveDeclaration, resolveDeclaration, same.lineage_eq]

theorem resolveStruct_eq (same : SameNames document other) :
    document.resolveStruct = other.resolveStruct := by
  funext decl
  rw [resolveStruct, resolveStruct, same.lineage_eq]

theorem missingParent?_eq (same : SameNames document other) :
    document.missingParent? = other.missingParent? := by
  funext declaration
  cases declaration <;> simp only [missingParent?, same.struct, same.interface]

end SameNames

theorem items_resolve (document : Document) :
    document.resolve.items =
      document.declarations.map fun declaration => (document.resolveDeclaration declaration).value := by
  rw [Document.resolve_eq, Document.resolveWith, List.map_map]
  rfl

private theorem repeatedFrom_eq_nil {seen : List String} {declarations : List Declaration}
    (distinct : (declarations.map Declaration.name).Nodup)
    (fresh : ∀ declaration ∈ declarations, declaration.name ∉ seen) :
    repeatedFrom seen declarations = [] := by
  induction declarations generalizing seen with
  | nil => rfl
  | cons declaration rest ih =>
    obtain ⟨absent, later⟩ := List.nodup_cons.mp distinct
    have unseen : seen.contains declaration.name = false := by
      simpa using fresh declaration List.mem_cons_self
    rw [repeatedFrom, unseen]
    refine ih later ?_
    intro next member known
    rcases List.mem_cons.mp known with again | earlier
    · exact absent (List.mem_map.mpr ⟨next, member, again⟩)
    · exact fresh next (List.mem_cons_of_mem _ member) earlier

theorem duplicates_eq_nil (distinct : (document.declarations.map Declaration.name).Nodup) :
    document.duplicates = [] := by
  rw [duplicates, repeatedFrom_eq_nil distinct (fun _ _ => List.not_mem_nil)]
  rfl

/-- Where all names differ, reordering the declarations reorders the resolved items in the same way
and the diagnostics in some way: the item at the place of a declaration is the same wherever the
declaration stands. -/
theorem resolve_reorder (distinct : (document.declarations.map Declaration.name).Nodup)
    (perm : other.declarations.Perm document.declarations) :
    (∀ i j : Nat, other.declarations[i]? = document.declarations[j]? →
      other.resolve.items[i]? = document.resolve.items[j]?) ∧
    other.resolve.items.Perm document.resolve.items ∧
    other.resolve.diagnostics.Perm document.resolve.diagnostics := by
  have same := SameNames.of_perm perm.symm distinct
  have otherDistinct := (perm.map Declaration.name).nodup_iff.mpr distinct
  refine ⟨?_, ?_, ?_⟩
  · intro i j place
    rw [items_resolve, items_resolve, List.getElem?_map, List.getElem?_map, place,
      same.resolveDeclaration_eq]
  · rw [items_resolve, items_resolve, same.resolveDeclaration_eq]
    exact perm.map _
  · rw [diagnostics_resolve, diagnostics_resolve, duplicates_eq_nil distinct,
      duplicates_eq_nil otherDistinct, unresolvedParents, unresolvedParents,
      same.missingParent?_eq, same.resolveStruct_eq]
    refine List.Perm.append ((perm.filterMap _).append_left []) ?_
    exact (perm.filterMap Declaration.struct?).flatMap_right _

/-- A document with a cycle, a forward reference and two parents that are not declared, and the same
document from its end to its start. -/
theorem resolve_reorder_cyclic :
    let outer : StructDef := ⟨"Outer", [⟨"id", .named "Int32", false⟩], some "First"⟩
    let first : StructDef := ⟨"First", [⟨"next", .named "Second", true⟩], some "Second"⟩
    let second : StructDef := ⟨"Second", [], some "First"⟩
    let document : Document := ⟨[.struct outer, .struct first,
      .interface ⟨"Worker", [], some "Outer"⟩, .struct second,
      .struct ⟨"Orphan", [], some "Worker"⟩]⟩
    let other : Document := ⟨document.declarations.reverse⟩
    let resolved : FlatStruct := ⟨"Outer", ["Second", "First"],
      [⟨"next", .named "Second", true⟩, ⟨"id", .primitive .int32, false⟩], 1⟩
    (document.declarations.map Declaration.name).Nodup ∧
      other.declarations.Perm document.declarations ∧
      other.declarations[4]? = document.declarations[0]? ∧
      document.resolve.items[0]? = some (.struct resolved) ∧
      other.resolve.items[4]? = some (.struct resolved) ∧
      other.resolve.items.Perm document.resolve.items ∧
      other.resolve.diagnostics.Perm document.resolve.diagnostics := by
  intro outer first second document other resolved
  have distinct : (document.declarations.map Declaration.name).Nodup := by decide
  have perm : other.declarations.Perm document.declarations := List.reverse_perm _
  obtain ⟨items, rest⟩ := resolve_reorder distinct perm
  have trace : Lineage.Trace document.structs [outer.name] outer [first, second]
      (some (second.name, first.name)) :=
    .up rfl (by decide) (.up rfl (by decide) (.back rfl (by decide)))
  have found : document.resolve.items[0]? = some (.struct resolved) := by
    rw [@getElem?_resolve document outer 0 rfl, resolveStruct, StructDef.lineage, trace.climb_eq]
    rfl
  exact ⟨distinct, perm, rfl, found, (items 4 0 rfl).trans found, rest⟩

end Document
end PolySchema
