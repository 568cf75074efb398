import PolySchema.Lineage
import Std.Data.HashMap
import Std.Data.HashSet

/-! Lineages through hash tables. A table of the structs and one of the names on the way take the
place of the lists; both are aligned with them, so the lineage is the same. -/
namespace PolySchema

-- The facts named in the walk below are used by its termination proof only.
set_option linter.unusedVariables false

/-- The first struct of each name. -/
structure StructIndex (structs : List StructDef) where
  table : Std.HashMap String StructDef
  aligned : ∀ name, table[name]? = StructDef.first? structs name

private def structTable : List StructDef → Std.HashMap String StructDef
  | [] => ∅
  | decl :: rest => (structTable rest).insert decl.name decl

private theorem structTable_aligned (structs : List StructDef) (name : String) :
    (structTable structs)[name]? = StructDef.first? structs name := by
  induction structs with
  | nil => simp [structTable, StructDef.first?]
  | cons decl rest ih =>
    rw [structTable, Std.HashMap.getElem?_insert, ih]
    by_cases same : decl.name = name
    · simp [StructDef.first?, same]
    · simp [StructDef.first?, same]

/-- Later structs are inserted first, so that the first of a name stays. -/
def StructIndex.ofList (structs : List StructDef) : StructIndex structs :=
  ⟨structTable structs, structTable_aligned structs⟩

/-- The names on the way of a walk. -/
structure SeenNames where
  names : List String
  table : Std.HashSet String
  aligned : ∀ name, table.contains name = names.contains name

def SeenNames.empty : SeenNames := ⟨[], ∅, by simp⟩

def SeenNames.insert (seen : SeenNames) (name : String) : SeenNames where
  names := name :: seen.names
  table := seen.table.insert name
  aligned other := by
    rw [Std.HashSet.contains_insert, seen.aligned, List.contains_cons, Bool.beq_comm]

/-- The walk of `Lineage.climb`. -/
def StructIndex.climb (index : StructIndex structs) (seen : SeenNames) (current : StructDef) :
    List StructDef × Option (String × String) :=
  match current.parent with
  | none => ([], none)
  | some parent =>
    match found : index.table[parent]? with
    | none => ([], none)
    | some next =>
      if known : seen.table.contains parent then ([], some (current.name, parent))
      else
        let above := index.climb (seen.insert parent) next
        (next :: above.1, above.2)
termination_by
  ((structs.map StructDef.name).filter fun name => !seen.names.contains name).length
decreasing_by
  rw [index.aligned] at found
  have fresh : parent ∉ seen.names := by simpa [seen.aligned] using known
  exact Lineage.remaining_lt (StructDef.mem_names_of_first? found) fresh

theorem StructIndex.climb_eq (index : StructIndex structs) (seen : SeenNames)
    (current : StructDef) : index.climb seen current = Lineage.climb structs seen.names current := by
  fun_induction StructIndex.climb index seen current with
  | case1 seen current root => exact (Lineage.climb_of_root root).symm
  | case2 seen current parent named missing =>
    rw [index.aligned] at missing
    exact (Lineage.climb_of_missing named missing).symm
  | case3 seen current parent named next found known =>
    rw [index.aligned] at found
    have member : parent ∈ seen.names := by simpa [seen.aligned] using known
    exact (Lineage.climb_of_seen named found member).symm
  | case4 seen current parent named next found known above ih =>
    rw [index.aligned] at found
    have fresh : parent ∉ seen.names := by simpa [seen.aligned] using known
    rw [Lineage.climb_of_fresh named found fresh]
    simp only [above, ih, SeenNames.insert]

/-- The lineage of a struct, found through the index. -/
def StructIndex.lineage (index : StructIndex structs) (decl : StructDef) : Lineage :=
  let walk := index.climb (SeenNames.empty.insert decl.name) decl
  ⟨walk.1.reverse, walk.2⟩

theorem StructIndex.lineage_eq (index : StructIndex structs) (decl : StructDef) :
    index.lineage decl = decl.lineage structs := by
  simp [StructIndex.lineage, StructDef.lineage, StructIndex.climb_eq, SeenNames.insert,
    SeenNames.empty]

end PolySchema
