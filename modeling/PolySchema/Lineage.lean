import PolySchema.Document.Basic

/-! Struct inheritance. The lineage of a struct follows parents through the first struct of each
name until there is no further struct to follow, or until a name would come up twice. -/
namespace PolySchema

-- The facts named in the walk below are used by its termination proof only.
set_option linter.unusedVariables false

/-- The ancestors of a struct, the most remote first, and the link that closes a cycle, if the walk
was stopped by one. -/
structure Lineage where
  ancestors : List StructDef
  cycle : Option (String × String)

/-- A walk that reaches a name for the first time leaves fewer names to reach. -/
theorem Lineage.remaining_lt {names seen : List String} {name : String}
    (member : name ∈ names) (fresh : name ∉ seen) :
    (names.filter fun other => !(name :: seen).contains other).length <
      (names.filter fun other => !seen.contains other).length := by
  have split : names.filter (fun other => !(name :: seen).contains other) =
      (names.filter fun other => !seen.contains other).filter
        (fun other => decide (other ≠ name)) := by
    rw [List.filter_filter]
    congr 1
    funext other
    simp
  rw [split]
  refine List.length_filter_lt_length_iff_exists.mpr ⟨name, ?_, by simp⟩
  simp [member, fresh]

/-- Follow the parents of `current` through `structs`, where `seen` are the names on the way so
far: the ancestors, the nearest first, and the link that would lead back to a seen name. -/
def Lineage.climb (structs : List StructDef) (seen : List String) (current : StructDef) :
    List StructDef × Option (String × String) :=
  match current.parent with
  | none => ([], none)
  | some parent =>
    match found : StructDef.first? structs parent with
    | none => ([], none)
    | some next =>
      if known : parent ∈ seen then ([], some (current.name, parent))
      else
        let above := Lineage.climb structs (parent :: seen) next
        (next :: above.1, above.2)
termination_by ((structs.map StructDef.name).filter fun name => !seen.contains name).length
decreasing_by
  exact Lineage.remaining_lt (StructDef.mem_names_of_first? found) known

namespace Lineage

variable {structs : List StructDef} {seen : List String} {current next : StructDef}
variable {parent : String}

theorem climb_of_root (root : current.parent = none) :
    climb structs seen current = ([], none) := by
  rw [climb]
  simp [root]

theorem climb_of_missing (named : current.parent = some parent)
    (missing : StructDef.first? structs parent = none) :
    climb structs seen current = ([], none) := by
  rw [climb]
  simp only [named]
  split <;> simp_all

theorem climb_of_seen (named : current.parent = some parent)
    (found : StructDef.first? structs parent = some next) (known : parent ∈ seen) :
    climb structs seen current = ([], some (current.name, parent)) := by
  rw [climb]
  simp only [named]
  split <;> simp_all

theorem climb_of_fresh (named : current.parent = some parent)
    (found : StructDef.first? structs parent = some next) (fresh : parent ∉ seen) :
    climb structs seen current =
      (next :: (climb structs (parent :: seen) next).1, (climb structs (parent :: seen) next).2) := by
  rw [climb]
  simp only [named]
  split <;> simp_all

end Lineage

/-- The lineage of a struct among the structs of a document. -/
def StructDef.lineage (structs : List StructDef) (decl : StructDef) : Lineage :=
  let walk := Lineage.climb structs [decl.name] decl
  ⟨walk.1.reverse, walk.2⟩

end PolySchema
