import Mathlib.Data.List.Perm.Subperm
import Mathlib.Logic.Relation
import PolySchema.Proofs.Lineage.Trace

/-! Links between the names of structs. From every name there is at most one link, so the walk up a
lineage meets all names that can be reached, and finds a cycle exactly where the links have one. -/
namespace PolySchema.Lineage

open Relation (ReflTransGen TransGen)

/-- The first struct of a name extends another name that is declared too. -/
def Link (structs : List StructDef) (child parent : String) : Prop :=
  ∃ decl, StructDef.first? structs child = some decl ∧ decl.parent = some parent ∧
    (StructDef.first? structs parent).isSome = true

/-- Links lead from a name to a name that leads back to itself. -/
def RunsIntoCycle (structs : List StructDef) (start : String) : Prop :=
  ∃ name, ReflTransGen (Link structs) start name ∧ TransGen (Link structs) name name

variable {structs : List StructDef} {current : StructDef} {name : String}

theorem link_iff (first : StructDef.first? structs current.name = some current) :
    Link structs current.name name ↔
      ∃ next, current.parent? structs = some next ∧ next.name = name := by
  constructor
  · rintro ⟨decl, found, named, declared⟩
    rw [first, Option.some.injEq] at found
    subst found
    obtain ⟨next, target⟩ := Option.isSome_iff_exists.mp declared
    obtain rfl := StructDef.name_of_first? target
    exact ⟨next, StructDef.parent?_eq_some.mpr ⟨named, target⟩, rfl⟩
  · rintro ⟨next, found, rfl⟩
    obtain ⟨named, target⟩ := StructDef.parent?_eq_some.mp found
    exact ⟨current, first, named, by rw [target]; rfl⟩

theorem mem_names_of_transGen {start : String} (reached : TransGen (Link structs) start name) :
    name ∈ structs.map StructDef.name := by
  have target : ∃ child, Link structs child name := by
    cases reached with
    | single link => exact ⟨_, link⟩
    | tail _ link => exact ⟨_, link⟩
  obtain ⟨child, decl, found, named, declared⟩ := target
  obtain ⟨next, last⟩ := Option.isSome_iff_exists.mp declared
  exact StructDef.mem_names_of_first? last

namespace Trace

variable {seen : List String} {above : List StructDef} {closing : Option (String × String)}
variable {next : StructDef}

private theorem link_up (first : StructDef.first? structs current.name = some current)
    (found : current.parent? structs = some next) : Link structs current.name next.name :=
  (link_iff first).mpr ⟨next, found, rfl⟩

private theorem not_link (first : StructDef.first? structs current.name = some current)
    (missing : current.parent? structs = none) : ¬ Link structs current.name name := by
  intro link
  obtain ⟨next, found, _⟩ := (link_iff first).mp link
  rw [missing] at found
  cases found

private theorem eq_of_link (first : StructDef.first? structs current.name = some current)
    (found : current.parent? structs = some next) (link : Link structs current.name name) :
    name = next.name := by
  obtain ⟨other, same, rfl⟩ := (link_iff first).mp link
  rw [found, Option.some.injEq] at same
  rw [same]

private theorem first_of_parent? (found : current.parent? structs = some next) :
    StructDef.first? structs next.name = some next := (StructDef.parent?_eq_some.mp found).2

/-- The ancestors are reached by links, and none of them was seen before. -/
theorem reached (trace : Trace structs seen current above closing)
    (first : StructDef.first? structs current.name = some current) :
    ∀ name ∈ above.map StructDef.name,
      TransGen (Link structs) current.name name ∧ name ∉ seen := by
  induction trace with
  | top => simp
  | back => simp
  | up found fresh _ ih =>
    have link := link_up first found
    intro name member
    rcases List.mem_cons.mp member with rfl | later
    · exact ⟨.single link, fresh⟩
    · obtain ⟨path, unseen⟩ := ih (first_of_parent? found) name later
      exact ⟨.head link path, fun known => unseen (List.mem_cons_of_mem _ known)⟩

theorem nodup (trace : Trace structs seen current above closing)
    (first : StructDef.first? structs current.name = some current) :
    (above.map StructDef.name).Nodup := by
  induction trace with
  | top => exact List.nodup_nil
  | back => exact List.nodup_nil
  | up found fresh tail ih =>
    have target := first_of_parent? found
    refine List.nodup_cons.mpr ⟨?_, ih target⟩
    intro again
    exact (tail.reached target _ again).2 List.mem_cons_self

/-- No link leads out of the names that the walk has met. -/
theorem closed (trace : Trace structs seen current above closing)
    (first : StructDef.first? structs current.name = some current) :
    ∀ name ∈ current.name :: above.map StructDef.name, ∀ other, Link structs name other →
      other ∈ seen ∨ other ∈ above.map StructDef.name := by
  induction trace with
  | top missing =>
    intro name member other link
    obtain rfl := List.mem_singleton.mp member
    exact absurd link (not_link first missing)
  | back found known =>
    intro name member other link
    obtain rfl := List.mem_singleton.mp member
    rw [eq_of_link first found link]
    exact Or.inl known
  | up found fresh _ ih =>
    intro name member other link
    rcases List.mem_cons.mp member with rfl | later
    · rw [eq_of_link first found link]
      exact Or.inr List.mem_cons_self
    · rcases ih (first_of_parent? found) name later other link with known | ahead
      · rcases List.mem_cons.mp known with rfl | before
        · exact Or.inr List.mem_cons_self
        · exact Or.inl before
      · exact Or.inr (List.mem_cons_of_mem _ ahead)

/-- The closing link starts at the end of the walk and leads back to a name on the way. -/
theorem closing_link (trace : Trace structs seen current above closing)
    (first : StructDef.first? structs current.name = some current) {child parent : String}
    (closes : closing = some (child, parent)) :
    Link structs child parent ∧ child ∈ current.name :: above.map StructDef.name ∧
      parent ∈ seen ++ above.map StructDef.name ∧
      ∀ name ∈ current.name :: above.map StructDef.name,
        ReflTransGen (Link structs) name child := by
  induction trace with
  | top => cases closes
  | back found known =>
    cases closes
    refine ⟨link_up first found, List.mem_cons_self, List.mem_append_left _ known, ?_⟩
    intro name member
    rw [List.mem_singleton.mp member]
  | up found fresh _ ih =>
    obtain ⟨link, start, back, paths⟩ := ih (first_of_parent? found) closes
    refine ⟨link, List.mem_cons_of_mem _ start, ?_, ?_⟩
    · simp only [List.map_cons, List.mem_append, List.mem_cons] at back ⊢
      tauto
    · intro name member
      rcases List.mem_cons.mp member with rfl | later
      · exact .head (link_up first found) (paths _ List.mem_cons_self)
      · exact paths name later

theorem acyclic (trace : Trace structs seen current above closing)
    (first : StructDef.first? structs current.name = some current) (ended : closing = none) :
    ¬ RunsIntoCycle structs current.name := by
  induction trace with
  | top missing =>
    rintro ⟨name, path, cycle⟩
    rcases path.cases_head with rfl | ⟨other, link, _⟩
    · obtain ⟨other, link, _⟩ := TransGen.head'_iff.mp cycle
      exact not_link first missing link
    · exact not_link first missing link
  | back => cases ended
  | up found fresh _ ih =>
    apply mt ?_ (ih (first_of_parent? found) ended)
    rintro ⟨name, path, cycle⟩
    rcases path.cases_head with rfl | ⟨other, link, rest⟩
    · -- A cycle through the start goes through its parent.
      obtain ⟨other, link, rest⟩ := TransGen.head'_iff.mp cycle
      obtain rfl := eq_of_link first found link
      exact ⟨_, .refl, TransGen.tail' rest link⟩
    · obtain rfl := eq_of_link first found link
      exact ⟨name, rest, cycle⟩

section Whole

/-! Walks from the start, with only its own name seen before. -/
variable (trace : Trace structs [current.name] current above closing)
variable (first : StructDef.first? structs current.name = some current)
include trace first

/-- The walk meets what can be reached. -/
theorem mem_iff : name ∈ above.map StructDef.name ↔
    TransGen (Link structs) current.name name ∧ name ≠ current.name := by
  constructor
  · intro member
    obtain ⟨path, unseen⟩ := trace.reached first name member
    exact ⟨path, fun same => unseen (List.mem_singleton.mpr same)⟩
  · rintro ⟨path, other⟩
    have within : name ∈ current.name :: above.map StructDef.name := by
      clear other
      induction path with
      | single link => simpa using trace.closed first _ List.mem_cons_self _ link
      | tail _ link ih => simpa using trace.closed first _ ih _ link
    exact (List.mem_cons.mp within).resolve_left other

theorem length_lt : above.length < structs.length := by
  have distinct : (current.name :: above.map StructDef.name).Nodup := by
    refine List.nodup_cons.mpr ⟨?_, trace.nodup first⟩
    intro again
    exact (trace.mem_iff first |>.mp again).2 rfl
  have declared : current.name :: above.map StructDef.name ⊆ structs.map StructDef.name := by
    refine List.cons_subset.mpr ⟨StructDef.mem_names_of_first? first, ?_⟩
    intro name member
    exact mem_names_of_transGen (trace.mem_iff first |>.mp member).1
  have fewer := (distinct.subperm declared).length_le
  rw [List.length_cons, List.length_map, List.length_map] at fewer
  exact fewer

theorem runsIntoCycle (closes : closing = some link) : RunsIntoCycle structs current.name := by
  obtain ⟨last, _, back, paths⟩ := trace.closing_link first closes
  have member : link.2 ∈ current.name :: above.map StructDef.name := back
  refine ⟨link.2, ?_, TransGen.tail' (paths link.2 member) last⟩
  rcases List.mem_cons.mp member with same | later
  · rw [same]
  · exact (trace.reached first link.2 later).1.to_reflTransGen

end Whole

end Trace
end PolySchema.Lineage
