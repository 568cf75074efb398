import PolySchema.Proofs.TypeExpr.Writable

/-! Places in a type expression. A place is the list of branches that lead to it, counted from zero;
in the order of lists, places come outermost first and from left to right. -/
namespace PolySchema

/-- The values are what is found at places, with each place once and the places in order. -/
def InPlaceOrder (find : List Nat → Option α) (values : List α) : Prop :=
  ∃ places : List (List Nat), places.Pairwise (· < ·) ∧ places.map find = values.map some ∧
    ∀ place, (find place).isSome = true → place ∈ places

/-- What is found below branches. There is nothing at the place where they start. -/
def findBelow (branches : List β) (find : β → List Nat → Option α) : List Nat → Option α
  | [] => none
  | index :: place => branches[index]?.bind fun branch => find branch place

namespace InPlaceOrder

private theorem isSome_of_mem {find : List Nat → Option α} {values : List α}
    {places : List (List Nat)} {place : List Nat} (found : places.map find = values.map some)
    (member : place ∈ places) : (find place).isSome = true := by
  have listed := List.mem_map_of_mem (f := find) member
  rw [found] at listed
  obtain ⟨value, _, same⟩ := List.mem_map.mp listed
  rw [← same, Option.isSome_some]

private theorem exists_cons_of_mem {branches : List β} {find : β → List Nat → Option α}
    {values : List α} {places : List (List Nat)} {place : List Nat}
    (found : places.map (findBelow branches find) = values.map some) (member : place ∈ places) :
    ∃ index rest, place = index :: rest := by
  have present := isSome_of_mem found member
  cases place with
  | nil => cases present
  | cons index rest => exact ⟨index, rest, rfl⟩

private theorem modifyHead_lt {first second : List Nat} (less : first < second) :
    first.modifyHead (· + 1) < second.modifyHead (· + 1) := by
  cases less with
  | nil => exact .nil
  | rel smaller => exact .rel (Nat.succ_lt_succ smaller)
  | cons rest => exact .cons rest

private theorem findBelow_modifyHead (branch : β) (branches : List β)
    (find : β → List Nat → Option α) (place : List Nat) :
    findBelow (branch :: branches) find (place.modifyHead (· + 1)) =
      findBelow branches find place := by
  cases place <;> rfl

/-- Branches in order hold what they hold in order. -/
theorem below {branches : List β} {find : β → List Nat → Option α} {values : β → List α}
    (each : ∀ branch ∈ branches, InPlaceOrder (find branch) (values branch)) :
    InPlaceOrder (findBelow branches find) (branches.flatMap values) := by
  induction branches with
  | nil =>
    refine ⟨[], .nil, rfl, fun place present => ?_⟩
    cases place <;> cases present
  | cons branch branches ih =>
    obtain ⟨head, tail⟩ := List.forall_mem_cons.mp each
    obtain ⟨first, firstOrder, firstFound, firstAll⟩ := head
    obtain ⟨later, laterOrder, laterFound, laterAll⟩ := ih tail
    -- Places in the first branch start with zero, and those in the others move on by one.
    refine ⟨first.map (0 :: ·) ++ later.map (List.modifyHead (· + 1)), ?_, ?_, ?_⟩
    · refine List.pairwise_append.mpr ⟨?_, ?_, ?_⟩
      · exact List.pairwise_map.mpr (firstOrder.imp fun less => .cons less)
      · exact List.pairwise_map.mpr (laterOrder.imp modifyHead_lt)
      · intro left inFirst right inLater
        obtain ⟨place, _, rfl⟩ := List.mem_map.mp inFirst
        obtain ⟨other, member, rfl⟩ := List.mem_map.mp inLater
        obtain ⟨index, rest, rfl⟩ := exists_cons_of_mem laterFound member
        exact .rel (Nat.succ_pos index)
    · rw [List.map_append, List.map_map, List.map_map, List.flatMap_cons, List.map_append,
        ← firstFound, ← laterFound]
      congr 1
      exact List.map_congr_left fun place _ => findBelow_modifyHead branch branches find place
    · intro place present
      match place with
      | 0 :: rest => exact List.mem_append_left _ (List.mem_map_of_mem (firstAll rest present))
      | (index + 1) :: rest =>
        have member := laterAll (index :: rest) present
        exact List.mem_append_right _ (List.mem_map.mpr ⟨index :: rest, member, rfl⟩)

/-- What stands at the start comes before all that is below it. -/
theorem root {branches : List β} {inner : β → List Nat → Option α} {values : List α}
    (order : InPlaceOrder (findBelow branches inner) values)
    {find : List Nat → Option α} {value : α}
    (start : find [] = some value)
    (rest : ∀ index place, find (index :: place) = findBelow branches inner (index :: place)) :
    InPlaceOrder find (value :: values) := by
  obtain ⟨places, ordered, found, all⟩ := order
  refine ⟨[] :: places, List.pairwise_cons.mpr ⟨?_, ordered⟩, ?_, ?_⟩
  · intro place member
    obtain ⟨index, rest, rfl⟩ := exists_cons_of_mem found member
    exact .nil
  · rw [List.map_cons, List.map_cons, start, ← found]
    congr 1
    refine List.map_congr_left fun place member => ?_
    obtain ⟨index, place, rfl⟩ := exists_cons_of_mem found member
    exact rest index place
  · intro place present
    cases place with
    | nil => exact List.mem_cons_self
    | cons index place =>
      rw [rest] at present
      exact List.mem_cons_of_mem _ (all _ present)

theorem filter {find : List Nat → Option α} {values : List α} (order : InPlaceOrder find values)
    (keep : α → Bool) :
    InPlaceOrder (fun place => (find place).filter keep) (values.filter keep) := by
  obtain ⟨places, ordered, found, all⟩ := order
  refine ⟨places.filter fun place => (find place).any keep, ordered.filter _, ?_, ?_⟩
  · clear ordered all
    induction places generalizing values with
    | nil =>
      rw [List.map_nil, eq_comm, List.map_eq_nil_iff] at found
      rw [found]
      rfl
    | cons place places ih =>
      cases values with
      | nil => cases found
      | cons value values =>
        obtain ⟨first, later⟩ := List.cons_eq_cons.mp found
        by_cases kept : keep value = true
        · simp [first, kept, ih later]
        · simp [first, kept, ih later]
  · intro place present
    cases same : find place with
    | none => simp [same] at present
    | some value =>
      have listed := all place (by rw [same, Option.isSome_some])
      refine List.mem_filter.mpr ⟨listed, ?_⟩
      simpa [same, Option.isSome_filter] using present

end InPlaceOrder

namespace TypeExpr

/-- The expressions that an expression is made of, from left to right. -/
def children : TypeExpr → List TypeExpr
  | .primitive _ | .named _ => []
  | .array element => [element]
  | .map key value => [key, value]
  | .record fields => fields.map Field.type
  | .generic _ argument => [argument]

/-- The expression at a place. -/
def at? : TypeExpr → List Nat → Option TypeExpr
  | type, [] => some type
  | type, index :: place => type.children[index]?.bind fun child => child.at? place

theorem subexpressions_eq_cons (type : TypeExpr) :
    type.subexpressions = type :: type.children.flatMap subexpressions := by
  cases type <;>
    simp [subexpressions, children, Field.subexpressionsAll_eq_flatMap, List.flatMap_map]

/-- Nested expressions are listed outermost first and from left to right. -/
theorem inPlaceOrder_subexpressions (type : TypeExpr) :
    InPlaceOrder type.at? type.subexpressions := by
  have step (type : TypeExpr)
      (each : ∀ child ∈ type.children, InPlaceOrder child.at? child.subexpressions) :
      InPlaceOrder type.at? type.subexpressions := by
    rw [subexpressions_eq_cons]
    exact (InPlaceOrder.below each).root (by rw [at?]) fun index place => by rw [at?, findBelow]
  induction type with
  | primitive leaf => exact step _ (List.forall_mem_nil _)
  | named name => exact step _ (List.forall_mem_nil _)
  | array element ih => exact step _ (List.forall_mem_singleton.mpr ih)
  | map key value keyIh valueIh =>
    exact step _ (List.forall_mem_cons.mpr ⟨keyIh, List.forall_mem_singleton.mpr valueIh⟩)
  | record fields ih => exact step _ (List.forall_mem_map.mpr ih)
  | generic base argument ih => exact step _ (List.forall_mem_singleton.mpr ih)

end TypeExpr
end PolySchema
