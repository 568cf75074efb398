import PolySchema.Identifier
import PolySchema.TypeExpr.Basic

/-! Type expressions that can be written down: their names are identifiers, so that the written form
shows where each name ends. A written primitive cannot be told from its name. -/
namespace PolySchema

/-- Induction on type expressions, with one hypothesis for all fields of a record. -/
@[induction_eliminator]
theorem TypeExpr.induction {motive : TypeExpr → Prop}
    (primitive : ∀ leaf, motive (.primitive leaf))
    (named : ∀ name, motive (.named name))
    (array : ∀ element, motive element → motive (.array element))
    (map : ∀ key value, motive key → motive value → motive (.map key value))
    (record : ∀ fields, (∀ field ∈ fields, motive field.type) → motive (.record fields))
    (generic : ∀ base argument, motive argument → motive (.generic base argument))
    (type : TypeExpr) : motive type := by
  refine @TypeExpr.rec motive (fun field => motive field.type)
    (fun fields => ∀ field ∈ fields, motive field.type)
    primitive named array map record generic (fun _ _ _ valid => valid) ?_ ?_ type
  · intro field member
    cases member
  · intro head tail first rest field member
    rcases List.mem_cons.mp member with rfl | later
    · exact first
    · exact rest field later

/-- Whether the names that stand in an expression itself, not in what it nests, are identifiers. The
name of maps is no base of a generic application. -/
def TypeExpr.hasValidNames : TypeExpr → Bool
  | .named name => isIdentifier name.toList
  | .record fields => fields.all fun field => isIdentifier field.name.toList
  | .generic base _ => isIdentifier base.toList && base != "Record"
  | .primitive _ | .array _ | .map _ _ => true

/-- Whether all names of an expression, at any depth, are identifiers. -/
def TypeExpr.isWritable (type : TypeExpr) : Bool := type.subexpressions.all TypeExpr.hasValidNames

def Field.isWritable (field : Field) : Bool :=
  isIdentifier field.name.toList && field.type.isWritable

def TypeExpr.isPrimitive : TypeExpr → Bool
  | .primitive _ => true
  | _ => false

/-- Whether an expression has no primitive at any depth. -/
def TypeExpr.isUnclassified (type : TypeExpr) : Bool :=
  type.subexpressions.all fun inner => !inner.isPrimitive

mutual

/-- The expression with the name of each primitive in its place. -/
def TypeExpr.unclassify : TypeExpr → TypeExpr
  | .primitive leaf => .named leaf.name
  | .named name => .named name
  | .array element => .array element.unclassify
  | .map key value => .map key.unclassify value.unclassify
  | .record fields => .record (Field.unclassifyAll fields)
  | .generic base argument => .generic base argument.unclassify

def Field.unclassify : Field → Field
  | ⟨name, type, optional⟩ => ⟨name, type.unclassify, optional⟩

def Field.unclassifyAll : List Field → List Field
  | [] => []
  | field :: rest => field.unclassify :: Field.unclassifyAll rest

end

theorem Field.classify_eq (field : Field) :
    field.classify = ⟨field.name, field.type.classify, field.optional⟩ := by
  cases field
  rfl

theorem Field.unclassify_eq (field : Field) :
    field.unclassify = ⟨field.name, field.type.unclassify, field.optional⟩ := by
  cases field
  rfl

theorem Field.unclassifyAll_eq_map (fields : List Field) :
    Field.unclassifyAll fields = fields.map Field.unclassify := by
  induction fields with
  | nil => rfl
  | cons field rest ih => simp [Field.unclassifyAll, ih]

namespace TypeExpr

@[simp] theorem isWritable_primitive : (primitive leaf).isWritable = true := rfl

@[simp] theorem isWritable_named : (named name).isWritable = isIdentifier name.toList := by
  simp [isWritable, subexpressions, hasValidNames]

@[simp] theorem isWritable_array : (array element).isWritable = element.isWritable := by
  simp [isWritable, subexpressions, hasValidNames]

@[simp] theorem isWritable_map :
    (map key value).isWritable = (key.isWritable && value.isWritable) := by
  simp [isWritable, subexpressions, hasValidNames]

@[simp] theorem isWritable_generic : (generic base argument).isWritable =
    (isIdentifier base.toList && base != "Record" && argument.isWritable) := by
  simp [isWritable, subexpressions, hasValidNames]

theorem isWritable_record : (record fields).isWritable = true ↔
    ∀ field ∈ fields, field.isWritable = true := by
  simp only [isWritable, subexpressions, hasValidNames, Field.subexpressionsAll_eq_flatMap,
    List.all_cons, List.all_flatMap, Bool.and_eq_true, List.all_eq_true, Field.isWritable]
  exact ⟨fun valid field member => ⟨valid.1 field member, valid.2 field member⟩,
    fun valid => ⟨fun field member => (valid field member).1,
      fun field member => (valid field member).2⟩⟩

/-- Without primitives there is nothing to put names in place of. -/
theorem unclassify_eq_self {type : TypeExpr} (none : type.isUnclassified = true) :
    type.unclassify = type := by
  simp only [isUnclassified, List.all_eq_true] at none
  induction type with
  | primitive leaf => exact absurd (none _ (List.mem_singleton_self _)) (by simp [isPrimitive])
  | named name => rfl
  | array element ih =>
    rw [unclassify, ih fun inner member => none inner (by simp [subexpressions, member])]
  | map key value keyIh valueIh =>
    rw [unclassify, keyIh fun inner member => none inner (by simp [subexpressions, member]),
      valueIh fun inner member => none inner (by simp [subexpressions, member])]
  | record fields ih =>
    have same : ∀ field ∈ fields, field.unclassify = field := by
      intro field member
      have inside := ih field member fun inner nested => none inner (by
        rw [subexpressions, Field.subexpressionsAll_eq_flatMap]
        exact List.mem_cons_of_mem _ (List.mem_flatMap.mpr ⟨field, member, nested⟩))
      cases field
      simp only [Field.unclassify, inside]
    rw [unclassify, Field.unclassifyAll_eq_map, List.map_congr_left same, List.map_id']
  | generic base argument ih =>
    rw [unclassify, ih fun inner member => none inner (by simp [subexpressions, member])]

/-- The name of a primitive is classified as that primitive. -/
theorem classify_unclassify (type : TypeExpr) : type.unclassify.classify = type.classify := by
  induction type with
  | primitive leaf =>
    rw [unclassify, classify, classify, Primitive.ofName?_name, Option.map_some, Option.getD_some]
  | named name => rfl
  | array element ih => rw [unclassify, classify, classify, ih]
  | map key value keyIh valueIh => rw [unclassify, classify, classify, keyIh, valueIh]
  | record fields ih =>
    have same : ∀ field ∈ fields, field.unclassify.classify = field.classify := by
      intro field member
      have inside := ih field member
      cases field
      simp only [Field.unclassify, Field.classify, inside]
    simp only [unclassify, classify, Field.unclassifyAll_eq_map, Field.classifyAll_eq_map,
      List.map_map]
    rw [List.map_congr_left (f := Field.classify ∘ Field.unclassify) same]
  | generic base argument ih => rw [unclassify, classify, classify, ih]

end TypeExpr

end PolySchema
