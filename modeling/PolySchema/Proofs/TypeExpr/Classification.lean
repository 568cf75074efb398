import Mathlib.Data.List.Basic
import PolySchema.Proofs.TypeExpr.Writable

namespace PolySchema

namespace TypeExpr

/-- What an expression says by itself, without the expressions that it nests. -/
inductive Label where
  | primitive (leaf : Primitive)
  | named (name : String)
  | array
  | map
  /-- The names of the fields, and whether each is optional. -/
  | record (fields : List (String × Bool))
  | generic (base : String)
  deriving DecidableEq, Repr

/-- The name of a primitive stands for the primitive. -/
def Label.classify : Label → Label
  | .named name => ((Primitive.ofName? name).map Label.primitive).getD (.named name)
  | label => label

def label : TypeExpr → Label
  | .primitive leaf => .primitive leaf
  | .named name => .named name
  | .array _ => .array
  | .map _ _ => .map
  | .record fields => .record (fields.map fun field => (field.name, field.optional))
  | .generic base _ => .generic base

variable {type : TypeExpr} {name : String} {leaf : Primitive}

theorem classify_record (fields : List Field) :
    (record fields).classify = .record (fields.map Field.classify) := by
  rw [classify, Field.classifyAll_eq_map]

theorem classify_named (own : Primitive.ofName? name = none) :
    (named name).classify = .named name := by
  rw [classify, own]
  rfl

theorem classify_primitiveName (known : Primitive.ofName? name = some leaf) :
    (named name).classify = .primitive leaf := by
  rw [classify, known]
  rfl

/-- Of what an expression says by itself, only the name of a primitive changes. -/
theorem label_classify (type : TypeExpr) : type.classify.label = type.label.classify := by
  cases type with
  | named name =>
    rw [label, Label.classify, classify]
    cases Primitive.ofName? name <;> rfl
  | record fields =>
    rw [classify_record, label, label, List.map_map]
    simp only [Function.comp_def, Field.classify_eq]
    rfl
  | _ => rfl

/-- Classification goes through an expression in the order of its parts. -/
theorem subexpressions_classify (type : TypeExpr) :
    type.classify.subexpressions = type.subexpressions.map classify := by
  induction type with
  | primitive leaf => rfl
  | named name =>
    rw [subexpressions, List.map_singleton]
    cases found : Primitive.ofName? name with
    | none => rw [classify_named found, subexpressions]
    | some leaf => rw [classify_primitiveName found, subexpressions]
  | array element ih => rw [classify, subexpressions, ih, subexpressions, List.map_cons, classify]
  | map key value keyIh valueIh =>
    rw [classify, subexpressions, keyIh, valueIh, subexpressions, List.map_cons, List.map_append,
      classify]
  | record fields ih =>
    have parts : (fields.map Field.classify).flatMap (fun field => field.type.subexpressions) =
        (fields.flatMap fun field => field.type.subexpressions).map classify := by
      rw [List.flatMap_map, List.map_flatMap]
      exact List.flatMap_congr fun field member => by rw [Field.classify_eq, ih field member]
    rw [classify_record, subexpressions, Field.subexpressionsAll_eq_flatMap, parts, subexpressions,
      Field.subexpressionsAll_eq_flatMap, List.map_cons, classify_record]
  | generic base argument ih =>
    rw [classify, subexpressions, ih, subexpressions, List.map_cons, classify]

theorem classify_classify (type : TypeExpr) : type.classify.classify = type.classify := by
  induction type with
  | primitive leaf => rfl
  | named name =>
    cases found : Primitive.ofName? name with
    | none => rw [classify_named found, classify_named found]
    | some leaf => rw [classify_primitiveName found, classify]
  | array element ih => rw [classify, classify, ih]
  | map key value keyIh valueIh => rw [classify, classify, keyIh, valueIh]
  | record fields ih =>
    have same : ∀ field ∈ fields, field.classify.classify = field.classify := by
      intro field member
      rw [Field.classify_eq, Field.classify_eq, ih field member]
    rw [classify_record, classify_record, List.map_map]
    exact congrArg record (List.map_congr_left same)
  | generic base argument ih => rw [classify, classify, ih]

theorem ofName?_eq_none_of_classify (left : type.classify = .named name) :
    Primitive.ofName? name = none := by
  cases type with
  | named own =>
    cases found : Primitive.ofName? own with
    | none =>
      rw [classify_named found] at left
      cases left
      exact found
    | some leaf =>
      rw [classify_primitiveName found] at left
      cases left
  | _ => cases left

theorem ofName?_eq_none_of_mem_classify (left : .named name ∈ type.classify.subexpressions) :
    Primitive.ofName? name = none := by
  rw [subexpressions_classify] at left
  obtain ⟨inner, _, same⟩ := List.mem_map.mp left
  exact ofName?_eq_none_of_classify same

end TypeExpr

theorem Field.classify_classify (field : Field) : field.classify.classify = field.classify := by
  rw [Field.classify_eq, Field.classify_eq, TypeExpr.classify_classify]

@[simp] theorem Field.map_classify_classify (fields : List Field) :
    (fields.map Field.classify).map Field.classify = fields.map Field.classify := by
  rw [List.map_map]
  exact List.map_congr_left fun field _ => field.classify_classify

end PolySchema
