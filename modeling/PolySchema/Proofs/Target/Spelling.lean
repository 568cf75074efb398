import PolySchema.Proofs.TypeExpr.Writable
import PolySchema.Target.Spelling

/-! What spelled types have in common. A property of texts holds of every spelled type if each rule
of the spelling keeps it. -/
namespace PolySchema

variable {valid : String → Prop}

namespace TypeExpr

/-- The names that stand in an expression itself, not in what it nests. -/
def ownNames : TypeExpr → List String
  | .named name => [name]
  | .record fields => fields.map Field.name
  | .generic base _ => [base]
  | .primitive _ | .array _ | .map _ _ => []

/-- The names at any depth of an expression are valid. -/
def EachName (valid : String → Prop) (type : TypeExpr) : Prop :=
  ∀ inner ∈ type.subexpressions, ∀ name ∈ inner.ownNames, valid name

theorem EachName.mono {type : TypeExpr} {weaker : String → Prop} (names : type.EachName valid)
    (implied : ∀ name, valid name → weaker name) : type.EachName weaker :=
  fun inner member name own => implied name (names inner member name own)

theorem eachName_primitive {leaf : Primitive} : (primitive leaf).EachName valid := by
  simp [EachName, subexpressions, ownNames]

theorem eachName_named {name : String} : (named name).EachName valid ↔ valid name := by
  simp [EachName, subexpressions, ownNames]

theorem eachName_array {element : TypeExpr} :
    (array element).EachName valid ↔ element.EachName valid := by
  simp [EachName, subexpressions, ownNames]

theorem eachName_map {key value : TypeExpr} :
    (map key value).EachName valid ↔ key.EachName valid ∧ value.EachName valid := by
  simp [EachName, subexpressions, ownNames, or_imp, forall_and]

theorem eachName_generic {base : String} {argument : TypeExpr} :
    (generic base argument).EachName valid ↔ valid base ∧ argument.EachName valid := by
  simp [EachName, subexpressions, ownNames]

end TypeExpr

/-- The name of a field and the names in its type are valid. -/
def Field.EachName (valid : String → Prop) (field : Field) : Prop :=
  valid field.name ∧ field.type.EachName valid

theorem TypeExpr.eachName_record {fields : List Field} :
    (TypeExpr.record fields).EachName valid ↔ ∀ field ∈ fields, field.EachName valid := by
  simp only [EachName, subexpressions, Field.subexpressionsAll_eq_flatMap, List.forall_mem_cons,
    List.forall_mem_flatMap, ownNames, Field.EachName, forall_and, List.forall_mem_map]

/-- Classification adds no names. -/
theorem TypeExpr.EachName.classify {type : TypeExpr} (names : type.EachName valid) :
    type.classify.EachName valid := by
  induction type with
  | primitive leaf => exact names
  | named name =>
    rw [TypeExpr.classify]
    cases Primitive.ofName? name with
    | none => exact names
    | some leaf => exact eachName_primitive
  | array element ih => exact eachName_array.mpr (ih (eachName_array.mp names))
  | map key value keyIh valueIh =>
    obtain ⟨left, right⟩ := eachName_map.mp names
    exact eachName_map.mpr ⟨keyIh left, valueIh right⟩
  | record fields ih =>
    rw [TypeExpr.classify, Field.classifyAll_eq_map, eachName_record, List.forall_mem_map]
    intro field member
    obtain ⟨own, type⟩ := eachName_record.mp names field member
    rw [Field.classify_eq]
    exact ⟨own, ih field member type⟩
  | generic base argument ih =>
    obtain ⟨own, inner⟩ := eachName_generic.mp names
    exact eachName_generic.mpr ⟨own, ih inner⟩

theorem Field.EachName.classify {field : Field} (names : field.EachName valid) :
    field.classify.EachName valid := by
  rw [Field.classify_eq]
  exact ⟨names.1, names.2.classify⟩

/-- The spelling makes valid texts out of valid names and valid texts. -/
structure Spelling.Keeps (spelling : Spelling) (name valid : String → Prop) : Prop where
  primitive (leaf : Primitive) : valid (spelling.primitive leaf)
  name {text : String} : name text → valid (spelling.name text)
  array {element : String} : valid element → valid (spelling.array element)
  map {key value : String} : valid key → valid value → valid (spelling.map key value)
  record {fields : List (String × String)} :
    (∀ field ∈ fields, valid field.1 ∧ valid field.2) → valid (spelling.record fields)
  optional {type : String} : valid type → valid (spelling.optional type)
  generic {base argument : String} : valid base → valid argument →
    valid (base ++ "<" ++ argument ++ ">")

namespace Spelling.Keeps

variable {spelling : Spelling} {name : String → Prop}

theorem marked (keeps : spelling.Keeps name valid) (optional : Bool) {type : String}
    (spelled : valid type) : valid (spelling.marked optional type) := by
  cases optional with
  | false => exact spelled
  | true => exact keeps.optional spelled

/-- Every spelled type is valid. -/
theorem spell (keeps : spelling.Keeps name valid) {type : TypeExpr} (names : type.EachName name) :
    valid (type.spell spelling) := by
  induction type with
  | primitive leaf => exact keeps.primitive leaf
  | named text => exact keeps.name (TypeExpr.eachName_named.mp names)
  | array element ih => exact keeps.array (ih (TypeExpr.eachName_array.mp names))
  | map key value keyIh valueIh =>
    obtain ⟨left, right⟩ := TypeExpr.eachName_map.mp names
    exact keeps.map (keyIh left) (valueIh right)
  | record fields ih =>
    rw [TypeExpr.spell, Field.spellAll_eq_map]
    refine keeps.record (List.forall_mem_map.mpr fun field member => ?_)
    obtain ⟨own, inner⟩ := TypeExpr.eachName_record.mp names field member
    exact ⟨keeps.name own, keeps.marked field.optional (ih field member inner)⟩
  | generic base argument ih =>
    obtain ⟨own, inner⟩ := TypeExpr.eachName_generic.mp names
    exact keeps.generic (keeps.name own) (ih inner)

theorem spellType (keeps : spelling.Keeps name valid) {field : Field}
    (names : field.EachName name) : valid (field.spellType spelling) :=
  keeps.marked field.optional (keeps.spell names.2)

end Spelling.Keeps
end PolySchema
