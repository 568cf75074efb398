import PolySchema.Primitive

namespace PolySchema

mutual

inductive TypeExpr where
  | primitive (leaf : Primitive)
  | named (name : String)
  | array (element : TypeExpr)
  | map (key value : TypeExpr)
  | record (fields : List Field)
  | generic (base : String) (argument : TypeExpr)

structure Field where
  name : String
  type : TypeExpr
  optional : Bool

end

mutual

/-- Names that spell a primitive become that primitive; everything else is kept. -/
def TypeExpr.classify : TypeExpr → TypeExpr
  | .primitive leaf => .primitive leaf
  | .named name => ((Primitive.ofName? name).map TypeExpr.primitive).getD (.named name)
  | .array element => .array element.classify
  | .map key value => .map key.classify value.classify
  | .record fields => .record (Field.classifyAll fields)
  | .generic base argument => .generic base argument.classify

def Field.classify : Field → Field
  | ⟨name, type, optional⟩ => ⟨name, type.classify, optional⟩

def Field.classifyAll : List Field → List Field
  | [] => []
  | field :: rest => field.classify :: Field.classifyAll rest

end

theorem Field.classifyAll_eq_map (fields : List Field) :
    Field.classifyAll fields = fields.map Field.classify := by
  induction fields with
  | nil => rfl
  | cons field rest ih => simp [Field.classifyAll, ih]

mutual

/-- The expression itself and all that it nests, outermost first and left to right. -/
def TypeExpr.subexpressions : TypeExpr → List TypeExpr
  | .primitive leaf => [.primitive leaf]
  | .named name => [.named name]
  | .array element => .array element :: element.subexpressions
  | .map key value => .map key value :: (key.subexpressions ++ value.subexpressions)
  | .record fields => .record fields :: Field.subexpressionsAll fields
  | .generic base argument => .generic base argument :: argument.subexpressions

def Field.subexpressions : Field → List TypeExpr
  | ⟨_, type, _⟩ => type.subexpressions

def Field.subexpressionsAll : List Field → List TypeExpr
  | [] => []
  | field :: rest => field.subexpressions ++ Field.subexpressionsAll rest

end

theorem Field.subexpressionsAll_eq_flatMap (fields : List Field) :
    Field.subexpressionsAll fields = fields.flatMap fun field => field.type.subexpressions := by
  induction fields with
  | nil => rfl
  | cons field rest ih =>
    cases field
    simp [Field.subexpressionsAll, Field.subexpressions, ih]

def TypeExpr.name? : TypeExpr → Option String
  | .named name => some name
  | _ => none

/-- The fields of a record. -/
def TypeExpr.fields? : TypeExpr → Option (List Field)
  | .record fields => some fields
  | _ => none

/-- The key and value types of a map. -/
def TypeExpr.entry? : TypeExpr → Option (TypeExpr × TypeExpr)
  | .map key value => some (key, value)
  | _ => none

/-- The type without values, classified or still a name. -/
def TypeExpr.isVoid : TypeExpr → Bool
  | .primitive leaf => leaf == .void
  | .named name => name == Primitive.name .void
  | _ => false

end PolySchema
