import PolySchema.TypeExpr.Basic

namespace PolySchema

mutual

def TypeExpr.print : TypeExpr → String
  | .primitive leaf => leaf.name
  | .named name => name
  | .array element => element.print ++ "[]"
  | .map key value => "Record<" ++ key.print ++ ", " ++ value.print ++ ">"
  | .record fields => "\x7b " ++ ", ".intercalate (Field.printAll fields) ++ " \x7d"
  | .generic base argument => base ++ "<" ++ argument.print ++ ">"

/-- An optional field has its mark after the type. -/
def Field.print : Field → String
  | ⟨name, type, optional⟩ => name ++ ": " ++ type.print ++ (if optional then "?" else "")

def Field.printAll : List Field → List String
  | [] => []
  | field :: rest => field.print :: Field.printAll rest

end

theorem Field.printAll_eq_map (fields : List Field) :
    Field.printAll fields = fields.map Field.print := by
  induction fields with
  | nil => rfl
  | cons field rest ih => simp [Field.printAll, ih]

end PolySchema
