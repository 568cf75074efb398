import PolySchema.Json.Value
import PolySchema.TypeExpr.Basic

namespace PolySchema

mutual

def TypeExpr.toJson : TypeExpr → Json
  | .primitive leaf => .variant "Primitive" (.string leaf.name)
  | .named name => .variant "Named" (.string name)
  | .array element => .variant "Array" element.toJson
  | .map key value => .variant "Map" (.object [("key", key.toJson), ("value", value.toJson)])
  | .record fields => .variant "Record" (.array (Field.allToJson fields))
  | .generic base argument =>
    .variant "Generic" (.object [("base", .string base), ("argument", argument.toJson)])

def Field.toJson : Field → Json
  | ⟨name, type, optional⟩ =>
    .object [("name", .string name), ("ty", type.toJson), ("optional", .bool optional)]

def Field.allToJson : List Field → List Json
  | [] => []
  | field :: rest => field.toJson :: Field.allToJson rest

end

mutual

def TypeExpr.ofJson? : Json → Option TypeExpr
  | .object [(tag, body)] =>
    match tag, body with
    | "Primitive", leaf => (leaf.unit?.bind Primitive.withName?).map .primitive
    | "Named", .string name => some (.named name)
    | "Array", element => (TypeExpr.ofJson? element).map .array
    | "Map", .object members => do
      let key ← TypeExpr.ofMember? "key" members
      let value ← TypeExpr.ofMember? "value" members
      return .map key value
    | "Record", .array items => (Field.allOfJson? items).map .record
    | "Generic", .object members => do
      let base ← Json.member? members "base" Json.string?
      let argument ← TypeExpr.ofMember? "argument" members
      return .generic base argument
    | _, _ => none
  | _ => none

/-- The type under a key. -/
def TypeExpr.ofMember? (key : String) : List (String × Json) → Option TypeExpr
  | [] => none
  | (name, value) :: rest =>
    if key == name then TypeExpr.ofJson? value else TypeExpr.ofMember? key rest

def Field.ofJson? : Json → Option Field
  | .object members => do
    let name ← Json.member? members "name" Json.string?
    let type ← TypeExpr.ofMember? "ty" members
    let optional ← Json.member? members "optional" Json.bool?
    return ⟨name, type, optional⟩
  | .array [name, type, optional] => do
    let name ← name.string?
    let type ← TypeExpr.ofJson? type
    let optional ← optional.bool?
    return ⟨name, type, optional⟩
  | _ => none

def Field.allOfJson? : List Json → Option (List Field)
  | [] => some []
  | item :: rest => do
    let field ← Field.ofJson? item
    let fields ← Field.allOfJson? rest
    return field :: fields

end

theorem TypeExpr.ofMember?_eq_member? (key : String) (members : List (String × Json)) :
    TypeExpr.ofMember? key members = Json.member? members key TypeExpr.ofJson? := by
  induction members with
  | nil => rfl
  | cons member rest ih =>
    obtain ⟨name, value⟩ := member
    by_cases same : key = name
    · simp [TypeExpr.ofMember?, Json.member?, same]
    · have different : (key == name) = false := by simpa using same
      simpa [TypeExpr.ofMember?, Json.member?, List.lookup_cons, different] using ih

end PolySchema
