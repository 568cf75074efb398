import PolySchema.Document.Basic
import PolySchema.Json.TypeExpr

namespace PolySchema

def Method.toJson (method : Method) : Json :=
  .object [("name", .string method.name),
    ("parameters", .array (method.parameters.map Field.toJson)),
    ("return_type", method.returnType.toJson)]

def Method.ofJson? (value : Json) : Option Method := do
  let members ← value.members? ["name", "parameters", "return_type"]
  let name ← Json.member? members "name" Json.string?
  let parameters ← Json.member? members "parameters" (Json.listOf? Field.ofJson?)
  let returnType ← Json.member? members "return_type" TypeExpr.ofJson?
  return ⟨name, parameters, returnType⟩

def StructDef.toJson (decl : StructDef) : Json :=
  .object [("name", .string decl.name), ("fields", .array (decl.fields.map Field.toJson)),
    ("extends", .ofString? decl.parent)]

def StructDef.ofJson? (value : Json) : Option StructDef := do
  let members ← value.members? ["name", "fields", "extends"]
  let name ← Json.member? members "name" Json.string?
  let fields ← Json.member? members "fields" (Json.listOf? Field.ofJson?)
  let parent ← Json.optionalMember? members "extends" Json.stringOrNull?
  return ⟨name, fields, parent⟩

def InterfaceDef.toJson (decl : InterfaceDef) : Json :=
  .object [("name", .string decl.name), ("methods", .array (decl.methods.map Method.toJson)),
    ("extends", .ofString? decl.parent)]

def InterfaceDef.ofJson? (value : Json) : Option InterfaceDef := do
  let members ← value.members? ["name", "methods", "extends"]
  let name ← Json.member? members "name" Json.string?
  let methods ← Json.member? members "methods" (Json.listOf? Method.ofJson?)
  let parent ← Json.optionalMember? members "extends" Json.stringOrNull?
  return ⟨name, methods, parent⟩

def FunctionDef.toJson (decl : FunctionDef) : Json :=
  .object [("name", .string decl.name), ("type_parameters", .strings decl.typeParameters),
    ("parameters", .array (decl.parameters.map Field.toJson)),
    ("return_type", decl.returnType.toJson)]

def FunctionDef.ofJson? (value : Json) : Option FunctionDef := do
  let members ← value.members? ["name", "type_parameters", "parameters", "return_type"]
  let name ← Json.member? members "name" Json.string?
  let typeParameters ← Json.member? members "type_parameters" Json.strings?
  let parameters ← Json.member? members "parameters" (Json.listOf? Field.ofJson?)
  let returnType ← Json.member? members "return_type" TypeExpr.ofJson?
  return ⟨name, typeParameters, parameters, returnType⟩

def AliasDef.toJson (decl : AliasDef) : Json :=
  .object [("name", .string decl.name), ("aliased_type", decl.type.toJson)]

def AliasDef.ofJson? (value : Json) : Option AliasDef := do
  let members ← value.members? ["name", "aliased_type"]
  let name ← Json.member? members "name" Json.string?
  let type ← Json.member? members "aliased_type" TypeExpr.ofJson?
  return ⟨name, type⟩

def Declaration.toJson : Declaration → Json
  | .struct decl => .variant "Struct" decl.toJson
  | .interface decl => .variant "Interface" decl.toJson
  | .function decl => .variant "Function" decl.toJson
  | .alias decl => .variant "TypeAlias" decl.toJson

def Declaration.ofJson? : Json → Option Declaration
  | .object [("Struct", body)] => (StructDef.ofJson? body).map .struct
  | .object [("Interface", body)] => (InterfaceDef.ofJson? body).map .interface
  | .object [("Function", body)] => (FunctionDef.ofJson? body).map .function
  | .object [("TypeAlias", body)] => (AliasDef.ofJson? body).map .alias
  | _ => none

def Document.toJson (document : Document) : Json :=
  .object [("declarations", .array (document.declarations.map Declaration.toJson))]

def Document.ofJson? (value : Json) : Option Document := do
  let members ← value.members? ["declarations"]
  let declarations ← Json.member? members "declarations" (Json.listOf? Declaration.ofJson?)
  return ⟨declarations⟩

end PolySchema
