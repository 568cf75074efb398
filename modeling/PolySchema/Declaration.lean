import PolySchema.TypeExpr.Basic

namespace PolySchema

/-- The four kinds of declaration, named by the word that starts them. -/
inductive Keyword where
  | struct
  | interface
  | function
  | alias
  deriving DecidableEq, Repr

def Keyword.word : Keyword → String
  | .struct => "struct"
  | .interface => "interface"
  | .function => "function"
  | .alias => "type"

structure StructDef where
  name : String
  fields : List Field
  parent : Option String

structure Method where
  name : String
  parameters : List Field
  returnType : TypeExpr

structure InterfaceDef where
  name : String
  methods : List Method
  parent : Option String

structure FunctionDef where
  name : String
  typeParameters : List String
  parameters : List Field
  returnType : TypeExpr

structure AliasDef where
  name : String
  type : TypeExpr

inductive Declaration where
  | struct (decl : StructDef)
  | interface (decl : InterfaceDef)
  | function (decl : FunctionDef)
  | alias (decl : AliasDef)

/-- A struct without fields. -/
def StructDef.empty (name : String) : StructDef := ⟨name, [], none⟩

/-- An interface without methods. -/
def InterfaceDef.empty (name : String) : InterfaceDef := ⟨name, [], none⟩

def Method.classify (method : Method) : Method :=
  { method with
    parameters := method.parameters.map Field.classify
    returnType := method.returnType.classify }

/-- The type expressions of a method: its parameters, then its result. -/
def Method.types (method : Method) : List TypeExpr :=
  method.parameters.map Field.type ++ [method.returnType]

/-- A signature is a method when it has no type parameters of its own. -/
def FunctionDef.method? (signature : FunctionDef) : Option Method :=
  if signature.typeParameters.isEmpty then
    some ⟨signature.name, signature.parameters, signature.returnType⟩
  else none

def InterfaceDef.classify (decl : InterfaceDef) : InterfaceDef :=
  { decl with methods := decl.methods.map Method.classify }

def FunctionDef.classify (decl : FunctionDef) : FunctionDef :=
  { decl with
    parameters := decl.parameters.map Field.classify
    returnType := decl.returnType.classify }

def AliasDef.classify (decl : AliasDef) : AliasDef := { decl with type := decl.type.classify }

namespace Declaration

def name : Declaration → String
  | .struct decl => decl.name
  | .interface decl => decl.name
  | .function decl => decl.name
  | .alias decl => decl.name

def keyword : Declaration → Keyword
  | .struct _ => .struct
  | .interface _ => .interface
  | .function _ => .function
  | .alias _ => .alias

def struct? : Declaration → Option StructDef
  | .struct decl => some decl
  | _ => none

def interface? : Declaration → Option InterfaceDef
  | .interface decl => some decl
  | _ => none

end Declaration
end PolySchema
