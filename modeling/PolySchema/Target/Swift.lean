import PolySchema.Resolution
import PolySchema.Settings
import PolySchema.Target.Snippet
import PolySchema.Target.Spelling

namespace PolySchema.Swift

/-- The words that name something only between backticks. -/
def keywords : List String :=
  ["Any", "Self", "as", "associatedtype", "await", "break", "case", "catch", "class", "continue",
    "default", "defer", "deinit", "do", "else", "enum", "extension", "fallthrough", "false",
    "fileprivate", "for", "func", "guard", "if", "import", "in", "init", "inout", "internal", "is",
    "let", "nil", "open", "operator", "private", "precedencegroup", "protocol", "public", "repeat",
    "rethrows", "return", "self", "static", "struct", "subscript", "super", "switch", "throw",
    "throws", "true", "try", "typealias", "var", "where", "while"]

def identifier (name : String) : String :=
  if keywords.contains name then "`" ++ name ++ "`" else name

def primitive : Primitive → String
  | .float32 => "Float"
  | .float64 => "Double"
  | .char => "Character"
  | .boolean => "Bool"
  | leaf => leaf.name

/-- A labelled tuple. A tuple of one has no labels, so its only field stands for it. -/
def record : List (String × String) → String
  | [field] => field.2
  | fields => "(" ++ ", ".intercalate (fields.map fun field => field.1 ++ ": " ++ field.2) ++ ")"

def spelling : Spelling where
  primitive := primitive
  name := identifier
  array element := "[" ++ element ++ "]"
  map key value := "[" ++ key ++ ": " ++ value ++ "]"
  record := record
  optional type := type ++ "?"

/-- Whether the type itself, apart from what it nests, loses structure: a record of one field. -/
def approximates : TypeExpr → Bool
  | .record [_] => true
  | _ => false

def property (settings : Settings) (field : Field) : String :=
  settings.visibility "public" ++ "var " ++ field.spell spelling

def signature (name : String) (typeParameters : List String) (parameters : List Field)
    (returnType : TypeExpr) : String :=
  "func " ++ identifier name ++ spelling.typeParameters typeParameters ++
    "(" ++ spelling.parameters parameters ++ ") -> " ++ returnType.spell spelling

def structBlock (settings : Settings) (name : String) (fields : List Field) : Snippet :=
  .block [] (settings.visibility "public" ++ "struct " ++ identifier name)
    (fields.map (property settings)) ""

def render (settings : Settings) : ResolvedItem → Option Snippet
  | .struct decl => some (structBlock settings decl.name decl.fields)
  | .interface decl => some <| .block []
      (settings.visibility "public" ++ "protocol " ++ identifier decl.name ++
        (decl.parent.map (": " ++ identifier ·)).getD "")
      (decl.methods.map fun method =>
        signature method.name [] method.parameters method.returnType) ""
  | .function decl => some <| .line (settings.visibility "public" ++
      signature decl.name decl.typeParameters decl.parameters decl.returnType)
  | .alias decl =>
    match decl.type.fields? with
    | some fields => some (structBlock settings decl.name fields)
    | none => some <| .line (settings.visibility "public" ++ "typealias " ++ identifier decl.name ++
        " = " ++ decl.type.spell spelling)

end PolySchema.Swift
