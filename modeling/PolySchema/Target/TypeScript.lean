import PolySchema.Resolution
import PolySchema.Settings
import PolySchema.Target.Snippet
import PolySchema.Target.Spelling

/-! TypeScript declarations. Structs become interfaces with every inherited field written out. A
function needs a body in TypeScript, so functions are not rendered. -/
namespace PolySchema.TypeScript

def primitive : Primitive → String
  | .int8 | .int16 | .int32 | .int64 | .uint8 | .uint16 | .uint32 | .uint64
  | .float32 | .float64 => "number"
  | .string | .char => "string"
  | .boolean => "boolean"
  | .void => "void"
  | .any => "any"

def record (fields : List (String × String)) : String :=
  if fields.isEmpty then "\x7b\x7d"
  else "\x7b " ++ "; ".intercalate (fields.map fun field => field.1 ++ ": " ++ field.2) ++ " \x7d"

def spelling : Spelling where
  primitive := primitive
  name := id
  array element := element ++ "[]"
  map key value := "Record<" ++ key ++ ", " ++ value ++ ">"
  record := record
  optional type := type ++ " | undefined"

def property (field : Field) : String := field.spell spelling ++ ";"

def method (method : Method) : String :=
  method.name ++ "(" ++ spelling.parameters method.parameters ++ "): " ++
    method.returnType.spell spelling ++ ";"

def render (settings : Settings) : ResolvedItem → Option Snippet
  | .struct decl => some <| .block [] (settings.visibility "export" ++ "interface " ++ decl.name)
      (decl.fields.map property) ""
  | .interface decl => some <| .block []
      (settings.visibility "export" ++ "interface " ++ decl.name ++
        (decl.parent.map (" extends " ++ ·)).getD "")
      (decl.methods.map method) ""
  | .function _ => none
  | .alias decl =>
    let header := settings.visibility "export" ++ "type " ++ decl.name ++ " ="
    match decl.type.fields? with
    | some fields => some (.block [] header (fields.map property) ";")
    | none => some (.line (header ++ " " ++ decl.type.spell spelling ++ ";"))

end PolySchema.TypeScript
