import PolySchema.Resolution
import PolySchema.Settings
import PolySchema.Target.Snippet
import PolySchema.Target.Spelling

/-! Rust declarations. Interfaces become traits whose methods take `&self`, and records without a
name become tuples. -/
namespace PolySchema.Rust

/-- The strict and reserved words of the 2021 edition. -/
def keywords : List String :=
  ["as", "break", "const", "continue", "crate", "else", "enum", "extern", "false", "fn", "for",
    "if", "impl", "in", "let", "loop", "match", "mod", "move", "mut", "pub", "ref", "return",
    "self", "Self", "static", "struct", "super", "trait", "true", "type", "unsafe", "use", "where",
    "while", "async", "await", "dyn", "abstract", "become", "box", "do", "final", "macro",
    "override", "priv", "typeof", "unsized", "virtual", "yield", "try"]

/-- The keywords that no raw identifier can stand for. -/
def pathKeywords : List String := ["crate", "self", "super", "Self"]

def identifier (name : String) : String :=
  if pathKeywords.contains name then name ++ "_"
  else if keywords.contains name then "r#" ++ name
  else name

def primitive : Primitive → String
  | .int8 => "i8" | .int16 => "i16" | .int32 => "i32" | .int64 => "i64"
  | .uint8 => "u8" | .uint16 => "u16" | .uint32 => "u32" | .uint64 => "u64"
  | .float32 => "f32" | .float64 => "f64"
  | .string => "String" | .char => "char" | .boolean => "bool" | .void => "()"
  | .any => "Box<dyn std::any::Any>"

/-- A tuple; that of one element has a comma after it. -/
def record : List (String × String) → String
  | [field] => "(" ++ field.2 ++ ",)"
  | fields => "(" ++ ", ".intercalate (fields.map Prod.snd) ++ ")"

def spelling : Spelling where
  primitive := primitive
  name := identifier
  array element := "Vec<" ++ element ++ ">"
  map key value := "std::collections::HashMap<" ++ key ++ ", " ++ value ++ ">"
  record := record
  optional type := "Option<" ++ type ++ ">"

def deriveAttribute (traits : List String) : List String :=
  if traits.isEmpty then [] else ["#[derive(" ++ ", ".intercalate traits ++ ")]"]

def structBlock (settings : Settings) (name : String) (fields : List Field) : Snippet :=
  .block (deriveAttribute settings.derives)
    (settings.visibility "pub" ++ "struct " ++ identifier name)
    (fields.map fun field => settings.visibility "pub" ++ field.spell spelling ++ ",") ""

/-- The result of a signature; there is none to write for `Void`. -/
def returnClause (type : TypeExpr) : String :=
  if type.isVoid then "" else " -> " ++ type.spell spelling

def method (method : Method) : String :=
  "fn " ++ identifier method.name ++ "(" ++
    ", ".intercalate ("&self" :: method.parameters.map (Field.spell spelling)) ++ ")" ++
    returnClause method.returnType ++ ";"

def render (settings : Settings) : ResolvedItem → Option Snippet
  | .struct decl => some (structBlock settings decl.name decl.fields)
  | .interface decl => some <| .block []
      (settings.visibility "pub" ++ "trait " ++ identifier decl.name ++
        (decl.parent.map (": " ++ identifier ·)).getD "")
      (decl.methods.map method) ""
  | .function decl => some <| .line (settings.visibility "pub" ++ "fn " ++ identifier decl.name ++
      spelling.typeParameters decl.typeParameters ++
      "(" ++ spelling.parameters decl.parameters ++ ")" ++ returnClause decl.returnType ++ ";")
  | .alias decl =>
    match decl.type.fields? with
    | some fields => some (structBlock settings decl.name fields)
    | none => some <| .line (settings.visibility "pub" ++ "type " ++ identifier decl.name ++
        " = " ++ decl.type.spell spelling ++ ";")

end PolySchema.Rust
