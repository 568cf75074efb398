import PolySchema.Target.Rust
import PolySchema.Target.Swift
import PolySchema.Target.TypeScript
import PolySchema.Text.Blank

namespace PolySchema

inductive Target where
  | typeScript
  | swift
  | rust
  deriving DecidableEq, Repr

/-- A name that no target goes by. -/
structure UnknownTarget where
  name : String

def UnknownTarget.message (unknown : UnknownTarget) : String :=
  "unknown target '" ++ unknown.name ++ "', expected one of: typescript, swift, rust"

namespace Target

def all : List Target := [typeScript, swift, rust]

def name : Target → String
  | typeScript => "TypeScript"
  | swift => "Swift"
  | rust => "Rust"

/-- The extension of generated files, without the dot. -/
def extension : Target → String
  | typeScript => "ts"
  | swift => "swift"
  | rust => "rs"

/-- The target meant by a name, whatever the case of its ASCII letters and the blanks around
it. -/
def ofName (name : String) : Except UnknownTarget Target :=
  match String.ofList ((Text.trim name.toList).map Char.toLower) with
  | "typescript" | "ts" => .ok typeScript
  | "swift" => .ok swift
  | "rust" | "rs" => .ok rust
  | _ => .error ⟨name⟩

def spelling : Target → Spelling
  | typeScript => TypeScript.spelling
  | swift => Swift.spelling
  | rust => Rust.spelling

/-- Whether the type itself, apart from what it nests, is rendered with less structure than it was
declared with. -/
def approximates : Target → TypeExpr → Bool
  | swift, type => Swift.approximates type
  | typeScript, _ | rust, _ => false

/-- The snippet of a declaration, unless the target cannot express it. -/
def render (settings : Settings) : Target → ResolvedItem → Option Snippet
  | typeScript => TypeScript.render settings
  | swift => Swift.render settings
  | rust => Rust.render settings

end Target
end PolySchema
