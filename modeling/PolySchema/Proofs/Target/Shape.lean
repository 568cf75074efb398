import PolySchema.Target.Basic

/-! The shape of a rendered declaration. All targets render structs, interfaces and aliases of
records as blocks with a line for every field or method, and everything else on one line. -/
namespace PolySchema

namespace Target

/-- Whether the target can express declarations of the kind. -/
def expresses : Target → Keyword → Bool
  | .typeScript, .function => false
  | _, _ => true

/-- A field as a member of a block. -/
def fieldLine (settings : Settings) : Target → Field → String
  | .typeScript, field => TypeScript.property field
  | .swift, field => Swift.property settings field
  | .rust, field => settings.visibility "pub" ++ field.spell Rust.spelling ++ ","

/-- A method as a member of a block. -/
def methodLine : Target → Method → String
  | .typeScript, method => TypeScript.method method
  | .swift, method => Swift.signature method.name [] method.parameters method.returnType
  | .rust, method => Rust.method method

/-- The members of a declaration that is rendered as a block. -/
def members? (settings : Settings) (target : Target) : ResolvedItem → Option (List String)
  | .struct decl => some (decl.fields.map (target.fieldLine settings))
  | .interface decl => some (decl.methods.map target.methodLine)
  | .function _ => none
  | .alias decl => decl.type.fields?.map fun fields => fields.map (target.fieldLine settings)

/-- The lines above the header of a block. -/
def attributes (settings : Settings) : Target → ResolvedItem → List String
  | .rust, .struct _ | .rust, .alias _ => Rust.deriveAttribute settings.derives
  | _, _ => []

def visibilityWord : Target → String
  | .typeScript => "export"
  | .swift => "public"
  | .rust => "pub"

/-- The word in front of the name of a block. -/
def blockWord : Target → ResolvedItem → String
  | .typeScript, .alias _ => "type "
  | .typeScript, _ => "interface "
  | .swift, .interface _ => "protocol "
  | .rust, .interface _ => "trait "
  | .swift, _ | .rust, _ => "struct "

def parentMark : Target → String
  | .typeScript => " extends "
  | .swift | .rust => ": "

/-- What follows the name of a block on the header line. Only interfaces keep their parent. -/
def headerEnd : Target → ResolvedItem → String
  | target, .interface decl =>
    (decl.parent.map fun parent => target.parentMark ++ target.spelling.name parent).getD ""
  | .typeScript, .alias _ => " ="
  | _, _ => ""

def header (settings : Settings) (target : Target) (item : ResolvedItem) : String :=
  settings.visibility target.visibilityWord ++ target.blockWord item ++
    target.spelling.name item.name ++ target.headerEnd item

/-- What follows the closing brace of a block. -/
def ending : Target → ResolvedItem → String
  | .typeScript, .alias _ => ";"
  | _, _ => ""

/-- A declaration as a block around its members. -/
def block (settings : Settings) (target : Target) (item : ResolvedItem) (members : List String) :
    Snippet :=
  .block (target.attributes settings item) (target.header settings item) members
    (target.ending item)

def aliasWord : Target → String
  | .typeScript | .rust => "type "
  | .swift => "typealias "

/-- What ends a declaration on one line. -/
def lineEnd : Target → String
  | .typeScript | .rust => ";"
  | .swift => ""

variable (settings : Settings) (target : Target)

theorem isSome_render (item : ResolvedItem) :
    (target.render settings item).isSome = target.expresses item.keyword := by
  rcases item with decl | decl | decl | ⟨name, type⟩
  · cases target <;> rfl
  · cases target <;> rfl
  · cases target <;> rfl
  · cases type <;> cases target <;> rfl

theorem render_of_members? {item : ResolvedItem} {members : List String}
    (found : target.members? settings item = some members) :
    target.render settings item = some (target.block settings item members) := by
  rw [block, header]
  rcases item with decl | decl | decl | ⟨name, type⟩
  · cases found
    simp only [headerEnd, String.append_empty]
    cases target <;> rfl
  · cases found
    cases target <;> rfl
  · cases found
  · cases type with
    | record fields =>
      cases found
      cases target with
      | typeScript => rfl
      | swift | rust =>
        simp only [headerEnd, String.append_empty]
        rfl
    | _ => cases found

theorem render_alias {decl : AliasDef} (bare : decl.type.fields? = none) :
    target.render settings (.alias decl) = some (.line (settings.visibility target.visibilityWord ++
      target.aliasWord ++ target.spelling.name decl.name ++ " = " ++
      decl.type.spell target.spelling ++ target.lineEnd)) := by
  cases target with
  | typeScript =>
    have mark : " = " = " =" ++ " " := rfl
    simp only [render, TypeScript.render, bare, mark, ← String.append_assoc]
    rfl
  | swift =>
    simp only [render, Swift.render, bare, lineEnd, String.append_empty]
    rfl
  | rust =>
    simp only [render, Rust.render, bare]
    rfl

end Target
end PolySchema
