import PolySchema.Output

namespace PolySchema

structure Workspace where
  document : Document
  diagnostics : List Diagnostic
  settings : Settings

namespace Workspace

def empty : Workspace := ⟨Document.empty, [], {}⟩

/-- Append what a source declares, and collect what was skipped in it. -/
def load (workspace : Workspace) (source : String) : Workspace :=
  let reading := Document.read source
  { workspace with
    document := workspace.document.append reading.value.declarations
    diagnostics := workspace.diagnostics ++ reading.diagnostics }

def push (workspace : Workspace) (declaration : Declaration) : Workspace :=
  { workspace with document := workspace.document.append [declaration] }

/-- Start over with an empty document. -/
def reset (workspace : Workspace) : Workspace := { workspace with document := Document.empty }

/-- Add a field to the struct at an index. Its type is read from text that has no place in a
source, which counts as line zero. -/
def addField? (workspace : Workspace) (index : Nat) (type name : String) (optional : Bool) :
    Option Workspace :=
  let reading := TypeExpr.read 0 type.toList
  let field : Field := ⟨name, reading.value, optional⟩
  (workspace.document.modify? index fun declaration =>
    declaration.struct?.map fun decl => .struct { decl with fields := decl.fields ++ [field] }).map
  fun document =>
    { workspace with document, diagnostics := workspace.diagnostics ++ reading.diagnostics }

/-- Add a method to the interface at an index. -/
def addMethod? (workspace : Workspace) (index : Nat) (method : Method) : Option Workspace :=
  (workspace.document.modify? index fun declaration =>
    declaration.interface?.map fun decl =>
      .interface { decl with methods := decl.methods ++ [method] }).map
  fun document => { workspace with document }

/-- Give the struct or interface at an index a parent, or none. -/
def setParent? (workspace : Workspace) (index : Nat) (parent : Option String) : Option Workspace :=
  (workspace.document.modify? index fun declaration =>
    match declaration with
    | .struct decl => some (.struct { decl with parent })
    | .interface decl => some (.interface { decl with parent })
    | .function _ | .alias _ => none).map
  fun document => { workspace with document }

def set (workspace : Workspace) (choice : Setting) : Workspace :=
  { workspace with settings := workspace.settings.set choice }

def report (workspace : Workspace) (diagnostic : Diagnostic) : Workspace :=
  { workspace with diagnostics := workspace.diagnostics ++ [diagnostic] }

/-- Hand over the collected diagnostics. -/
def take (workspace : Workspace) : List Diagnostic × Workspace :=
  (workspace.diagnostics, { workspace with diagnostics := [] })

def generate (workspace : Workspace) (target : Target) : Output :=
  Output.ofDocument workspace.settings target workspace.document

/-- Generate with the default settings, whatever was chosen. -/
def generateDefault (workspace : Workspace) (target : Target) : Output :=
  Output.ofDocument {} target workspace.document

end Workspace
end PolySchema
