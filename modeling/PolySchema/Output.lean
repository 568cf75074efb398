import PolySchema.Document.Reader
import PolySchema.Target.Basic
import PolySchema.TypeExpr.Printer

namespace PolySchema

structure Output where
  target : Target
  text : String
  diagnostics : List Diagnostic

namespace Output

/-- A text as line comments. -/
def banner (text : String) : String :=
  "\n".intercalate ((Text.lines text.toList).map fun line =>
    if line.isEmpty then "//" else "// " ++ String.ofList line)

/-- The blocks of the generated text: the banner, then one for every declaration that the target
can express. -/
def blocks (settings : Settings) (target : Target) (items : List ResolvedItem) :
    List String :=
  (settings.banner.map banner).toList ++ items.filterMap fun item =>
    (target.render settings item).map (Snippet.render settings.indent)

/-- Blocks stand apart by an empty line. A text that is not empty ends with its line. -/
def layOut (blocks : List String) : String :=
  let text := "\n\n".intercalate blocks
  if text.isEmpty then text else text ++ "\n"

/-- The types inside a declaration that the target only approximates. -/
def approximations (target : Target) (item : ResolvedItem) : List Diagnostic :=
  ((item.types.flatMap TypeExpr.subexpressions).filter target.approximates).map fun type =>
    ⟨.approximatedType target.name, none, item.title ++ ": " ++ type.print⟩

/-- What the target loses of a declaration: all of it, or the exact form of some types. -/
def losses (settings : Settings) (target : Target) (item : ResolvedItem) : List Diagnostic :=
  match target.render settings item with
  | some _ => approximations target item
  | none => [⟨.unsupportedDeclaration target.name, none, item.title⟩]

def ofResolution (settings : Settings) (target : Target) (resolution : Resolution) : Output :=
  { target
    text := layOut (blocks settings target resolution.items)
    diagnostics := resolution.diagnostics ++ resolution.items.flatMap (losses settings target) }

def ofDocument (settings : Settings) (target : Target) (document : Document) : Output :=
  ofResolution settings target document.resolve

/-- The outputs for every target, from one resolution. -/
def allOfDocument (settings : Settings) (document : Document) : List Output :=
  let resolution := document.resolve
  Target.all.map fun target => ofResolution settings target resolution

/-- The output for a source. What was found on reading it comes first. -/
def ofSource (settings : Settings) (target : Target) (source : String) : Output :=
  let reading := Document.read source
  let output := ofDocument settings target reading.value
  { output with diagnostics := reading.diagnostics ++ output.diagnostics }

/-- How many diagnostics are about what the target can express. -/
def capabilityCount (output : Output) : Nat := output.diagnostics.countP Diagnostic.isCapability

end Output
end PolySchema
