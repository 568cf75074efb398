import PolySchema.Document.Basic
import PolySchema.TypeExpr.Printer

/-! Documents written in the schema language. The bodies of structs and interfaces can be laid out
in several ways, which all mean the same. -/
namespace PolySchema

/-- How a body stands under its header. -/
inductive BodyLayout where
  /-- Everything on the line of the header. -/
  | inline
  /-- One line for every item, with a comma after those whose position `comma` picks. The opening
  brace is on the line of the header, or on a line of its own if it is lowered. -/
  | lines (lowered : Bool) (comma : Nat → Bool)

/-- The lines of a header with its items. -/
def BodyLayout.print (header : String) (items : List String) : BodyLayout → List String
  | .inline =>
    if items.isEmpty then [header ++ " \x7b\x7d"]
    else [header ++ " \x7b " ++ ", ".intercalate items ++ " \x7d"]
  | .lines lowered comma =>
    (if lowered then [header, "\x7b"] else [header ++ " \x7b"]) ++
      (items.zipIdx.map fun item => if comma item.2 then item.1 ++ "," else item.1) ++ ["\x7d"]

/-- `keyword Name` or `keyword Name extends Parent`. -/
def printHeader (keyword : Keyword) (name : String) (parent : Option String) : String :=
  keyword.word ++ " " ++ name ++ (parent.map (" extends " ++ ·)).getD ""

def printSignature (name : String) (typeParameters : List String) (parameters : List Field)
    (returnType : TypeExpr) : String :=
  name ++ (if typeParameters.isEmpty then "" else "<" ++ ", ".intercalate typeParameters ++ ">") ++
    "(" ++ ", ".intercalate (parameters.map Field.print) ++ "): " ++ returnType.print

def Method.print (method : Method) : String :=
  printSignature method.name [] method.parameters method.returnType

/-- The lines of a declaration. -/
def Declaration.print (layout : BodyLayout) : Declaration → List String
  | .struct decl => layout.print (printHeader .struct decl.name decl.parent)
      (decl.fields.map Field.print)
  | .interface decl => layout.print (printHeader .interface decl.name decl.parent)
      (decl.methods.map Method.print)
  | .function decl => [Keyword.function.word ++ " " ++
      printSignature decl.name decl.typeParameters decl.parameters decl.returnType]
  | .alias decl => [Keyword.alias.word ++ " " ++ decl.name ++ " = " ++ decl.type.print]

/-- The source text of a document, with a layout chosen for every position. -/
def Document.print (layout : Nat → BodyLayout) (document : Document) : String :=
  "\n".intercalate (document.declarations.zipIdx.flatMap fun entry =>
    entry.1.print (layout entry.2))

end PolySchema
