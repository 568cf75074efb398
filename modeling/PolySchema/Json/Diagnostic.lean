import PolySchema.Diagnostic
import PolySchema.Json.Value

namespace PolySchema.Diagnostic

/-- The name of a kind. -/
def Kind.tag : Kind → String
  | .unrecognizedLine => "UnrecognizedLine"
  | .malformedHeader => "MalformedHeader"
  | .malformedField => "MalformedField"
  | .malformedParameter => "MalformedParameter"
  | .malformedMethod => "MalformedMethod"
  | .malformedFunction => "MalformedFunction"
  | .malformedTypeAlias => "MalformedTypeAlias"
  | .malformedRecordField => "MalformedRecordField"
  | .recordArity => "RecordArity"
  | .emptyTypeExpression => "EmptyTypeExpression"
  | .misplacedOptional => "MisplacedOptional"
  | .unterminatedBody => "UnterminatedBody"
  | .duplicateDeclaration => "DuplicateDeclaration"
  | .unresolvedParent => "UnresolvedParent"
  | .inheritanceCycle => "InheritanceCycle"
  | .unsupportedDeclaration _ => "UnsupportedDeclaration"
  | .approximatedType _ => "ApproximatedType"

/-- The kinds that their name alone describes. -/
def Kind.plain : List Kind :=
  [.unrecognizedLine, .malformedHeader, .malformedField, .malformedParameter, .malformedMethod,
    .malformedFunction, .malformedTypeAlias, .malformedRecordField, .recordArity,
    .emptyTypeExpression, .misplacedOptional, .unterminatedBody, .duplicateDeclaration,
    .unresolvedParent, .inheritanceCycle]

def Kind.toJson (kind : Kind) : Json :=
  match kind with
  | .unsupportedDeclaration target | .approximatedType target =>
    .variant kind.tag (.object [("target", .string target)])
  | _ => .string kind.tag

/-- The member of a kind that is about one target. -/
def Kind.targetOf? (value : Json) : Option String := do
  let members ← value.object?
  Json.member? members "target" Json.string?

def Kind.ofJson? : Json → Option Kind
  | .object [("UnsupportedDeclaration", body)] =>
    (Kind.targetOf? body).map .unsupportedDeclaration
  | .object [("ApproximatedType", body)] => (Kind.targetOf? body).map .approximatedType
  | value => value.unit?.bind fun tag => Kind.plain.find? fun kind => kind.tag == tag

def toJson (diagnostic : Diagnostic) : Json :=
  .object [("kind", diagnostic.kind.toJson), ("line", .ofNat? diagnostic.line),
    ("context", .string diagnostic.context)]

def ofJson? (value : Json) : Option Diagnostic := do
  let members ← value.members? ["kind", "line", "context"]
  let kind ← Json.member? members "kind" Kind.ofJson?
  let line ← Json.optionalMember? members "line" Json.natOrNull?
  let context ← Json.member? members "context" Json.string?
  return ⟨kind, line, context⟩

end PolySchema.Diagnostic
