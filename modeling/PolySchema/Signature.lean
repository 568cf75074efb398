import PolySchema.Declaration
import PolySchema.Line
import PolySchema.TypeExpr.Reader

/-! Signatures `name<T, U>(parameters): type`, shared by functions and methods. -/
namespace PolySchema

/-- The texts of a signature. -/
structure SignatureText where
  name : List Char
  typeParameters : List (List Char)
  parameters : List Char
  returnType : List Char

namespace SignatureText

/-- The name and the type parameters in front of a parameter list. Angle brackets need at least one
type parameter between them. -/
def splitHead? (head : List Char) : Option (List Char × List (List Char)) :=
  match Text.cutFirst? '<' head with
  | none => if isIdentifier head then some (head, []) else none
  | some (before, after) =>
    match Text.dropEnding? ['>'] after with
    | none => none
    | some inside =>
      if isIdentifier (Text.trim before) && (Text.splitTop ',' inside).all isIdentifier then
        some (Text.trim before, Text.splitTop ',' inside)
      else none

/-- The texts of a trimmed signature. -/
def ofText? (text : List Char) : Option SignatureText :=
  match Text.cutTop? '(' text with
  | none => none
  | some (head, rest) =>
    match Text.cutClose? 1 rest with
    | none => none
    | some (parameters, after) =>
      match Text.trim after with
      | ':' :: type =>
        if (Text.trim type).isEmpty then none
        else (splitHead? (Text.trim head)).map fun parts =>
          ⟨parts.1, parts.2, parameters, Text.trim type⟩
      | _ => none

end SignatureText

/-- The text without blanks around it and without semicolons at its end. -/
def trimStatement (text : List Char) : List Char :=
  Text.trimEnd (Text.dropEndWhile (· == ';') (Text.trim text))

/-- Read a signature, reporting a text of another shape as the given kind of problem. -/
def FunctionDef.read (kind : Diagnostic.Kind) (line : Nat) (text : List Char) :
    Reported (Option FunctionDef) :=
  match SignatureText.ofText? (trimStatement text) with
  | none => do
    Reported.report kind line (trimStatement text)
    return none
  | some parts => do
    let parameters ← Field.readItems .malformedParameter line (Text.items parts.parameters)
    let returnType ← TypeExpr.read line parts.returnType
    return some
      { name := String.ofList parts.name
        typeParameters := parts.typeParameters.map String.ofList
        parameters, returnType }

/-- Read a signature without type parameters. -/
def Method.read (item : Line) : Reported (Option Method) := do
  match ← FunctionDef.read .malformedMethod item.number item.text with
  | none => return none
  | some signature =>
    match signature.method? with
    | some method => return some method
    | none => do
      Reported.report .malformedMethod item.number item.text
      return none

end PolySchema
