/-! Diagnostics: what was skipped, refused or approximated, and why. `Reported` pairs a value with
the diagnostics found on the way to it, in the order in which they arose. -/
namespace PolySchema

inductive Diagnostic.Kind where
  | unrecognizedLine
  | malformedHeader
  | malformedField
  | malformedParameter
  | malformedMethod
  | malformedFunction
  | malformedTypeAlias
  | malformedRecordField
  | recordArity
  | emptyTypeExpression
  | misplacedOptional
  | unterminatedBody
  | duplicateDeclaration
  | unresolvedParent
  | inheritanceCycle
  | unsupportedDeclaration (target : String)
  | approximatedType (target : String)
  deriving DecidableEq, Repr

/-- Whether a problem lies in the document or in what a target can express. -/
inductive Diagnostic.Category where
  | structural
  | targetCapability
  deriving DecidableEq, Repr

structure Diagnostic where
  kind : Diagnostic.Kind
  line : Option Nat
  context : String
  deriving DecidableEq, Repr

namespace Diagnostic

def Kind.code : Kind → String
  | .unrecognizedLine => "unrecognized-line"
  | .malformedHeader => "malformed-header"
  | .malformedField => "malformed-field"
  | .malformedParameter => "malformed-parameter"
  | .malformedMethod => "malformed-method"
  | .malformedFunction => "malformed-function"
  | .malformedTypeAlias => "malformed-type-alias"
  | .malformedRecordField => "malformed-record-field"
  | .recordArity => "record-arity"
  | .emptyTypeExpression => "empty-type-expression"
  | .misplacedOptional => "misplaced-optional"
  | .unterminatedBody => "unterminated-body"
  | .duplicateDeclaration => "duplicate-declaration"
  | .unresolvedParent => "unresolved-parent"
  | .inheritanceCycle => "inheritance-cycle"
  | .unsupportedDeclaration _ => "unsupported-declaration"
  | .approximatedType _ => "approximated-type"

def Kind.category : Kind → Category
  | .unsupportedDeclaration _ | .approximatedType _ => .targetCapability
  | _ => .structural

def isCapability (diagnostic : Diagnostic) : Bool := diagnostic.kind.category == .targetCapability

/-- The wording of a diagnostic without its position. -/
def cause (diagnostic : Diagnostic) : String :=
  match diagnostic.kind with
  | .unsupportedDeclaration target =>
    target ++ " cannot express `" ++ diagnostic.context ++ "`, skipped"
  | .approximatedType target => target ++ " approximates `" ++ diagnostic.context ++ "`"
  | kind => kind.code ++ ": `" ++ diagnostic.context ++ "`"

def message (diagnostic : Diagnostic) : String :=
  match diagnostic.line with
  | some line => "line " ++ toString line ++ ": " ++ diagnostic.cause
  | none => diagnostic.cause

end Diagnostic

structure Reported (α : Type) where
  value : α
  diagnostics : List Diagnostic

namespace Reported

instance : Monad Reported where
  pure value := ⟨value, []⟩
  bind step next :=
    let last := next step.value
    ⟨last.value, step.diagnostics ++ last.diagnostics⟩

/-- Report a problem of a source line. -/
def report (kind : Diagnostic.Kind) (line : Nat) (context : List Char) : Reported Unit :=
  ⟨(), [⟨kind, some line, String.ofList context⟩]⟩

/-- Keep the values that are there, and every diagnostic. -/
def collect (steps : List (Reported (Option α))) : Reported (List α) :=
  ⟨steps.filterMap Reported.value, steps.flatMap Reported.diagnostics⟩

@[simp] theorem value_pure (value : α) : (pure value : Reported α).value = value := rfl

@[simp] theorem diagnostics_pure (value : α) : (pure value : Reported α).diagnostics = [] := rfl

@[simp] theorem value_bind (step : Reported α) (next : α → Reported β) :
    (step >>= next).value = (next step.value).value := rfl

@[simp] theorem diagnostics_bind (step : Reported α) (next : α → Reported β) :
    (step >>= next).diagnostics = step.diagnostics ++ (next step.value).diagnostics := rfl

@[simp] theorem value_map (f : α → β) (step : Reported α) : (f <$> step).value = f step.value := rfl

@[simp] theorem diagnostics_map (f : α → β) (step : Reported α) :
    (f <$> step).diagnostics = step.diagnostics := List.append_nil _

end Reported
end PolySchema
