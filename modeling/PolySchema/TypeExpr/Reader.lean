import PolySchema.Diagnostic
import PolySchema.TypeExpr.Basic
import PolySchema.TypeExpr.Form

/-! Reading type expressions and fields. Reading never fails: a problem is reported against the
line, and the closest expression is returned. -/
namespace PolySchema

-- The equations named in the matches below are used by the termination proofs only.
set_option linter.unusedVariables false

mutual

def TypeExpr.read (line : Nat) (text : List Char) : Reported TypeExpr :=
  match form : TypeForm.ofText (Text.trim text) with
  | .empty => do
    Reported.report .emptyTypeExpression line (Text.trim text)
    return .named "Any"
  | .marked rest => do
    Reported.report .misplacedOptional line (Text.trim text)
    TypeExpr.read line rest
  | .map key value => do
    let key ← TypeExpr.read line key
    let value ← TypeExpr.read line value
    return .map key value
  | .mapArity => do
    Reported.report .recordArity line (Text.trim text)
    return .map (.named "String") (.named "Any")
  | .generic base argument => do
    let argument ← TypeExpr.read line argument
    return .generic (String.ofList base) argument
  | .array element => do
    let element ← TypeExpr.read line element
    return .array element
  | .record items => do
    let fields ← Reported.collect (items.attach.map fun item =>
      Field.read .malformedRecordField line item.val)
    return .record fields
  | .name => return .named (String.ofList (Text.trim text))
termination_by text.length
decreasing_by
  all_goals
    refine Nat.lt_of_lt_of_le (TypeForm.length_lt_of_mem_parts ?_) (Text.length_trim_le text)
    simp [form, TypeForm.parts]
  exact item.property

/-- Read `name: type`, reporting a text of another shape as the given kind of problem. -/
def Field.read (kind : Diagnostic.Kind) (line : Nat) (text : List Char) :
    Reported (Option Field) :=
  match found : FieldText.ofText? text with
  | none => do
    Reported.report kind line text
    return none
  | some parts => do
    let type ← TypeExpr.read line parts.type
    return some ⟨String.ofList parts.name, type, parts.optional⟩
termination_by text.length
decreasing_by exact FieldText.length_type_lt found

end

/-- Read every item as a field. -/
def Field.readItems (kind : Diagnostic.Kind) (line : Nat) (items : List (List Char)) :
    Reported (List Field) :=
  Reported.collect (items.map (Field.read kind line))

theorem TypeExpr.read_of_record {line : Nat} {text : List Char} {items : List (List Char)}
    (form : TypeForm.ofText (Text.trim text) = .record items) :
    TypeExpr.read line text = (do
      let fields ← Field.readItems .malformedRecordField line items
      return .record fields) := by
  rw [TypeExpr.read]
  split <;> simp_all [Field.readItems]

end PolySchema
