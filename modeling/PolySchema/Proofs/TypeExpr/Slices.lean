import PolySchema.Proofs.Text.Slice
import PolySchema.Proofs.TypeExpr.Reader

/-! Reading types by slices. The readers of this module take every part of a text as a slice between
byte offsets, which can be a fault; none is, and they read what the readers without offsets do. -/
namespace PolySchema

namespace TypeForm

/-- Base and argument of a generic application, cut by offsets. -/
def applicationChecked (text : List Char) : Except Fault (Option (List Char × List Char)) :=
  match Text.firstOffset? '<' text with
  | none => return none
  | some start => do
    let before ← Text.slice text 0 start
    if isIdentifier (Text.trim before) then
      match ← Text.closeChecked text start with
      | none => return none
      | some stop =>
        let last ← Text.lastOffset text
        if stop == last then
          let argument ← Text.slice text (start + 1) stop
          return some (Text.trim before, argument)
        else return none
    else return none

/-- The text between the braces of a record, cut by offsets. -/
def recordBodyChecked (text : List Char) : Except Fault (Option (List Char)) :=
  if text.head? == some '{' then do
    let stop ← Text.closeChecked text 0
    let last ← Text.lastOffset text
    if stop == some last then
      let body ← Text.slice text 1 last
      return some body
    else return none
  else return none

def ofMapArgumentChecked (argument : List Char) : Except Fault TypeForm := do
  match ← Text.splitTopChecked ',' argument with
  | [key, value] => if key.isEmpty || value.isEmpty then return .mapArity else return .map key value
  | _ => return .mapArity

/-- The form of a trimmed text, with its parts cut by offsets. -/
def ofTextChecked (text : List Char) : Except Fault TypeForm :=
  if text.isEmpty then return .empty
  else match Text.dropEnding? ['?'] text with
    | some rest => return .marked rest
    | none => do
      match ← applicationChecked text with
      | some (base, argument) =>
        if base == mapName then ofMapArgumentChecked argument else return .generic base argument
      | none =>
        match Text.dropEnding? ['[', ']'] text with
        | some element => return .array element
        | none =>
          match ← recordBodyChecked text with
          | some body =>
            let items ← Text.itemsChecked body
            return .record items
          | none => return .name

variable (text : List Char)

theorem applicationChecked_eq : applicationChecked text = pure (application? text) := by
  unfold applicationChecked application? Text.firstOffset?
  cases found : Text.cutFirst? '<' text with
  | none => rfl
  | some cut =>
    obtain ⟨before, after⟩ := cut
    have shape := Text.cutFirst?_eq_some found
    simp only [Option.map_some, Text.slice_before shape, Text.closeChecked_eq shape rfl,
      Text.lastOffset_eq shape, pure_bind]
    cases closed : Text.cutClose? 1 after with
    | none => simp
    | some close =>
      obtain ⟨argument, tail⟩ := close
      obtain ⟨bracket, closing, whole⟩ := Text.exists_close shape closed
      simp only [Option.map_some, Text.beq_last whole rfl closing, Text.slice_between whole rfl,
        pure_bind]
      cases tail with
      | nil =>
        simp only [List.isEmpty_nil, if_true]
        split <;> rfl
      | cons => simp

theorem recordBodyChecked_eq : recordBodyChecked text = pure (recordBody? text) := by
  unfold recordBodyChecked
  split
  · rename_i brace
    cases text with
    | nil => cases brace
    | cons first rest =>
      obtain rfl : first = '{' := by simpa using brace
      have shape : '{' :: rest = [] ++ '{' :: rest := rfl
      have search := Text.closeChecked_eq shape rfl
      simp only [Text.byteSize_nil, Nat.zero_add] at search
      simp only [search, Text.lastOffset_eq shape, pure_bind, recordBody?]
      cases closed : Text.cutClose? 1 rest with
      | none => simp
      | some close =>
        obtain ⟨body, tail⟩ := close
        obtain ⟨bracket, closing, whole⟩ := Text.exists_close shape closed
        have last := Text.beq_last whole rfl closing
        have inner := Text.slice_between whole rfl
        simp only [Text.byteSize_nil, Nat.zero_add] at last inner
        simp only [Option.map_some, Option.some_beq_some, last]
        cases tail with
        | nil => simp only [List.isEmpty_nil, if_true, ← beq_iff_eq.mp last, inner, pure_bind]
        | cons => rfl
  · rename_i other
    unfold recordBody?
    split
    · simp at other
    · rfl

theorem ofMapArgumentChecked_eq : ofMapArgumentChecked text = pure (ofMapArgument text) := by
  rw [ofMapArgumentChecked, Text.splitTopChecked_eq, pure_bind, ofMapArgument]
  rcases Text.splitTop ',' text with _ | ⟨key, _ | ⟨value, _ | _⟩⟩
  · rfl
  · rfl
  · dsimp only
    split <;> rfl
  · rfl

/-- Every form is recognised by slices. -/
theorem ofTextChecked_eq : ofTextChecked text = pure (ofText text) := by
  unfold ofTextChecked ofText
  simp only [applicationChecked_eq, recordBodyChecked_eq, Text.itemsChecked_eq,
    ofMapArgumentChecked_eq, pure_bind]
  split
  · rfl
  · cases Text.dropEnding? ['?'] text with
    | some rest => rfl
    | none =>
      rcases application? text with _ | ⟨base, argument⟩
      · cases Text.dropEnding? ['[', ']'] text with
        | some element => rfl
        | none => cases recordBody? text <;> rfl
      · dsimp only
        split <;> rfl

end TypeForm

/-- The parts of a field text, cut by offsets. -/
def FieldText.ofTextChecked (text : List Char) : Except Fault (Option FieldText) :=
  match Text.topOffset? ':' text with
  | none => return none
  | some colon => do
    let before ← Text.slice text 0 colon
    let after ← Text.slice text (colon + 1) (Text.byteSize text)
    let name := unmark (Text.trim before)
    let type := unmark (Text.trim after)
    if isIdentifier name.1 && !type.1.isEmpty then return some ⟨name.1, type.1, name.2 || type.2⟩
    else return none

theorem FieldText.ofTextChecked_eq (text : List Char) :
    FieldText.ofTextChecked text = pure (FieldText.ofText? text) := by
  unfold FieldText.ofTextChecked FieldText.ofText? Text.topOffset?
  cases found : Text.cutTop? ':' text with
  | none => rfl
  | some cut =>
    obtain ⟨before, after⟩ := cut
    have shape := Text.cutTop?_eq_some found
    simp only [Option.map_some, Text.slice_before shape, Text.slice_after shape rfl, pure_bind]
    split <;> rfl

/-- Run the steps and keep the values that are there. -/
def collectChecked : List (ExceptT Fault Reported (Option α)) → ExceptT Fault Reported (List α)
  | [] => return []
  | step :: steps => do
    let first ← step
    let rest ← collectChecked steps
    return first.toList ++ rest

theorem collectChecked_map (items : List α) {checked : α → ExceptT Fault Reported (Option β)}
    {step : α → Reported (Option β)} (each : ∀ item ∈ items, checked item = liftM (step item)) :
    collectChecked (items.map checked) = liftM (Reported.collect (items.map step)) := by
  induction items with
  | nil => simp [collectChecked]
  | cons item rest ih =>
    rw [List.map_cons, collectChecked, each item List.mem_cons_self,
      ih fun other member => each other (List.mem_cons_of_mem item member)]
    simp [Reported.collect_cons]

-- The equations named in the matches below are used by the termination proofs only.
set_option linter.unusedVariables false

mutual

/-- Read a type by slices. -/
def TypeExpr.readChecked (line : Nat) (text : List Char) : ExceptT Fault Reported TypeExpr :=
  match form : TypeForm.ofTextChecked (Text.trim text) with
  | .error fault => throw fault
  | .ok .empty => do
    Reported.report .emptyTypeExpression line (Text.trim text)
    return .named "Any"
  | .ok (.marked rest) => do
    Reported.report .misplacedOptional line (Text.trim text)
    TypeExpr.readChecked line rest
  | .ok (.map key value) => do
    let key ← TypeExpr.readChecked line key
    let value ← TypeExpr.readChecked line value
    return .map key value
  | .ok .mapArity => do
    Reported.report .recordArity line (Text.trim text)
    return .map (.named "String") (.named "Any")
  | .ok (.generic base argument) => do
    let argument ← TypeExpr.readChecked line argument
    return .generic (String.ofList base) argument
  | .ok (.array element) => do
    let element ← TypeExpr.readChecked line element
    return .array element
  | .ok (.record items) => do
    let fields ← collectChecked (items.attach.map fun item =>
      Field.readChecked .malformedRecordField line item.val)
    return .record fields
  | .ok .name => return .named (String.ofList (Text.trim text))
termination_by text.length
decreasing_by
  -- The parts are those of the form without offsets, which are shorter.
  all_goals
    have same := Except.ok.inj ((TypeForm.ofTextChecked_eq (Text.trim text)).symm.trans form)
    refine Nat.lt_of_lt_of_le (TypeForm.length_lt_of_mem_parts ?_) (Text.length_trim_le text)
    simp [same, TypeForm.parts]
  exact item.property

def Field.readChecked (kind : Diagnostic.Kind) (line : Nat) (text : List Char) :
    ExceptT Fault Reported (Option Field) :=
  match found : FieldText.ofTextChecked text with
  | .error fault => throw fault
  | .ok none => do
    Reported.report kind line text
    return none
  | .ok (some parts) => do
    let type ← TypeExpr.readChecked line parts.type
    return some ⟨String.ofList parts.name, type, parts.optional⟩
termination_by text.length
decreasing_by
  have same := Except.ok.inj ((FieldText.ofTextChecked_eq text).symm.trans found)
  exact FieldText.length_type_lt same

end

theorem Field.readChecked_of_parts {kind : Diagnostic.Kind} {line : Nat} {text : List Char}
    (types : ∀ parts, FieldText.ofText? text = some parts →
      TypeExpr.readChecked line parts.type = liftM (TypeExpr.read line parts.type)) :
    Field.readChecked kind line text = liftM (Field.read kind line text) := by
  have known := FieldText.ofTextChecked_eq text
  rw [Field.readChecked]
  split
  · rename_i fault found
    cases known.symm.trans found
  · rename_i found
    rw [Field.read_of_none (Except.ok.inj (known.symm.trans found))]
    simp
  · rename_i parts found
    have same := Except.ok.inj (known.symm.trans found)
    rw [Field.read_of_parts same, types parts same]
    simp

/-- Types are read by slices without a fault. -/
theorem TypeExpr.readChecked_eq (line : Nat) (text : List Char) :
    TypeExpr.readChecked line text = liftM (TypeExpr.read line text) := by
  induction text using TypeExpr.text_induction with
  | step text ih =>
    have known := TypeForm.ofTextChecked_eq (Text.trim text)
    have part {inner : List Char} (member : inner ∈ (TypeForm.ofText (Text.trim text)).parts) :=
      ih inner (.part member)
    rw [TypeExpr.readChecked]
    split <;> rename_i form <;> replace form := known.symm.trans form
    -- A fault first, then the forms in order.
    · cases form
    all_goals replace form := Except.ok.inj form
    all_goals rw [form] at part
    · simp [read_of_empty form]
    · simp [read_of_marked form, part List.mem_cons_self]
    · simp [read_of_map form, part List.mem_cons_self,
        part (List.mem_cons_of_mem _ List.mem_cons_self)]
    · simp [read_of_mapArity form]
    · simp [read_of_generic form, part List.mem_cons_self]
    · simp [read_of_array form, part List.mem_cons_self]
    · rename_i items
      have fields : ∀ item ∈ items, Field.readChecked .malformedRecordField line item =
          liftM (Field.read .malformedRecordField line item) := by
        intro item member
        exact Field.readChecked_of_parts fun parts found => ih parts.type (.field form member found)
      have plain : items.attach.map (fun item =>
          Field.readChecked .malformedRecordField line item.val) =
            items.map (Field.readChecked .malformedRecordField line) := by
        simp
      rw [read_of_record form, plain, collectChecked_map items fields]
      simp [Field.readItems]
    · simp [read_of_name form]

theorem Field.readChecked_eq (kind : Diagnostic.Kind) (line : Nat) (text : List Char) :
    Field.readChecked kind line text = liftM (Field.read kind line text) :=
  Field.readChecked_of_parts fun parts _ => TypeExpr.readChecked_eq line parts.type

end PolySchema
