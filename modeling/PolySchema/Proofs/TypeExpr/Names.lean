import PolySchema.Proofs.TypeExpr.NormalForm

namespace PolySchema

namespace TypeForm

variable {text : List Char}

/-- The text is a base name with an argument in angle brackets as a whole. Any closing bracket ends
the argument. -/
def IsApplied (text : List Char) : Prop :=
  ∃ base argument bracket, text = base ++ '<' :: (argument ++ [bracket]) ∧
    isIdentifier (Text.trim base) = true ∧ Text.Nested (fun _ => True) argument ∧
    Text.closes bracket = true

/-- The text is in braces as a whole. Any closing bracket ends it. -/
def IsBraced (text : List Char) : Prop :=
  ∃ body bracket, text = '{' :: (body ++ [bracket]) ∧ Text.Nested (fun _ => True) body ∧
    Text.closes bracket = true

theorem application?_eq_none_iff : application? text = none ↔ ¬ IsApplied text := by
  constructor
  · rintro missing ⟨base, argument, bracket, rfl, valid, nested, closing⟩
    have absent : '<' ∉ base := fun member =>
      not_mem_of_isIdentifier valid rfl (Text.mem_trim member (by decide))
    simp [application?, Text.cutFirst?_append absent, Text.cutClose?_nested nested closing,
      valid] at missing
  · intro unapplied
    refine Option.eq_none_iff_forall_not_mem.mpr fun parts found => unapplied ?_
    obtain ⟨before, bracket, shape, base, closing, valid⟩ := application?_eq_some found
    rw [base] at valid
    exact ⟨before, parts.2, bracket, shape, valid, nested_of_application? found, closing⟩

theorem recordBody?_eq_none_iff : recordBody? text = none ↔ ¬ IsBraced text := by
  constructor
  · rintro missing ⟨body, bracket, rfl, nested, closing⟩
    simp [recordBody?, Text.cutClose?_nested nested closing] at missing
  · intro unbraced
    refine Option.eq_none_iff_forall_not_mem.mpr fun body found => unbraced ?_
    obtain ⟨bracket, shape, closing⟩ := recordBody?_eq_some found
    exact ⟨body, bracket, shape, nested_of_recordBody? found, closing⟩

private theorem ofMapArgument_ne_name (argument : List Char) : ofMapArgument argument ≠ .name := by
  unfold ofMapArgument
  split
  · split <;> simp
  · simp

/-- A text that is not empty is a name if it has none of the other forms. -/
theorem ofText_eq_name_iff (nonempty : text ≠ []) :
    ofText text = .name ↔ ¬ ['?'] <:+ text ∧ ¬ ['[', ']'] <:+ text ∧ ¬ IsApplied text ∧
      ¬ IsBraced text := by
  rw [← application?_eq_none_iff, ← recordBody?_eq_none_iff, ← Text.dropEnding?_eq_none_iff,
    ← Text.dropEnding?_eq_none_iff, ofText, if_neg (by simpa using nonempty)]
  cases Text.dropEnding? ['?'] text with
  | some rest => simp
  | none =>
    cases application? text with
    | some parts =>
      by_cases map : parts.1 = mapName
      · simp [map, ofMapArgument_ne_name]
      · simp [map]
    | none =>
      cases Text.dropEnding? ['[', ']'] text with
      | some element => simp
      | none => cases recordBody? text <;> simp

end TypeForm

/-- A text on one line that has no form of a type but that of a name, whatever its characters
are. -/
structure IsBareText (text : List Char) : Prop where
  tight : Text.Tight text
  unbroken : '\n' ∉ text
  unmarked : ¬ ['?'] <:+ text
  unpaired : ¬ ['[', ']'] <:+ text
  unapplied : ¬ TypeForm.IsApplied text
  unbraced : ¬ TypeForm.IsBraced text

namespace IsBareText

variable {text : List Char}

theorem form (bare : IsBareText text) : TypeForm.ofText text = .name :=
  (TypeForm.ofText_eq_name_iff bare.tight.ne_nil).mpr
    ⟨bare.unmarked, bare.unpaired, bare.unapplied, bare.unbraced⟩

theorem of_form (tight : Text.Tight text) (unbroken : '\n' ∉ text)
    (form : TypeForm.ofText text = .name) : IsBareText text := by
  obtain ⟨unmarked, unpaired, unapplied, unbraced⟩ :=
    (TypeForm.ofText_eq_name_iff tight.ne_nil).mp form
  exact ⟨tight, unbroken, unmarked, unpaired, unapplied, unbraced⟩

theorem of_isIdentifier (valid : isIdentifier text = true) : IsBareText text :=
  of_form (tight_of_isIdentifier valid) (not_mem_of_isIdentifier valid rfl)
    (TypeForm.ofText_identifier valid)

end IsBareText

namespace TypeExpr

variable {leaf : List Char → Prop}

/-- What the names that stand in an unclassified expression itself are: a name by itself is a leaf,
any other name is an identifier. The name of maps is no base of a generic application. -/
def HasNames (leaf : List Char → Prop) : TypeExpr → Prop
  | .primitive _ => False
  | .named name => leaf name.toList
  | .array _ | .map _ _ => True
  | .record fields => ∀ field ∈ fields, isIdentifier field.name.toList = true
  | .generic base _ => isIdentifier base.toList = true ∧ base ≠ "Record"

theorem HasNames.mono {type : TypeExpr} {weaker : List Char → Prop}
    (names : type.HasNames leaf) (implied : ∀ text, leaf text → weaker text) :
    type.HasNames weaker := by
  cases type with
  | named name => exact implied _ names
  | _ => exact names

/-- The names at any depth of an expression. -/
def AllNames (leaf : List Char → Prop) (type : TypeExpr) : Prop :=
  ∀ inner ∈ type.subexpressions, inner.HasNames leaf

theorem allNames_named {name : String} : (named name).AllNames leaf ↔ leaf name.toList := by
  simp [AllNames, subexpressions, HasNames]

theorem allNames_array {element : TypeExpr} :
    (array element).AllNames leaf ↔ element.AllNames leaf := by
  simp [AllNames, subexpressions, HasNames]

theorem allNames_map {key value : TypeExpr} :
    (map key value).AllNames leaf ↔ key.AllNames leaf ∧ value.AllNames leaf := by
  simp [AllNames, subexpressions, HasNames, or_imp, forall_and]

theorem allNames_generic {base : String} {argument : TypeExpr} :
    (generic base argument).AllNames leaf ↔
      (isIdentifier base.toList = true ∧ base ≠ "Record") ∧ argument.AllNames leaf := by
  simp [AllNames, subexpressions, HasNames]

end TypeExpr

/-- The names of a field and of its type. -/
def Field.AllNames (leaf : List Char → Prop) (field : Field) : Prop :=
  isIdentifier field.name.toList = true ∧ field.type.AllNames leaf

theorem TypeExpr.allNames_record {leaf : List Char → Prop} {fields : List Field} :
    (TypeExpr.record fields).AllNames leaf ↔ ∀ field ∈ fields, field.AllNames leaf := by
  simp only [AllNames, subexpressions, Field.subexpressionsAll_eq_flatMap, List.forall_mem_cons,
    List.forall_mem_flatMap, HasNames, Field.AllNames, forall_and]

private theorem TypeExpr.allNames_identifier {name : String}
    (valid : isIdentifier name.toList = true) : (TypeExpr.named name).AllNames IsBareText :=
  TypeExpr.allNames_named.mpr (.of_isIdentifier valid)

theorem not_mem_of_isInfix {part text : List Char} {c : Char} (stretch : part <:+: text)
    (absent : c ∉ text) : c ∉ part := fun member => absent (stretch.subset member)

/-- The names in what is read from a line. -/
theorem TypeExpr.allNames_read (line : Nat) {text : List Char} (unbroken : '\n' ∉ text) :
    (TypeExpr.read line text).value.AllNames IsBareText := by
  induction text using TypeExpr.text_induction with
  | step text ih =>
    have described := TypeForm.describes_ofText (Text.trim text)
    have inner {part : List Char} (nested : ReadsOn text part) :
        (TypeExpr.read line part).value.AllNames IsBareText :=
      ih part nested (not_mem_of_isInfix nested.isInfix unbroken)
    have part {part : List Char} (own : part ∈ (TypeForm.ofText (Text.trim text)).parts) :=
      inner (.part own)
    generalize form : TypeForm.ofText (Text.trim text) = shape at described part
    cases shape with
    | empty =>
      rw [read_of_empty form]
      exact allNames_identifier (by decide)
    | marked rest =>
      rw [read_of_marked form]
      exact part List.mem_cons_self
    | map key value =>
      rw [read_of_map form]
      exact allNames_map.mpr ⟨part List.mem_cons_self, part (by simp [TypeForm.parts])⟩
    | mapArity =>
      rw [read_of_mapArity form]
      exact allNames_map.mpr ⟨allNames_identifier (by decide), allNames_identifier (by decide)⟩
    | generic base argument =>
      obtain ⟨valid, other, _⟩ := described
      rw [read_of_generic form]
      refine allNames_generic.mpr ⟨⟨by rwa [String.toList_ofList], ?_⟩, part List.mem_cons_self⟩
      intro same
      exact other (String.ofList_inj.mp same)
    | array element =>
      rw [read_of_array form]
      exact allNames_array.mpr (part List.mem_cons_self)
    | record items =>
      rw [read_of_record form]
      refine allNames_record.mpr fun field member => ?_
      obtain ⟨item, present, parts, found, rfl⟩ := Field.exists_parts_of_mem_readItems member
      refine ⟨?_, inner (.field form present found)⟩
      rw [String.toList_ofList]
      exact (FieldText.of_ofText? found).1
    | name =>
      rw [read_of_name form]
      refine allNames_named.mpr ?_
      rw [String.toList_ofList]
      exact .of_form (Text.tight_trim described)
        (not_mem_of_isInfix (Text.isInfix_trim text) unbroken) form

theorem Field.allNames_read {kind : Diagnostic.Kind} {line : Nat} {text : List Char} {field : Field}
    (unbroken : '\n' ∉ text) (read : (Field.read kind line text).value = some field) :
    field.AllNames IsBareText := by
  obtain ⟨parts, found, rfl⟩ := Field.exists_parts_of_read read
  obtain ⟨valid, stretch⟩ := FieldText.of_ofText? found
  refine ⟨?_, TypeExpr.allNames_read line (not_mem_of_isInfix stretch unbroken)⟩
  rwa [String.toList_ofList]

end PolySchema
