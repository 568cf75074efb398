import PolySchema.Proofs.Text.Nesting
import PolySchema.Proofs.TypeExpr.Reader
import PolySchema.Proofs.TypeExpr.Writable
import PolySchema.TypeExpr.Printer

/-! Reading undoes printing. The printed form of a writable type expression has nested brackets and
shows at its ends which form it is, so each cut of the reader finds the parts that were printed. -/
namespace PolySchema

/-- What a printed type expression looks like from outside: it has only name characters and opening
brackets at top level, and no mark at its end. -/
structure IsTypeText (text : List Char) : Prop where
  nested : Text.Nested (fun c => isIdentifierChar c = true ∨ Text.opens c = true) text
  first : ∃ c, text.head? = some c ∧ Text.isBlank c = false
  last : ∃ c, text.getLast? = some c ∧ (isIdentifierChar c = true ∨ Text.closes c = true)

namespace IsTypeText

theorem tight (valid : IsTypeText text) : Text.Tight text := by
  obtain ⟨c, found, shape⟩ := valid.last
  exact ⟨valid.first, c, found, shape.elim isBlank_of_isIdentifierChar Text.isBlank_of_closes⟩

theorem ne_nil (valid : IsTypeText text) : text ≠ [] := valid.tight.ne_nil

theorem last_ne (valid : IsTypeText text) (mark : Char) (outside : isIdentifierChar mark = false)
    (unbracketed : Text.closes mark = false) : ∃ c, text.getLast? = some c ∧ c ≠ mark := by
  obtain ⟨c, found, shape⟩ := valid.last
  refine ⟨c, found, ?_⟩
  rintro rfl
  simp [outside, unbracketed] at shape

theorem nested_ne (valid : IsTypeText text) (needle : Char)
    (outside : isIdentifierChar needle = false) (unbracketed : Text.opens needle = false) :
    Text.Nested (· ≠ needle) text := by
  refine valid.nested.mono fun c shape => ?_
  rintro rfl
  simp [outside, unbracketed] at shape

theorem isItem (valid : IsTypeText text) : Text.IsItem text :=
  ⟨valid.tight, valid.nested_ne ',' rfl rfl⟩

theorem of_isIdentifier (valid : isIdentifier name = true) : IsTypeText name := by
  have nonempty := ne_nil_of_isIdentifier valid
  exact
    { nested := (Text.Nested.of_isIdentifier valid).mono fun _ => .inl
      first := (tight_of_isIdentifier valid).first
      last := ⟨_, List.getLast?_eq_some_getLast nonempty,
        .inl (isIdentifierChar_of_mem valid (List.getLast_mem nonempty))⟩ }

theorem array (valid : IsTypeText element) : IsTypeText (element ++ ['[', ']']) := by
  obtain ⟨c, found, visible⟩ := valid.first
  exact
    { nested := valid.nested.append (.bracket (.inr rfl) rfl rfl .nil .nil)
      first := ⟨c, by simp [found], visible⟩
      last := ⟨']', by simp, .inr rfl⟩ }

theorem application (valid : isIdentifier base = true) (inside : Text.Nested top argument) :
    IsTypeText (base ++ '<' :: (argument ++ ['>'])) := by
  obtain ⟨c, found, visible⟩ := (tight_of_isIdentifier valid).first
  exact
    { nested := (IsTypeText.of_isIdentifier valid).nested.append
        (inside.enclose (.inr rfl) rfl rfl)
      first := ⟨c, by simp [found], visible⟩
      last := ⟨'>', by simp [List.getLast?_cons], .inr rfl⟩ }

theorem record (inside : Text.Nested top body) : IsTypeText ('{' :: (body ++ ['}'])) :=
  { nested := inside.enclose (.inr rfl) rfl rfl
    first := ⟨'{', rfl, by decide⟩
    last := ⟨'}', by simp [List.getLast?_cons], .inr rfl⟩ }

end IsTypeText

namespace TypeForm

private theorem unmarked_of_last {text : List Char} {c : Char} (last : text.getLast? = some c)
    (other : c ≠ '?') : text.isEmpty = false ∧ Text.dropEnding? ['?'] text = none := by
  refine ⟨?_, Text.dropEnding?_of_last last rfl other⟩
  cases text with
  | nil => simp at last
  | cons _ _ => rfl

theorem ofText_identifier {name : List Char} (valid : isIdentifier name = true) :
    ofText name = .name := by
  have nonempty := ne_nil_of_isIdentifier valid
  have last := List.getLast?_eq_some_getLast nonempty
  have inside := isIdentifierChar_of_mem valid (List.getLast_mem nonempty)
  have unmarked := unmarked_of_last last (ne_of_isIdentifierChar inside rfl)
  have unclosed : Text.dropEnding? ['[', ']'] name = none :=
    Text.dropEnding?_of_last last rfl (ne_of_isIdentifierChar inside rfl)
  have absent : '<' ∉ name := not_mem_of_isIdentifier valid rfl
  have whole : application? name = none := by simp [application?, Text.cutFirst?_eq_none absent]
  have unbraced : recordBody? name = none := by
    unfold recordBody?
    split
    · exact absurd (List.mem_cons_self ..) (not_mem_of_isIdentifier valid rfl)
    · rfl
  simp only [ofText, unmarked, whole, unclosed, unbraced, Bool.false_eq_true, ↓reduceIte]

/-- What follows a first angle bracket keeps the pair at the end, so the bracket closes before
it. -/
private theorem application?_pair (element : List Char) :
    application? (element ++ ['[', ']']) = none := by
  unfold application?
  split
  · rfl
  · rename_i before after cut
    have ending : ∃ front, after = front ++ ['[', ']'] := by
      rcases List.append_eq_append_iff.mp (Text.cutFirst?_eq_some cut) with
        ⟨middle, _, shape⟩ | ⟨middle, _, shape⟩
      · have member : '<' ∈ ['[', ']'] := shape ▸ by simp
        simp at member
      · cases middle with
        | nil => simp at shape
        | cons c front => exact ⟨front, (List.cons.inj shape).2⟩
    obtain ⟨front, rfl⟩ := ending
    split
    · rename_i argument closed
      exact absurd closed (Text.cutClose?_pair_ne front argument 0)
    · rfl

/-- Two square brackets at the end make an array, whatever stands before them. -/
theorem ofText_array (element : List Char) : ofText (element ++ ['[', ']']) = .array element := by
  have last : (element ++ ['[', ']']).getLast? = some ']' := by simp
  have unmarked := unmarked_of_last last (by decide)
  simp only [ofText, unmarked, application?_pair, Text.dropEnding?_append, Bool.false_eq_true,
    ↓reduceIte]

private theorem application?_append {base argument : List Char} (valid : isIdentifier base = true)
    (inside : Text.Nested top argument) :
    application? (base ++ '<' :: (argument ++ ['>'])) = some (base, argument) := by
  have absent : '<' ∉ base := not_mem_of_isIdentifier valid rfl
  have closed : Text.cutClose? 1 (argument ++ ['>']) = some (argument, []) :=
    Text.cutClose?_nested inside rfl []
  simp only [application?, Text.cutFirst?_append absent, closed,
    (tight_of_isIdentifier valid).trim_eq, valid, ↓reduceIte]

theorem ofText_generic {base argument : List Char} (valid : isIdentifier base = true)
    (inside : Text.Nested top argument) (other : base ≠ mapName) :
    ofText (base ++ '<' :: (argument ++ ['>'])) = .generic base argument := by
  obtain ⟨c, last, different⟩ := (IsTypeText.application valid inside).last_ne '?' rfl rfl
  have unmarked := unmarked_of_last last different
  simp only [ofText, unmarked, application?_append valid inside, beq_iff_eq, other,
    Bool.false_eq_true, ↓reduceIte]

theorem ofText_map {key value : List Char} (left : Text.IsItem key) (right : Text.IsItem value) :
    ofText (mapName ++ '<' :: ([',', ' '].intercalate [key, value] ++ ['>'])) =
      .map key value := by
  have items : ∀ item ∈ [key, value], Text.IsItem item := by simp [left, right]
  have valid : isIdentifier mapName = true := by decide
  have inside := Text.nested_intercalate items
  have parts : Text.splitTop ',' ([',', ' '].intercalate [key, value]) = [key, value] := by
    simpa using Text.splitTop_intercalate (by simp) items Text.blank_nil Text.blank_nil
  obtain ⟨c, last, different⟩ := (IsTypeText.application valid inside).last_ne '?' rfl rfl
  have unmarked := unmarked_of_last last different
  simp only [ofText, unmarked, application?_append valid inside, ofMapArgument, parts,
    List.isEmpty_eq_false_iff.mpr left.tight.ne_nil,
    List.isEmpty_eq_false_iff.mpr right.tight.ne_nil, BEq.rfl, Bool.or_self, Bool.false_eq_true,
    ↓reduceIte]

private theorem application?_of_brace (rest : List Char) : application? ('{' :: rest) = none := by
  unfold application?
  split
  · rfl
  · rename_i before after cut
    have shape := Text.cutFirst?_eq_some cut
    have start : isIdentifier (Text.trim before) = false := by
      refine Bool.eq_false_iff.mpr fun valid => ?_
      have member : '{' ∈ before := by
        cases before with
        | nil => cases shape
        | cons c before => exact List.mem_cons.mpr (.inl (List.cons.inj shape).1)
      exact not_mem_of_isIdentifier valid rfl (Text.mem_trim member (by decide))
    split
    · simp [start]
    · rfl

private theorem ofText_braced (inside : Text.Nested top body) :
    ofText ('{' :: (body ++ ['}'])) = .record (Text.items body) := by
  have last : ('{' :: (body ++ ['}'])).getLast? = some '}' := by simp [List.getLast?_cons]
  have unmarked := unmarked_of_last last (by decide)
  have unclosed : Text.dropEnding? ['[', ']'] ('{' :: (body ++ ['}'])) = none :=
    Text.dropEnding?_of_last last rfl (by decide)
  have closed : Text.cutClose? 1 (body ++ ['}']) = some (body, []) :=
    Text.cutClose?_nested inside rfl []
  simp only [ofText, unmarked, application?_of_brace, unclosed, recordBody?, closed,
    Bool.false_eq_true, ↓reduceIte]

theorem ofText_record {items : List (List Char)} (valid : ∀ item ∈ items, Text.IsItem item) :
    ofText ('{' :: (([' '] ++ ([',', ' '].intercalate items ++ [' '])) ++ ['}'])) =
      .record items := by
  have inside := Text.nested_padded valid
  rw [ofText_braced inside, Text.items_intercalate valid Text.blank_space Text.blank_space]

end TypeForm

namespace FieldText

/-- A text that is kept as the type of a field: it has no blank at its ends and no mark. -/
structure Unmarked (text : List Char) : Prop where
  tight : Text.Tight text
  last : ∃ c, text.getLast? = some c ∧ c ≠ '?'

theorem Unmarked.of_isTypeText (shape : IsTypeText text) : Unmarked text :=
  ⟨shape.tight, shape.last_ne '?' rfl rfl⟩

private theorem unmark_of_last {text : List Char} {c : Char} (last : text.getLast? = some c)
    (other : c ≠ '?') : unmark text = (text, false) := by
  have kept : Text.dropEnding? ['?'] text = none := Text.dropEnding?_of_last last rfl other
  simp only [unmark, kept]

/-- The mark that an optional field has at its end. -/
def mark (optional : Bool) : List Char := if optional then ['?'] else []

private theorem unmark_mark {type : List Char} (plain : Unmarked type) (optional : Bool) :
    unmark (type ++ mark optional) = (type, optional) := by
  cases optional with
  | false =>
    obtain ⟨c, last, other⟩ := plain.last
    simpa [mark] using unmark_of_last last other
  | true =>
    simp only [mark, ↓reduceIte, unmark, Text.dropEnding?_append, plain.tight.trimEnd_eq]

private theorem tight_mark {type : List Char} (tight : Text.Tight type) (optional : Bool) :
    Text.Tight (type ++ mark optional) := by
  cases optional with
  | false => simpa [mark] using tight
  | true => exact tight.append (.singleton (by decide))

theorem ofText?_append {name type : List Char} (valid : isIdentifier name = true)
    (plain : Unmarked type) (optional : Bool) :
    ofText? (name ++ ':' :: ([' '] ++ (type ++ mark optional))) = some ⟨name, type, optional⟩ := by
  have cut : Text.cutTop? ':' (name ++ ':' :: ([' '] ++ (type ++ mark optional))) =
      some (name, [' '] ++ (type ++ mark optional)) :=
    Text.cutTop?_nested (.of_isIdentifier valid) (by decide) _
  have trimmed : Text.trim ([' '] ++ (type ++ mark optional)) = type ++ mark optional := by
    simpa using Text.trim_padding (tight_mark plain.tight optional) Text.blank_space Text.blank_nil
  obtain ⟨c, last, other⟩ := (IsTypeText.of_isIdentifier valid).last_ne '?' rfl rfl
  simp only [ofText?, cut, trimmed, (tight_of_isIdentifier valid).trim_eq, unmark_mark plain,
    unmark_of_last last other, valid, List.isEmpty_eq_false_iff.mpr plain.tight.ne_nil,
    Bool.not_false, Bool.and_self, Bool.false_or, ↓reduceIte]

theorem isItem_append {name type : List Char} (valid : isIdentifier name = true)
    (item : Text.IsItem type) (optional : Bool) :
    Text.IsItem (name ++ ':' :: ([' '] ++ (type ++ mark optional))) := by
  have front := (IsTypeText.of_isIdentifier valid).nested_ne ',' rfl rfl
  have colon : Text.Nested (· ≠ ',') [':', ' '] := .of_marks (by simp) rfl
  have ending : Text.Nested (· ≠ ',') (mark optional) := by
    cases optional <;> exact .of_marks (by simp [mark]) rfl
  refine ⟨?_, ?_⟩
  · exact (tight_of_isIdentifier valid).enclose (tight_mark item.tight optional) [':', ' ']
  · exact front.append (colon.append (item.nested.append ending))

end FieldText

theorem Field.toList_print (field : Field) : field.print.toList =
    field.name.toList ++ ':' :: ([' '] ++ (field.type.print.toList ++
      FieldText.mark field.optional)) := by
  obtain ⟨name, type, optional⟩ := field
  cases optional <;> simp [Field.print, FieldText.mark]

theorem Field.isItem_of_types {fields : List Field}
    (names : ∀ field ∈ fields, isIdentifier field.name.toList = true)
    (types : ∀ field ∈ fields, Text.IsItem field.type.print.toList) :
    ∀ item ∈ fields.map fun field => field.print.toList, Text.IsItem item := by
  intro item member
  obtain ⟨field, present, rfl⟩ := List.mem_map.mp member
  rw [Field.toList_print]
  exact FieldText.isItem_append (names field present) (types field present) field.optional

private theorem Primitive.isIdentifier_name (primitive : Primitive) :
    isIdentifier primitive.name.toList = true := by
  cases primitive <;> decide

namespace TypeExpr

theorem toList_print_array (element : TypeExpr) :
    (array element).print.toList = element.print.toList ++ ['[', ']'] := by
  simp [TypeExpr.print]

theorem toList_print_map (key value : TypeExpr) : (map key value).print.toList =
    TypeForm.mapName ++
      '<' :: ([',', ' '].intercalate [key.print.toList, value.print.toList] ++ ['>']) := by
  simp [TypeExpr.print, TypeForm.mapName, List.intercalate_cons_cons]

theorem toList_print_record (fields : List Field) : (record fields).print.toList =
    '{' :: (([' '] ++ ([',', ' '].intercalate (fields.map fun field => field.print.toList) ++
      [' '])) ++ ['}']) := by
  simp [TypeExpr.print, Field.printAll_eq_map, String.toList_intercalate, Function.comp_def]

theorem toList_print_generic (base : String) (argument : TypeExpr) :
    (generic base argument).print.toList =
      base.toList ++ '<' :: (argument.print.toList ++ ['>']) := by
  simp [TypeExpr.print]

theorem isTypeText_print_map {key value : TypeExpr} (left : Text.IsItem key.print.toList)
    (right : Text.IsItem value.print.toList) : IsTypeText (map key value).print.toList := by
  have items : ∀ item ∈ [key.print.toList, value.print.toList], Text.IsItem item := by
    simp [left, right]
  rw [toList_print_map]
  exact .application (by decide) (Text.nested_intercalate items)

theorem isTypeText_print_record {fields : List Field}
    (items : ∀ item ∈ fields.map fun field => field.print.toList, Text.IsItem item) :
    IsTypeText (record fields).print.toList := by
  rw [toList_print_record]
  exact .record (Text.nested_padded items)

theorem isTypeText_print_generic {base : String} {argument : TypeExpr}
    (valid : isIdentifier base.toList = true) (inside : Text.Nested top argument.print.toList) :
    IsTypeText (generic base argument).print.toList := by
  rw [toList_print_generic]
  exact .application valid inside

/-- Every printed type expression looks like one. -/
theorem isTypeText_print {type : TypeExpr} (writable : type.isWritable = true) :
    IsTypeText type.print.toList := by
  induction type with
  | primitive leaf => exact .of_isIdentifier leaf.isIdentifier_name
  | named name =>
    rw [isWritable_named] at writable
    exact .of_isIdentifier writable
  | array element ih =>
    rw [isWritable_array] at writable
    rw [toList_print_array]
    exact (ih writable).array
  | map key value keyIh valueIh =>
    rw [isWritable_map, Bool.and_eq_true] at writable
    exact isTypeText_print_map (keyIh writable.1).isItem (valueIh writable.2).isItem
  | record fields ih =>
    simp only [isWritable_record, Field.isWritable, Bool.and_eq_true] at writable
    exact isTypeText_print_record (Field.isItem_of_types
      (fun field member => (writable field member).1)
      fun field member => (ih field member (writable field member).2).isItem)
  | generic base argument ih =>
    simp only [isWritable_generic, Bool.and_eq_true] at writable
    exact isTypeText_print_generic writable.1.1 (ih writable.2).nested

end TypeExpr

theorem Field.isItem_print {field : Field} (writable : field.isWritable = true) :
    Text.IsItem field.print.toList := by
  simp only [Field.isWritable, Bool.and_eq_true] at writable
  rw [Field.toList_print]
  exact FieldText.isItem_append writable.1 (TypeExpr.isTypeText_print writable.2).isItem
    field.optional

private theorem TypeForm.ofText_trim {text : List Char} {form : TypeForm} (tight : Text.Tight text)
    (found : TypeForm.ofText text = form) : TypeForm.ofText (Text.trim text) = form := by
  rw [tight.trim_eq, found]

private theorem Field.read_print_of (kind : Diagnostic.Kind) {line : Nat} {field : Field}
    {type : TypeExpr} (valid : isIdentifier field.name.toList = true)
    (plain : FieldText.Unmarked field.type.print.toList)
    (reading : TypeExpr.read line field.type.print.toList = pure type) :
    Field.read kind line field.print.toList = pure (some ⟨field.name, type, field.optional⟩) := by
  have parts := FieldText.ofText?_append valid plain field.optional
  rw [← Field.toList_print] at parts
  rw [Field.read_of_parts parts]
  simp only [reading, pure_bind, String.ofList_toList]

/-- Type expressions as reading leaves them. A name can be any text that is read as a name. Inside
brackets, the brackets of the names match, and between commas there are no other commas. -/
inductive TypeExpr.Settled : TypeExpr → Prop where
  | named (tight : Text.Tight name.toList) (form : TypeForm.ofText name.toList = .name) :
      Settled (.named name)
  | array (element : Settled type) : Settled (.array type)
  | map (left : Settled key) (right : Settled value)
      (keyNested : Text.Nested (· ≠ ',') key.print.toList)
      (valueNested : Text.Nested (· ≠ ',') value.print.toList) : Settled (.map key value)
  | record (names : ∀ field ∈ fields, isIdentifier field.name.toList = true)
      (types : ∀ field ∈ fields, Settled field.type)
      (nested : ∀ field ∈ fields, Text.Nested (· ≠ ',') field.type.print.toList) :
      Settled (.record fields)
  | generic (valid : isIdentifier base.toList = true) (other : base.toList ≠ TypeForm.mapName)
      (inner : Settled argument) (nested : Text.Nested (fun _ => True) argument.print.toList) :
      Settled (.generic base argument)

private theorem TypeForm.last_ne_of_name {text : List Char} (tight : Text.Tight text)
    (form : TypeForm.ofText text = .name) : ∃ c, text.getLast? = some c ∧ c ≠ '?' := by
  obtain ⟨c, last, _⟩ := tight.last
  refine ⟨c, last, ?_⟩
  rintro rfl
  obtain ⟨front, rfl⟩ := List.getLast?_eq_some_iff.mp last
  simp [TypeForm.ofText, Text.dropEnding?_append] at form

namespace TypeExpr.Settled

theorem unmarked {type : TypeExpr} (settled : type.Settled) :
    FieldText.Unmarked type.print.toList := by
  induction settled with
  | named tight form => exact ⟨tight, TypeForm.last_ne_of_name tight form⟩
  | array _ ih =>
    have pair : Text.Tight ['[', ']'] := ⟨⟨'[', rfl, by decide⟩, ⟨']', rfl, by decide⟩⟩
    rw [toList_print_array]
    exact ⟨ih.tight.append pair, ⟨']', by simp, by decide⟩⟩
  | map _ _ keyNested valueNested leftIh rightIh =>
    exact .of_isTypeText
      (isTypeText_print_map ⟨leftIh.tight, keyNested⟩ ⟨rightIh.tight, valueNested⟩)
  | record names _ nested ih =>
    exact .of_isTypeText (isTypeText_print_record (Field.isItem_of_types names fun field member =>
      ⟨(ih field member).tight, nested field member⟩))
  | generic valid _ _ nested _ => exact .of_isTypeText (isTypeText_print_generic valid nested)

theorem isItem {type : TypeExpr} (settled : type.Settled)
    (nested : Text.Nested (· ≠ ',') type.print.toList) : Text.IsItem type.print.toList :=
  ⟨settled.unmarked.tight, nested⟩

/-- Reading a printed type expression gives it back if it is settled. -/
theorem read_print {type : TypeExpr} (settled : type.Settled) (line : Nat) :
    TypeExpr.read line type.print.toList = pure type := by
  have tight := settled.unmarked.tight
  induction settled with
  | named _ form =>
    rw [read_of_name (TypeForm.ofText_trim tight form), tight.trim_eq, print, String.ofList_toList]
  | array element ih =>
    rw [toList_print_array] at tight ⊢
    rw [read_of_array (TypeForm.ofText_trim tight (TypeForm.ofText_array _)),
      ih element.unmarked.tight, map_pure]
  | map left right keyNested valueNested leftIh rightIh =>
    have form := TypeForm.ofText_map (left.isItem keyNested) (right.isItem valueNested)
    rw [toList_print_map] at tight ⊢
    rw [read_of_map (TypeForm.ofText_trim tight form), leftIh left.unmarked.tight,
      rightIh right.unmarked.tight, pure_bind, pure_bind]
  | @record fields names types nested ih =>
    have items := Field.isItem_of_types names fun field member =>
      (types field member).isItem (nested field member)
    have reading : Field.readItems .malformedRecordField line
        (fields.map fun field => field.print.toList) = pure fields := by
      rw [Field.readItems, List.map_map]
      refine (Reported.collect_map_pure fun field member => ?_).trans
        (congrArg pure (List.map_id' fields))
      have plain := (types field member).unmarked
      have own := Field.read_print_of .malformedRecordField (names field member) plain
        (ih field member plain.tight)
      cases field
      exact own
    rw [toList_print_record] at tight ⊢
    rw [read_of_record (TypeForm.ofText_trim tight (TypeForm.ofText_record items)), reading,
      pure_bind]
  | generic valid other inner nested ih =>
    rw [toList_print_generic] at tight ⊢
    rw [read_of_generic (TypeForm.ofText_trim tight (TypeForm.ofText_generic valid nested other)),
      ih inner.unmarked.tight, map_pure, String.ofList_toList]

end TypeExpr.Settled

namespace TypeExpr

/-- Names of primitives are printed as the primitives are. -/
theorem print_unclassify (type : TypeExpr) : type.unclassify.print = type.print := by
  induction type with
  | primitive | named => rfl
  | array element ih => simp only [unclassify, print, ih]
  | map key value keyIh valueIh => simp only [unclassify, print, keyIh, valueIh]
  | record fields ih =>
    have same : ∀ field ∈ fields, field.unclassify.print = field.print := by
      intro field member
      have inner := ih field member
      cases field
      simp only [Field.unclassify, Field.print, inner]
    simp only [unclassify, print, Field.unclassifyAll_eq_map, Field.printAll_eq_map, List.map_map]
    rw [List.map_congr_left (f := Field.print ∘ Field.unclassify) same]
  | generic base argument ih => simp only [unclassify, print, ih]

/-- With names for primitives, a writable type expression is settled. -/
theorem settled_unclassify {type : TypeExpr} (writable : type.isWritable = true) :
    type.unclassify.Settled := by
  have nested {inner : TypeExpr} (valid : inner.isWritable = true) :
      Text.Nested (· ≠ ',') inner.unclassify.print.toList := by
    rw [print_unclassify]
    exact (isTypeText_print valid).isItem.nested
  induction type with
  | primitive leaf =>
    exact .named (tight_of_isIdentifier leaf.isIdentifier_name)
      (TypeForm.ofText_identifier leaf.isIdentifier_name)
  | named name =>
    rw [isWritable_named] at writable
    exact .named (tight_of_isIdentifier writable) (TypeForm.ofText_identifier writable)
  | array element ih =>
    rw [isWritable_array] at writable
    exact .array (ih writable)
  | map key value keyIh valueIh =>
    rw [isWritable_map, Bool.and_eq_true] at writable
    exact .map (keyIh writable.1) (valueIh writable.2) (nested writable.1) (nested writable.2)
  | record fields ih =>
    simp only [isWritable_record, Field.isWritable, Bool.and_eq_true] at writable
    rw [unclassify, Field.unclassifyAll_eq_map]
    refine .record ?_ ?_ ?_
    · intro field member
      obtain ⟨source, present, rfl⟩ := List.mem_map.mp member
      rw [Field.unclassify_eq]
      exact (writable source present).1
    · intro field member
      obtain ⟨source, present, rfl⟩ := List.mem_map.mp member
      rw [Field.unclassify_eq]
      exact ih source present (writable source present).2
    · intro field member
      obtain ⟨source, present, rfl⟩ := List.mem_map.mp member
      rw [Field.unclassify_eq]
      exact nested (writable source present).2
  | generic base argument ih =>
    simp only [isWritable_generic, Bool.and_eq_true, bne_iff_ne, ne_eq] at writable
    refine .generic writable.1.1 ?_ (ih writable.2) ((nested writable.2).mono fun _ _ => trivial)
    intro same
    exact writable.1.2 (String.toList_inj.mp same)

/-- Reading a printed type expression gives it back, with names for primitives. -/
theorem read_print {type : TypeExpr} (writable : type.isWritable = true) (line : Nat) :
    TypeExpr.read line type.print.toList = pure type.unclassify := by
  rw [← print_unclassify]
  exact (settled_unclassify writable).read_print line

end TypeExpr

theorem Field.read_print {field : Field} (writable : field.isWritable = true)
    (kind : Diagnostic.Kind) (line : Nat) :
    Field.read kind line field.print.toList = pure (some field.unclassify) := by
  simp only [Field.isWritable, Bool.and_eq_true] at writable
  have plain := FieldText.Unmarked.of_isTypeText (TypeExpr.isTypeText_print writable.2)
  rw [Field.unclassify_eq]
  exact Field.read_print_of kind writable.1 plain (TypeExpr.read_print writable.2 line)

namespace TypeExpr

theorem print_injective {first second : TypeExpr} (left : first.isWritable = true)
    (right : second.isWritable = true) (leftNames : first.isUnclassified = true)
    (rightNames : second.isUnclassified = true) (same : first.print = second.print) :
    first = second := by
  have reading := read_print left 0
  rw [same, read_print right, unclassify_eq_self leftNames,
    unclassify_eq_self rightNames] at reading
  exact (congrArg Reported.value reading).symm

/-- Reading a printed type expression finds nothing wrong and gives it back with names for
primitives. So both are classified alike, and unclassified types have printed forms of their
own. -/
theorem read_print_classify {type : TypeExpr} (writable : type.isWritable = true) (line : Nat) :
    TypeExpr.read line type.print.toList = ⟨type.unclassify, []⟩ ∧
      (TypeExpr.read line type.print.toList).value.classify = type.classify ∧
      ∀ other : TypeExpr, other.isWritable = true → type.isUnclassified = true →
        other.isUnclassified = true → type ≠ other → type.print ≠ other.print := by
  have reading := read_print writable line
  refine ⟨reading, ?_, ?_⟩
  · rw [reading]
    exact classify_unclassify type
  · intro other right names otherNames different same
    exact different (print_injective writable right names otherNames same)

/-- All forms in one expression, with the names of other forms for names. -/
theorem read_print_classify_nested :
    let type : TypeExpr := .map (.primitive .string) (.array (.record [
      ⟨"Record", .generic "Set" (.array (.primitive .int32)), true⟩,
      ⟨"_x", .record [], false⟩, ⟨"y", .named "Record", true⟩]))
    type.isWritable = true ∧ TypeExpr.read 3 type.print.toList = ⟨type.unclassify, []⟩ ∧
      (TypeExpr.read 3 type.print.toList).value.classify = type.classify := by
  intro type
  have writable : type.isWritable = true := by decide
  obtain ⟨reading, classified, _⟩ := read_print_classify writable 3
  exact ⟨writable, reading, classified⟩

end TypeExpr
end PolySchema
