import PolySchema.Proofs.Target.Lines
import PolySchema.Proofs.Text.Balance

namespace PolySchema

/-- A text that can stand in a list: it has no blanks at its ends, its brackets are nested kind by
kind, and what could separate it is inside of them. -/
structure IsSpelled (text : List Char) : Prop where
  tight : Text.Tight text
  balanced : Text.Balanced text
  apart : Text.Nested (fun c => c ≠ ',' ∧ c ≠ ';') text

namespace IsSpelled

variable {text other body : List Char}

theorem join (first : IsSpelled text) (middle : List Char) (second : IsSpelled other)
    (allowed : ∀ c ∈ middle, c ≠ ',' ∧ c ≠ ';')
    (flat : (middle.all fun c => !Text.opens c && !Text.closes c) = true) :
    IsSpelled (text ++ (middle ++ other)) where
  tight := first.tight.enclose second.tight middle
  balanced := first.balanced.append ((Text.Balanced.of_marks flat).append second.balanced)
  apart := first.apart.append ((Text.Nested.of_marks allowed flat).append second.apart)

theorem append (first : IsSpelled text) (second : IsSpelled other) : IsSpelled (text ++ other) :=
  first.join [] second (List.forall_mem_nil _) rfl

theorem enclose (left right : Char) (inside : Text.Balanced body)
    (kind : Text.partner? left = some right) : IsSpelled (left :: (body ++ [right])) := by
  have opening := Text.opens_of_partner? kind
  have closing := Text.closes_of_partner? kind
  have first : Text.Tight [left] := .singleton (Text.isBlank_of_opens opening)
  have last : Text.Tight [right] := .singleton (Text.isBlank_of_closes closing)
  refine ⟨first.enclose last body, inside.enclose kind, inside.nested.enclose ?_ opening closing⟩
  constructor
  · rintro rfl
    cases opening
  · rintro rfl
    cases opening

theorem apply (base : IsSpelled text) (inside : Text.Balanced body) :
    IsSpelled (text ++ '<' :: (body ++ ['>'])) :=
  base.append (.enclose '<' '>' inside rfl)

theorem of_isIdentifier (valid : isIdentifier text = true) : IsSpelled text where
  tight := tight_of_isIdentifier valid
  balanced := .of_flat (Text.flat_of_isIdentifier valid)
  apart := (Text.Nested.of_isIdentifier valid).mono fun _ inside =>
    ⟨ne_of_isIdentifierChar inside rfl, ne_of_isIdentifierChar inside rfl⟩

end IsSpelled

/-- Names are identifiers, and spelled texts can stand in lists. -/
def Spelling.KeepsApart (spelling : Spelling) : Prop :=
  spelling.Keeps (fun name => isIdentifier name.toList = true) fun text => IsSpelled text.toList

private theorem balanced_entries {fields : List (String × String)} (separator : String)
    (between : Text.Balanced separator.toList)
    (each : ∀ field ∈ fields, IsSpelled field.1.toList ∧ IsSpelled field.2.toList) :
    Text.Balanced (separator.intercalate
      (fields.map fun field => field.1 ++ ": " ++ field.2)).toList := by
  rw [String.toList_intercalate, List.map_map]
  refine .intercalate between (List.forall_mem_map.mpr fun field member => ?_)
  obtain ⟨name, type⟩ := each field member
  have entry := name.join [':', ' '] type (by simp) rfl
  simpa using entry.balanced

private theorem balanced_types {fields : List (String × String)}
    (each : ∀ field ∈ fields, IsSpelled field.1.toList ∧ IsSpelled field.2.toList) :
    Text.Balanced (", ".intercalate (fields.map Prod.snd)).toList := by
  rw [String.toList_intercalate, List.map_map]
  exact .intercalate (.of_marks rfl) (List.forall_mem_map.mpr fun field member =>
    (each field member).2.balanced)

private theorem balanced_pair {key value : List Char} (first : IsSpelled key)
    (second : IsSpelled value) (separator : List Char)
    (flat : (separator.all fun c => !Text.opens c && !Text.closes c) = true) :
    Text.Balanced (key ++ (separator ++ value)) :=
  first.balanced.append ((Text.Balanced.of_marks flat).append second.balanced)

theorem TypeScript.keepsApart : TypeScript.spelling.KeepsApart where
  primitive leaf := by
    cases leaf <;> exact .of_isIdentifier rfl
  name valid := .of_isIdentifier valid
  array element := by
    have pair : IsSpelled ['[', ']'] := .enclose '[' ']' .nil rfl
    simpa [spelling] using element.append pair
  map key value := by
    have base : IsSpelled "Record".toList := .of_isIdentifier rfl
    simpa [spelling] using base.apply (balanced_pair key value [',', ' '] rfl)
  record each := by
    simp only [spelling, TypeScript.record]
    split
    · exact .enclose '{' '}' .nil rfl
    · have space : Text.Balanced [' '] := .of_marks rfl
      have inside := space.append ((balanced_entries "; " (.of_marks rfl) each).append space)
      simpa using IsSpelled.enclose '{' '}' inside rfl
  optional type := by
    have word : IsSpelled "undefined".toList := .of_isIdentifier rfl
    simpa [spelling] using type.join [' ', '|', ' '] word (by simp) rfl
  generic base argument := by
    simpa using base.apply argument.balanced

theorem Swift.keepsApart : Swift.spelling.KeepsApart where
  primitive leaf := by
    cases leaf <;> exact .of_isIdentifier rfl
  name valid := by
    have name := IsSpelled.of_isIdentifier valid
    have quote : IsSpelled ['`'] :=
      ⟨.singleton (by decide), .of_marks rfl, .of_marks (by simp) rfl⟩
    simp only [spelling, Swift.identifier]
    split
    · simpa using quote.append (name.append quote)
    · exact name
  array element := by
    simpa [spelling] using IsSpelled.enclose '[' ']' element.balanced rfl
  map key value := by
    have inside := balanced_pair key value [':', ' '] rfl
    simpa [spelling] using IsSpelled.enclose '[' ']' inside rfl
  record each := by
    simp only [spelling]
    unfold Swift.record
    split
    · exact (List.forall_mem_singleton.mp each).2
    · have inside := balanced_entries ", " (.of_marks rfl) each
      simpa using IsSpelled.enclose '(' ')' inside rfl
  optional type := by
    have mark : IsSpelled ['?'] :=
      ⟨.singleton (by decide), .of_marks rfl, .of_marks (by simp) rfl⟩
    simpa [spelling] using type.append mark
  generic base argument := by
    simpa using base.apply argument.balanced

theorem Rust.keepsApart : Rust.spelling.KeepsApart where
  primitive leaf := by
    cases leaf with
    | void => exact .enclose '(' ')' .nil rfl
    | any =>
      have base : IsSpelled "Box".toList := .of_isIdentifier rfl
      have inside : Text.Balanced "dyn std::any::Any".toList := .of_marks rfl
      exact base.apply inside
    | _ => exact .of_isIdentifier rfl
  name valid := by
    have name := IsSpelled.of_isIdentifier valid
    have ending : IsSpelled ['_'] :=
      ⟨.singleton (by decide), .of_marks rfl, .of_marks (by simp) rfl⟩
    have raw : IsSpelled ['r', '#'] :=
      ⟨⟨⟨_, rfl, rfl⟩, ⟨_, rfl, rfl⟩⟩, .of_marks rfl, .of_marks (by simp) rfl⟩
    simp only [spelling, Rust.identifier]
    split
    · simpa using name.append ending
    · split
      · simpa using raw.append name
      · exact name
  array element := by
    have base : IsSpelled "Vec".toList := .of_isIdentifier rfl
    simpa [spelling] using base.apply element.balanced
  map key value := by
    have base : IsSpelled "std::collections::HashMap".toList :=
      ⟨⟨⟨_, rfl, rfl⟩, ⟨_, rfl, rfl⟩⟩, .of_marks rfl, .of_marks (by simp) rfl⟩
    simpa [spelling] using base.apply (balanced_pair key value [',', ' '] rfl)
  record each := by
    simp only [spelling]
    unfold Rust.record
    split
    · have comma : Text.Balanced [','] := .of_marks rfl
      have only := (List.forall_mem_singleton.mp each).2.balanced.append comma
      simpa using IsSpelled.enclose '(' ')' only rfl
    · simpa using IsSpelled.enclose '(' ')' (balanced_types each) rfl
  optional type := by
    have base : IsSpelled "Option".toList := .of_isIdentifier rfl
    simpa [spelling] using base.apply type.balanced
  generic base argument := by
    simpa using base.apply argument.balanced

/-- A field with a valid name and type can stand in a list. -/
theorem Spelling.isSpelled_field {spelling : Spelling} (keeps : spelling.KeepsApart) {field : Field}
    (names : field.EachName fun name => isIdentifier name.toList = true) :
    IsSpelled (field.spell spelling).toList := by
  have name := keeps.name names.1
  have type := keeps.spellType names
  simpa [Field.spell] using name.join [':', ' '] type (by simp) rfl

namespace Target

theorem keepsApart : (target : Target) → target.spelling.KeepsApart
  | .typeScript => TypeScript.keepsApart
  | .swift => Swift.keepsApart
  | .rust => Rust.keepsApart

/-- Whatever the target, a spelled type with valid names is not empty and stays on one line, its
brackets are nested kind by kind, and it has no comma or semicolon outside of them. So splitting a
list of spelled parameters at its commas gives the parameters back. -/
theorem spell_apart (target : Target) :
    (∀ type : TypeExpr, type.EachName (fun name => isIdentifier name.toList = true) →
      let text := (type.spell target.spelling).toList
      text ≠ [] ∧ '\n' ∉ text ∧ Text.isBalanced text = true ∧
        Text.Nested (fun c => c ≠ ',' ∧ c ≠ ';') text) ∧
    ∀ fields : List Field, fields ≠ [] →
      (∀ field ∈ fields, field.EachName fun name => isIdentifier name.toList = true) →
      Text.splitTop ',' (target.spelling.parameters fields).toList =
        fields.map fun field => (field.spell target.spelling).toList := by
  constructor
  · intro type names text
    have spelled : IsSpelled text := target.keepsApart.spell names
    have unbroken : '\n' ∉ text :=
      target.keeps_unbroken.spell (names.mono fun _ => unbroken_of_isIdentifier)
    exact ⟨spelled.tight.ne_nil, unbroken, spelled.balanced.isBalanced, spelled.apart⟩
  · intro fields nonempty names
    have items : ∀ item ∈ fields.map fun field => (field.spell target.spelling).toList,
        Text.IsItem item := by
      refine List.forall_mem_map.mpr fun field member => ?_
      have spelled := Spelling.isSpelled_field target.keepsApart (names field member)
      exact ⟨spelled.tight, spelled.apart.mono fun _ other => other.1⟩
    have split := Text.splitTop_intercalate (by simpa using nonempty) items Text.blank_nil
      Text.blank_nil
    rw [Spelling.parameters, String.toList_intercalate, List.map_map]
    simpa [Function.comp_def] using split

/-- Tuples in tuples, a tuple of one and a primitive with brackets of its own. -/
theorem spell_apart_tuples :
    let pair : TypeExpr := .record [⟨"type", .map (.primitive .string) (.primitive .any), true⟩,
      ⟨"rest", .record [⟨"one", .primitive .void, false⟩], false⟩]
    let fields : List Field := [⟨"self", pair, true⟩, ⟨"x", .array (.named "Self"), false⟩]
    Text.isBalanced (pair.spell Rust.spelling).toList = true ∧
    (∀ field ∈ fields, field.EachName fun name => isIdentifier name.toList = true) ∧
    Text.splitTop ',' (Rust.spelling.parameters fields).toList =
      ["self_: Option<(Option<std::collections::HashMap<String, Box<dyn std::any::Any>>>, ((),))>",
        "x: Vec<Self_>"].map String.toList := by
  intro pair fields
  have names : ∀ field ∈ fields, field.EachName fun name => isIdentifier name.toList = true := by
    simp only [fields, pair, List.forall_mem_cons, Field.EachName, TypeExpr.eachName_record,
      TypeExpr.eachName_map, TypeExpr.eachName_array, TypeExpr.eachName_named,
      TypeExpr.eachName_primitive, List.not_mem_nil, false_implies, implies_true]
    decide
  obtain ⟨types, parameters⟩ := spell_apart .rust
  refine ⟨(types pair (names _ List.mem_cons_self).2).2.2.1, names, ?_⟩
  exact parameters fields (List.cons_ne_nil _ _) names

end Target
end PolySchema
