import PolySchema.Proofs.Document.ResolvedNames
import PolySchema.Proofs.Output.Layout
import PolySchema.Proofs.Target.Shape

namespace PolySchema

/-- The text stays on one line. -/
def Unbroken (text : String) : Prop := '\n' ∉ text.toList

instance (text : String) : Decidable (Unbroken text) :=
  inferInstanceAs (Decidable ('\n' ∉ text.toList))

@[simp] theorem unbroken_append {first second : String} :
    Unbroken (first ++ second) ↔ Unbroken first ∧ Unbroken second := by
  simp [Unbroken]

theorem unbroken_of_isIdentifier {name : String} (valid : isIdentifier name.toList = true) :
    Unbroken name :=
  not_mem_of_isIdentifier valid rfl

theorem isLine_of_unbroken {text : String} (nonempty : text ≠ "") (unbroken : Unbroken text) :
    Text.IsLine text.toList :=
  ⟨fun empty => nonempty (String.toList_eq_nil_iff.mp empty), unbroken⟩

theorem unbroken_intercalate {separator : String} {texts : List String}
    (between : Unbroken separator) (each : ∀ text ∈ texts, Unbroken text) :
    Unbroken (separator.intercalate texts) := by
  rw [Unbroken, String.toList_intercalate]
  exact Text.not_mem_intercalate between (List.forall_mem_map.mpr each)

theorem Settings.unbroken_visibility (settings : Settings) (keyword : String)
    (plain : Unbroken keyword) : Unbroken (settings.visibility keyword) := by
  unfold Settings.visibility
  split
  · exact unbroken_append.mpr ⟨plain, by decide⟩
  · decide

section

variable {fields : List (String × String)}
  (each : ∀ field ∈ fields, Unbroken field.1 ∧ Unbroken field.2)

include each

private theorem unbroken_entries (separator : String) (between : Unbroken separator) :
    Unbroken (separator.intercalate (fields.map fun field => field.1 ++ ": " ++ field.2)) := by
  refine unbroken_intercalate between (List.forall_mem_map.mpr fun field member => ?_)
  obtain ⟨name, type⟩ := each field member
  simp +decide [name, type]

private theorem unbroken_types (separator : String) (between : Unbroken separator) :
    Unbroken (separator.intercalate (fields.map Prod.snd)) :=
  unbroken_intercalate between (List.forall_mem_map.mpr fun field member => (each field member).2)

end

theorem TypeScript.keeps_unbroken : TypeScript.spelling.Keeps Unbroken Unbroken where
  primitive leaf := by cases leaf <;> decide
  name plain := plain
  array element := by simp +decide [spelling, element]
  map key value := by simp +decide [spelling, key, value]
  record each := by
    simp only [spelling, TypeScript.record]
    split
    · decide
    · have inside := unbroken_entries each "; " (by decide)
      simp +decide [inside]
  optional type := by simp +decide [spelling, type]
  generic base argument := by simp +decide [base, argument]

theorem Swift.keeps_unbroken : Swift.spelling.Keeps Unbroken Unbroken where
  primitive leaf := by cases leaf <;> decide
  name plain := by
    simp only [spelling, Swift.identifier]
    split
    · simp +decide [plain]
    · exact plain
  array element := by simp +decide [spelling, element]
  map key value := by simp +decide [spelling, key, value]
  record each := by
    simp only [spelling]
    unfold Swift.record
    split
    · exact (List.forall_mem_singleton.mp each).2
    · have inside := unbroken_entries each ", " (by decide)
      simp +decide [inside]
  optional type := by simp +decide [spelling, type]
  generic base argument := by simp +decide [base, argument]

theorem Rust.keeps_unbroken : Rust.spelling.Keeps Unbroken Unbroken where
  primitive leaf := by cases leaf <;> decide
  name plain := by
    simp only [spelling, Rust.identifier]
    split
    · simp +decide [plain]
    · split
      · simp +decide [plain]
      · exact plain
  array element := by simp +decide [spelling, element]
  map key value := by simp +decide [spelling, key, value]
  record each := by
    simp only [spelling]
    unfold Rust.record
    split
    · have only := (List.forall_mem_singleton.mp each).2
      simp +decide [only]
    · have inside := unbroken_types each ", " (by decide)
      simp +decide [inside]
  optional type := by simp +decide [spelling, type]
  generic base argument := by simp +decide [base, argument]

namespace Spelling

variable {spelling : Spelling} (keeps : spelling.Keeps Unbroken Unbroken)

include keeps

theorem unbroken_field {field : Field} (names : field.EachName Unbroken) :
    Unbroken (field.spell spelling) := by
  have name := keeps.name names.1
  have type := keeps.spellType names
  simp +decide [Field.spell, name, type]

theorem unbroken_parameters {fields : List Field}
    (names : ∀ field ∈ fields, field.EachName Unbroken) :
    Unbroken (spelling.parameters fields) :=
  unbroken_intercalate (by decide) (List.forall_mem_map.mpr fun field member =>
    unbroken_field keeps (names field member))

theorem unbroken_typeParameters {parameters : List String}
    (names : ∀ parameter ∈ parameters, Unbroken parameter) :
    Unbroken (spelling.typeParameters parameters) := by
  unfold Spelling.typeParameters
  split
  · decide
  · have inside : Unbroken (", ".intercalate (parameters.map spelling.name)) :=
      unbroken_intercalate (by decide) (List.forall_mem_map.mpr fun parameter member =>
        keeps.name (names parameter member))
    simp +decide [inside]

end Spelling

/-- No line of a snippet is empty or breaks. The header and the ending stand beside a brace, so they
may be empty. -/
def Snippet.Plain : Snippet → Prop
  | .line text => Text.IsLine text.toList
  | .block attributes header members ending =>
    (∀ line ∈ attributes, Text.IsLine line.toList) ∧ Unbroken header ∧
      (∀ member ∈ members, Text.IsLine member.toList) ∧ Unbroken ending

theorem Snippet.Plain.isLine {snippet : Snippet} (plain : snippet.Plain) {indent : String}
    (margin : Unbroken indent) : ∀ line ∈ snippet.lines indent, Text.IsLine line.toList := by
  cases snippet with
  | line text => exact List.forall_mem_singleton.mpr plain
  | block attributes header members ending =>
    obtain ⟨above, head, inside, tail⟩ := plain
    rw [Snippet.lines]
    split
    · refine List.forall_mem_append.mpr ⟨above, List.forall_mem_singleton.mpr ?_⟩
      exact isLine_of_unbroken (by simp) (by simp +decide [head, tail])
    · simp only [List.forall_mem_append, List.forall_mem_singleton, List.forall_mem_map]
      refine ⟨⟨⟨above, ?_⟩, ?_⟩, ?_⟩
      · exact isLine_of_unbroken (by simp) (by simp +decide [head])
      · intro member present
        obtain ⟨nonempty, unbroken⟩ := inside member present
        exact isLine_of_unbroken (by simp_all) (unbroken_append.mpr ⟨margin, unbroken⟩)
      · exact isLine_of_unbroken (by simp) (by simp +decide [tail])

theorem Snippet.lines_ne_nil (snippet : Snippet) (indent : String) : snippet.lines indent ≠ [] := by
  cases snippet with
  | line text => exact List.cons_ne_nil _ _
  | block attributes header members ending =>
    rw [Snippet.lines]
    split <;> simp

/-- Joined lines come back when their text is split. -/
theorem splitOn_intercalate_lines {lines : List String} (nonempty : lines ≠ [])
    (each : ∀ line ∈ lines, Text.IsLine line.toList) :
    ("\n".intercalate lines).toList.splitOn '\n' = lines.map String.toList := by
  rw [String.toList_intercalate]
  refine List.splitOn_intercalate '\n' ?_ (mt List.map_eq_nil_iff.mp nonempty)
  exact List.forall_mem_map.mpr fun line member => (each line member).unbroken

namespace Target

theorem keeps_unbroken : (target : Target) → target.spelling.Keeps Unbroken Unbroken
  | .typeScript => TypeScript.keeps_unbroken
  | .swift => Swift.keeps_unbroken
  | .rust => Rust.keeps_unbroken

theorem isLine_fieldLine (settings : Settings) (target : Target) {field : Field}
    (names : field.EachName Unbroken) : Text.IsLine (target.fieldLine settings field).toList := by
  cases target with
  | typeScript =>
    have spelled := Spelling.unbroken_field TypeScript.keeps_unbroken names
    exact isLine_of_unbroken (by simp [fieldLine, TypeScript.property])
      (unbroken_append.mpr ⟨spelled, by decide⟩)
  | swift =>
    have spelled := Spelling.unbroken_field Swift.keeps_unbroken names
    have visibility := settings.unbroken_visibility "public" (by decide)
    exact isLine_of_unbroken (by simp [fieldLine, Swift.property])
      (by simp +decide [fieldLine, Swift.property, visibility, spelled])
  | rust =>
    have spelled := Spelling.unbroken_field Rust.keeps_unbroken names
    have visibility := settings.unbroken_visibility "pub" (by decide)
    exact isLine_of_unbroken (by simp [fieldLine])
      (by simp +decide [fieldLine, visibility, spelled])

end Target

theorem Swift.isLine_signature {decl : FunctionDef} (names : decl.EachName Unbroken) :
    Text.IsLine
      (signature decl.name decl.typeParameters decl.parameters decl.returnType).toList := by
  have name : Unbroken (identifier decl.name) := Swift.keeps_unbroken.name names.name
  have typeParameters := Spelling.unbroken_typeParameters Swift.keeps_unbroken names.typeParameters
  have parameters := Spelling.unbroken_parameters Swift.keeps_unbroken names.parameters
  have result := Swift.keeps_unbroken.spell names.returnType
  exact isLine_of_unbroken (by simp [signature])
    (by simp +decide [signature, name, typeParameters, parameters, result])

theorem Rust.unbroken_returnClause {type : TypeExpr} (names : type.EachName Unbroken) :
    Unbroken (returnClause type) := by
  have spelled := Rust.keeps_unbroken.spell names
  unfold returnClause
  split
  · decide
  · simp +decide [spelled]

namespace Target

theorem isLine_methodLine (target : Target) {method : Method}
    (names : method.signature.EachName Unbroken) :
    Text.IsLine (target.methodLine method).toList := by
  have own : Unbroken method.name := names.name
  have inside : ∀ parameter ∈ method.parameters, parameter.EachName Unbroken := names.parameters
  have type : method.returnType.EachName Unbroken := names.returnType
  cases target with
  | typeScript =>
    have parameters := Spelling.unbroken_parameters TypeScript.keeps_unbroken inside
    have result := TypeScript.keeps_unbroken.spell type
    exact isLine_of_unbroken (by simp [methodLine, TypeScript.method])
      (by simp +decide [methodLine, TypeScript.method, own, parameters, result])
  | swift =>
    have line := Swift.isLine_signature names
    exact line
  | rust =>
    have name : Unbroken (Rust.identifier method.name) := Rust.keeps_unbroken.name own
    have parameters : Unbroken (", ".intercalate ("&self" ::
        method.parameters.map (Field.spell Rust.spelling))) :=
      unbroken_intercalate (by decide) (List.forall_mem_cons.mpr ⟨by decide,
        List.forall_mem_map.mpr fun field member =>
          Spelling.unbroken_field Rust.keeps_unbroken (inside field member)⟩)
    have result := Rust.unbroken_returnClause type
    exact isLine_of_unbroken (by simp [methodLine, Rust.method])
      (by simp +decide [methodLine, Rust.method, name, parameters, result])

theorem isLine_of_members? (settings : Settings) (target : Target) {item : ResolvedItem}
    {members : List String} (names : item.EachName Unbroken)
    (found : target.members? settings item = some members) :
    ∀ member ∈ members, Text.IsLine member.toList := by
  rcases item with decl | decl | decl | ⟨name, type⟩
  · cases found
    exact List.forall_mem_map.mpr fun field member =>
      target.isLine_fieldLine settings (names.2 field member)
  · cases found
    exact List.forall_mem_map.mpr fun method member =>
      target.isLine_methodLine (names.2.2 method member)
  · cases found
  · cases type with
    | record fields =>
      cases found
      exact List.forall_mem_map.mpr fun field member =>
        target.isLine_fieldLine settings (TypeExpr.eachName_record.mp names.2 field member)
    | _ => cases found

variable {settings : Settings} {target : Target} {item : ResolvedItem} {snippet : Snippet}

theorem isLine_of_mem_attributes (derives : ∀ trait ∈ settings.derives, Unbroken trait) :
    ∀ line ∈ target.attributes settings item, Text.IsLine line.toList := by
  have attribution : ∀ line ∈ Rust.deriveAttribute settings.derives, Text.IsLine line.toList := by
    unfold Rust.deriveAttribute
    split
    · exact List.forall_mem_nil _
    · have inside : Unbroken (", ".intercalate settings.derives) :=
        unbroken_intercalate (by decide) derives
      exact List.forall_mem_singleton.mpr
        (isLine_of_unbroken (by simp) (by simp +decide [inside]))
  unfold attributes
  split
  · exact attribution
  · exact attribution
  · exact List.forall_mem_nil _

theorem unbroken_headerEnd (names : item.EachName Unbroken) : Unbroken (target.headerEnd item) := by
  unfold headerEnd
  split
  · next decl =>
    cases named : decl.parent with
    | none => exact List.not_mem_nil
    | some parent =>
      have mark : Unbroken target.parentMark := by cases target <;> decide
      exact unbroken_append.mpr ⟨mark, target.keeps_unbroken.name (names.2.1 parent named)⟩
  · decide
  · decide

theorem unbroken_header (names : item.EachName Unbroken) :
    Unbroken (target.header settings item) := by
  have visibility := settings.unbroken_visibility target.visibilityWord (by cases target <;> decide)
  have word : Unbroken (target.blockWord item) := by
    unfold blockWord
    split <;> decide
  have own : Unbroken item.name := by
    rcases item with decl | decl | decl | decl
    · exact names.1
    · exact names.1
    · exact names.name
    · exact names.1
  have name := target.keeps_unbroken.name own
  simp [header, visibility, word, name, unbroken_headerEnd names]

private theorem plain_function {decl : FunctionDef} (names : decl.EachName Unbroken)
    (rendered : target.render settings (.function decl) = some snippet) : snippet.Plain := by
  cases target with
  | typeScript => cases rendered
  | swift =>
    cases rendered
    have visibility := settings.unbroken_visibility "public" (by decide)
    have line := Swift.isLine_signature names
    exact isLine_of_unbroken (by simp [Swift.signature])
      (unbroken_append.mpr ⟨visibility, line.unbroken⟩)
  | rust =>
    cases rendered
    have visibility := settings.unbroken_visibility "pub" (by decide)
    have name : Unbroken (Rust.identifier decl.name) := Rust.keeps_unbroken.name names.name
    have typeParameters := Spelling.unbroken_typeParameters Rust.keeps_unbroken names.typeParameters
    have parameters := Spelling.unbroken_parameters Rust.keeps_unbroken names.parameters
    have result := Rust.unbroken_returnClause names.returnType
    exact isLine_of_unbroken (by simp)
      (by simp +decide [visibility, name, typeParameters, parameters, result])

private theorem plain_alias {decl : AliasDef} (own : Unbroken decl.name)
    (names : decl.type.EachName Unbroken) (bare : decl.type.fields? = none)
    (rendered : target.render settings (.alias decl) = some snippet) : snippet.Plain := by
  rw [target.render_alias settings bare] at rendered
  cases rendered
  have visibility := settings.unbroken_visibility target.visibilityWord (by cases target <;> decide)
  have word : Unbroken target.aliasWord := by cases target <;> decide
  have name := target.keeps_unbroken.name own
  have type := target.keeps_unbroken.spell names
  have tail : Unbroken target.lineEnd := by cases target <;> decide
  exact isLine_of_unbroken (by simp) (by simp +decide [visibility, word, name, type, tail])

/-- No snippet of a declaration has an empty or a broken line. -/
theorem plain_render (derives : ∀ trait ∈ settings.derives, Unbroken trait)
    (names : item.EachName Unbroken) (rendered : target.render settings item = some snippet) :
    snippet.Plain := by
  cases found : target.members? settings item with
  | some members =>
    rw [target.render_of_members? settings found] at rendered
    cases rendered
    refine ⟨isLine_of_mem_attributes derives, unbroken_header names,
      isLine_of_members? settings target names found, ?_⟩
    unfold ending
    split <;> decide
  | none =>
    rcases item with decl | decl | decl | decl
    · cases found
    · cases found
    · exact plain_function names rendered
    · exact plain_alias names.1 names.2 (Option.map_eq_none_iff.mp found) rendered

end Target

end PolySchema
