import PolySchema.Proofs.Output.Losses
import PolySchema.Proofs.Target.Spelling
import PolySchema.Proofs.Text.Cut

namespace PolySchema

namespace Target

/-- The spelled type has the target's sign of a value that may be missing. -/
def IsMarked (target : Target) (text : String) : Prop :=
  match target with
  | typeScript => " | undefined".toList <:+ text.toList
  | swift => "?".toList <:+ text.toList
  | rust => "Option<".toList <+: text.toList

instance (target : Target) (text : String) : Decidable (target.IsMarked text) :=
  match target with
  | typeScript => inferInstanceAs (Decidable (" | undefined".toList <:+ text.toList))
  | swift => inferInstanceAs (Decidable ("?".toList <:+ text.toList))
  | rust => inferInstanceAs (Decidable ("Option<".toList <+: text.toList))

theorem isMarked_optional (target : Target) (text : String) :
    target.IsMarked (target.spelling.optional text) := by
  cases target with
  | typeScript => simp [IsMarked, spelling, TypeScript.spelling]
  | swift => simp [IsMarked, spelling, Swift.spelling]
  | rust => simp [IsMarked, spelling, Rust.spelling]

theorem isMarked_spellType (target : Target) (field : Field) :
    target.IsMarked (field.spellType target.spelling) ↔
      field.optional = true ∨ target.IsMarked (field.type.spell target.spelling) := by
  rw [Field.spellType, Spelling.marked]
  cases field.optional with
  | false => simp
  | true => simpa using target.isMarked_optional _

end Target

private theorem not_ends (text closing : String) {ending : List Char} {c d : Char}
    (last : closing.toList.getLast? = some c) (other : ending.getLast? = some d)
    (different : c ≠ d) : ¬ ending <:+ (text ++ closing).toList := by
  have last' : (text ++ closing).toList.getLast? = some c := by
    rw [String.toList_append, List.getLast?_append, last, Option.some_or]
  exact Text.dropEnding?_eq_none_iff.mp (Text.dropEnding?_of_last last' other different)

theorem Swift.spell_single (field : Field) :
    (TypeExpr.record [field]).spell spelling = field.spellType spelling := by
  rw [TypeExpr.spell, Field.spellAll_eq_map]
  rfl

theorem Rust.identifier_eq_option {name : String} :
    identifier name = "Option" ↔ name = "Option" := by
  unfold identifier
  split
  · next path =>
    have renamed : name ++ "_" ≠ "Option" := fun same => by
      have last := congrArg (·.toList.getLast?) same
      simp at last
    have other : name ≠ "Option" := fun same => by simp [same, pathKeywords] at path
    exact iff_of_false renamed other
  · split
    · next reserved =>
      have raw : "r#" ++ name ≠ "Option" := fun same => by
        have first := congrArg (·.toList.head?) same
        simp at first
      have other : name ≠ "Option" := fun same => by simp [same, keywords] at reserved
      exact iff_of_false raw other
    · exact Iff.rfl

theorem Rust.angle_not_mem_identifier {name : String} (valid : isIdentifier name.toList = true) :
    '<' ∉ (identifier name).toList := by
  have absent := not_mem_of_isIdentifier (c := '<') valid rfl
  unfold identifier
  split
  · simpa using absent
  · split
    · simpa using absent
    · exact absent

section

variable {type : TypeExpr} (names : type.EachName fun name => isIdentifier name.toList = true)

include names

theorem TypeScript.not_isMarked_spell : ¬ Target.typeScript.IsMarked (type.spell spelling) := by
  cases type with
  | primitive leaf => cases leaf <;> decide
  | named name =>
    intro ends
    have absent := not_mem_of_isIdentifier (c := ' ') (TypeExpr.eachName_named.mp names) rfl
    exact absent (ends.subset (by decide))
  | array element => exact not_ends _ "[]" rfl rfl (by decide)
  | map key value => exact not_ends _ ">" rfl rfl (by decide)
  | record fields =>
    simp only [TypeExpr.spell, spelling, record]
    split
    · decide
    · exact not_ends _ " \x7d" rfl rfl (by decide)
  | generic base argument => exact not_ends _ ">" rfl rfl (by decide)

/-- In Swift the sign of an only field becomes that of its record. -/
theorem Swift.isMarked_spell_iff :
    Target.swift.IsMarked (type.spell spelling) ↔ ∃ field, type = .record [field] ∧
      (field.optional = true ∨ Target.swift.IsMarked (field.type.spell spelling)) := by
  constructor
  · intro ends
    cases type with
    | primitive leaf => cases leaf <;> exact absurd ends (by decide)
    | named name =>
      have absent := not_mem_of_isIdentifier (c := '?') (TypeExpr.eachName_named.mp names) rfl
      simp only [Target.IsMarked, TypeExpr.spell, spelling, identifier] at ends
      split at ends
      · exact absurd ends (not_ends _ "`" rfl rfl (by decide))
      · exact absurd (ends.subset (by decide)) absent
    | array element => exact absurd ends (not_ends _ "]" rfl rfl (by decide))
    | map key value => exact absurd ends (not_ends _ "]" rfl rfl (by decide))
    | record fields =>
      rcases fields with _ | ⟨only, _ | ⟨second, rest⟩⟩
      · exact absurd ends (by decide)
      · rw [spell_single] at ends
        exact ⟨only, rfl, (Target.isMarked_spellType .swift only).mp ends⟩
      · rw [TypeExpr.spell, Field.spellAll_eq_map] at ends
        exact absurd ends (not_ends _ ")" rfl rfl (by decide))
    | generic base argument => exact absurd ends (not_ends _ ">" rfl rfl (by decide))
  · rintro ⟨field, rfl, sign⟩
    rw [spell_single]
    exact (Target.isMarked_spellType .swift field).mpr sign

/-- In Rust the sign is a type of its own, which a document can name as any other. -/
theorem Rust.isMarked_spell_iff :
    Target.rust.IsMarked (type.spell spelling) ↔ ∃ argument, type = .generic "Option" argument := by
  constructor
  · rintro ⟨rest, whole⟩
    cases type with
    | primitive leaf => cases leaf <;> simp [TypeExpr.spell, spelling, primitive] at whole
    | named name =>
      have absent := angle_not_mem_identifier (TypeExpr.eachName_named.mp names)
      have member : '<' ∈ ((TypeExpr.named name).spell spelling).toList := by
        rw [← whole]
        simp
      exact absurd member absent
    | array element => simp [TypeExpr.spell, spelling] at whole
    | map key value => simp [TypeExpr.spell, spelling] at whole
    | record fields =>
      simp only [TypeExpr.spell, spelling] at whole
      unfold record at whole
      split at whole <;> simp at whole
    | generic base argument =>
      have absent := angle_not_mem_identifier (TypeExpr.eachName_generic.mp names).1
      have same : "Option".toList ++ '<' :: rest =
          (identifier base).toList ++ '<' :: ((argument.spell spelling).toList ++ ['>']) := by
        simpa [TypeExpr.spell, spelling] using whole
      have cut := Text.cutFirst?_append (by decide : '<' ∉ "Option".toList) rest
      rw [same, Text.cutFirst?_append absent, Option.some.injEq, Prod.mk.injEq] at cut
      have base : base = "Option" := identifier_eq_option.mp (String.toList_inj.mp cut.1)
      exact ⟨argument, by rw [base]⟩
  · rintro ⟨argument, rfl⟩
    have name : spelling.name "Option" = "Option" := identifier_eq_option.mpr rfl
    rw [Target.IsMarked, TypeExpr.spell, name]
    simp

/-- A type as such has no sign in TypeScript. In Swift it has one only as a record of one field
that has it, which is then reported for every declaration that the type stands in. In Rust it has
one only if it is declared with it. A field has the sign of every target when it is optional, and
otherwise the sign of its type. -/
theorem Target.isMarked_spell_cases :
    ¬ typeScript.IsMarked (type.spell TypeScript.spelling) ∧
    (swift.IsMarked (type.spell Swift.spelling) ↔ ∃ field, type = .record [field] ∧
      (field.optional = true ∨ swift.IsMarked (field.type.spell Swift.spelling))) ∧
    (swift.IsMarked (type.spell Swift.spelling) → swift.approximates type = true ∧
      ∀ (settings : Settings) (resolution : Resolution), ∀ item ∈ resolution.items,
        type ∈ item.types.flatMap TypeExpr.subexpressions →
        ⟨.approximatedType "Swift", none, item.title ++ ": " ++ type.print⟩ ∈
          (Output.ofResolution settings .swift resolution).diagnostics) ∧
    (rust.IsMarked (type.spell Rust.spelling) ↔ ∃ argument, type = .generic "Option" argument) ∧
    ∀ (target : Target) (field : Field), field.type = type →
      (target.IsMarked (field.spellType target.spelling) ↔
        field.optional = true ∨ target.IsMarked (type.spell target.spelling)) := by
  refine ⟨TypeScript.not_isMarked_spell names, Swift.isMarked_spell_iff names, fun sign => ?_,
    Rust.isMarked_spell_iff names, ?_⟩
  · obtain ⟨field, rfl, _⟩ := (Swift.isMarked_spell_iff names).mp sign
    refine ⟨rfl, fun settings resolution item member inside => ?_⟩
    refine List.mem_append_right _ (List.mem_flatMap.mpr ⟨item, member, ?_⟩)
    rw [Output.losses_swift]
    exact List.mem_map.mpr ⟨_, List.mem_filter.mpr ⟨inside, rfl⟩, rfl⟩
  · rintro target field rfl
    exact target.isMarked_spellType field

end

/-- The sign of a field two records down. -/
theorem Target.isMarked_spell_cases_nested :
    let inner : TypeExpr := .record [⟨"count", .primitive .int32, true⟩]
    let outer : TypeExpr := .record [⟨"inner", inner, false⟩]
    let decl : FlatStruct := ⟨"Box", [], [⟨"content", outer, false⟩], 0⟩
    swift.IsMarked (outer.spell Swift.spelling) ∧
      ⟨.approximatedType "Swift", none, "struct Box: " ++ outer.print⟩ ∈
        (Output.ofResolution {} .swift ⟨[.struct decl], []⟩).diagnostics := by
  intro inner outer decl
  have names : outer.EachName fun name => isIdentifier name.toList = true := by
    simp only [outer, inner, TypeExpr.eachName_record, List.forall_mem_singleton, Field.EachName,
      TypeExpr.eachName_primitive]
    decide
  obtain ⟨_, leaks, reported, _⟩ := isMarked_spell_cases names
  have sign := leaks.mpr ⟨_, rfl, .inr (by decide)⟩
  have inside : outer ∈ (ResolvedItem.struct decl).types.flatMap TypeExpr.subexpressions :=
    List.mem_cons_self
  exact ⟨sign, (reported sign).2 {} ⟨[.struct decl], []⟩ _ List.mem_cons_self inside⟩

end PolySchema
