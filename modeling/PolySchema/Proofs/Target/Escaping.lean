import PolySchema.Proofs.Text.Cut
import PolySchema.Target.Rust
import PolySchema.Target.Swift

namespace PolySchema

variable {name first second : String}

/-- A text with a mark that no identifier has is different from every identifier. -/
theorem ne_of_marked {text : String} {mark : Char} (marked : mark ∈ text.toList)
    (foreign : isIdentifierChar mark = false) (valid : isIdentifier name.toList = true) :
    text ≠ name := by
  rintro rfl
  exact not_mem_of_isIdentifier valid foreign marked

namespace Swift

theorem isIdentifier_of_mem_keywords : ∀ word ∈ keywords, isIdentifier word.toList = true := by
  decide

theorem identifier_cases (name : String) :
    name ∈ keywords ∧ identifier name = "`" ++ name ++ "`" ∨
      name ∉ keywords ∧ identifier name = name := by
  by_cases reserved : name ∈ keywords
  · exact Or.inl ⟨reserved, by simp [identifier, reserved]⟩
  · exact Or.inr ⟨reserved, by simp [identifier, reserved]⟩

theorem quoted_ne (quoted : String) (valid : isIdentifier name.toList = true) :
    "`" ++ quoted ++ "`" ≠ name :=
  ne_of_marked (by simp : '`' ∈ ("`" ++ quoted ++ "`").toList) rfl valid

theorem identifier_not_mem_keywords (name : String) : identifier name ∉ keywords := by
  intro word
  rcases identifier_cases name with ⟨_, quoted⟩ | ⟨free, same⟩
  · exact quoted_ne name (isIdentifier_of_mem_keywords _ word) quoted.symm
  · rw [same] at word
    exact free word

theorem eq_of_identifier_eq (one : isIdentifier first.toList = true)
    (two : isIdentifier second.toList = true) (same : identifier first = identifier second) :
    first = second := by
  rcases identifier_cases first with ⟨_, left⟩ | ⟨_, left⟩
  · rcases identifier_cases second with ⟨_, right⟩ | ⟨_, right⟩
    · rw [left, right] at same
      simpa using same
    · rw [left, right] at same
      exact absurd same (quoted_ne first two)
  · rcases identifier_cases second with ⟨_, right⟩ | ⟨_, right⟩
    · rw [left, right] at same
      exact absurd same.symm (quoted_ne second one)
    · rwa [left, right] at same

end Swift

namespace Rust

theorem isIdentifier_of_mem_keywords : ∀ word ∈ keywords, isIdentifier word.toList = true := by
  decide

theorem mem_keywords_of_mem_pathKeywords : ∀ word ∈ pathKeywords, word ∈ keywords := by
  decide

theorem underscored_of_mem_pathKeywords :
    ∀ word ∈ pathKeywords, isIdentifier (word ++ "_").toList = true ∧ word ++ "_" ∉ keywords := by
  decide

theorem identifier_of_path (path : name ∈ pathKeywords) : identifier name = name ++ "_" := by
  simp [identifier, path]

theorem identifier_of_free (free : name ∉ keywords) : identifier name = name := by
  have other : name ∉ pathKeywords := fun path => free (mem_keywords_of_mem_pathKeywords name path)
  simp [identifier, other, free]

theorem identifier_cases (name : String) :
    name ∈ pathKeywords ∧ identifier name = name ++ "_" ∨
      name ∈ keywords ∧ identifier name = "r#" ++ name ∨
      name ∉ keywords ∧ identifier name = name := by
  by_cases path : name ∈ pathKeywords
  · exact Or.inl ⟨path, identifier_of_path path⟩
  · by_cases reserved : name ∈ keywords
    · exact Or.inr (Or.inl ⟨reserved, by simp [identifier, path, reserved]⟩)
    · exact Or.inr (Or.inr ⟨reserved, identifier_of_free reserved⟩)

theorem raw_ne (raw : String) (valid : isIdentifier name.toList = true) : "r#" ++ raw ≠ name :=
  ne_of_marked (by simp : '#' ∈ ("r#" ++ raw).toList) rfl valid

theorem identifier_not_mem_keywords (name : String) : identifier name ∉ keywords := by
  intro word
  rcases identifier_cases name with ⟨path, longer⟩ | ⟨_, raw⟩ | ⟨free, same⟩
  · rw [longer] at word
    exact (underscored_of_mem_pathKeywords name path).2 word
  · exact raw_ne name (isIdentifier_of_mem_keywords _ word) raw.symm
  · rw [same] at word
    exact free word

theorem eq_of_identifier_eq_raw {raw : String} (valid : isIdentifier name.toList = true)
    (same : identifier name = "r#" ++ raw) : name = raw := by
  rcases identifier_cases name with ⟨path, longer⟩ | ⟨_, own⟩ | ⟨_, plain⟩
  · rw [longer] at same
    exact absurd same.symm (raw_ne raw (underscored_of_mem_pathKeywords name path).1)
  · rw [own] at same
    simpa using same
  · rw [plain] at same
    exact absurd same.symm (raw_ne raw valid)

/-- Names become one only by an underscore. -/
theorem eq_or_underscored (one : isIdentifier first.toList = true)
    (two : isIdentifier second.toList = true) (same : identifier first = identifier second) :
    first = second ∨ ∃ word ∈ pathKeywords,
      first = word ∧ second = word ++ "_" ∨ second = word ∧ first = word ++ "_" := by
  -- A raw name is told by its mark. A path keyword can only meet a name that stays as it is.
  rcases identifier_cases first with ⟨path, left⟩ | ⟨_, left⟩ | ⟨_, left⟩
  · rcases identifier_cases second with ⟨_, right⟩ | ⟨_, right⟩ | ⟨_, right⟩
    · rw [left, right] at same
      exact Or.inl (by simpa using same)
    · exact Or.inl (eq_of_identifier_eq_raw one (same.trans right))
    · rw [left, right] at same
      exact Or.inr ⟨first, path, Or.inl ⟨rfl, same.symm⟩⟩
  · exact Or.inl (eq_of_identifier_eq_raw two (same.symm.trans left)).symm
  · rcases identifier_cases second with ⟨path, right⟩ | ⟨_, right⟩ | ⟨_, right⟩
    · rw [left, right] at same
      exact Or.inr ⟨second, path, Or.inr ⟨rfl, same⟩⟩
    · exact Or.inl (eq_of_identifier_eq_raw one (same.trans right))
    · rw [left, right] at same
      exact Or.inl same

theorem identifier_underscored {word : String} (path : word ∈ pathKeywords) :
    identifier word = identifier (word ++ "_") ∧ word ≠ word ++ "_" := by
  have free := (underscored_of_mem_pathKeywords word path).2
  constructor
  · rw [identifier_of_path path, identifier_of_free free]
  · intro same
    exact free (same ▸ mem_keywords_of_mem_pathKeywords word path)

end Rust

/-- Escaping keeps different names apart, and no escaped name is a keyword. In Rust alone, the four
keywords that no raw name can stand for are written like the names that end with the underscore. -/
theorem identifier_collisions {first second : String} (one : isIdentifier first.toList = true)
    (two : isIdentifier second.toList = true) :
    (Swift.identifier first = Swift.identifier second → first = second) ∧
    (Rust.identifier first = Rust.identifier second ∧ first ≠ second ↔
      ∃ word ∈ ["crate", "self", "super", "Self"],
        first = word ∧ second = word ++ "_" ∨ second = word ∧ first = word ++ "_") ∧
    Swift.identifier first ∉ Swift.keywords ∧ Rust.identifier first ∉ Rust.keywords := by
  refine ⟨Swift.eq_of_identifier_eq one two, ⟨?_, ?_⟩, Swift.identifier_not_mem_keywords first,
    Rust.identifier_not_mem_keywords first⟩
  · rintro ⟨same, different⟩
    exact (Rust.eq_or_underscored one two same).resolve_left different
  · rintro ⟨word, path, ⟨rfl, rfl⟩ | ⟨rfl, rfl⟩⟩
    · exact Rust.identifier_underscored path
    · obtain ⟨same, different⟩ := Rust.identifier_underscored path
      exact ⟨same.symm, different.symm⟩

/-- A field called `self` and one called `self_` are written alike. -/
theorem identifier_collisions_self :
    isIdentifier "self".toList = true ∧ isIdentifier "self_".toList = true ∧
      Rust.identifier "self" = Rust.identifier "self_" ∧ "self" ≠ "self_" ∧
      Swift.identifier "self" ∉ Swift.keywords ∧ Rust.identifier "self" ∉ Rust.keywords := by
  have one : isIdentifier "self".toList = true := rfl
  have two : isIdentifier "self_".toList = true := rfl
  obtain ⟨_, rust, keywords⟩ := identifier_collisions one two
  obtain ⟨same, different⟩ := rust.mpr ⟨"self", by decide, Or.inl ⟨rfl, rfl⟩⟩
  exact ⟨one, two, same, different, keywords⟩

end PolySchema
