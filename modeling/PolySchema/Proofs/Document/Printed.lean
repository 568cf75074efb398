import PolySchema.Proofs.Line
import PolySchema.Proofs.Signature
import PolySchema.Proofs.Statement

namespace PolySchema

theorem Field.unbroken_print_of {field : Field} (valid : isIdentifier field.name.toList = true)
    (type : '\n' ∉ field.type.print.toList) : '\n' ∉ field.print.toList := by
  have name : '\n' ∉ field.name.toList := not_mem_of_isIdentifier valid rfl
  have mark : '\n' ∉ FieldText.mark field.optional := by cases field.optional <;> decide
  rw [Field.toList_print]
  simp [name, type, mark]

theorem TypeExpr.unbroken_print {type : TypeExpr} (writable : type.isWritable = true) :
    '\n' ∉ type.print.toList := by
  induction type with
  | primitive leaf => cases leaf <;> decide
  | named name =>
    rw [isWritable_named] at writable
    exact not_mem_of_isIdentifier writable rfl
  | array element ih =>
    rw [isWritable_array] at writable
    rw [toList_print_array]
    simp [ih writable]
  | map key value keyIh valueIh =>
    rw [isWritable_map, Bool.and_eq_true] at writable
    rw [toList_print_map]
    simp [TypeForm.mapName, keyIh writable.1, valueIh writable.2]
  | record fields ih =>
    have inside : '\n' ∉ [',', ' '].intercalate (fields.map fun field => field.print.toList) := by
      refine Text.not_mem_intercalate (by decide) ?_
      intro item member
      obtain ⟨field, present, rfl⟩ := List.mem_map.mp member
      have valid := isWritable_record.mp writable field present
      rw [Field.isWritable, Bool.and_eq_true] at valid
      exact Field.unbroken_print_of valid.1 (ih field present valid.2)
    rw [toList_print_record]
    simp [inside]
  | generic base argument ih =>
    simp only [isWritable_generic, Bool.and_eq_true] at writable
    have name : '\n' ∉ base.toList := not_mem_of_isIdentifier writable.1.1 rfl
    rw [toList_print_generic]
    simp [name, ih writable.2]

theorem Field.unbroken_print {field : Field} (writable : field.isWritable = true) :
    '\n' ∉ field.print.toList := by
  rw [Field.isWritable, Bool.and_eq_true] at writable
  exact Field.unbroken_print_of writable.1 (TypeExpr.unbroken_print writable.2)

private theorem FunctionDef.unbroken_printSignature {decl : FunctionDef}
    (valid : decl.Expressible) :
    '\n' ∉ typeParameterText decl.typeParameters ++ '(' :: (parameterText decl.parameters ++
      ')' :: ([':', ' '] ++ decl.returnType.print.toList)) := by
  have names : '\n' ∉ typeParameterText decl.typeParameters := by
    unfold typeParameterText
    split
    · simp
    · have inside : '\n' ∉ [',', ' '].intercalate (decl.typeParameters.map String.toList) := by
        refine Text.not_mem_intercalate (by decide) ?_
        intro item member
        obtain ⟨name, present, rfl⟩ := List.mem_map.mp member
        exact not_mem_of_isIdentifier (valid.typeParameters name present) rfl
      simp [inside]
  have parameters : '\n' ∉ parameterText decl.parameters := by
    refine Text.not_mem_intercalate (by decide) ?_
    intro item member
    obtain ⟨parameter, present, rfl⟩ := List.mem_map.mp member
    exact Field.unbroken_print
      (Field.isWritable_of_isExpressible (valid.parameters parameter present))
  have result := TypeExpr.unbroken_print (TypeExpr.isWritable_of_isExpressible valid.returnType)
  simp [names, parameters, result]

theorem Field.isLineText_print {field : Field} (valid : field.isExpressible = true) :
    Line.IsLineText field.print.toList := by
  have writable := Field.isWritable_of_isExpressible valid
  have tight := (Field.isItem_print writable).tight
  have unbroken := Field.unbroken_print writable
  rw [Field.isWritable, Bool.and_eq_true] at writable
  rw [Field.toList_print] at tight unbroken ⊢
  exact .of_name writable.1 tight fun member => unbroken (List.mem_append_right _ member)

theorem FunctionDef.isLineText_signatureText {decl : FunctionDef} (valid : decl.Expressible) :
    Line.IsLineText decl.signatureText := by
  have tight := FunctionDef.tight_signatureText valid
  rw [signatureText, toList_printSignature, List.append_assoc] at tight ⊢
  exact .of_name valid.name tight (unbroken_printSignature valid)

section Header

variable {keyword : Keyword} {name : String} {parent : Option String}

/-- The part of a header that names the parent. -/
def parentText (parent : Option String) : List Char :=
  (parent.map fun name => " extends ".toList ++ name.toList).getD []

theorem toList_printHeader (keyword : Keyword) (name : String) (parent : Option String) :
    (printHeader keyword name parent).toList =
      keyword.word.toList ++ ' ' :: (name.toList ++ parentText parent) := by
  cases parent <;> simp [printHeader, parentText]

theorem isLineText_printHeader (valid : isIdentifier name.toList = true)
    (parental : ∀ name ∈ parent, isIdentifier name.toList = true) :
    Line.IsLineText (printHeader keyword name parent).toList := by
  have named : '\n' ∉ name.toList := not_mem_of_isIdentifier valid rfl
  rw [toList_printHeader]
  cases parent with
  | none =>
    have tight := (tight_of_isIdentifier keyword.isIdentifier_word).enclose
      (tight_of_isIdentifier valid) [' ']
    exact .of_name keyword.isIdentifier_word (by simpa [parentText] using tight)
      (by simp [parentText, named])
  | some parent =>
    have extended : '\n' ∉ parent.toList := not_mem_of_isIdentifier (parental parent rfl) rfl
    have tight := (tight_of_isIdentifier keyword.isIdentifier_word).enclose
      (tight_of_isIdentifier (parental parent rfl)) (' ' :: (name.toList ++ " extends ".toList))
    exact .of_name keyword.isIdentifier_word (by simpa [parentText] using tight)
      (by simp [parentText, named, extended])

end Header

namespace BodyLayout

variable {header : String} {items : List String}

private theorem isLineText_itemLines (valid : ∀ item ∈ items, Line.IsLineText item.toList)
    (comma : Nat → Bool) (start : Nat) : ∀ text ∈ itemLines comma start items,
      Line.IsLineText text := by
  intro text member
  obtain ⟨item, present, rfl⟩ := List.mem_map.mp member
  have own := valid item.1 (List.fst_mem_of_mem_zipIdx present)
  split
  · exact own.append (by decide) ⟨',', rfl, by decide⟩
  · simpa using own

private theorem unbroken_inlineText (valid : ∀ item ∈ items, Line.IsLineText item.toList) :
    '\n' ∉ inlineText items := by
  unfold inlineText
  split
  · simp
  · have inside : '\n' ∉ [',', ' '].intercalate (items.map String.toList) := by
      refine Text.not_mem_intercalate (by decide) ?_
      intro text member
      obtain ⟨item, present, rfl⟩ := List.mem_map.mp member
      exact (valid item present).unbroken
    simp [inside]

/-- In every layout the lines of a body are lines of their own. -/
theorem isLineText_print (layout : BodyLayout) (head : Line.IsLineText header.toList)
    (valid : ∀ item ∈ items, Line.IsLineText item.toList) :
    ∀ text ∈ (layout.print header items).map String.toList, Line.IsLineText text := by
  intro text member
  cases layout with
  | inline =>
    rw [map_toList_print_inline, List.mem_singleton] at member
    subst member
    exact head.append (by simp [unbroken_inlineText valid])
      ⟨'}', by simp [List.getLast?_cons], by decide⟩
  | lines lowered comma =>
    have brace : Line.IsLineText ['{'] := ⟨.singleton (by decide), by decide, by decide⟩
    have close : Line.IsLineText ['}'] := ⟨.singleton (by decide), by decide, by decide⟩
    have opened : Line.IsLineText (header.toList ++ ([' '] ++ ['{'])) :=
      head.append (by decide) ⟨'{', rfl, by decide⟩
    rw [map_toList_print_lines] at member
    rcases List.mem_append.mp member with front | back
    · cases lowered <;> simp only [Bool.false_eq_true, ↓reduceIte, List.mem_cons,
        List.not_mem_nil, or_false] at front
      · exact front ▸ opened
      · rcases front with rfl | rfl
        · exact head
        · exact brace
    · rcases List.mem_append.mp back with inside | final
      · exact isLineText_itemLines valid comma 0 text inside
      · rw [List.mem_singleton.mp final]
        exact close

end BodyLayout

theorem AliasDef.toList_print (decl : AliasDef) :
    (Keyword.alias.word ++ " " ++ decl.name ++ " = " ++ decl.type.print).toList =
      Keyword.alias.word.toList ++ ' ' :: (decl.name.toList ++
        ([' ', '=', ' '] ++ decl.type.print.toList)) := by
  simp

theorem FunctionDef.toList_print (decl : FunctionDef) :
    (Keyword.function.word ++ " " ++
      printSignature decl.name decl.typeParameters decl.parameters decl.returnType).toList =
      Keyword.function.word.toList ++ ' ' :: decl.signatureText := by
  simp [FunctionDef.signatureText]

/-- Every line of a printed declaration is a line of its own. -/
theorem Declaration.isLineText_print {declaration : Declaration} (valid : declaration.Expressible)
    (layout : BodyLayout) :
    ∀ text ∈ (declaration.print layout).map String.toList, Line.IsLineText text := by
  match declaration, valid with
  | .struct decl, valid =>
    refine layout.isLineText_print (isLineText_printHeader valid.name valid.parent) ?_
    intro item member
    obtain ⟨field, present, rfl⟩ := List.mem_map.mp member
    exact Field.isLineText_print (valid.fields field present)
  | .interface decl, valid =>
    refine layout.isLineText_print (isLineText_printHeader valid.name valid.parent) ?_
    intro item member
    obtain ⟨method, present, rfl⟩ := List.mem_map.mp member
    rw [Method.toList_print]
    exact FunctionDef.isLineText_signatureText (valid.methods method present)
  | .function decl, valid =>
    intro text member
    rw [Declaration.print, List.map_singleton, List.mem_singleton,
      FunctionDef.toList_print] at member
    subst member
    have signature := FunctionDef.isLineText_signatureText valid
    have tight := (tight_of_isIdentifier Keyword.function.isIdentifier_word).enclose signature.tight
      [' ']
    exact .of_name Keyword.function.isIdentifier_word (by simpa using tight)
      (by simp [signature.unbroken])
  | .alias decl, valid =>
    intro text member
    rw [Declaration.print, List.map_singleton, List.mem_singleton, AliasDef.toList_print] at member
    subst member
    have writable := TypeExpr.isWritable_of_isExpressible valid.type
    have tight := (tight_of_isIdentifier Keyword.alias.isIdentifier_word).enclose
      (TypeExpr.isTypeText_print writable).tight (' ' :: (decl.name.toList ++ [' ', '=', ' ']))
    have named : '\n' ∉ decl.name.toList := not_mem_of_isIdentifier valid.name rfl
    exact .of_name Keyword.alias.isIdentifier_word (by simpa using tight)
      (by simp [named, TypeExpr.unbroken_print writable])

end PolySchema
