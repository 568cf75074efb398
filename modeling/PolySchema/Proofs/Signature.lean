import PolySchema.Document.Printer
import PolySchema.Proofs.Document.Expressible
import PolySchema.Signature

namespace PolySchema

/-- The type parameters of a printed signature, in angle brackets if there are any. -/
def typeParameterText (names : List String) : List Char :=
  if names.isEmpty then []
  else '<' :: ([',', ' '].intercalate (names.map String.toList) ++ ['>'])

/-- What stands between the parentheses of a printed signature. -/
def parameterText (parameters : List Field) : List Char :=
  [',', ' '].intercalate (parameters.map fun parameter => parameter.print.toList)

theorem toList_printSignature (decl : FunctionDef) :
    (printSignature decl.name decl.typeParameters decl.parameters decl.returnType).toList =
      (decl.name.toList ++ typeParameterText decl.typeParameters) ++
        '(' :: (parameterText decl.parameters ++
          ')' :: ([':', ' '] ++ decl.returnType.print.toList)) := by
  simp only [printSignature, typeParameterText, parameterText]
  split <;> simp [String.toList_intercalate, Function.comp_def]

namespace SignatureText

variable {name : List Char} {names : List String}

private theorem isItem_names (valid : ∀ name ∈ names, isIdentifier name.toList = true) :
    ∀ item ∈ names.map String.toList, Text.IsItem item := by
  intro item member
  obtain ⟨name, present, rfl⟩ := List.mem_map.mp member
  exact (IsTypeText.of_isIdentifier (valid name present)).isItem

private theorem nested_typeParameterText
    (valid : ∀ name ∈ names, isIdentifier name.toList = true) :
    Text.Nested (· = '<') (typeParameterText names) := by
  unfold typeParameterText
  split
  · exact .nil
  · exact (Text.nested_intercalate (isItem_names valid)).enclose rfl rfl rfl

private theorem tight_head (valid : isIdentifier name = true) (names : List String) :
    Text.Tight (name ++ typeParameterText names) := by
  unfold typeParameterText
  split
  · simpa using tight_of_isIdentifier valid
  · exact (tight_of_isIdentifier valid).enclose (.singleton (by decide))
      ('<' :: [',', ' '].intercalate (names.map String.toList))

/-- The head of a signature splits into what it was put together from. -/
theorem splitHead?_append (valid : isIdentifier name = true)
    (listed : ∀ name ∈ names, isIdentifier name.toList = true) :
    splitHead? (name ++ typeParameterText names) = some (name, names.map String.toList) := by
  have absent : '<' ∉ name := not_mem_of_isIdentifier valid rfl
  unfold typeParameterText
  split
  · rename_i empty
    simp [splitHead?, Text.cutFirst?_eq_none absent, valid, List.isEmpty_iff.mp empty]
  · rename_i nonempty
    have parts : Text.splitTop ',' ([',', ' '].intercalate (names.map String.toList)) =
        names.map String.toList := by
      have apart := Text.splitTop_intercalate (by simpa using nonempty) (isItem_names listed)
        Text.blank_nil Text.blank_nil
      simpa using apart
    have all : (names.map String.toList).all isIdentifier = true := by simpa using listed
    simp only [splitHead?, Text.cutFirst?_append absent, Text.dropEnding?_append, parts, all,
      (tight_of_isIdentifier valid).trim_eq, valid, Bool.and_self, ↓reduceIte]

theorem ofText?_append (valid : isIdentifier name = true)
    (listed : ∀ name ∈ names, isIdentifier name.toList = true)
    (inside : Text.Nested top body) (shape : IsTypeText type) :
    ofText? ((name ++ typeParameterText names) ++
      '(' :: (body ++ ')' :: ([':', ' '] ++ type))) =
      some ⟨name, names.map String.toList, body, type⟩ := by
  have head : Text.Nested (· ≠ '(') (name ++ typeParameterText names) := by
    refine Text.Nested.append ?_ ?_
    · exact (Text.Nested.of_isIdentifier valid).mono fun c inside =>
        ne_of_isIdentifierChar inside rfl
    · exact (nested_typeParameterText listed).mono fun c same => by simp [same]
  have cut (rest : List Char) :
      Text.cutTop? '(' ((name ++ typeParameterText names) ++ '(' :: rest) =
      some (name ++ typeParameterText names, rest) :=
    Text.cutTop?_nested head (by simp) rest
  have closed : Text.cutClose? 1 (body ++ ')' :: ([':', ' '] ++ type)) =
      some (body, [':', ' '] ++ type) :=
    Text.cutClose?_nested inside rfl _
  have colon : Text.trim ([':', ' '] ++ type) = ':' :: ([' '] ++ type) := by
    have tight : Text.Tight ([':'] ++ ([' '] ++ type)) :=
      (Text.Tight.singleton (by decide)).enclose shape.tight [' ']
    exact tight.trim_eq
  have result : Text.trim ([' '] ++ type) = type := by
    simpa using Text.trim_padding shape.tight Text.blank_space Text.blank_nil
  simp only [ofText?, cut, closed, colon, result, (tight_head valid names).trim_eq,
    splitHead?_append valid listed, List.isEmpty_eq_false_iff.mpr shape.ne_nil,
    Bool.false_eq_true, ↓reduceIte, Option.map_some]

end SignatureText

theorem trimStatement_of_tight {text : List Char} {c : Char} (tight : Text.Tight text)
    (last : text.getLast? = some c) (other : c ≠ ';') : trimStatement text = text := by
  have kept : Text.dropEndWhile (· == ';') text = text :=
    Text.dropEndWhile_of_last last (by simpa using other)
  rw [trimStatement, tight.trim_eq, kept, tight.trimEnd_eq]

namespace FunctionDef

/-- The text of a signature. -/
def signatureText (decl : FunctionDef) : List Char :=
  (printSignature decl.name decl.typeParameters decl.parameters decl.returnType).toList

variable {decl : FunctionDef}

private theorem isItem_parameters (valid : decl.Expressible) :
    ∀ item ∈ decl.parameters.map fun parameter => parameter.print.toList, Text.IsItem item := by
  intro item member
  obtain ⟨parameter, present, rfl⟩ := List.mem_map.mp member
  exact Field.isItem_of_isExpressible (valid.parameters parameter present)

private theorem isTypeText_returnType (valid : decl.Expressible) :
    IsTypeText decl.returnType.print.toList :=
  TypeExpr.isTypeText_print (TypeExpr.isWritable_of_isExpressible valid.returnType)

theorem tight_signatureText (valid : decl.Expressible) : Text.Tight decl.signatureText := by
  rw [signatureText, toList_printSignature]
  have tight := (SignatureText.tight_head valid.name decl.typeParameters).enclose
    (isTypeText_returnType valid).tight ('(' :: (parameterText decl.parameters ++ [')', ':', ' ']))
  simpa using tight

theorem last_signatureText (valid : decl.Expressible) :
    ∃ c, decl.signatureText.getLast? = some c ∧ c ≠ ';' := by
  obtain ⟨c, last, other⟩ := (isTypeText_returnType valid).last_ne ';' rfl rfl
  refine ⟨c, ?_, other⟩
  rw [signatureText, toList_printSignature]
  simp [List.getLast?_append, List.getLast?_cons, last]

theorem isItem_signatureText (valid : decl.Expressible) : Text.IsItem decl.signatureText := by
  refine ⟨tight_signatureText valid, ?_⟩
  have name : Text.Nested (· ≠ ',') decl.name.toList :=
    (IsTypeText.of_isIdentifier valid.name).nested_ne ',' rfl rfl
  have names : Text.Nested (· ≠ ',') (typeParameterText decl.typeParameters) :=
    (SignatureText.nested_typeParameterText valid.typeParameters).mono fun c same => by simp [same]
  have parameters : Text.Nested (· ≠ ',') ('(' :: (parameterText decl.parameters ++ [')'])) :=
    (Text.nested_intercalate (isItem_parameters valid)).enclose (by decide) rfl rfl
  have colon : Text.Nested (· ≠ ',') [':', ' '] := .of_marks (by simp) rfl
  have result := (isTypeText_returnType valid).nested_ne ',' rfl rfl
  have whole := (name.append names).append (parameters.append (colon.append result))
  rw [signatureText, toList_printSignature]
  simpa using whole

/-- Reading a printed signature gives it back. -/
theorem read_signatureText (valid : decl.Expressible) (kind : Diagnostic.Kind) (line : Nat) :
    FunctionDef.read kind line decl.signatureText = pure (some decl) := by
  obtain ⟨c, last, other⟩ := last_signatureText valid
  have kept := trimStatement_of_tight (tight_signatureText valid) last other
  have items := isItem_parameters valid
  have parts := SignatureText.ofText?_append valid.name valid.typeParameters
    (Text.nested_intercalate items) (isTypeText_returnType valid)
  rw [← parameterText, ← toList_printSignature, ← signatureText] at parts
  have split : Text.items (parameterText decl.parameters) =
      decl.parameters.map fun parameter => parameter.print.toList := by
    simpa [parameterText] using Text.items_intercalate items Text.blank_nil Text.blank_nil
  have parameters : Field.readItems .malformedParameter line
      (decl.parameters.map fun parameter => parameter.print.toList) = pure decl.parameters := by
    rw [Field.readItems, List.map_map]
    exact (Reported.collect_map_pure fun parameter member =>
      Field.read_of_isExpressible (valid.parameters parameter member) _ line).trans
      (congrArg pure (List.map_id' decl.parameters))
  have result := TypeExpr.read_of_isExpressible valid.returnType line
  simp only [FunctionDef.read, kept, parts, split, parameters, result, pure_bind,
    String.ofList_toList, List.map_map, Function.comp_def, List.map_id']

end FunctionDef

theorem Method.toList_print (method : Method) :
    method.print.toList = method.signature.signatureText := rfl

theorem Method.read_print {method : Method} (valid : method.signature.Expressible) (line : Nat) :
    Method.read ⟨line, method.print.toList⟩ = pure (some method) := by
  simp only [Method.read, Method.toList_print, FunctionDef.read_signatureText valid, pure_bind]
  rfl

end PolySchema
