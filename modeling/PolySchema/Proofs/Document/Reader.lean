import PolySchema.Document.Reader
import PolySchema.Proofs.TypeExpr.Reader

namespace PolySchema

/-- What the parts of a signature text are: names are identifiers, and what is read further is a
stretch of the text. -/
structure SignatureText.IsCutFrom (text : List Char) (parts : SignatureText) : Prop where
  name : isIdentifier parts.name = true
  typeParameters : ∀ parameter ∈ parts.typeParameters, isIdentifier parameter = true
  parameters : parts.parameters <:+: text
  returnType : parts.returnType <:+: text

namespace SignatureText

private theorem isIdentifier_of_splitHead? {head : List Char}
    {parts : List Char × List (List Char)} (found : splitHead? head = some parts) :
    isIdentifier parts.1 = true ∧ ∀ parameter ∈ parts.2, isIdentifier parameter = true := by
  unfold splitHead? at found
  split at found
  · split at found
    · rename_i valid
      cases found
      exact ⟨valid, by simp⟩
    · cases found
  · split at found
    · cases found
    · split at found
      · rename_i valid
        cases found
        rw [Bool.and_eq_true, List.all_eq_true] at valid
        exact valid
      · cases found

theorem isCutFrom_of_ofText? {text : List Char} {parts : SignatureText}
    (found : ofText? text = some parts) : parts.IsCutFrom text := by
  unfold ofText? at found
  split at found
  · cases found
  · rename_i head rest opened
    have inside := Text.isInfix_after (Text.cutTop?_eq_some opened)
    split at found
    · cases found
    · rename_i parameters after closed
      obtain ⟨bracket, _, cut⟩ := Text.cutClose?_eq_some closed
      split at found
      · rename_i type colon
        split at found
        · cases found
        · obtain ⟨names, split, rfl⟩ := Option.map_eq_some_iff.mp found
          obtain ⟨name, typeParameters⟩ := isIdentifier_of_splitHead? split
          refine ⟨name, typeParameters, (Text.isInfix_before cut).trans inside, ?_⟩
          have result : type <:+: after := by
            refine (List.suffix_cons ':' type).isInfix.trans ?_
            rw [← colon]
            exact Text.isInfix_trim after
          exact (((Text.isInfix_trim type).trans result).trans (Text.isInfix_after cut)).trans inside
      · cases found

end SignatureText

theorem isInfix_trimStatement (text : List Char) : trimStatement text <:+: text :=
  ((Text.isPrefix_dropEndWhile _ _).isInfix.trans
    (Text.isPrefix_dropEndWhile _ _).isInfix).trans (Text.isInfix_trim text)

theorem Keyword.isInfix_operand (keyword : Keyword) (text : List Char) :
    keyword.operand text <:+: text :=
  ((List.dropWhile_suffix _).isInfix.trans (List.drop_suffix _ _).isInfix).trans
    (Text.isPrefix_dropEndWhile _ text).isInfix

/-- The name of an alias is an identifier, and its type is a stretch of the line. -/
theorem AliasDef.of_split? {text name type : List Char}
    (found : AliasDef.split? text = some (name, type)) :
    isIdentifier name = true ∧ type <:+: text := by
  unfold AliasDef.split? at found
  split at found
  · cases found
  · rename_i before after cut
    split at found
    · rename_i valid
      rw [Bool.and_eq_true] at valid
      cases found
      refine ⟨valid.1, (Text.isInfix_trim after).trans ?_⟩
      exact (Text.isInfix_after (Text.cutTop?_eq_some cut)).trans (Keyword.isInfix_operand _ text)
    · cases found

theorem FunctionDef.value_read (kind : Diagnostic.Kind) (line : Nat) (text : List Char) :
    (FunctionDef.read kind line text).value =
      (SignatureText.ofText? (trimStatement text)).map fun parts =>
        { name := String.ofList parts.name
          typeParameters := parts.typeParameters.map String.ofList
          parameters :=
            (Field.readItems .malformedParameter line (Text.items parts.parameters)).value
          returnType := (TypeExpr.read line parts.returnType).value } := by
  unfold FunctionDef.read
  split
  · rename_i missing
    rw [missing]
    rfl
  · rename_i parts found
    rw [found]
    rfl

/-- A method is read as a signature without type parameters. -/
theorem Method.value_read (item : Line) :
    (Method.read item).value =
      (FunctionDef.read .malformedMethod item.number item.text).value.bind FunctionDef.method? := by
  rw [Method.read, Reported.value_bind]
  cases (FunctionDef.read .malformedMethod item.number item.text).value with
  | none => rfl
  | some signature =>
    rw [Option.bind_some]
    dsimp only
    cases signature.method? <;> rfl

theorem AliasDef.value_read (line : Line) :
    (AliasDef.read line).value = (AliasDef.split? line.text).map fun parts =>
      ⟨String.ofList parts.1, (TypeExpr.read line.number parts.2).value⟩ := by
  unfold AliasDef.read
  split
  · rename_i missing
    rw [missing]
    rfl
  · rename_i name text found
    rw [found]
    rfl

namespace Block

theorem value_readName (block : Block) : block.readName.value = block.name? := by
  unfold Block.readName
  cases block.name? with
  | none =>
    dsimp only
    split <;> rfl
  | some names =>
    dsimp only
    split <;> rfl

theorem isIdentifier_of_name? {block : Block} {name : String} {parent : Option String}
    (found : block.name? = some (name, parent)) :
    isIdentifier name.toList = true ∧ ∀ other ∈ parent, isIdentifier other.toList = true := by
  unfold Block.name? at found
  split at found
  · split at found
    · rename_i valid
      cases found
      refine ⟨by rwa [String.toList_ofList], ?_⟩
      intro other member
      cases member
    · cases found
  · split at found
    · rename_i valid
      simp only [Bool.and_eq_true] at valid
      cases found
      refine ⟨by rw [String.toList_ofList]; exact valid.1.2, ?_⟩
      intro other member
      cases member
      rw [String.toList_ofList]
      exact valid.2
    · cases found
  · cases found

end Block

theorem StructDef.value_read (block : Block) :
    (StructDef.read block).value = block.name?.map fun names =>
      ⟨names.1, (Reported.collect (block.items.map fun item =>
        Field.read .malformedField item.number item.text)).value, names.2⟩ := by
  rw [StructDef.read, Reported.value_bind, block.value_readName]
  cases block.name? <;> rfl

theorem InterfaceDef.value_read (block : Block) :
    (InterfaceDef.read block).value = block.name?.map fun names =>
      ⟨names.1, (Reported.collect (block.items.map Method.read)).value, names.2⟩ := by
  rw [InterfaceDef.read, Reported.value_bind, block.value_readName]
  cases block.name? <;> rfl

theorem StructDef.of_read {block : Block} {decl : StructDef}
    (read : (StructDef.read block).value = some decl) :
    block.name? = some (decl.name, decl.parent) ∧
      ∀ field ∈ decl.fields, ∃ item ∈ block.items,
        (Field.read .malformedField item.number item.text).value = some field := by
  rw [StructDef.value_read] at read
  obtain ⟨names, found, rfl⟩ := Option.map_eq_some_iff.mp read
  exact ⟨found, fun field member => Reported.mem_value_collect.mp member⟩

theorem InterfaceDef.of_read {block : Block} {decl : InterfaceDef}
    (read : (InterfaceDef.read block).value = some decl) :
    block.name? = some (decl.name, decl.parent) ∧
      ∀ method ∈ decl.methods, ∃ item ∈ block.items, (Method.read item).value = some method := by
  rw [InterfaceDef.value_read] at read
  obtain ⟨names, found, rfl⟩ := Option.map_eq_some_iff.mp read
  exact ⟨found, fun method member => Reported.mem_value_collect.mp member⟩

theorem Document.mem_declarations_ofLines {lines : List Line} {declaration : Declaration} :
    declaration ∈ (Document.ofLines lines).value.declarations ↔
      ∃ statement ∈ Statement.group lines, statement.read.value = some declaration := by
  rw [Document.ofLines, Reported.value_map, Reported.mem_value_collect]

end PolySchema
