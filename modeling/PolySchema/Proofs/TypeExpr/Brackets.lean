import PolySchema.Proofs.Text.Reclosing
import PolySchema.Proofs.TypeExpr.NormalForm

/-! The brackets of a type text. Reading goes by the opening brackets, and any closing bracket will
do for them, except that an array has a pair of square brackets. So the texts that are read without
a report are those whose brackets are right up to the kind of the closing ones. -/
namespace PolySchema

open Text (squared square Intact Paired)

namespace TypeForm

/-- The form with other texts for its parts. -/
def mapParts (f : List Char → List Char) : TypeForm → TypeForm
  | .empty => .empty
  | .marked rest => .marked (f rest)
  | .map key value => .map (f key) (f value)
  | .mapArity => .mapArity
  | .generic base argument => .generic base (f argument)
  | .array element => .array (f element)
  | .record items => .record (items.map f)
  | .name => .name

variable {text : List Char}

theorem application?_squared (text : List Char) :
    application? (squared text) =
      (application? text).map fun parts => (parts.1, squared parts.2) := by
  rw [application?, application?, Text.cutFirst?_squared rfl]
  cases Text.cutFirst? '<' text with
  | none => rfl
  | some cut =>
    rw [Option.map_some]
    dsimp only
    rw [Text.cutClose?_squared]
    rcases Text.cutClose? 1 cut.2 with _ | ⟨argument, _ | ⟨c, rest⟩⟩
    · rfl
    · simp only [Option.map_some, Text.squared_nil, Text.trim_squared, Text.isIdentifier_squared]
      split
      · rename_i valid
        rw [Text.squared_of_isIdentifier valid, Option.map_some]
      · rfl
    · rfl

theorem recordBody?_squared (text : List Char) :
    recordBody? (squared text) = (recordBody? text).map squared := by
  rcases text with _ | ⟨c, rest⟩
  · rfl
  · by_cases brace : c = '{'
    · subst brace
      have shape : squared ('{' :: rest) = '{' :: squared rest := rfl
      rw [shape, recordBody?, recordBody?, Text.cutClose?_squared]
      rcases Text.cutClose? 1 rest with _ | ⟨inside, _ | ⟨d, tail⟩⟩ <;> rfl
    · have other : square c ≠ '{' := fun same => brace (Text.eq_of_square_eq same rfl)
      simp [recordBody?, brace, other]

theorem ofMapArgument_squared (argument : List Char) :
    ofMapArgument (squared argument) = (ofMapArgument argument).mapParts squared := by
  rw [ofMapArgument, ofMapArgument, Text.splitTop_squared rfl]
  rcases Text.splitTop ',' argument with _ | ⟨key, _ | ⟨value, _ | ⟨third, rest⟩⟩⟩
  · rfl
  · rfl
  · simp only [List.map_cons, List.map_nil, squared, List.isEmpty_map]
    split <;> rfl
  · rfl

/-- The form does not depend on the kind of closing brackets. -/
theorem ofText_squared (intact : Intact text) :
    ofText (squared text) = (ofText text).mapParts squared := by
  have empty : (squared text).isEmpty = text.isEmpty := List.isEmpty_map
  rw [ofText, ofText, empty, Text.dropEnding?_mark_squared rfl, application?_squared,
    Text.dropEnding?_pair_squared intact, recordBody?_squared]
  split
  · rfl
  · cases Text.dropEnding? ['?'] text with
    | some rest => rfl
    | none =>
      cases application? text with
      | some parts =>
        simp only [Option.map_none, Option.map_some]
        split
        · exact ofMapArgument_squared parts.2
        · rfl
      | none =>
        cases Text.dropEnding? ['[', ']'] text with
        | some element => rfl
        | none =>
          cases recordBody? text with
          | some body => exact congrArg TypeForm.record (Text.items_squared body)
          | none => rfl

private theorem paired_of_ofMapArgument {argument : List Char}
    (two : ofMapArgument argument ≠ .mapArity)
    (each : ∀ part ∈ (ofMapArgument argument).parts, Paired part) : Paired argument := by
  generalize shape : ofMapArgument argument = form at two each
  unfold ofMapArgument at shape
  split at shape
  · rename_i key value pieces
    split at shape
    · exact absurd shape.symm two
    · subst shape
      refine Paired.of_splitTop ',' (by decide) ?_
      rwa [pieces]
  · exact absurd shape.symm two

theorem paired_of_parts (arity : ofText text ≠ .mapArity) (named : ofText text ≠ .name)
    (each : ∀ part ∈ (ofText text).parts, Paired part) : Paired text := by
  generalize shape : ofText text = form at arity named each
  unfold ofText at shape
  split at shape
  · rename_i empty
    rw [List.isEmpty_iff.mp empty]
    exact .nil
  · split at shape
    · rename_i rest marked
      subst shape
      rw [Text.dropEnding?_eq_some_iff.mp marked]
      have mark : Paired ['?'] := .single (by decide)
      exact (each rest List.mem_cons_self).append mark
    · split at shape
      · rename_i base argument found
        have inside : Paired argument := by
          split at shape
          · subst shape
            exact paired_of_ofMapArgument arity each
          · subst shape
            exact each argument List.mem_cons_self
        obtain ⟨before, bracket, rfl, trimmed, closing, valid⟩ := application?_eq_some found
        have front : Paired before := .of_trim (trimmed ▸ .of_isIdentifier valid)
        exact front.append (inside.enclose rfl (by decide) closing)
      · split at shape
        · rename_i element paired
          subst shape
          rw [Text.dropEnding?_eq_some_iff.mp paired]
          exact (each element List.mem_cons_self).append .pair
        · split at shape
          · rename_i body found
            subst shape
            obtain ⟨bracket, rfl, closing⟩ := recordBody?_eq_some found
            exact (Paired.of_items each).enclose rfl (by decide) closing
          · exact absurd shape.symm named

end TypeForm

namespace FieldText

theorem unmark_squared (text : List Char) :
    unmark (squared text) = (squared (unmark text).1, (unmark text).2) := by
  rw [unmark, unmark, Text.dropEnding?_mark_squared rfl]
  cases Text.dropEnding? ['?'] text with
  | none => rfl
  | some rest => simp [Text.trimEnd_squared]

theorem ofText?_squared (text : List Char) :
    ofText? (squared text) = (ofText? text).map fun parts =>
      ⟨parts.name, squared parts.type, parts.optional⟩ := by
  rw [ofText?, ofText?, Text.cutTop?, Text.cutTop?, Text.cutTopFrom?_squared rfl]
  cases Text.cutTopFrom? ':' 0 text with
  | none => rfl
  | some cut =>
    have empty (part : List Char) : (squared part).isEmpty = part.isEmpty := List.isEmpty_map
    simp only [Option.map_some, Text.trim_squared, unmark_squared, Text.isIdentifier_squared, empty]
    split
    · rename_i valid
      rw [Bool.and_eq_true] at valid
      rw [Text.squared_of_isIdentifier valid.1, Option.map_some]
    · rfl

theorem exists_of_squared_eq {text other : List Char} {parts : FieldText}
    (found : ofText? text = some parts) (same : squared other = squared text) :
    ∃ type, ofText? other = some ⟨parts.name, type, parts.optional⟩ ∧
      squared type = squared parts.type := by
  have cut := ofText?_squared other
  rw [same, ofText?_squared, found, Option.map_some] at cut
  obtain ⟨otherParts, otherFound, shape⟩ := Option.map_eq_some_iff.mp cut.symm
  obtain ⟨name, type, optional⟩ := FieldText.mk.inj shape
  exact ⟨otherParts.type, by rw [otherFound, ← name, ← optional], type⟩

private theorem paired_of_unmark {text : List Char} (inner : Paired (unmark text).1) :
    Paired text := by
  unfold unmark at inner
  split at inner
  · rename_i rest marked
    obtain ⟨right, blank, shape⟩ := Text.exists_trimEnd rest
    have mark : Paired ['?'] := .single (by decide)
    rw [Text.dropEnding?_eq_some_iff.mp marked, shape]
    exact (inner.append (.of_blank blank)).append mark
  · exact inner

theorem paired_of_type {text : List Char} {parts : FieldText} (found : ofText? text = some parts)
    (type : Paired parts.type) : Paired text := by
  unfold ofText? at found
  split at found
  · cases found
  · rename_i before after cut
    dsimp only at found
    split at found
    · rename_i valid
      rw [Bool.and_eq_true] at valid
      cases found
      have name : Paired before := .of_trim (paired_of_unmark (.of_isIdentifier valid.1))
      have colon : Paired [':'] := .single (by decide)
      have rest : Paired after := .of_trim (paired_of_unmark type)
      rw [Text.cutTop?_eq_some cut]
      exact name.append (colon.append rest)
    · cases found

end FieldText

/-- Nothing is reported, and every name that stands by itself is an identifier. -/
def TypeExpr.ReadsCleanly (line : Nat) (text : List Char) : Prop :=
  (TypeExpr.read line text).diagnostics = [] ∧
    ∀ name, .named name ∈ (TypeExpr.read line text).value.subexpressions →
      isIdentifier name.toList = true

/-- What it takes for a trimmed text of this form to be read cleanly. -/
def TypeForm.PartsReadCleanly (line : Nat) (text : List Char) : TypeForm → Prop
  | .empty | .marked _ | .mapArity => False
  | .map key value => TypeExpr.ReadsCleanly line key ∧ TypeExpr.ReadsCleanly line value
  | .generic _ argument => TypeExpr.ReadsCleanly line argument
  | .array element => TypeExpr.ReadsCleanly line element
  | .record items => ∀ item ∈ items, ∃ parts, FieldText.ofText? item = some parts ∧
      TypeExpr.ReadsCleanly line parts.type
  | .name => isIdentifier text = true

namespace TypeExpr

variable {line : Nat} {text other : List Char}

theorem ReadsCleanly.parts (clean : ReadsCleanly line text) :
    (TypeForm.ofText (Text.trim text)).PartsReadCleanly line (Text.trim text) := by
  obtain ⟨silent, names⟩ := clean
  cases form : TypeForm.ofText (Text.trim text) with
  | empty =>
    rw [read_of_empty form] at silent
    cases silent
  | marked rest =>
    rw [read_of_marked form] at silent
    cases silent
  | map key value =>
    rw [read_of_map form] at silent names
    obtain ⟨keySilent, valueSilent⟩ := List.append_eq_nil_iff.mp silent
    rw [Reported.diagnostics_bind, Reported.diagnostics_pure, List.append_nil] at valueSilent
    refine ⟨⟨keySilent, fun name leaf => names name ?_⟩,
      ⟨valueSilent, fun name leaf => names name ?_⟩⟩
    · exact List.mem_cons_of_mem _ (List.mem_append_left _ leaf)
    · exact List.mem_cons_of_mem _ (List.mem_append_right _ leaf)
  | mapArity =>
    rw [read_of_mapArity form] at silent
    cases silent
  | generic base argument =>
    rw [read_of_generic form, Reported.diagnostics_map] at silent
    rw [read_of_generic form] at names
    exact ⟨silent, fun name leaf => names name (List.mem_cons_of_mem _ leaf)⟩
  | array element =>
    rw [read_of_array form, Reported.diagnostics_map] at silent
    rw [read_of_array form] at names
    exact ⟨silent, fun name leaf => names name (List.mem_cons_of_mem _ leaf)⟩
  | record items =>
    rw [read_of_record form, Reported.diagnostics_bind, Reported.diagnostics_pure,
      List.append_nil] at silent
    rw [read_of_record form] at names
    intro item member
    have quiet : (Field.read .malformedRecordField line item).diagnostics = [] :=
      List.flatMap_eq_nil_iff.mp silent _ (List.mem_map_of_mem member)
    cases found : FieldText.ofText? item with
    | none =>
      rw [Field.read_of_none found] at quiet
      cases quiet
    | some parts =>
      rw [Field.read_of_parts found, Reported.diagnostics_bind, Reported.diagnostics_pure,
        List.append_nil] at quiet
      let field : Field :=
        ⟨String.ofList parts.name, (TypeExpr.read line parts.type).value, parts.optional⟩
      have read : (Field.read .malformedRecordField line item).value = some field := by
        rw [Field.read_of_parts found]
        rfl
      have present := Reported.mem_value_collect.mpr ⟨item, member, read⟩
      refine ⟨parts, rfl, quiet, fun name leaf => names name (List.mem_cons_of_mem _ ?_)⟩
      rw [Field.subexpressionsAll_eq_flatMap]
      exact List.mem_flatMap.mpr ⟨field, present, leaf⟩
  | name =>
    rw [read_of_name form] at names
    have valid := names _ List.mem_cons_self
    rwa [String.toList_ofList] at valid

theorem ReadsCleanly.paired (clean : ReadsCleanly line text) : Paired text := by
  induction text using TypeExpr.text_induction with
  | step text ih =>
    have parts := clean.parts
    have part {part : List Char} (own : part ∈ (TypeForm.ofText (Text.trim text)).parts) :=
      ih part (.part own)
    have whole := @TypeForm.paired_of_parts (Text.trim text)
    apply Paired.of_trim
    generalize form : TypeForm.ofText (Text.trim text) = shape at parts part whole
    cases shape with
    | empty => exact parts.elim
    | marked rest => exact parts.elim
    | map key value =>
      have both := List.forall_mem_cons.mpr ⟨part List.mem_cons_self parts.1,
        List.forall_mem_singleton.mpr (part (List.mem_cons_of_mem _ List.mem_cons_self) parts.2)⟩
      exact whole nofun nofun both
    | mapArity => exact parts.elim
    | generic base argument =>
      exact whole nofun nofun (List.forall_mem_singleton.mpr (part List.mem_cons_self parts))
    | array element =>
      exact whole nofun nofun (List.forall_mem_singleton.mpr (part List.mem_cons_self parts))
    | record items =>
      refine whole nofun nofun fun item member => ?_
      obtain ⟨_, found, inner⟩ := parts item member
      exact FieldText.paired_of_type found (ih _ (.field form member found) inner)
    | name => exact .of_isIdentifier parts

private theorem map_eq_map_of_mem {α β γ : Type} {f : α → β} {g : α → γ} {first second : List α}
    (same : first.map f = second.map f)
    (follows : ∀ a ∈ first, ∀ b ∈ second, f a = f b → g a = g b) : first.map g = second.map g := by
  induction first generalizing second with
  | nil => rw [List.map_eq_nil_iff.mp same.symm]
  | cons a rest ih =>
    obtain ⟨b, others, rfl, like, tail⟩ := List.map_eq_cons_iff.mp same.symm
    have head := follows a List.mem_cons_self b List.mem_cons_self like.symm
    have later := ih tail.symm fun x inside y present =>
      follows x (List.mem_cons_of_mem a inside) y (List.mem_cons_of_mem b present)
    rw [List.map_cons, List.map_cons, head, later]

/-- A text that is read cleanly is read as any other text with the same brackets up to the kind of
the closing ones. -/
theorem ReadsCleanly.read_eq (clean : ReadsCleanly line text) (intact : Intact text)
    (otherIntact : Intact other) (same : squared other = squared text) :
    read line other = read line text := by
  induction text using TypeExpr.text_induction generalizing other with
  | step text ih =>
    have parts := clean.parts
    have trimmed : squared (Text.trim other) = squared (Text.trim text) := by
      rw [← Text.trim_squared, same, Text.trim_squared]
    have alike : (TypeForm.ofText (Text.trim other)).mapParts squared =
        (TypeForm.ofText (Text.trim text)).mapParts squared := by
      rw [← TypeForm.ofText_squared (otherIntact.of_isInfix (Text.isInfix_trim other)), trimmed,
        TypeForm.ofText_squared (intact.of_isInfix (Text.isInfix_trim text))]
    have inner {part otherPart : List Char} (nested : ReadsOn text part)
        (otherNested : ReadsOn other otherPart) (cleanPart : ReadsCleanly line part)
        (samePart : squared otherPart = squared part) : read line otherPart = read line part :=
      ih part nested cleanPart (intact.of_isInfix nested.isInfix)
        (otherIntact.of_isInfix otherNested.isInfix) samePart
    have part {part otherPart : List Char}
        (own : part ∈ (TypeForm.ofText (Text.trim text)).parts)
        (otherOwn : otherPart ∈ (TypeForm.ofText (Text.trim other)).parts) :=
      inner (.part own) (.part otherOwn)
    generalize form : TypeForm.ofText (Text.trim text) = shape at parts alike part
    generalize otherForm : TypeForm.ofText (Text.trim other) = otherShape at alike part
    -- Parts that are alike belong to forms of the same kind.
    cases shape with
    | empty => exact parts.elim
    | marked rest => exact parts.elim
    | map key value =>
      cases otherShape with
      | map otherKey otherValue =>
        obtain ⟨sameKey, sameValue⟩ := TypeForm.map.inj alike
        have keys := part List.mem_cons_self List.mem_cons_self parts.1 sameKey
        have values := part (List.mem_cons_of_mem _ List.mem_cons_self)
          (List.mem_cons_of_mem _ List.mem_cons_self) parts.2 sameValue
        rw [read_of_map form, read_of_map otherForm, keys, values]
      | _ => cases alike
    | mapArity => exact parts.elim
    | generic base argument =>
      cases otherShape with
      | generic otherBase otherArgument =>
        obtain ⟨rfl, sameArgument⟩ := TypeForm.generic.inj alike
        have arguments := part List.mem_cons_self List.mem_cons_self parts sameArgument
        rw [read_of_generic form, read_of_generic otherForm, arguments]
      | _ => cases alike
    | array element =>
      cases otherShape with
      | array otherElement =>
        have elements := part List.mem_cons_self List.mem_cons_self parts (TypeForm.array.inj alike)
        rw [read_of_array form, read_of_array otherForm, elements]
      | _ => cases alike
    | record items =>
      cases otherShape with
      | record otherItems =>
        have fields : otherItems.map (Field.read .malformedRecordField line) =
            items.map (Field.read .malformedRecordField line) := by
          refine map_eq_map_of_mem (TypeForm.record.inj alike) fun otherItem otherMember item member
            sameItem => ?_
          obtain ⟨parts, found, cleanType⟩ := parts item member
          obtain ⟨otherType, otherFound, sameType⟩ := FieldText.exists_of_squared_eq found sameItem
          have types := inner (.field form member found)
            (.field otherForm otherMember otherFound) cleanType sameType
          rw [Field.read_of_parts found, Field.read_of_parts otherFound, types]
        rw [read_of_record form, read_of_record otherForm, Field.readItems, Field.readItems, fields]
      | _ => cases alike
    | name =>
      cases otherShape with
      | name =>
        rw [read_of_name form, read_of_name otherForm, Text.eq_of_isIdentifier parts trimmed]
      | _ => cases alike

/-- A text is read cleanly exactly if its brackets are paired and the one text that has the right
closing brackets in place of its own is read cleanly. Every text with other closing brackets, except
in pairs of square ones, is then read to the same. -/
theorem readsCleanly_iff (line : Nat) (text : List Char) :
    (ReadsCleanly line text ↔ Paired text ∧ ∃! proper, Text.isBalanced proper = true ∧
      squared proper = squared text ∧ ReadsCleanly line proper) ∧
    ∀ other, Intact other → squared other = squared text → ReadsCleanly line text →
      read line other = read line text := by
  refine ⟨⟨fun clean => ?_, ?_⟩, fun other otherIntact same clean =>
    clean.read_eq clean.paired.intact otherIntact same⟩
  · have paired := clean.paired
    obtain ⟨proper, balanced, same⟩ := paired.nested.exists_balanced
    have reading := clean.read_eq paired.intact (paired.intact.of_balanced balanced same) same
    have properClean : ReadsCleanly line proper := by
      rwa [ReadsCleanly, reading]
    refine ⟨paired, proper, ⟨balanced.isBalanced, same, properClean⟩, ?_⟩
    rintro second ⟨secondBalanced, secondSame, _⟩
    exact (Text.isBalanced_iff.mp secondBalanced).eq_of_squared_eq balanced
      (secondSame.trans same.symm)
  · rintro ⟨paired, proper, ⟨_, same, clean⟩, _⟩
    have reading := clean.read_eq clean.paired.intact paired.intact same.symm
    rwa [ReadsCleanly, reading]

/-- Braces and angle brackets that cross. -/
theorem readsCleanly_iff_crossed :
    let type : TypeExpr := .map (.named "K") (.record [⟨"a", .array (.named "V"), true⟩])
    let text := "Record<K, \x7b a: V[]? >\x7d".toList
    Text.isBalanced text = false ∧ ReadsCleanly 1 type.print.toList ∧ read 1 text = ⟨type, []⟩ := by
  intro type text
  have reading : read 1 type.print.toList = ⟨type, []⟩ := read_print rfl 1
  have clean : ReadsCleanly 1 type.print.toList := by
    rw [ReadsCleanly, reading]
    refine ⟨rfl, fun name leaf => ?_⟩
    have either : name = "K" ∨ name = "V" := by
      simpa [type, subexpressions, Field.subexpressionsAll, Field.subexpressions] using leaf
    rcases either with rfl | rfl <;> rfl
  have printed : type.print = "Record<K, \x7b a: V[]? \x7d>" := by decide
  have same : squared text = squared type.print.toList := by
    simp [text, printed, square, Text.closes]
  have intact : Intact text := by
    simp [Intact, text]
  refine ⟨rfl, clean, ?_⟩
  rw [(readsCleanly_iff 1 type.print.toList).2 text intact same clean, reading]

/-- Any bracket closes an argument. -/
theorem read_mismatched :
    let text := "Box<A\x7d".toList
    read 1 text = ⟨.generic "Box" (.named "A"), []⟩ ∧ ReadsCleanly 1 text ∧
      Text.isBalanced text = false := by
  intro text
  have form : TypeForm.ofText (Text.trim text) = .generic "Box".toList "A".toList := rfl
  have reading : read 1 text = ⟨.generic "Box" (.named "A"), []⟩ := by
    rw [read_of_generic form, read_of_name rfl]
    rfl
  refine ⟨reading, ?_, rfl⟩
  rw [ReadsCleanly, reading]
  refine ⟨rfl, fun name leaf => ?_⟩
  have same : name = "A" := by simpa [subexpressions] using leaf
  rw [same]
  rfl

end TypeExpr
end PolySchema
