import PolySchema.Proofs.Text.Depth
import PolySchema.Proofs.TypeExpr.RoundTrip

namespace PolySchema

namespace TypeForm

/-- What the form of a text says about the parts that are read further. -/
def Describes (text : List Char) : TypeForm → Prop
  | .empty => text = []
  | .marked rest => text = rest ++ ['?']
  | .map key value => Text.Nested (· ≠ ',') key ∧ Text.Nested (· ≠ ',') value
  | .mapArity => True
  | .generic base argument =>
    isIdentifier base = true ∧ base ≠ mapName ∧ Text.Nested (fun _ => True) argument
  | .array element => text = element ++ ['[', ']']
  | .record items => ∀ item ∈ items, Text.Nested (· ≠ ',') item
  | .name => text ≠ []

theorem nested_of_application? {text base argument : List Char}
    (found : application? text = some (base, argument)) : Text.Nested (fun _ => True) argument := by
  unfold application? at found
  split at found
  · cases found
  · split at found
    · rename_i closed
      split at found
      · cases found
        exact Text.nested_of_cutClose? closed
      · cases found
    · cases found

theorem nested_of_recordBody? {text body : List Char}
    (found : recordBody? text = some body) : Text.Nested (fun _ => True) body := by
  unfold recordBody? at found
  split at found
  · split at found
    · rename_i closed
      cases found
      exact Text.nested_of_cutClose? closed
    · cases found
  · cases found

private theorem nested_of_mem_splitTop {text piece : List Char} (nested : Text.Nested top text)
    (member : piece ∈ Text.splitTop ',' text) : Text.Nested (· ≠ ',') piece := by
  obtain ⟨raw, inside, rfl⟩ := List.mem_map.mp member
  exact (Text.nested_of_mem_topPieces (by decide) nested inside).trim

private theorem describes_ofMapArgument {text argument : List Char}
    (nested : Text.Nested top argument) : (ofMapArgument argument).Describes text := by
  unfold ofMapArgument
  split
  · rename_i key value parts
    split
    · exact trivial
    · have pieces : ∀ piece ∈ [key, value], Text.Nested (· ≠ ',') piece := by
        intro piece member
        rw [← parts] at member
        exact nested_of_mem_splitTop nested member
      exact ⟨pieces key (by simp), pieces value (by simp)⟩
  · exact trivial

theorem describes_ofText (text : List Char) : (ofText text).Describes text := by
  unfold ofText
  split
  · rename_i empty
    exact List.isEmpty_iff.mp empty
  · rename_i nonempty
    split
    · rename_i rest marked
      exact Text.dropEnding?_eq_some_iff.mp marked
    · split
      · rename_i base argument found
        have nested := nested_of_application? found
        obtain ⟨_, _, _, _, _, valid⟩ := application?_eq_some found
        split
        · exact describes_ofMapArgument nested
        · rename_i other
          exact ⟨valid, by simpa using other, nested⟩
      · split
        · rename_i element paired
          exact Text.dropEnding?_eq_some_iff.mp paired
        · split
          · rename_i body found
            intro item member
            exact nested_of_mem_splitTop (nested_of_recordBody? found) (List.mem_filter.mp member).1
          · simpa [Describes] using nonempty

end TypeForm

namespace FieldText

private theorem nested_unmark {text : List Char} (nested : Text.Nested top text) :
    Text.Nested top (unmark text).1 := by
  unfold unmark
  split
  · rename_i rest marked
    have mark : Text.Nested (fun _ => True) ['?'] := .of_marks (by simp) rfl
    rw [Text.dropEnding?_eq_some_iff.mp marked] at nested
    exact (nested.of_append_left mark).trimEnd
  · exact nested

/-- The type of a field is nested if the field text is. -/
theorem nested_of_ofText? {text : List Char} {parts : FieldText} (found : ofText? text = some parts)
    (nested : Text.Nested top text) : Text.Nested top parts.type := by
  unfold ofText? at found
  split at found
  · cases found
  · rename_i before after cut
    dsimp only at found
    split at found
    · cases found
      exact nested_unmark (Text.nested_of_cutTop? (by decide) nested cut).trim
    · cases found

end FieldText

namespace TypeExpr

/-- What is read from a text is settled. Where the text is nested, so is the printed form, and it
has no further characters at top level than those of the text and those that printing always
adds. -/
structure SettlesTo (text : List Char) (type : TypeExpr) : Prop where
  settled : type.Settled
  nested : ∀ top : Char → Prop, (∀ c, isIdentifierChar c = true ∨ Text.opens c = true → top c) →
    Text.Nested top text → Text.Nested top type.print.toList

namespace SettlesTo

variable {text : List Char} {type : TypeExpr}

theorem of_isTypeText (settled : type.Settled) (shape : IsTypeText type.print.toList) :
    SettlesTo text type := by
  refine ⟨settled, ?_⟩
  intro top admits _
  exact shape.nested.mono admits

theorem of_isWritable (valid : type.isWritable = true) (unclassified : type.unclassify = type) :
    SettlesTo text type :=
  .of_isTypeText (unclassified ▸ settled_unclassify valid) (isTypeText_print valid)

theorem of_trim (settles : SettlesTo (Text.trim text) type) : SettlesTo text type := by
  refine ⟨settles.settled, ?_⟩
  intro top admits nested
  exact settles.nested top admits nested.trim

theorem of_name (tight : Text.Tight text) (form : TypeForm.ofText text = .name) :
    SettlesTo text (.named (String.ofList text)) := by
  have same : (String.ofList text).toList = text := String.toList_ofList
  constructor
  · exact .named (by rwa [same]) (by rwa [same])
  · intro top _ nested
    rwa [print, same]

theorem of_marked {rest : List Char} (settles : SettlesTo rest type) :
    SettlesTo (rest ++ ['?']) type := by
  refine ⟨settles.settled, ?_⟩
  intro top admits nested
  have mark : Text.Nested (fun _ => True) ['?'] := .of_marks (by simp) rfl
  exact settles.nested top admits (nested.of_append_left mark)

theorem of_array {element : List Char} (settles : SettlesTo element type) :
    SettlesTo (element ++ ['[', ']']) (.array type) := by
  refine ⟨.array settles.settled, ?_⟩
  intro top admits nested
  have pair : Text.Nested top ['[', ']'] := .bracket (admits _ (.inr rfl)) rfl rfl .nil .nil
  rw [toList_print_array]
  exact (settles.nested top admits (nested.of_append_left pair)).append pair

theorem isItem (settles : SettlesTo text type) (nested : Text.Nested (· ≠ ',') text) :
    Text.IsItem type.print.toList := by
  refine settles.settled.isItem (settles.nested _ ?_ nested)
  rintro c shape rfl
  revert shape
  decide

theorem of_map {left right : List Char} {key value : TypeExpr} (keySettles : SettlesTo left key)
    (valueSettles : SettlesTo right value) (keyNested : Text.Nested (· ≠ ',') left)
    (valueNested : Text.Nested (· ≠ ',') right) : SettlesTo text (.map key value) := by
  have keyItem := keySettles.isItem keyNested
  have valueItem := valueSettles.isItem valueNested
  refine .of_isTypeText ?_ (isTypeText_print_map keyItem valueItem)
  exact .map keySettles.settled valueSettles.settled keyItem.nested valueItem.nested

theorem of_generic {base argument : List Char} (settles : SettlesTo argument type)
    (valid : isIdentifier base = true) (other : base ≠ TypeForm.mapName)
    (inside : Text.Nested (fun _ => True) argument) :
    SettlesTo text (.generic (String.ofList base) type) := by
  have nested := settles.nested _ (fun _ _ => trivial) inside
  rw [← String.toList_ofList (l := base)] at valid other
  exact .of_isTypeText (.generic valid other settles.settled nested)
    (isTypeText_print_generic valid nested)

theorem of_record {fields : List Field}
    (names : ∀ field ∈ fields, isIdentifier field.name.toList = true)
    (types : ∀ field ∈ fields, ∃ inner, SettlesTo inner field.type ∧
      Text.Nested (· ≠ ',') inner) : SettlesTo text (.record fields) := by
  have settled : ∀ field ∈ fields, field.type.Settled := by
    intro field member
    obtain ⟨inner, settles, _⟩ := types field member
    exact settles.settled
  have items : ∀ field ∈ fields, Text.IsItem field.type.print.toList := by
    intro field member
    obtain ⟨inner, settles, nested⟩ := types field member
    exact settles.isItem nested
  exact .of_isTypeText (.record names settled fun field member => (items field member).nested)
    (isTypeText_print_record (Field.isItem_of_types names items))

end SettlesTo

/-- Whatever the text, reading settles it. -/
theorem settlesTo_read (line : Nat) (text : List Char) :
    SettlesTo text (TypeExpr.read line text).value := by
  induction text using TypeExpr.text_induction with
  | step text ih =>
    apply SettlesTo.of_trim
    have described := TypeForm.describes_ofText (Text.trim text)
    have part (inner : List Char) (member : inner ∈ (TypeForm.ofText (Text.trim text)).parts) :=
      ih inner (.part member)
    generalize form : TypeForm.ofText (Text.trim text) = shape at described part
    cases shape with
    | empty =>
      rw [read_of_empty form, Reported.value_bind, Reported.value_pure]
      exact .of_isWritable (by decide) rfl
    | marked rest =>
      rw [read_of_marked form]
      rw [described]
      exact (part rest (by simp [TypeForm.parts])).of_marked
    | map key value =>
      rw [read_of_map form]
      exact .of_map (part key (by simp [TypeForm.parts]))
        (part value (by simp [TypeForm.parts])) described.1 described.2
    | mapArity =>
      rw [read_of_mapArity form, Reported.value_bind, Reported.value_pure]
      exact .of_isWritable (by decide) rfl
    | generic base argument =>
      rw [read_of_generic form]
      exact .of_generic (part argument (by simp [TypeForm.parts])) described.1 described.2.1
        described.2.2
    | array element =>
      rw [read_of_array form]
      rw [described]
      exact (part element (by simp [TypeForm.parts])).of_array
    | record items =>
      rw [read_of_record form]
      have parts (field : Field)
          (member : field ∈ (Field.readItems .malformedRecordField line items).value) :
          isIdentifier field.name.toList = true ∧
            ∃ inner, SettlesTo inner field.type ∧ Text.Nested (· ≠ ',') inner := by
        obtain ⟨item, present, parts, found, rfl⟩ := Field.exists_parts_of_mem_readItems member
        have valid := (FieldText.of_ofText? found).1
        have nested := FieldText.nested_of_ofText? found (described item present)
        refine ⟨by rwa [String.toList_ofList], parts.type, ?_, nested⟩
        exact ih parts.type (.field form present found)
      exact .of_record (fun field member => (parts field member).1)
        fun field member => (parts field member).2
    | name =>
      rw [read_of_name form]
      exact .of_name (Text.tight_trim described) form

/-- Printing what was read from any text and reading it again gives the same, and nothing is wrong
with it any more. -/
theorem read_print_read (line again : Nat) (text : List Char) :
    let type := (TypeExpr.read line text).value
    TypeExpr.read again type.print.toList = ⟨type, []⟩ :=
  (settlesTo_read line text).settled.read_print again

end TypeExpr
end PolySchema
