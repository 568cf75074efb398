import PolySchema.Identifier
import PolySchema.Text.Bracket

/-! The outermost form of a type text. Recognising a form cuts the text once; every part that is
read further is shorter than the text it was cut from. -/
namespace PolySchema

/-- The parts of a text `name: type`. A question mark after either part makes the field
optional. -/
structure FieldText where
  name : List Char
  type : List Char
  optional : Bool

/-- The text without one question mark at its end, and whether there was one. -/
def FieldText.unmark (text : List Char) : List Char × Bool :=
  match Text.dropEnding? ['?'] text with
  | some rest => (Text.trimEnd rest, true)
  | none => (text, false)

/-- The parts of a field text, if its name is an identifier and its type is not empty. -/
def FieldText.ofText? (text : List Char) : Option FieldText :=
  match Text.cutTop? ':' text with
  | none => none
  | some (before, after) =>
    let name := unmark (Text.trim before)
    let type := unmark (Text.trim after)
    if isIdentifier name.1 && !type.1.isEmpty then some ⟨name.1, type.1, name.2 || type.2⟩
    else none

inductive TypeForm where
  | empty
  /-- A question mark where none belongs, after the rest of the text. -/
  | marked (rest : List Char)
  | map (key value : List Char)
  /-- A map without exactly one key and one value. -/
  | mapArity
  | generic (base argument : List Char)
  | array (element : List Char)
  | record (items : List (List Char))
  | name

namespace TypeForm

/-- The base name that makes a generic application a map. -/
def mapName : List Char := ['R', 'e', 'c', 'o', 'r', 'd']

/-- Base and argument of a text that is a generic application as a whole. -/
def application? (text : List Char) : Option (List Char × List Char) :=
  match Text.cutFirst? '<' text with
  | none => none
  | some (before, after) =>
    match Text.cutClose? 1 after with
    | some (argument, []) =>
      if isIdentifier (Text.trim before) then some (Text.trim before, argument) else none
    | _ => none

/-- The text between the braces of a text that is a record as a whole. -/
def recordBody? : List Char → Option (List Char)
  | '{' :: rest =>
    match Text.cutClose? 1 rest with
    | some (body, []) => some body
    | _ => none
  | _ => none

/-- A map has exactly two parts, neither of them empty. -/
def ofMapArgument (argument : List Char) : TypeForm :=
  match Text.splitTop ',' argument with
  | [key, value] => if key.isEmpty || value.isEmpty then .mapArity else .map key value
  | _ => .mapArity

/-- The form of a trimmed text. -/
def ofText (text : List Char) : TypeForm :=
  if text.isEmpty then .empty
  else match Text.dropEnding? ['?'] text with
    | some rest => .marked rest
    | none =>
      match application? text with
      | some (base, argument) =>
        if base == mapName then ofMapArgument argument else .generic base argument
      | none =>
        match Text.dropEnding? ['[', ']'] text with
        | some element => .array element
        | none =>
          match recordBody? text with
          | some body => .record (Text.items body)
          | none => .name

/-- The texts that are read further. -/
def parts : TypeForm → List (List Char)
  | .empty | .mapArity | .name => []
  | .marked rest => [rest]
  | .map key value => [key, value]
  | .generic _ argument => [argument]
  | .array element => [element]
  | .record items => items

theorem application?_eq_some {text base argument : List Char}
    (found : application? text = some (base, argument)) :
    ∃ before bracket, text = before ++ '<' :: (argument ++ [bracket]) ∧ base = Text.trim before ∧
      Text.closes bracket = true ∧ isIdentifier base = true := by
  unfold application? at found
  split at found
  · cases found
  · rename_i before after cut
    split at found
    · rename_i inner closed
      split at found
      · rename_i valid
        simp only [Option.some.injEq, Prod.mk.injEq] at found
        obtain ⟨rfl, rfl⟩ := found
        obtain ⟨bracket, closing, same⟩ := Text.cutClose?_eq_some closed
        exact ⟨before, bracket, by rw [Text.cutFirst?_eq_some cut, same], rfl, closing, valid⟩
      · cases found
    · cases found

theorem recordBody?_eq_some {text body : List Char} (found : recordBody? text = some body) :
    ∃ bracket, text = '{' :: (body ++ [bracket]) ∧ Text.closes bracket = true := by
  unfold recordBody? at found
  split at found
  · split at found
    · rename_i closed
      cases found
      obtain ⟨bracket, closing, same⟩ := Text.cutClose?_eq_some closed
      exact ⟨bracket, by rw [same], closing⟩
    · cases found
  · cases found

private theorem length_le_of_mem_ofMapArgument {argument part : List Char}
    (member : part ∈ (ofMapArgument argument).parts) : part.length ≤ argument.length := by
  unfold ofMapArgument at member
  split at member
  · rename_i key value split
    split at member
    · cases member
    · have inside : part ∈ Text.splitTop ',' argument := by simpa [parts, split] using member
      exact Text.length_le_of_mem_splitTop inside
  · cases member

/-- Reading a part is reading a shorter text. -/
theorem length_lt_of_mem_parts {text part : List Char} (member : part ∈ (ofText text).parts) :
    part.length < text.length := by
  unfold ofText at member
  split at member
  · cases member
  · split at member
    · rename_i rest cut
      simp only [parts, List.mem_singleton] at member
      subst member
      rw [Text.dropEnding?_eq_some_iff.mp cut]
      simp
    · split at member
      · rename_i base argument found
        obtain ⟨before, bracket, rfl, _, _⟩ := application?_eq_some found
        have within : part.length ≤ argument.length := by
          split at member
          · exact length_le_of_mem_ofMapArgument member
          · simp only [parts, List.mem_singleton] at member
            subst member
            exact Nat.le_refl _
        simp only [List.length_append, List.length_cons, List.length_nil]
        omega
      · split at member
        · rename_i element cut
          simp only [parts, List.mem_singleton] at member
          subst member
          rw [Text.dropEnding?_eq_some_iff.mp cut]
          simp
        · split at member
          · rename_i body found
            obtain ⟨bracket, rfl, _⟩ := recordBody?_eq_some found
            have within := Text.length_le_of_mem_items member
            simp only [List.length_append, List.length_cons, List.length_nil]
            omega
          · cases member

end TypeForm

private theorem length_unmark_le (text : List Char) :
    (FieldText.unmark text).1.length ≤ text.length := by
  unfold FieldText.unmark
  split
  · rename_i rest cut
    have shorter := Text.length_trimEnd_le rest
    rw [Text.dropEnding?_eq_some_iff.mp cut]
    simp only [List.length_append]
    omega
  · exact Nat.le_refl _

theorem FieldText.length_type_lt {text : List Char} {parts : FieldText}
    (found : FieldText.ofText? text = some parts) : parts.type.length < text.length := by
  unfold FieldText.ofText? at found
  split at found
  · cases found
  · rename_i before after cut
    dsimp only at found
    split at found
    · cases found
      have unmarked := length_unmark_le (Text.trim after)
      have trimmed := Text.length_trim_le after
      rw [Text.cutTop?_eq_some cut]
      simp only [List.length_append, List.length_cons]
      omega
    · cases found

end PolySchema
