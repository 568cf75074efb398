import PolySchema.Document.Printer
import PolySchema.Proofs.Text.Nesting
import PolySchema.Statement

namespace PolySchema

/-- The first word of a line. -/
def Line.word (text : List Char) : List Char := text.takeWhile fun c => !Text.isBlank c

theorem Line.word_append {name : List Char} (valid : isIdentifier name = true) (rest : List Char) :
    Line.word (name ++ rest) = name ++ Line.word rest := by
  apply List.takeWhile_append_of_pos
  intro c member
  rw [visible_of_isIdentifier valid c member]
  rfl

namespace Keyword

theorem isIdentifier_word (keyword : Keyword) : isIdentifier keyword.word.toList = true := by
  cases keyword <;> decide

theorem word_of_ofLine? {keyword : Keyword} {text : List Char}
    (found : Keyword.ofLine? text = some keyword) : Line.word text = keyword.word.toList := by
  unfold Keyword.ofLine? at found
  dsimp only at found
  split at found
  · cases found
  · split at found <;> rename_i same <;> cases found <;>
      exact String.toList_ofList.symm.trans (congrArg String.toList same)

/-- A first word with anything but name characters in it is no keyword. -/
theorem ofLine?_eq_none {text : List Char} (member : c ∈ Line.word text)
    (outside : isIdentifierChar c = false) : Keyword.ofLine? text = none := by
  cases found : Keyword.ofLine? text with
  | none => rfl
  | some keyword =>
    rw [word_of_ofLine? found] at member
    rw [isIdentifierChar_of_mem keyword.isIdentifier_word member] at outside
    cases outside

theorem ofLine?_word (keyword : Keyword) {name : List Char} (valid : isIdentifier name = true)
    (rest : List Char) :
    Keyword.ofLine? (keyword.word.toList ++ ' ' :: (name ++ rest)) = some keyword := by
  have word : (keyword.word.toList ++ ' ' :: (name ++ rest)).takeWhile (fun c => !Text.isBlank c) =
      keyword.word.toList :=
    (Line.word_append keyword.isIdentifier_word _).trans (List.append_nil _)
  have left : (keyword.word.toList ++ ' ' :: (name ++ rest)).dropWhile (fun c => !Text.isBlank c) =
      ' ' :: (name ++ rest) := by
    have parts := List.takeWhile_append_dropWhile (p := fun c => !Text.isBlank c)
      (l := keyword.word.toList ++ ' ' :: (name ++ rest))
    rw [word] at parts
    exact List.append_cancel_left parts
  cases name with
  | nil => cases valid
  | cons first others =>
    have start : isIdentifierChar first = true := isIdentifierChar_of_mem valid (by simp)
    have trimmed : Text.trimStart (' ' :: (first :: others ++ rest)) = first :: others ++ rest :=
      Text.trimStart_padding ⟨first, rfl, isBlank_of_isIdentifierChar start⟩ Text.blank_space
    have colon : first ≠ ':' := ne_of_isIdentifierChar start rfl
    have parenthesis : first ≠ '(' := ne_of_isIdentifierChar start rfl
    simp only [Keyword.ofLine?, word, left, trimmed]
    cases keyword <;> simp [Keyword.word, colon, parenthesis]

theorem head?_ne_of_isSome {text : List Char} (brace : Char)
    (found : (Keyword.ofLine? text).isSome = true) (outside : isIdentifierChar brace = false)
    (visible : Text.isBlank brace = false) : text.head? ≠ some brace := by
  intro start
  cases text with
  | nil => cases start
  | cons c rest =>
    rw [List.head?_cons, Option.some.injEq] at start
    subst start
    have word : c ∈ Line.word (c :: rest) := by
      rw [Line.word, List.takeWhile_cons_of_pos (by rw [visible]; rfl)]
      exact List.mem_cons_self
    rw [Keyword.ofLine?_eq_none word outside] at found
    cases found

end Keyword

namespace Statement

/-- The first statement of a list of lines, and the lines left after it. -/
def take (first : Line) (rest : List Line) : Statement × List Line :=
  match Keyword.ofLine? first.text with
  | some .struct => (.struct (Block.take first rest).1, (Block.take first rest).2)
  | some .interface => (.interface (Block.take first rest).1, (Block.take first rest).2)
  | some .function => (.function first, rest)
  | some .alias => (.alias first, rest)
  | none => (.stray first, rest)

theorem group_cons (first : Line) (rest : List Line) :
    Statement.group (first :: rest) =
      (Statement.take first rest).1 :: Statement.group (Statement.take first rest).2 := by
  rw [Statement.group, Statement.take]
  split <;> simp_all

theorem length_take_le (first : Line) (rest : List Line) :
    (Statement.take first rest).2.length ≤ rest.length := by
  unfold Statement.take
  split
  · exact Block.length_rest_le first rest
  · exact Block.length_rest_le first rest
  · exact Nat.le_refl _
  · exact Nat.le_refl _
  · exact Nat.le_refl _

/-- Induction on lines, one statement at a time. -/
theorem induction {motive : List Line → Prop} (nil : motive [])
    (cons : ∀ first rest, motive (Statement.take first rest).2 → motive (first :: rest))
    (lines : List Line) : motive lines := by
  refine (measure List.length).wf.induction lines fun lines ih => ?_
  cases lines with
  | nil => exact nil
  | cons first rest =>
    apply cons first rest
    exact ih _ (Nat.lt_succ_of_le (length_take_le first rest))

end Statement

/-- The text of an item of a body: it can stand between commas, and the name that it starts with is
directly followed by a character of another kind. -/
structure IsBodyItem (text : List Char) : Prop where
  item : Text.IsItem text
  named : ∃ name mark rest, text = name ++ mark :: rest ∧ isIdentifier name = true ∧
    isIdentifierChar mark = false ∧ Text.isBlank mark = false

/-- A line that neither ends a body nor starts a declaration. -/
def Line.ContinuesBody (text : List Char) : Prop :=
  text.head? ≠ some '}' ∧ Keyword.ofLine? text = none

/-- Names of items can be keywords, since what follows them tells them apart. -/
theorem IsBodyItem.continuesBody (valid : IsBodyItem text) (suffix : List Char) :
    Line.ContinuesBody (text ++ suffix) := by
  obtain ⟨name, mark, rest, rfl, identifier, outside, visible⟩ := valid.named
  have word : mark ∈ Line.word (name ++ mark :: rest ++ suffix) := by
    rw [List.append_assoc, Line.word_append identifier]
    simp [Line.word, visible]
  refine ⟨?_, Keyword.ofLine?_eq_none word outside⟩
  cases name with
  | nil => cases identifier
  | cons first others =>
    have start : isIdentifierChar first = true := isIdentifierChar_of_mem identifier (by simp)
    simpa using ne_of_isIdentifierChar start rfl

/-- A body takes the lines up to the one that starts with a closing brace. -/
theorem BlockTail.take_closed {lines : List Line} {close : Line}
    (inside : ∀ line ∈ lines, Line.ContinuesBody line.text)
    (closing : close.text.head? = some '}') (rest : List Line) :
    BlockTail.take true (lines ++ close :: rest) = ⟨lines, true, rest⟩ := by
  induction lines with
  | nil => simp [BlockTail.take, closing]
  | cons line lines ih =>
    obtain ⟨unclosed, plain⟩ := inside line (by simp)
    have tail := ih fun other member => inside other (by simp [member])
    simp [BlockTail.take, unclosed, plain, tail]

namespace Block

theorem map_text_items (block : Block) :
    block.items.map Line.text = (block.body.map Line.text).flatMap Text.items := by
  simp [Block.items, List.map_flatMap, List.flatMap_map, Function.comp_def]

variable {header : List Char}

private theorem cutFirst?_header (absent : '{' ∉ header) (rest : List Char) :
    Text.cutFirst? '{' (header ++ ([' '] ++ '{' :: rest)) = some (header ++ [' '], rest) := by
  have plain : '{' ∉ header ++ [' '] := by simpa using absent
  simpa using Text.cutFirst?_append plain rest

private theorem trim_header (tight : Text.Tight header) : Text.trim (header ++ [' ']) = header := by
  simpa using Text.trim_padding tight Text.blank_nil Text.blank_space

theorem take_inline (absent : '{' ∉ header) (tight : Text.Tight header)
    (nested : Text.Nested top inside) (number : Nat) (rest : List Line) :
    Block.take ⟨number, header ++ ([' '] ++ '{' :: (inside ++ ['}']))⟩ rest =
      (⟨number, header, [⟨number, inside⟩], true⟩, rest) := by
  have closed : Text.cutClose? 1 (inside ++ ['}']) = some (inside, []) :=
    Text.cutClose?_nested nested rfl []
  simp only [Block.take, cutFirst?_header absent, closed, trim_header tight]

theorem take_opened (absent : '{' ∉ header) (tight : Text.Tight header) {lines : List Line}
    {close : Line} (inside : ∀ line ∈ lines, Line.ContinuesBody line.text)
    (closing : close.text.head? = some '}') (number : Nat) (rest : List Line) :
    Block.take ⟨number, header ++ ([' '] ++ ['{'])⟩ (lines ++ close :: rest) =
      (⟨number, header, ⟨number, []⟩ :: lines, true⟩, rest) := by
  have unclosed : Text.cutClose? 1 [] = none := rfl
  simp only [Block.take, cutFirst?_header absent, unclosed, trim_header tight,
    BlockTail.take_closed inside closing rest]

theorem take_lowered (absent : '{' ∉ header) {lines : List Line} {brace close : Line}
    (opening : brace.text = ['{']) (inside : ∀ line ∈ lines, Line.ContinuesBody line.text)
    (closing : close.text.head? = some '}') (number : Nat) (rest : List Line) :
    Block.take ⟨number, header⟩ (brace :: (lines ++ close :: rest)) =
      (⟨number, header, lines, true⟩, rest) := by
  have tail := BlockTail.take_closed inside closing rest
  have opened : BlockTail.take false (brace :: (lines ++ close :: rest)) = ⟨lines, true, rest⟩ := by
    simp [BlockTail.take, opening, tail]
  simp only [Block.take, Text.cutFirst?_eq_none absent, opened]

end Block

namespace BodyLayout

/-- The lines of the items of a body that has one line for each. -/
def itemLines (comma : Nat → Bool) (start : Nat) (items : List String) : List (List Char) :=
  (items.zipIdx start).map fun item => item.1.toList ++ if comma item.2 then [','] else []

private theorem continuesBody_itemLines {items : List String}
    (valid : ∀ item ∈ items, IsBodyItem item.toList) (comma : Nat → Bool) (start : Nat) :
    ∀ text ∈ itemLines comma start items, Line.ContinuesBody text := by
  intro text member
  obtain ⟨item, present, rfl⟩ := List.mem_map.mp member
  exact (valid item.1 (List.fst_mem_of_mem_zipIdx present)).continuesBody _

/-- Commas at the ends of the lines do not matter. -/
private theorem flatMap_items_itemLines {items : List String}
    (valid : ∀ item ∈ items, IsBodyItem item.toList) (comma : Nat → Bool) (start : Nat) :
    (itemLines comma start items).flatMap Text.items = items.map String.toList := by
  induction items generalizing start with
  | nil => rfl
  | cons item rest ih =>
    have first := (valid item (by simp)).item
    have tail := ih (fun other member => valid other (by simp [member])) (start + 1)
    have own : Text.items (item.toList ++ if comma start then [','] else []) = [item.toList] := by
      split
      · exact Text.items_trailing_comma first
      · simpa using Text.items_single first
    rw [itemLines, List.zipIdx_cons, List.map_cons, List.flatMap_cons, own, List.map_cons]
    exact congrArg (item.toList :: ·) tail

theorem map_toList_print_lines (header : String) (items : List String) (lowered : Bool)
    (comma : Nat → Bool) :
    ((BodyLayout.lines lowered comma).print header items).map String.toList =
      (if lowered then [header.toList, ['{']] else [header.toList ++ ([' '] ++ ['{'])]) ++
        (itemLines comma 0 items ++ [['}']]) := by
  have item (entry : String × Nat) :
      (if comma entry.2 then entry.1 ++ "," else entry.1).toList =
        entry.1.toList ++ if comma entry.2 then [','] else [] := by
    split <;> simp
  cases lowered <;> simp [BodyLayout.print, itemLines, Function.comp_def, item]

/-- What stands between the braces of a body on one line. -/
def inlineText (items : List String) : List Char :=
  if items.isEmpty then []
  else [' '] ++ ([',', ' '].intercalate (items.map String.toList) ++ [' '])

theorem map_toList_print_inline (header : String) (items : List String) :
    (BodyLayout.inline.print header items).map String.toList =
      [header.toList ++ ([' '] ++ '{' :: (inlineText items ++ ['}']))] := by
  simp only [BodyLayout.print, inlineText]
  split <;> simp [String.toList_intercalate]

private theorem isItem_toList {items : List String}
    (valid : ∀ item ∈ items, IsBodyItem item.toList) :
    ∀ text ∈ items.map String.toList, Text.IsItem text := by
  intro text member
  obtain ⟨item, present, rfl⟩ := List.mem_map.mp member
  exact (valid item present).item

private theorem nested_inlineText {items : List String}
    (valid : ∀ item ∈ items, IsBodyItem item.toList) :
    Text.Nested (fun _ => True) (inlineText items) := by
  unfold inlineText
  split
  · exact .nil
  · exact Text.nested_padded (isItem_toList valid)

private theorem items_inlineText {items : List String}
    (valid : ∀ item ∈ items, IsBodyItem item.toList) :
    Text.items (inlineText items) = items.map String.toList := by
  unfold inlineText
  split
  · rename_i empty
    rw [List.isEmpty_iff.mp empty]
    rfl
  · exact Text.items_intercalate (isItem_toList valid) Text.blank_space Text.blank_space

/-- Whatever the layout, the block of a printed body has its header and its items. -/
theorem take_print (layout : BodyLayout) {header : String} {items : List String}
    (absent : '{' ∉ header.toList) (tight : Text.Tight header.toList)
    (valid : ∀ item ∈ items, IsBodyItem item.toList) {lines : List Line}
    (texts : lines.map Line.text = (layout.print header items).map String.toList)
    (rest : List Line) :
    ∃ first others block, lines = first :: others ∧
      (∃ suffix, first.text = header.toList ++ suffix) ∧
      Block.take first (others ++ rest) = (block, rest) ∧ block.header = header.toList ∧
      block.closed = true ∧ block.items.map Line.text = items.map String.toList := by
  cases layout with
  | inline =>
    rw [map_toList_print_inline] at texts
    obtain ⟨⟨number, text⟩, rfl, shape⟩ := List.map_eq_singleton_iff.mp texts
    subst shape
    refine ⟨_, [], _, rfl, ⟨_, rfl⟩,
      Block.take_inline absent tight (nested_inlineText valid) number rest, rfl, rfl, ?_⟩
    rw [Block.map_text_items]
    simpa using items_inlineText valid
  | lines lowered comma =>
    -- The header is on one line or two; items and closing brace are the same in both layouts.
    rw [map_toList_print_lines] at texts
    obtain ⟨front, back, rfl, frontTexts, backTexts⟩ := List.map_eq_append_iff.mp texts
    obtain ⟨body, final, rfl, bodyTexts, finalTexts⟩ := List.map_eq_append_iff.mp backTexts
    obtain ⟨close, rfl, closing⟩ := List.map_eq_singleton_iff.mp finalTexts
    have inside : ∀ line ∈ body, Line.ContinuesBody line.text := by
      intro line member
      refine continuesBody_itemLines valid comma 0 line.text ?_
      rw [← bodyTexts]
      exact List.mem_map_of_mem member
    have head : close.text.head? = some '}' := by rw [closing]; rfl
    have same : (body.map Line.text).flatMap Text.items = items.map String.toList := by
      rw [bodyTexts, flatMap_items_itemLines valid]
    cases lowered with
    | false =>
      obtain ⟨⟨number, text⟩, rfl, shape⟩ := List.map_eq_singleton_iff.mp frontTexts
      subst shape
      have taken := Block.take_opened absent tight inside head number rest
      refine ⟨_, body ++ [close], _, rfl, ⟨_, rfl⟩, by simpa using taken, rfl, rfl, ?_⟩
      rw [Block.map_text_items, List.map_cons, List.flatMap_cons, same]
      rfl
    | true =>
      obtain ⟨⟨number, text⟩, lower, rfl, shape, lowerTexts⟩ := List.map_eq_cons_iff.mp frontTexts
      obtain ⟨brace, rfl, opening⟩ := List.map_eq_singleton_iff.mp lowerTexts
      subst shape
      have taken := Block.take_lowered absent opening inside head number rest
      refine ⟨_, brace :: (body ++ [close]), _, rfl, ⟨[], by simp⟩, by simpa using taken, rfl, rfl,
        ?_⟩
      rw [Block.map_text_items, same]

end BodyLayout
end PolySchema
