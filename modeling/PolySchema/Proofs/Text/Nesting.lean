import PolySchema.Proofs.Text.Cut
import PolySchema.Text.Bracket

/-! Texts whose brackets are nested. Cutting and splitting read over such a text as a whole: what is
inside its brackets is never at top level, and after it the depth is the one before it. -/
namespace PolySchema.Text

/-- Every bracket of the text has its partner in the text, and `top` holds for the characters that
are not inside brackets. -/
inductive Nested : (Char → Prop) → List Char → Prop where
  | nil : Nested top []
  | plain (allowed : top c) (flat : opens c = false ∧ closes c = false) (rest : Nested top text) :
      Nested top (c :: text)
  | bracket (allowed : top left) (opening : opens left = true) (closing : closes right = true)
      (inside : Nested (fun _ => True) body) (rest : Nested top text) :
      Nested top (left :: (body ++ right :: text))

theorem opens_of_closes {c : Char} (closing : closes c = true) : opens c = false := by
  simp only [closes, Bool.or_eq_true, beq_iff_eq] at closing
  rcases closing with ((rfl | rfl) | rfl) | rfl <;> decide

theorem flat_of_class {p : Char → Bool} {c : Char}
    (without : (['(', '[', '{', '<', ')', ']', '}', '>'].all fun bracket => !p bracket) = true)
    (member : p c = true) : opens c = false ∧ closes c = false := by
  have outside : c ∉ ['(', '[', '{', '<', ')', ']', '}', '>'] := by
    intro bracket
    have absent := List.all_eq_true.mp without c bracket
    rw [member] at absent
    cases absent
  simp only [List.mem_cons, List.not_mem_nil, not_or] at outside
  simp [opens, closes, outside]

theorem isBlank_of_opens {c : Char} (opening : opens c = true) : isBlank c = false := by
  refine Bool.eq_false_iff.mpr fun blank => ?_
  rw [(flat_of_class (by decide) blank).1] at opening
  cases opening

theorem isBlank_of_closes {c : Char} (closing : closes c = true) : isBlank c = false := by
  refine Bool.eq_false_iff.mpr fun blank => ?_
  rw [(flat_of_class (by decide) blank).2] at closing
  cases closing

theorem flat_of_isIdentifierChar {c : Char} (inside : isIdentifierChar c = true) :
    opens c = false ∧ closes c = false :=
  flat_of_class (by decide) inside

theorem flat_of_isIdentifier {name : List Char} (valid : isIdentifier name = true) :
    ∀ c ∈ name, opens c = false ∧ closes c = false := by
  intro c member
  exact flat_of_isIdentifierChar (isIdentifierChar_of_mem valid member)

namespace Nested

theorem mono {top other : Char → Prop} (nested : Nested top text) (weaker : ∀ c, top c → other c) :
    Nested other text := by
  induction nested with
  | nil => exact .nil
  | plain allowed flat rest ih => exact .plain (weaker _ allowed) flat (ih weaker)
  | bracket allowed opening closing inside rest _ ih =>
    exact .bracket (weaker _ allowed) opening closing inside (ih weaker)

theorem append (first : Nested top text) (second : Nested top other) :
    Nested top (text ++ other) := by
  induction first with
  | nil => exact second
  | plain allowed flat rest ih => exact .plain allowed flat (ih second)
  | bracket allowed opening closing inside rest _ ih =>
    simpa using Nested.bracket allowed opening closing inside (ih second)

theorem of_flat (allowed : ∀ c ∈ text, top c)
    (flat : ∀ c ∈ text, opens c = false ∧ closes c = false) : Nested top text := by
  induction text with
  | nil => exact .nil
  | cons c rest ih =>
    exact .plain (allowed c (by simp)) (flat c (by simp))
      (ih (fun d member => allowed d (by simp [member])) fun d member => flat d (by simp [member]))

theorem of_marks (allowed : ∀ c ∈ text, top c)
    (flat : (text.all fun c => !opens c && !closes c) = true) : Nested top text :=
  of_flat allowed (by simpa using flat)

theorem enclose (inside : Nested other text) (allowed : top left) (opening : opens left = true)
    (closing : closes right = true) : Nested top (left :: (text ++ [right])) :=
  .bracket allowed opening closing (inside.mono fun _ _ => trivial) .nil

theorem of_isIdentifier (valid : isIdentifier name = true) :
    Nested (isIdentifierChar · = true) name :=
  of_flat (fun _ member => isIdentifierChar_of_mem valid member) (flat_of_isIdentifier valid)

theorem intercalate {separator : List Char} {items : List (List Char)}
    (between : Nested top separator) (nested : ∀ item ∈ items, Nested top item) :
    Nested top (separator.intercalate items) :=
  intercalate_induction .nil append between nested

end Nested

/-- Looking for the closing bracket passes over a nested text. -/
theorem cutClose?_append (nested : Nested top text) (depth : Nat) (rest : List Char) :
    cutClose? (depth + 1) (text ++ rest) =
      (cutClose? (depth + 1) rest).map fun cut => (text ++ cut.1, cut.2) := by
  induction nested generalizing depth rest with
  | nil => simp
  | plain _ flat _ ih =>
    simp only [List.cons_append, cutClose?, flat, Bool.false_eq_true, ↓reduceIte, ih,
      Option.map_map]
    rfl
  | bracket _ opening closing _ _ insideIh restIh =>
    simp only [List.cons_append, List.append_assoc, cutClose?, opening, closing,
      opens_of_closes closing, Bool.false_eq_true, ↓reduceIte, insideIh, restIh, Option.map_map]
    rfl

/-- A bracket that is opened in front of a nested text closes right after it. -/
theorem cutClose?_nested (nested : Nested top text) (closing : closes right = true)
    (rest : List Char) : cutClose? 1 (text ++ right :: rest) = some (text, rest) := by
  rw [cutClose?_append nested]
  simp [cutClose?, closing, opens_of_closes closing]

theorem depthAfter_opens (opening : opens c = true) (depth : Nat) :
    depthAfter depth c = depth + 1 := by
  simp [depthAfter, opening]

theorem depthAfter_closes (closing : closes c = true) (depth : Nat) :
    depthAfter depth c = depth - 1 := by
  simp [depthAfter, closing, opens_of_closes closing]

theorem depthAfter_flat (flat : opens c = false ∧ closes c = false) (depth : Nat) :
    depthAfter depth c = depth := by
  simp [depthAfter, flat]

/-- Looking for a character passes over a nested text that does not have it at top level. -/
theorem cutTopFrom?_append {needle : Char} {depth : Nat} (nested : Nested top text)
    (absent : depth = 0 → ¬ top needle) (rest : List Char) :
    cutTopFrom? needle depth (text ++ rest) =
      (cutTopFrom? needle depth rest).map fun cut => (text ++ cut.1, cut.2) := by
  induction nested generalizing depth rest with
  | nil => simp
  | @plain top c text allowed flat _ ih =>
    have other : (c == needle && depth == 0) = false := by
      refine Bool.eq_false_iff.mpr fun here => ?_
      simp only [Bool.and_eq_true, beq_iff_eq] at here
      exact absent here.2 (here.1 ▸ allowed)
    simp only [List.cons_append, cutTopFrom?, other, depthAfter_flat flat, Bool.false_eq_true,
      ↓reduceIte, ih absent, Option.map_map]
    rfl
  | @bracket top left right body text allowed opening closing _ _ insideIh restIh =>
    have other : (left == needle && depth == 0) = false := by
      refine Bool.eq_false_iff.mpr fun here => ?_
      simp only [Bool.and_eq_true, beq_iff_eq] at here
      exact absent here.2 (here.1 ▸ allowed)
    have deeper : (right == needle && depth + 1 == 0) = false := by simp
    have inner : depth + 1 = 0 → ¬ True := by simp
    simp only [List.cons_append, List.append_assoc, cutTopFrom?, other, deeper,
      depthAfter_opens opening, depthAfter_closes closing, Bool.false_eq_true, ↓reduceIte,
      insideIh inner, Nat.add_sub_cancel, restIh absent, Option.map_map]
    rfl

theorem cutTop?_nested {needle : Char} (nested : Nested top text) (absent : ¬ top needle)
    (rest : List Char) : cutTop? needle (text ++ needle :: rest) = some (text, rest) := by
  rw [cutTop?, cutTopFrom?_append nested fun _ => absent]
  simp [cutTopFrom?]

/-- Splitting keeps a nested text without the separator at top level in one piece. -/
theorem topPieces_append {separator : Char} {depth : Nat} (nested : Nested top text)
    (absent : depth = 0 → ¬ top separator) (rest : List Char) :
    topPieces separator depth (text ++ rest) =
      (topPieces separator depth rest).modifyHead (text ++ ·) := by
  induction nested generalizing depth rest with
  | nil => exact (congrFun List.modifyHead_id _).symm
  | @plain top c text allowed flat _ ih =>
    have other : (c == separator && depth == 0 && !opens c && !closes c) = false := by
      refine Bool.eq_false_iff.mpr fun here => ?_
      simp only [Bool.and_eq_true, beq_iff_eq] at here
      exact absent here.1.1.2 (here.1.1.1 ▸ allowed)
    simp only [List.cons_append, topPieces, other, depthAfter_flat flat, Bool.false_eq_true,
      ↓reduceIte, ih absent, List.modifyHead_modifyHead]
    rfl
  | @bracket top left right body text allowed opening closing _ _ insideIh restIh =>
    have leftKept : (left == separator && depth == 0 && !opens left && !closes left) = false := by
      simp [opening]
    have rightKept : (right == separator && depth + 1 == 0 && !opens right && !closes right) =
        false := by
      simp
    have inner : depth + 1 = 0 → ¬ True := by simp
    simp only [List.cons_append, List.append_assoc, topPieces, leftKept, rightKept,
      depthAfter_opens opening, depthAfter_closes closing, Bool.false_eq_true, ↓reduceIte,
      insideIh inner, Nat.add_sub_cancel, restIh absent,
      List.modifyHead_modifyHead]
    rfl

theorem topPieces_nested {separator : Char} (nested : Nested top text) (absent : ¬ top separator) :
    topPieces separator 0 text = [text] := by
  simpa [topPieces] using topPieces_append nested (fun _ => absent) []

theorem topPieces_separated {separator : Char} (nested : Nested top text)
    (absent : ¬ top separator) (flat : opens separator = false ∧ closes separator = false)
    (rest : List Char) :
    topPieces separator 0 (text ++ separator :: rest) = text :: topPieces separator 0 rest := by
  rw [topPieces_append nested fun _ => absent]
  simp [topPieces, flat]

theorem Blank.nested (blank : Blank text) : Nested (isBlank · = true) text := by
  exact .of_flat blank fun c member => flat_of_class (by decide) (blank c member)

/-- A text that can stand between commas. -/
structure IsItem (text : List Char) : Prop where
  tight : Tight text
  nested : Nested (· ≠ ',') text

theorem nested_intercalate {items : List (List Char)} (valid : ∀ item ∈ items, IsItem item) :
    Nested (fun _ => True) ([',', ' '].intercalate items) :=
  .intercalate (.of_marks (by simp) rfl) fun item member =>
    (valid item member).nested.mono fun _ _ => trivial

theorem nested_padded {items : List (List Char)} (valid : ∀ item ∈ items, IsItem item) :
    Nested (fun _ => True) ([' '] ++ ([',', ' '].intercalate items ++ [' '])) := by
  have space : Nested (fun _ => True) [' '] := .of_marks (by simp) rfl
  exact space.append ((nested_intercalate valid).append space)

private theorem Blank.nested_ne_comma (blank : Blank text) : Nested (· ≠ ',') text :=
  blank.nested.mono fun c hidden same => absurd (same ▸ hidden) (by decide)

/-- Splitting undoes joining. Blanks around the joined text do not matter. -/
theorem splitTop_intercalate {items : List (List Char)} (nonempty : items ≠ [])
    (valid : ∀ item ∈ items, IsItem item) (before : Blank left) (after : Blank right) :
    splitTop ',' (left ++ ([',', ' '].intercalate items ++ right)) = items := by
  induction items generalizing left with
  | nil => exact absurd rfl nonempty
  | cons item rest ih =>
    have first := valid item (by simp)
    have padded := before.nested_ne_comma.append first.nested
    cases rest with
    | nil =>
      have whole := padded.append after.nested_ne_comma
      rw [List.append_assoc] at whole
      rw [List.intercalate_singleton, splitTop, topPieces_nested whole (by simp)]
      simp [trim_padding first.tight before after]
    | cons next rest =>
      have tail := ih (by simp) (fun other member => valid other (by simp [member])) blank_space
      have shape : left ++ ([',', ' '].intercalate (item :: next :: rest) ++ right) =
          (left ++ item) ++ ',' :: ([' '] ++ ([',', ' '].intercalate (next :: rest) ++ right)) := by
        simp [List.intercalate_cons_cons]
      rw [shape, splitTop, topPieces_separated padded (by simp) (by decide), List.map_cons]
      have trimmed := trim_padding first.tight before blank_nil
      rw [List.append_nil] at trimmed
      rw [trimmed]
      exact congrArg (item :: ·) tail

theorem items_intercalate {texts : List (List Char)} (valid : ∀ item ∈ texts, IsItem item)
    (before : Blank left) (after : Blank right) :
    items (left ++ ([',', ' '].intercalate texts ++ right)) = texts := by
  cases texts with
  | nil =>
    have blank : Blank (left ++ right) := by
      intro c member
      exact (List.mem_append.mp member).elim (before c) (after c)
    simp [items, splitTop, topPieces_nested blank.nested_ne_comma, trim_blank blank]
  | cons item rest =>
    rw [items, splitTop_intercalate (by simp) valid before after]
    refine List.filter_eq_self.mpr fun text member => ?_
    simpa using (valid text member).tight.ne_nil

theorem items_single (valid : IsItem item) : items item = [item] := by
  have single : ∀ text ∈ [item], IsItem text := by simpa using valid
  simpa using items_intercalate single blank_nil blank_nil

theorem items_trailing_comma (valid : IsItem item) : items (item ++ [',']) = [item] := by
  rw [items, splitTop, topPieces_separated valid.nested (by simp) (by decide)]
  simp [topPieces, valid.tight.trim_eq, valid.tight.ne_nil, trim_blank blank_nil]

/-- The bracket that brings the depth back is never the last of a text that ends with a pair. -/
theorem cutClose?_pair_ne (text before : List Char) (depth : Nat) :
    cutClose? (depth + 1) (text ++ ['[', ']']) ≠ some (before, []) := by
  induction text generalizing depth before with
  | nil => simp [cutClose?, opens, closes]
  | cons c rest ih =>
    have deeper (depth : Nat) : ((cutClose? (depth + 1) (rest ++ ['[', ']'])).map
        fun cut => (c :: cut.1, cut.2)) ≠ some (before, []) := by
      intro found
      obtain ⟨⟨first, last⟩, inner, shape⟩ := Option.map_eq_some_iff.mp found
      cases shape
      exact ih first depth inner
    rw [List.cons_append]
    unfold cutClose?
    split
    · exact deeper (depth + 1)
    · split
      · cases depth with
        | zero => simp
        | succ depth => exact deeper depth
      · exact deeper depth

end PolySchema.Text
