import Mathlib.Data.List.Chain
import PolySchema.Proofs.Text.Balance
import PolySchema.Proofs.Text.Part

/-! Closing brackets of another kind. Cutting and splitting do not see of which kind a closing
bracket is, so they do the same to a text and to the text with square closing brackets only. Of the
texts that differ in this way, at most one has its brackets nested kind by kind. -/
namespace PolySchema.Text

/-- The character, or a square bracket for any closing bracket. -/
def square (c : Char) : Char := if closes c then ']' else c

/-- The text with square brackets for all its closing brackets. -/
def squared (text : List Char) : List Char := text.map square

variable {c d needle : Char} {depth : Nat} {due later text other proper : List Char}

theorem square_of_closes (closing : closes c = true) : square c = ']' := if_pos closing

theorem square_of_not_closes (other : closes c = false) : square c = c := by
  rw [square, other]
  rfl

@[simp] theorem closes_square (c : Char) : closes (square c) = closes c := by
  by_cases closing : closes c = true
  · rw [square_of_closes closing, closing]
    rfl
  · rw [square_of_not_closes (Bool.eq_false_iff.mpr closing)]

@[simp] theorem opens_square (c : Char) : opens (square c) = opens c := by
  by_cases closing : closes c = true
  · rw [square_of_closes closing, opens_of_closes closing]
    rfl
  · rw [square_of_not_closes (Bool.eq_false_iff.mpr closing)]

@[simp] theorem isBlank_square (c : Char) : isBlank (square c) = isBlank c := by
  by_cases closing : closes c = true
  · rw [square_of_closes closing, isBlank_of_closes closing]
    rfl
  · rw [square_of_not_closes (Bool.eq_false_iff.mpr closing)]

@[simp] theorem depthAfter_square (depth : Nat) (c : Char) :
    depthAfter depth (square c) = depthAfter depth c := by
  simp [depthAfter]

/-- Only a closing bracket can be told from its square form. -/
theorem eq_of_square_eq (same : square c = square d) (plain : closes d = false) : c = d := by
  have unclosed : closes c = false := by
    rw [← closes_square, same, closes_square, plain]
  rwa [square_of_not_closes unclosed, square_of_not_closes plain] at same

theorem square_beq (plain : closes needle = false) (c : Char) :
    (square c == needle) = (c == needle) := by
  rw [Bool.eq_iff_iff, beq_iff_eq, beq_iff_eq]
  constructor
  · intro same
    exact eq_of_square_eq (same.trans (square_of_not_closes plain).symm) plain
  · rintro rfl
    exact square_of_not_closes plain

@[simp] theorem squared_nil : squared [] = [] := rfl

@[simp] theorem squared_cons (c : Char) (rest : List Char) :
    squared (c :: rest) = square c :: squared rest := rfl

@[simp] theorem squared_append (first second : List Char) :
    squared (first ++ second) = squared first ++ squared second :=
  List.map_append

theorem squared_eq_self (plain : ∀ c ∈ text, closes c = false) : squared text = text := by
  calc text.map square = text.map id :=
        List.map_congr_left fun c member => square_of_not_closes (plain c member)
    _ = text := List.map_id text

theorem squared_of_isIdentifier (valid : isIdentifier text = true) : squared text = text :=
  squared_eq_self fun c member => (flat_of_isIdentifier valid c member).2

/-- A text without closing brackets has no other text like it. -/
theorem eq_of_squared_eq (same : squared other = squared text)
    (plain : ∀ c ∈ text, closes c = false) : other = text := by
  have unclosed : ∀ c ∈ other, closes c = false := by
    intro c member
    have inside : square c ∈ squared text := same ▸ List.mem_map_of_mem member
    obtain ⟨d, present, like⟩ := List.mem_map.mp inside
    rw [← closes_square, ← like, closes_square, plain d present]
  rwa [squared_eq_self unclosed, squared_eq_self plain] at same

theorem eq_of_isIdentifier (valid : isIdentifier text = true)
    (same : squared other = squared text) : other = text :=
  eq_of_squared_eq same fun c member => (flat_of_isIdentifier valid c member).2

@[simp] theorem isIdentifier_squared (text : List Char) :
    isIdentifier (squared text) = isIdentifier text := by
  rw [Bool.eq_iff_iff]
  constructor
  · intro valid
    have same : text = squared text :=
      eq_of_isIdentifier valid (squared_of_isIdentifier valid).symm
    rwa [← same] at valid
  · intro valid
    rwa [squared_of_isIdentifier valid]

theorem trimEnd_squared (text : List Char) : trimEnd (squared text) = squared (trimEnd text) := by
  have blank : isBlank ∘ square = isBlank := funext isBlank_square
  simp only [trimEnd, dropEndWhile, squared, List.dropWhile_map, blank, ← List.map_reverse]

theorem trim_squared (text : List Char) : trim (squared text) = squared (trim text) := by
  have blank : isBlank ∘ square = isBlank := funext isBlank_square
  rw [trim, trim, ← trimEnd_squared, trimStart, trimStart, squared, List.dropWhile_map, blank]
  rfl

theorem cutFirst?_squared (plain : closes needle = false) (text : List Char) :
    cutFirst? needle (squared text) =
      (cutFirst? needle text).map fun cut => (squared cut.1, squared cut.2) := by
  induction text with
  | nil => rfl
  | cons c rest ih =>
    rw [squared_cons, cutFirst?, cutFirst?, square_beq plain, ih]
    split
    · rfl
    · rw [Option.map_map, Option.map_map]
      rfl

theorem cutTopFrom?_squared (plain : closes needle = false) (depth : Nat) (text : List Char) :
    cutTopFrom? needle depth (squared text) =
      (cutTopFrom? needle depth text).map fun cut => (squared cut.1, squared cut.2) := by
  induction text generalizing depth with
  | nil => rfl
  | cons c rest ih =>
    rw [squared_cons, cutTopFrom?, cutTopFrom?, square_beq plain, depthAfter_square, ih]
    split
    · rfl
    · rw [Option.map_map, Option.map_map]
      rfl

theorem cutClose?_squared (depth : Nat) (text : List Char) :
    cutClose? depth (squared text) =
      (cutClose? depth text).map fun cut => (squared cut.1, squared cut.2) := by
  induction text generalizing depth with
  | nil => rfl
  | cons c rest ih =>
    simp only [squared_cons, cutClose?, opens_square, closes_square, ih]
    split
    · rw [Option.map_map, Option.map_map]
      rfl
    · split
      · split
        · rfl
        · rfl
        · rw [Option.map_map, Option.map_map]
          rfl
      · rw [Option.map_map, Option.map_map]
        rfl

theorem topPieces_squared (plain : closes needle = false) (depth : Nat) (text : List Char) :
    topPieces needle depth (squared text) = (topPieces needle depth text).map squared := by
  induction text generalizing depth with
  | nil => rfl
  | cons c rest ih =>
    simp only [squared_cons, topPieces, square_beq plain, opens_square, closes_square,
      depthAfter_square, ih]
    split
    · rfl
    · cases topPieces needle (depthAfter depth c) rest <;> rfl

theorem splitTop_squared (plain : closes needle = false) (text : List Char) :
    splitTop needle (squared text) = (splitTop needle text).map squared := by
  rw [splitTop, splitTop, topPieces_squared plain, List.map_map, List.map_map]
  exact List.map_congr_left fun piece _ => trim_squared piece

theorem items_squared (text : List Char) : items (squared text) = (items text).map squared := by
  rw [items, items, splitTop_squared rfl, List.filter_map]
  congr 2
  funext piece
  simp [squared]

/-- An ending is dropped alike if the text does not have the ending in another spelling. -/
theorem dropEnding?_squared {ending : List Char} (own : squared ending = ending)
    (settled : ∀ tail, tail <:+ text → squared tail = ending → tail = ending) :
    dropEnding? ending (squared text) = (dropEnding? ending text).map squared := by
  cases found : dropEnding? ending text with
  | some rest =>
    rw [dropEnding?_eq_some_iff.mp found, squared_append, own]
    exact dropEnding?_append _ _
  | none =>
    refine dropEnding?_eq_none_iff.mpr fun ⟨front, shape⟩ => ?_
    obtain ⟨rest, tail, rfl, _, like⟩ := List.map_eq_append_iff.mp shape.symm
    have same := settled tail (List.suffix_append rest tail) like
    exact dropEnding?_eq_none_iff.mp found (same ▸ List.suffix_append rest tail)

theorem dropEnding?_mark_squared (plain : closes c = false) (text : List Char) :
    dropEnding? [c] (squared text) = (dropEnding? [c] text).map squared := by
  have unclosed : ∀ d ∈ [c], closes d = false := List.forall_mem_singleton.mpr plain
  have own : squared [c] = [c] := squared_eq_self unclosed
  exact dropEnding?_squared own fun tail _ like => eq_of_squared_eq (like.trans own.symm) unclosed

/-- What follows an opening square bracket is a closing one. -/
def Intact (text : List Char) : Prop := text.IsChain fun c d => c = '[' → d = ']'

theorem Intact.of_isInfix (intact : Intact text) (stretch : other <:+: text) : Intact other :=
  List.IsChain.infix intact stretch

theorem dropEnding?_pair_squared (intact : Intact text) :
    dropEnding? ['[', ']'] (squared text) = (dropEnding? ['[', ']'] text).map squared := by
  refine dropEnding?_squared rfl fun tail ending like => ?_
  obtain ⟨first, rest, rfl, left, pair⟩ := List.map_eq_cons_iff.mp like
  obtain ⟨second, last, rfl, right, empty⟩ := List.map_eq_cons_iff.mp pair
  cases List.map_eq_nil_iff.mp empty
  have opened : first = '[' := eq_of_square_eq left rfl
  have closed := (List.isChain_cons_cons.mp (intact.of_isInfix ending.isInfix)).1 opened
  rw [opened, closed]

/-- A text that closes all brackets does not end in an open one. -/
theorem ClosesFrom.opens_last {top : Char → Prop} {front : List Char}
    (closing : ClosesFrom top depth (front ++ [c])) : opens c = false := by
  induction front generalizing depth with
  | nil =>
    refine Bool.eq_false_iff.mpr fun opening => ?_
    have zero : depthAfter depth c = 0 := closing.2
    rw [depthAfter_opens opening] at zero
    cases zero
  | cons d rest ih => exact ih closing.2

theorem Intact.append {top : Char → Prop} (first : Intact text) (nested : Nested top text)
    (second : Intact other) : Intact (text ++ other) := by
  refine List.isChain_append.mpr ⟨first, second, fun c last d _ square => ?_⟩
  obtain ⟨front, rfl⟩ := List.getLast?_eq_some_iff.mp last
  have opening := (nested_iff_closesFrom.mp nested).opens_last
  rw [square] at opening
  cases opening

/-- Every bracket is closed by a bracket of some kind, and a square one at once. -/
structure Paired (text : List Char) : Prop where
  nested : Nested (fun _ => True) text
  intact : Intact text

namespace Paired

theorem append (first : Paired text) (second : Paired other) : Paired (text ++ other) where
  nested := first.nested.append second.nested
  intact := first.intact.append first.nested second.intact

theorem nil : Paired [] := ⟨.nil, .nil⟩

theorem of_flat (flat : ∀ c ∈ text, opens c = false ∧ closes c = false) : Paired text where
  nested := .of_flat (fun _ _ => trivial) flat
  intact := by
    induction text with
    | nil => exact .nil
    | cons c rest ih =>
      obtain ⟨first, others⟩ := List.forall_mem_cons.mp flat
      refine List.isChain_cons.mpr ⟨fun d _ square => ?_, ih others⟩
      rw [square] at first
      cases first.1

theorem single (flat : opens c = false ∧ closes c = false) : Paired [c] :=
  of_flat (List.forall_mem_singleton.mpr flat)

theorem of_isIdentifier (valid : isIdentifier text = true) : Paired text :=
  of_flat (flat_of_isIdentifier valid)

theorem enclose (inside : Paired text) {left right : Char} (opening : opens left = true)
    (round : left ≠ '[') (closing : closes right = true) : Paired (left :: (text ++ [right])) where
  nested := inside.nested.enclose trivial opening closing
  intact := by
    have tail : Intact (text ++ [right]) := inside.intact.append inside.nested (.singleton right)
    exact List.isChain_cons.mpr ⟨fun _ _ square => absurd square round, tail⟩

theorem pair : Paired ['[', ']'] where
  nested := .bracket trivial rfl rfl .nil .nil
  intact := List.isChain_cons_cons.mpr ⟨fun _ => rfl, .singleton _⟩

theorem of_blank (blank : Blank text) : Paired text :=
  of_flat fun c member => flat_of_class (by decide) (blank c member)

theorem of_trim (inner : Paired (trim text)) : Paired text := by
  obtain ⟨left, right, before, after, shape⟩ := exists_trim text
  rw [shape]
  exact (of_blank before).append (inner.append (of_blank after))

theorem of_splitTop (separator : Char)
    (plain : opens separator = false ∧ closes separator = false)
    (each : ∀ piece ∈ splitTop separator text, Paired piece) : Paired text := by
  have pieces : ∀ piece ∈ topPieces separator 0 text, Paired piece := fun piece member =>
    of_trim (each _ (List.mem_map_of_mem member))
  rw [← intercalate_topPieces separator 0 text]
  exact intercalate_induction nil append (single plain) pieces

theorem of_items (each : ∀ item ∈ items text, Paired item) : Paired text := by
  refine of_splitTop ',' (by decide) fun piece member => ?_
  by_cases empty : piece = []
  · rw [empty]
    exact nil
  · exact each piece (List.mem_filter.mpr ⟨member, by simpa using empty⟩)

end Paired

/-- A nested text becomes balanced with the right closing brackets. -/
theorem Nested.exists_balanced {top : Char → Prop} (nested : Nested top text) :
    ∃ proper, Balanced proper ∧ squared proper = squared text := by
  induction nested with
  | nil => exact ⟨[], .nil, rfl⟩
  | @plain _ c _ _ flat _ ih =>
    obtain ⟨proper, balanced, same⟩ := ih
    have mark : Balanced [c] := .of_flat (List.forall_mem_singleton.mpr flat)
    exact ⟨c :: proper, mark.append balanced, by rw [squared_cons, same, squared_cons]⟩
  | @bracket _ left right _ _ _ opening closing _ _ insideIh restIh =>
    obtain ⟨inside, bodyBalanced, bodySame⟩ := insideIh
    obtain ⟨proper, restBalanced, restSame⟩ := restIh
    obtain ⟨partner, kind, partnerCloses⟩ := partner?_of_opens opening
    have balanced := (bodyBalanced.enclose kind).append restBalanced
    refine ⟨left :: (inside ++ [partner]) ++ proper, balanced, ?_⟩
    simp [bodySame, restSame, square_of_closes closing, square_of_closes partnerCloses]

/-- The right closing brackets are determined by what is due. -/
private theorem eq_of_foldlM {first second later' : List Char}
    (same : squared first = squared second) (one : first.foldlM dueAfter? due = some later)
    (two : second.foldlM dueAfter? due = some later') : first = second := by
  induction first generalizing second due with
  | nil => exact (List.map_eq_nil_iff.mp same.symm).symm
  | cons c rest ih =>
    obtain ⟨d, tail, rfl, like, tailSame⟩ := List.map_eq_cons_iff.mp same.symm
    rw [List.foldlM_cons] at one two
    obtain ⟨next, step, oneTail⟩ := Option.bind_eq_some_iff.mp one
    obtain ⟨next', step', twoTail⟩ := Option.bind_eq_some_iff.mp two
    have equal : c = d := by
      by_cases closing : closes c = true
      · have closing' : closes d = true := by rw [← closes_square, like, closes_square, closing]
        have dueSame := (eq_of_dueAfter? closing step).symm.trans (eq_of_dueAfter? closing' step')
        exact (List.cons.inj dueSame).1
      · exact (eq_of_square_eq like (Bool.eq_false_iff.mpr closing)).symm
    subst equal
    rw [step] at step'
    cases step'
    rw [ih tailSame.symm oneTail twoTail]

theorem Balanced.eq_of_squared_eq (first : Balanced text) (second : Balanced other)
    (same : squared text = squared other) : text = other :=
  eq_of_foldlM same (first []) (second [])

private theorem Intact.of_foldlM (intact : Intact text) (same : squared proper = squared text)
    (read : proper.foldlM dueAfter? due = some later) : Intact proper := by
  induction proper generalizing text due with
  | nil => exact .nil
  | cons c rest ih =>
    obtain ⟨c', tail, rfl, like, tailSame⟩ := List.map_eq_cons_iff.mp same.symm
    rw [List.foldlM_cons] at read
    obtain ⟨next, step, behind⟩ := Option.bind_eq_some_iff.mp read
    refine List.isChain_cons.mpr ⟨fun d head left => ?_, ih intact.tail tailSame.symm behind⟩
    obtain ⟨others, rfl⟩ := List.head?_eq_some_iff.mp head
    obtain ⟨d', _, rfl, dLike, _⟩ := List.map_eq_cons_iff.mp tailSame
    subst left
    have right : d' = ']' := (List.isChain_cons_cons.mp intact).1 (eq_of_square_eq like rfl)
    have closing : closes d = true := by rw [← closes_square, ← dLike, closes_square, right]; rfl
    rw [dueAfter?_left rfl] at step
    cases step
    rw [List.foldlM_cons] at behind
    obtain ⟨_, last, _⟩ := Option.bind_eq_some_iff.mp behind
    exact (List.cons.inj (eq_of_dueAfter? closing last)).1.symm

/-- Square brackets stay as they are when the others become balanced. -/
theorem Intact.of_balanced (intact : Intact text) (balanced : Balanced proper)
    (same : squared proper = squared text) : Intact proper :=
  intact.of_foldlM same (balanced [])

end PolySchema.Text
