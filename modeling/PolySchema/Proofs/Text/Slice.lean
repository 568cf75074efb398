import PolySchema.Text.Offset

/-! Slices of a text by byte offsets. A slice, a search for a closing bracket and the offset of the
last byte are faults where they make no sense; the cuts of this library are slices without one. -/
namespace PolySchema

/-- What can go wrong when texts and lines are addressed by offsets. -/
inductive Fault where
  /-- Bounds that are out of order, beyond the text or inside a character. -/
  | slice (start stop : Nat)
  /-- A search for a closing bracket from anything but an opening one. -/
  | bracket (offset : Nat)
  /-- The last byte of an empty text. -/
  | noLast
  /-- Lines from beyond their end, or the first of none. -/
  | line (index : Nat)
  /-- A step over no line or over more than there are. -/
  | step (taken remaining : Nat)

namespace Text

/-- The text between two byte offsets. -/
def slice (text : List Char) (start stop : Nat) : Except Fault (List Char) :=
  match dropBytes? start text, dropBytes? stop text with
  | some rest, some after =>
    if start ≤ stop then .ok (rest.take (rest.length - after.length))
    else .error (.slice start stop)
  | _, _ => .error (.slice start stop)

/-- The offset of the first `needle`. -/
def firstOffset? (needle : Char) (text : List Char) : Option Nat :=
  (cutFirst? needle text).map fun cut => byteSize cut.1

/-- The offset of the bracket that closes the opening one at `start`. -/
def closeChecked (text : List Char) (start : Nat) : Except Fault (Option Nat) :=
  match dropBytes? start text with
  | some (bracket :: _) =>
    if opens bracket then (closeOffset text start).mapError fun bad => .bracket bad.offset
    else .error (.bracket start)
  | _ => .error (.bracket start)

/-- The offset of the last byte. -/
def lastOffset (text : List Char) : Except Fault Nat :=
  if text.isEmpty then .error .noLast else .ok (byteSize text - 1)

/-- The pieces of `text` from `start` on, where `rest` is what follows the byte offset `index`. -/
def splitTopFrom (separator : Char) (text : List Char) (depth start index : Nat) :
    List Char → Except Fault (List (List Char))
  | [] => do
    let piece ← slice text start (byteSize text)
    return [trim piece]
  | c :: rest =>
    let next := index + c.utf8Size
    if c == separator && depth == 0 && !opens c && !closes c then do
      let piece ← slice text start index
      let others ← splitTopFrom separator text depth next next rest
      return trim piece :: others
    else splitTopFrom separator text (depthAfter depth c) start next rest

def splitTopChecked (separator : Char) (text : List Char) : Except Fault (List (List Char)) :=
  splitTopFrom separator text 0 0 0 text

def itemsChecked (text : List Char) : Except Fault (List (List Char)) := do
  let pieces ← splitTopChecked ',' text
  return pieces.filter fun item => !item.isEmpty

section Bytes

theorem byteSize_eq (text : List Char) : byteSize text = (String.ofList text).utf8ByteSize := by
  induction text with
  | nil => rfl
  | cons c rest ih =>
    rw [byteSize, ih, String.ofList_cons, String.utf8ByteSize_append, String.utf8ByteSize_singleton]

@[simp] theorem byteSize_nil : byteSize [] = 0 := rfl

@[simp] theorem byteSize_append (first second : List Char) :
    byteSize (first ++ second) = byteSize first + byteSize second := by
  induction first with
  | nil => simp [byteSize]
  | cons c rest ih => simp [byteSize, ih, Nat.add_assoc]

theorem byteSize_eq_zero {text : List Char} : byteSize text = 0 ↔ text = [] := by
  cases text with
  | nil => simp [byteSize]
  | cons c rest => simp [byteSize, Nat.ne_of_gt c.utf8Size_pos]

theorem utf8Size_of_opens {c : Char} (opening : opens c = true) : c.utf8Size = 1 := by
  simp only [opens, Bool.or_eq_true, beq_iff_eq] at opening
  rcases opening with ((rfl | rfl) | rfl) | rfl <;> rfl

theorem utf8Size_of_closes {c : Char} (closing : closes c = true) : c.utf8Size = 1 := by
  simp only [closes, Bool.or_eq_true, beq_iff_eq] at closing
  rcases closing with ((rfl | rfl) | rfl) | rfl <;> rfl

theorem dropBytes?_append (before rest : List Char) :
    dropBytes? (byteSize before) (before ++ rest) = some rest := by
  induction before with
  | nil => cases rest <;> rfl
  | cons c before ih =>
    obtain ⟨size, width⟩ := Nat.exists_eq_succ_of_ne_zero (Nat.ne_of_gt c.utf8Size_pos)
    have offset : byteSize (c :: before) = size + byteSize before + 1 := by
      rw [byteSize, width]
      omega
    have left : size + byteSize before + 1 - c.utf8Size = byteSize before := by omega
    have fits : c.utf8Size ≤ size + byteSize before + 1 := by omega
    rw [offset, List.cons_append, dropBytes?, if_pos fits, left, ih]

theorem dropBytes?_eq_some {offset : Nat} {text rest : List Char} :
    dropBytes? offset text = some rest ↔
      ∃ before, text = before ++ rest ∧ byteSize before = offset := by
  constructor
  · intro found
    induction text generalizing offset with
    | nil =>
      cases offset with
      | zero => exact ⟨[], by simpa [dropBytes?] using found, rfl⟩
      | succ offset => cases found
    | cons c text ih =>
      cases offset with
      | zero => exact ⟨[], by simpa [dropBytes?] using found, rfl⟩
      | succ offset =>
        rw [dropBytes?] at found
        split at found
        · obtain ⟨before, rfl, size⟩ := ih found
          refine ⟨c :: before, rfl, ?_⟩
          rw [byteSize, size]
          omega
        · cases found
  · rintro ⟨before, rfl, rfl⟩
    exact dropBytes?_append before rest

/-- Offsets that can be dropped are the character boundaries. -/
theorem exists_dropBytes?_iff {offset : Nat} {text : List Char} :
    (∃ rest, dropBytes? offset text = some rest) ↔
      (⟨offset⟩ : String.Pos.Raw).IsValid (String.ofList text) := by
  simp only [dropBytes?_eq_some, String.Pos.Raw.isValid_ofList, ← byteSize_eq]
  constructor
  · rintro ⟨rest, before, rfl, size⟩
    exact ⟨before.length, by simp [size]⟩
  · rintro ⟨count, size⟩
    exact ⟨text.drop count, text.take count, (List.take_append_drop count text).symm, size.symm⟩

/-- Of two starts of a text, the one with fewer bytes is a start of the other. -/
theorem isPrefix_of_byteSize_le {text front part : List Char} (first : front <+: text)
    (second : part <+: text) (shorter : byteSize front ≤ byteSize part) : front <+: part := by
  rcases List.prefix_or_prefix_of_prefix first second with inner | ⟨more, rfl⟩
  · exact inner
  · rw [byteSize_append] at shorter
    have none : more = [] := byteSize_eq_zero.mp (by omega)
    simp [none]

end Bytes

/-- A slice is no fault exactly if its bounds are in order, within the text and on character
boundaries. -/
theorem exists_slice_iff {text : List Char} {start stop : Nat} :
    (∃ part, slice text start stop = .ok part) ↔
      start ≤ stop ∧ stop ≤ (String.ofList text).utf8ByteSize ∧
        (⟨start⟩ : String.Pos.Raw).IsValid (String.ofList text) ∧
        (⟨stop⟩ : String.Pos.Raw).IsValid (String.ofList text) := by
  constructor
  · rintro ⟨part, found⟩
    unfold slice at found
    split at found
    · rename_i rest after first last
      split at found
      · rename_i ordered
        have stopValid := exists_dropBytes?_iff.mp ⟨after, last⟩
        have startValid := exists_dropBytes?_iff.mp ⟨rest, first⟩
        exact ⟨ordered, stopValid.le_utf8ByteSize, startValid, stopValid⟩
      · cases found
    · cases found
  · rintro ⟨ordered, _, startValid, stopValid⟩
    obtain ⟨rest, first⟩ := exists_dropBytes?_iff.mpr startValid
    obtain ⟨after, last⟩ := exists_dropBytes?_iff.mpr stopValid
    exact ⟨_, by rw [slice, first, last]; exact if_pos ordered⟩

-- The offset lies inside a character of two bytes.
example : slice ['a', 'é', 'b'] 0 2 = .error (.slice 0 2) := rfl

example : slice ['a', 'é', 'b'] 1 3 = .ok ['é'] := rfl

/-- A search for a closing bracket is no fault exactly if it starts at an opening one. -/
theorem exists_closeChecked_iff {text : List Char} {start : Nat} :
    (∃ close, closeChecked text start = .ok close) ↔
      ∃ before bracket after, text = before ++ bracket :: after ∧ byteSize before = start ∧
        opens bracket = true := by
  constructor
  · rintro ⟨close, found⟩
    unfold closeChecked at found
    split at found
    · rename_i bracket after dropped
      split at found
      · rename_i opening
        obtain ⟨before, shape, size⟩ := dropBytes?_eq_some.mp dropped
        exact ⟨before, bracket, after, shape, size, opening⟩
      · cases found
    · cases found
  · rintro ⟨before, bracket, after, rfl, rfl, opening⟩
    have dropped := dropBytes?_append before (bracket :: after)
    simp only [closeChecked, closeOffset, dropped, if_pos opening]
    exact ⟨_, rfl⟩

section Cut

variable {text before inside after rest : List Char} {c bracket : Char}

theorem slice_append (before part after : List Char) :
    slice (before ++ (part ++ after)) (byteSize before) (byteSize before + byteSize part) =
      pure part := by
  have first := dropBytes?_append before (part ++ after)
  have last := dropBytes?_append (before ++ part) after
  rw [byteSize_append, List.append_assoc] at last
  rw [slice, first, last]
  simp only [Nat.le_add_right, if_true, List.length_append, Nat.add_sub_cancel, List.take_left]
  rfl

/-- A slice is what the text behind its lower bound starts with. -/
theorem slice_eq_ok_iff {part : List Char} {stop : Nat} :
    slice (before ++ rest) (byteSize before) stop = .ok part ↔
      part <+: rest ∧ byteSize before + byteSize part = stop := by
  constructor
  · intro found
    obtain ⟨ordered, _, _, valid⟩ := exists_slice_iff.mp ⟨part, found⟩
    obtain ⟨behind, dropped⟩ := exists_dropBytes?_iff.mpr valid
    obtain ⟨front, same, rfl⟩ := dropBytes?_eq_some.mp dropped
    have reached : before <+: front :=
      isPrefix_of_byteSize_le (List.prefix_append before rest) ⟨behind, same.symm⟩ ordered
    obtain ⟨middle, rfl⟩ := reached
    rw [List.append_assoc, List.append_cancel_left_eq] at same
    subst same
    rw [byteSize_append, slice_append] at found
    cases found
    exact ⟨List.prefix_append _ _, (byteSize_append _ _).symm⟩
  · rintro ⟨⟨behind, rfl⟩, rfl⟩
    exact slice_append before part behind

theorem slice_before (cut : text = before ++ c :: after) :
    slice text 0 (byteSize before) = pure before := by
  subst cut
  simpa [byteSize] using slice_append [] before (c :: after)

theorem slice_between (cut : text = before ++ c :: (inside ++ after)) (narrow : c.utf8Size = 1) :
    slice text (byteSize before + 1) (byteSize before + 1 + byteSize inside) = pure inside := by
  subst cut
  simpa [byteSize, narrow] using slice_append (before ++ [c]) inside after

theorem slice_past (cut : text = before ++ c :: after) :
    slice text (byteSize before + c.utf8Size) (byteSize text) = pure after := by
  subst cut
  simpa [byteSize, Nat.add_assoc] using slice_append (before ++ [c]) after []

theorem slice_after (cut : text = before ++ c :: after) (narrow : c.utf8Size = 1) :
    slice text (byteSize before + 1) (byteSize text) = pure after := by
  have past := slice_past cut
  rwa [narrow] at past

theorem exists_close (cut : text = before ++ c :: after)
    (closed : cutClose? 1 after = some (inside, rest)) :
    ∃ bracket, closes bracket = true ∧ text = before ++ c :: (inside ++ bracket :: rest) := by
  obtain ⟨bracket, closing, whole⟩ := cutClose?_eq_some closed
  exact ⟨bracket, closing, by rw [cut, whole]⟩

theorem slice_behind (cut : text = before ++ c :: (inside ++ bracket :: after))
    (narrow : c.utf8Size = 1) (closing : closes bracket = true) :
    slice text (byteSize before + 1 + byteSize inside + 1) (byteSize text) = pure after := by
  have moved : text = (before ++ c :: inside) ++ bracket :: after := by simp [cut]
  have size : byteSize (before ++ c :: inside) = byteSize before + 1 + byteSize inside := by
    rw [byteSize_append, byteSize, narrow, Nat.add_assoc]
  rw [← size]
  exact slice_after moved (utf8Size_of_closes closing)

theorem lastOffset_eq (cut : text = before ++ c :: after) :
    lastOffset text = pure (byteSize text - 1) := by
  rw [lastOffset, if_neg]
  · rfl
  · simp [cut]

theorem beq_last (cut : text = before ++ c :: (inside ++ bracket :: after))
    (narrow : c.utf8Size = 1) (closing : closes bracket = true) :
    (byteSize before + 1 + byteSize inside == byteSize text - 1) = after.isEmpty := by
  have size : byteSize text - 1 = byteSize before + 1 + byteSize inside + byteSize after := by
    simp only [cut, byteSize_append, byteSize, narrow, utf8Size_of_closes closing]
    omega
  rw [size, Bool.eq_iff_iff, beq_iff_eq, List.isEmpty_iff, ← byteSize_eq_zero]
  omega

theorem closeOffset_eq (cut : text = before ++ c :: after) (opening : opens c = true) :
    closeOffset text (byteSize before) =
      .ok ((cutClose? 1 after).map fun close => byteSize before + 1 + byteSize close.1) := by
  subst cut
  have narrow := utf8Size_of_opens opening
  simp only [closeOffset, dropBytes?_append, cutClose?, if_pos opening]
  cases cutClose? 1 after with
  | none => rfl
  | some close => simp only [Option.map_some, byteSize, narrow, ← Nat.add_assoc]

theorem closeChecked_eq (cut : text = before ++ c :: after) (opening : opens c = true) :
    closeChecked text (byteSize before) =
      pure ((cutClose? 1 after).map fun close => byteSize before + 1 + byteSize close.1) := by
  have dropped := dropBytes?_append before (c :: after)
  rw [← cut] at dropped
  rw [closeChecked, dropped, closeOffset_eq cut opening]
  exact if_pos opening

end Cut

private theorem modifyHead_nil_append (pieces : List (List Char)) :
    pieces.modifyHead ([] ++ ·) = pieces := by
  cases pieces <;> rfl

/-- Splitting goes on after `before`, with `current` read of the next piece. -/
theorem splitTopFrom_eq (separator : Char) {text : List Char} (depth : Nat)
    (before current rest : List Char) (shape : text = before ++ (current ++ rest)) :
    splitTopFrom separator text depth (byteSize before) (byteSize before + byteSize current) rest =
      pure (((topPieces separator depth rest).modifyHead (current ++ ·)).map trim) := by
  induction rest generalizing depth before current with
  | nil =>
    have whole : byteSize text = byteSize before + byteSize current := by simp [shape]
    rw [splitTopFrom, whole, shape, slice_append before current []]
    simp [topPieces]
  | cons c rest ih =>
    have next : byteSize before + byteSize current + c.utf8Size =
        byteSize before + byteSize (current ++ [c]) := by
      simp [byteSize, Nat.add_assoc]
    rw [splitTopFrom, topPieces]
    split
    · have piece : slice text (byteSize before) (byteSize before + byteSize current) =
          pure current := by
        rw [shape]
        exact slice_append before current (c :: rest)
      have others := ih depth (before ++ (current ++ [c])) [] (by simp [shape])
      rw [modifyHead_nil_append, byteSize_append before] at others
      simp only [byteSize, Nat.add_zero] at others
      rw [next, piece, others]
      simp
    · rw [next, ih (depthAfter depth c) before (current ++ [c]) (by simp [shape])]
      simp [Function.comp_def]

theorem splitTopChecked_eq (separator : Char) (text : List Char) :
    splitTopChecked separator text = pure (splitTop separator text) := by
  rw [splitTop, ← modifyHead_nil_append (topPieces separator 0 text)]
  exact splitTopFrom_eq separator 0 [] [] text rfl

theorem itemsChecked_eq (text : List Char) : itemsChecked text = pure (items text) := by
  rw [itemsChecked, splitTopChecked_eq, pure_bind]
  rfl

end Text
end PolySchema
