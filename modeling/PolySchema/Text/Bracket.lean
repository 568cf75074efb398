import PolySchema.Text.Cut

/-! Bracket-aware cutting. The four bracket kinds share one nesting depth; a character is at top
level when the depth before it is zero. -/
namespace PolySchema.Text

def opens (c : Char) : Bool := c == '<' || c == '{' || c == '(' || c == '['

def closes (c : Char) : Bool := c == '>' || c == '}' || c == ')' || c == ']'

/-- The depth after a character. A closing bracket without partner leaves depth zero. -/
def depthAfter (depth : Nat) (c : Char) : Nat :=
  if opens c then depth + 1 else if closes c then depth - 1 else depth

/-- The untrimmed pieces between top-level separators, read from the given depth. A bracket
never separates. -/
def topPieces (separator : Char) (depth : Nat) : List Char → List (List Char)
  | [] => [[]]
  | c :: rest =>
    if c == separator && depth == 0 && !opens c && !closes c then
      [] :: topPieces separator depth rest
    else (topPieces separator (depthAfter depth c) rest).modifyHead (c :: ·)

/-- The trimmed pieces between top-level separators, empty ones included. -/
def splitTop (separator : Char) (text : List Char) : List (List Char) :=
  (topPieces separator 0 text).map trim

/-- The non-empty trimmed pieces between top-level commas. -/
def items (text : List Char) : List (List Char) :=
  (splitTop ',' text).filter fun item => !item.isEmpty

/-- The texts before and after the first `needle` at top level, read from the given depth. An
opening bracket can be the needle. -/
def cutTopFrom? (needle : Char) (depth : Nat) : List Char → Option (List Char × List Char)
  | [] => none
  | c :: rest =>
    if c == needle && depth == 0 then some ([], rest)
    else (cutTopFrom? needle (depthAfter depth c) rest).map fun cut => (c :: cut.1, cut.2)

def cutTop? (needle : Char) (text : List Char) : Option (List Char × List Char) :=
  cutTopFrom? needle 0 text

/-- The texts before and after the bracket that brings `depth` open brackets to none. There is
none when a bracket closes while nothing is open. -/
def cutClose? (depth : Nat) : List Char → Option (List Char × List Char)
  | [] => none
  | c :: rest =>
    if opens c then (cutClose? (depth + 1) rest).map fun cut => (c :: cut.1, cut.2)
    else if closes c then
      match depth with
      | 0 => none
      | 1 => some ([], rest)
      | depth + 2 => (cutClose? (depth + 1) rest).map fun cut => (c :: cut.1, cut.2)
    else (cutClose? depth rest).map fun cut => (c :: cut.1, cut.2)

theorem cutTopFrom?_eq_some {needle : Char} {depth : Nat} {text before after : List Char}
    (found : cutTopFrom? needle depth text = some (before, after)) :
    text = before ++ needle :: after := by
  induction text generalizing depth before with
  | nil => simp [cutTopFrom?] at found
  | cons c rest ih =>
    unfold cutTopFrom? at found
    split at found
    · rename_i here
      simp only [Bool.and_eq_true, beq_iff_eq] at here
      simp only [Option.some.injEq, Prod.mk.injEq] at found
      simp [← found.1, ← found.2, here.1]
    · obtain ⟨cut, inner, shape⟩ := Option.map_eq_some_iff.mp found
      cases shape
      simp [ih inner]

theorem cutTop?_eq_some {needle : Char} {text before after : List Char}
    (found : cutTop? needle text = some (before, after)) : text = before ++ needle :: after :=
  cutTopFrom?_eq_some found

theorem cutClose?_eq_some {depth : Nat} {text before after : List Char}
    (found : cutClose? depth text = some (before, after)) :
    ∃ bracket, closes bracket = true ∧ text = before ++ bracket :: after := by
  induction text generalizing depth before with
  | nil => simp [cutClose?] at found
  | cons c rest ih =>
    unfold cutClose? at found
    split at found
    · obtain ⟨cut, inner, shape⟩ := Option.map_eq_some_iff.mp found
      cases shape
      obtain ⟨bracket, closing, same⟩ := ih inner
      exact ⟨bracket, closing, by simp [same]⟩
    · split at found
      · rename_i closing
        split at found
        · cases found
        · simp only [Option.some.injEq, Prod.mk.injEq] at found
          exact ⟨c, closing, by simp [← found.1, ← found.2]⟩
        · obtain ⟨cut, inner, shape⟩ := Option.map_eq_some_iff.mp found
          cases shape
          obtain ⟨bracket, closing, same⟩ := ih inner
          exact ⟨bracket, closing, by simp [same]⟩
      · obtain ⟨cut, inner, shape⟩ := Option.map_eq_some_iff.mp found
        cases shape
        obtain ⟨bracket, closing, same⟩ := ih inner
        exact ⟨bracket, closing, by simp [same]⟩

private theorem length_of_mem_modifyHead {c : Char} {pieces : List (List Char)} {bound : Nat}
    (short : ∀ piece ∈ pieces, piece.length ≤ bound) {piece : List Char}
    (member : piece ∈ pieces.modifyHead (c :: ·)) : piece.length ≤ bound + 1 := by
  cases pieces with
  | nil => simp at member
  | cons head tail =>
    rcases List.mem_cons.mp member with rfl | later
    · simpa using short head (by simp)
    · exact Nat.le_succ_of_le (short piece (List.mem_cons_of_mem _ later))

theorem length_le_of_mem_topPieces {separator : Char} {depth : Nat} {text piece : List Char}
    (member : piece ∈ topPieces separator depth text) : piece.length ≤ text.length := by
  induction text generalizing depth piece with
  | nil => simp [topPieces] at member; simp [member]
  | cons c rest ih =>
    unfold topPieces at member
    split at member
    · rcases List.mem_cons.mp member with rfl | later
      · simp
      · exact Nat.le_succ_of_le (ih later)
    · exact length_of_mem_modifyHead (fun _ inner => ih inner) member

theorem length_le_of_mem_splitTop {separator : Char} {text piece : List Char}
    (member : piece ∈ splitTop separator text) : piece.length ≤ text.length := by
  obtain ⟨raw, inside, rfl⟩ := List.mem_map.mp member
  exact Nat.le_trans (length_trim_le raw) (length_le_of_mem_topPieces inside)

theorem length_le_of_mem_items {text item : List Char} (member : item ∈ items text) :
    item.length ≤ text.length :=
  length_le_of_mem_splitTop (List.mem_filter.mp member).1

end PolySchema.Text
