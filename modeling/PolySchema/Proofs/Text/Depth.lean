import PolySchema.Proofs.Text.Nesting

/-! Nested texts read with a depth. Cutting and splitting count open brackets, so what they find is
first told by the depths on the way. Parts that start and end at depth zero are nested texts
again. -/
namespace PolySchema.Text

theorem closes_of_opens {c : Char} (opening : opens c = true) : closes c = false := by
  by_contra closing
  rw [opens_of_closes (Bool.not_eq_false _ ▸ closing)] at opening
  cases opening

theorem bracket_cases (c : Char) :
    opens c = true ∨ closes c = true ∨ opens c = false ∧ closes c = false := by
  by_cases opening : opens c = true
  · exact Or.inl opening
  · by_cases closing : closes c = true
    · exact Or.inr (Or.inl closing)
    · exact Or.inr (Or.inr ⟨Bool.eq_false_iff.mpr opening, Bool.eq_false_iff.mpr closing⟩)

/-- Read from a depth, the text closes exactly the brackets that are open before it and its own, and
`top` holds for its characters at depth zero. -/
def ClosesFrom (top : Char → Prop) (depth : Nat) : List Char → Prop
  | [] => depth = 0
  | c :: rest =>
    (depth = 0 → top c ∧ closes c = false) ∧ ClosesFrom top (depthAfter depth c) rest

variable {top other : Char → Prop} {depth : Nat} {c : Char} {text rest front back : List Char}

/-- A nested text leaves the depth as it is. -/
theorem Nested.closesFrom_append (nested : Nested other text)
    (allowed : depth = 0 → ∀ c, other c → top c) (closing : ClosesFrom top depth rest) :
    ClosesFrom top depth (text ++ rest) := by
  induction nested generalizing depth rest with
  | nil => exact closing
  | plain inside flat _ ih =>
    refine ⟨fun outer => ⟨allowed outer _ inside, flat.2⟩, ?_⟩
    rw [depthAfter_flat flat]
    exact ih allowed closing
  | @bracket _ _ right _ _ inside opening ending _ _ bodyIh restIh =>
    rw [List.cons_append, List.append_assoc]
    refine ⟨fun outer => ⟨allowed outer _ inside, closes_of_opens opening⟩, ?_⟩
    rw [depthAfter_opens opening]
    apply bodyIh
    · intro impossible
      cases impossible
    · refine ⟨fun impossible => absurd impossible (Nat.succ_ne_zero depth), ?_⟩
      rw [depthAfter_closes ending, Nat.add_sub_cancel]
      exact restIh allowed closing

/-- The text closes a number of open brackets one after another, with nested texts in between. -/
private def Unwinds (top : Char → Prop) : Nat → List Char → Prop
  | 0, text => Nested top text
  | depth + 1, text => ∃ body right rest, text = body ++ right :: rest ∧ closes right = true ∧
      Nested (fun _ => True) body ∧ Unwinds top depth rest

private theorem Unwinds.prepend (nested : Nested other text)
    (allowed : depth = 0 → ∀ c, other c → top c) (unwinds : Unwinds top depth rest) :
    Unwinds top depth (text ++ rest) := by
  cases depth with
  | zero => exact (nested.mono (allowed rfl)).append unwinds
  | succ depth =>
    obtain ⟨body, right, later, rfl, closing, inside, tail⟩ := unwinds
    refine ⟨text ++ body, right, later, by simp, closing, ?_, tail⟩
    exact (nested.mono fun _ _ => trivial).append inside

private theorem ClosesFrom.unwinds (closing : ClosesFrom top depth text) :
    Unwinds top depth text := by
  induction text generalizing depth with
  | nil =>
    cases closing
    exact Nested.nil
  | cons c rest ih =>
    obtain ⟨outer, later⟩ := closing
    have tail := ih later
    have alone : depth = 0 → ∀ d, d = c → top d := by
      rintro zero d rfl
      exact (outer zero).1
    rcases bracket_cases c with opening | ending | flat
    · -- The bracket and what it encloses are one nested text in front of the rest.
      rw [depthAfter_opens opening] at tail
      obtain ⟨body, right, after, rfl, ending, inside, unwinds⟩ := tail
      have whole : Nested (· = c) (c :: (body ++ [right])) := inside.enclose rfl opening ending
      simpa using Unwinds.prepend whole alone unwinds
    · cases depth with
      | zero => exact absurd ending (Bool.eq_false_iff.mp (outer rfl).2)
      | succ depth =>
        rw [depthAfter_closes ending, Nat.add_sub_cancel] at tail
        exact ⟨[], c, rest, rfl, ending, .nil, tail⟩
    · rw [depthAfter_flat flat] at tail
      have whole : Nested (· = c) [c] := .plain rfl flat .nil
      exact Unwinds.prepend whole alone tail

/-- A text is nested if it can be read from depth zero to depth zero. -/
theorem nested_iff_closesFrom : Nested top text ↔ ClosesFrom top 0 text := by
  constructor
  · intro nested
    have closing : ClosesFrom top 0 (text ++ []) :=
      nested.closesFrom_append (fun _ _ inside => inside) rfl
    rwa [List.append_nil] at closing
  · intro closing
    exact closing.unwinds

namespace ClosesFrom

theorem depth_eq {first second : Nat} (one : ClosesFrom top first text)
    (two : ClosesFrom other second text) : first = second := by
  induction text generalizing first second with
  | nil => exact Eq.trans one (Eq.symm two)
  | cons c rest ih =>
    have same := ih one.2 two.2
    rcases bracket_cases c with opening | ending | flat
    · rw [depthAfter_opens opening, depthAfter_opens opening] at same
      exact Nat.succ.inj same
    · have left : first ≠ 0 := fun zero => Bool.eq_false_iff.mp (one.1 zero).2 ending
      have right : second ≠ 0 := fun zero => Bool.eq_false_iff.mp (two.1 zero).2 ending
      rw [depthAfter_closes ending, depthAfter_closes ending] at same
      omega
    · rwa [depthAfter_flat flat, depthAfter_flat flat] at same

theorem of_append (closing : ClosesFrom top depth (front ++ back)) (nested : Nested other back) :
    ClosesFrom top depth front := by
  induction front generalizing depth with
  | nil => exact closing.depth_eq (nested_iff_closesFrom.mp nested)
  | cons c rest ih => exact ⟨closing.1, ih closing.2⟩

theorem rest_of_append (closing : ClosesFrom top depth (front ++ back))
    (closed : ClosesFrom other depth front) : ClosesFrom top 0 back := by
  induction front generalizing depth with
  | nil =>
    cases closed
    exact closing
  | cons c rest ih => exact ih closing.2 closed.2

end ClosesFrom

namespace Nested

theorem of_append_left (nested : Nested top (front ++ back)) (ending : Nested other back) :
    Nested top front :=
  nested_iff_closesFrom.mpr ((nested_iff_closesFrom.mp nested).of_append ending)

theorem of_append_right (nested : Nested top (front ++ back)) (start : Nested other front) :
    Nested top back :=
  nested_iff_closesFrom.mpr
    ((nested_iff_closesFrom.mp nested).rest_of_append (nested_iff_closesFrom.mp start))

end Nested

private theorem closesFrom_of_cutClose? {before after : List Char}
    (found : cutClose? (depth + 1) text = some (before, after)) :
    ClosesFrom (fun _ => True) depth before := by
  induction text generalizing depth before with
  | nil => cases found
  | cons c rest ih =>
    rcases bracket_cases c with opening | ending | flat
    · simp only [cutClose?, opening, ↓reduceIte] at found
      obtain ⟨cut, inner, shape⟩ := Option.map_eq_some_iff.mp found
      cases shape
      refine ⟨fun _ => ⟨trivial, closes_of_opens opening⟩, ?_⟩
      rw [depthAfter_opens opening]
      exact ih inner
    · cases depth with
      | zero =>
        simp only [cutClose?, opens_of_closes ending, ending, Bool.false_eq_true, ↓reduceIte,
          Option.some.injEq, Prod.mk.injEq] at found
        rw [← found.1]
        rfl
      | succ depth =>
        simp only [cutClose?, opens_of_closes ending, ending, Bool.false_eq_true,
          ↓reduceIte] at found
        obtain ⟨cut, inner, shape⟩ := Option.map_eq_some_iff.mp found
        cases shape
        refine ⟨fun impossible => absurd impossible (Nat.succ_ne_zero depth), ?_⟩
        rw [depthAfter_closes ending]
        exact ih inner
    · simp only [cutClose?, flat, Bool.false_eq_true, ↓reduceIte] at found
      obtain ⟨cut, inner, shape⟩ := Option.map_eq_some_iff.mp found
      cases shape
      refine ⟨fun _ => ⟨trivial, flat.2⟩, ?_⟩
      rw [depthAfter_flat flat]
      exact ih inner

/-- What stands between a bracket and the one that closes it is nested. -/
theorem nested_of_cutClose? {before after : List Char}
    (found : cutClose? 1 text = some (before, after)) : Nested (fun _ => True) before :=
  nested_iff_closesFrom.mpr (closesFrom_of_cutClose? found)

private theorem closesFrom_of_topPieces {separator : Char}
    (plain : opens separator = false ∧ closes separator = false)
    (closing : ClosesFrom top depth text) :
    ∃ first others, topPieces separator depth text = first :: others ∧
      ClosesFrom (· ≠ separator) depth first ∧
      ∀ piece ∈ others, ClosesFrom (· ≠ separator) 0 piece := by
  induction text generalizing depth with
  | nil => exact ⟨[], [], rfl, closing, List.forall_mem_nil _⟩
  | cons c rest ih =>
    obtain ⟨first, others, pieces, start, later⟩ := ih closing.2
    by_cases cut : c = separator ∧ depth = 0
    · obtain ⟨rfl, rfl⟩ := cut
      rw [depthAfter_flat plain] at pieces start
      refine ⟨[], first :: others, ?_, rfl, List.forall_mem_cons.mpr ⟨start, later⟩⟩
      simp [topPieces, plain, pieces]
    · refine ⟨c :: first, others, ?_, ⟨fun zero => ⟨?_, (closing.1 zero).2⟩, start⟩, later⟩
      · rw [topPieces, if_neg, pieces, List.modifyHead_cons]
        simp only [Bool.and_eq_true, beq_iff_eq]
        intro here
        exact cut here.1.1
      · intro same
        exact cut ⟨same, zero⟩

/-- Splitting a nested text gives nested pieces without the separator at top level. -/
theorem nested_of_mem_topPieces {separator : Char}
    (plain : opens separator = false ∧ closes separator = false) (nested : Nested top text)
    {piece : List Char} (member : piece ∈ topPieces separator 0 text) :
    Nested (· ≠ separator) piece := by
  obtain ⟨first, others, pieces, start, later⟩ :=
    closesFrom_of_topPieces plain (nested_iff_closesFrom.mp nested)
  rw [pieces] at member
  rw [nested_iff_closesFrom]
  rcases List.mem_cons.mp member with rfl | other
  · exact start
  · exact later piece other

private theorem closesFrom_of_cutTopFrom? {needle : Char} {before after : List Char}
    (plain : opens needle = false ∧ closes needle = false) (closing : ClosesFrom top depth text)
    (found : cutTopFrom? needle depth text = some (before, after)) : ClosesFrom top 0 after := by
  induction text generalizing depth before with
  | nil => cases found
  | cons c rest ih =>
    unfold cutTopFrom? at found
    split at found
    · rename_i here
      simp only [Bool.and_eq_true, beq_iff_eq] at here
      obtain ⟨rfl, rfl⟩ := here
      cases found
      have later := closing.2
      rwa [depthAfter_flat plain] at later
    · obtain ⟨cut, inner, shape⟩ := Option.map_eq_some_iff.mp found
      cases shape
      exact ih closing.2 inner

theorem nested_of_cutTop? {needle : Char} {before after : List Char}
    (plain : opens needle = false ∧ closes needle = false) (nested : Nested top text)
    (found : cutTop? needle text = some (before, after)) : Nested top after :=
  nested_iff_closesFrom.mpr
    (closesFrom_of_cutTopFrom? plain (nested_iff_closesFrom.mp nested) found)

theorem Nested.trim (nested : Nested top text) : Nested top (Text.trim text) := by
  obtain ⟨left, right, before, after, shape⟩ := exists_trim text
  rw [shape] at nested
  exact (nested.of_append_right before.nested).of_append_left after.nested

theorem Nested.trimEnd (nested : Nested top text) : Nested top (Text.trimEnd text) := by
  obtain ⟨right, after, shape⟩ := exists_trimEnd text
  rw [shape] at nested
  exact nested.of_append_left after.nested

end PolySchema.Text
