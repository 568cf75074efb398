import Mathlib.Order.Bounds.Basic
import PolySchema.Proofs.Text.Balance
import PolySchema.Proofs.Text.Slice

namespace PolySchema.Text

variable {top : Char → Prop} {depth offset : Nat} {bracket c right : Char}
variable {text before front after inside rest due later : List Char}

section Counting

theorem cutClose?_cons (depth : Nat) (c : Char) (rest : List Char) :
    cutClose? (depth + 1) (c :: rest) =
      if depthAfter (depth + 1) c = 0 then some ([], rest)
      else (cutClose? (depthAfter (depth + 1) c) rest).map fun cut => (c :: cut.1, cut.2) := by
  rcases bracket_cases c with opening | closing | flat
  · simp [cutClose?, depthAfter_opens opening, opening]
  · cases depth <;>
      simp [cutClose?, depthAfter_closes closing, opens_of_closes closing, closing]
  · simp [cutClose?, depthAfter_flat flat, flat]

/-- The depth grows by what is opened and shrinks by what is closed, unless a bracket closes while
none is open. -/
theorem countP_depthAfter (possible : depth = 0 → closes c = false) :
    [c].countP closes + depthAfter depth c = depth + [c].countP opens := by
  rcases bracket_cases c with opening | closing | flat
  · simp [depthAfter_opens opening, opening, closes_of_opens opening]
  · have positive : depth ≠ 0 := fun zero => Bool.eq_false_iff.mp (possible zero) closing
    have one : 1 + (depth - 1) = depth := by omega
    simp [depthAfter_closes closing, closing, opens_of_closes closing, one]
  · simp [depthAfter_flat flat, flat]

namespace ClosesFrom

theorem countP_closes (closing : ClosesFrom top depth text) :
    text.countP closes = depth + text.countP opens := by
  induction text generalizing depth with
  | nil =>
    cases closing
    rfl
  | cons c rest ih =>
    have first := countP_depthAfter fun zero => (closing.1 zero).2
    have later := ih closing.2
    rw [← List.singleton_append, List.countP_append, List.countP_append]
    omega

theorem countP_closes_le (closing : ClosesFrom top depth text) (start : front <+: text) :
    front.countP closes ≤ depth + front.countP opens := by
  induction text generalizing depth front with
  | nil => simp [List.prefix_nil.mp start]
  | cons c rest ih =>
    rcases List.prefix_cons_iff.mp start with rfl | ⟨tail, rfl, inner⟩
    · simp
    · have first := countP_depthAfter fun zero => (closing.1 zero).2
      have later := ih closing.2 inner
      rw [← List.singleton_append, List.countP_append, List.countP_append]
      omega

end ClosesFrom

theorem countP_closes_le_of_cutClose? (missing : cutClose? (depth + 1) text = none)
    (start : front <+: text) : front.countP closes ≤ depth + front.countP opens := by
  induction text generalizing depth front with
  | nil => simp [List.prefix_nil.mp start]
  | cons c rest ih =>
    rcases List.prefix_cons_iff.mp start with rfl | ⟨tail, rfl, inner⟩
    · simp
    · have first : [c].countP closes + depthAfter (depth + 1) c = depth + 1 + [c].countP opens :=
        countP_depthAfter fun zero => absurd zero (Nat.succ_ne_zero depth)
      rw [cutClose?_cons] at missing
      split at missing
      · cases missing
      · rename_i below
        obtain ⟨next, level⟩ := Nat.exists_eq_succ_of_ne_zero below
        rw [level, Option.map_eq_none_iff] at missing
        have later := ih missing inner
        rw [← List.singleton_append, List.countP_append, List.countP_append]
        omega

end Counting

/-- The offsets at which, counted from `start` on, as many brackets are closed as opened. -/
def evenOffsets (text : List Char) (start : Nat) : Set Nat :=
  {offset | start ≤ offset ∧ ∃ part, slice text start (offset + 1) = .ok part ∧
    part.countP opens = part.countP closes}

section Search

variable (cut : text = before ++ bracket :: after) (opening : opens bracket = true)

include cut opening

theorem closeOffset_eq_some_iff :
    closeOffset text (byteSize before) = .ok (some offset) ↔
      ∃ inside right rest, after = inside ++ right :: rest ∧ Nested (fun _ => True) inside ∧
        closes right = true ∧ byteSize before + 1 + byteSize inside = offset := by
  rw [closeOffset_eq cut opening, Except.ok.injEq, Option.map_eq_some_iff]
  constructor
  · rintro ⟨⟨inside, rest⟩, found, place⟩
    obtain ⟨right, closing, shape⟩ := cutClose?_eq_some found
    exact ⟨inside, right, rest, shape, nested_of_cutClose? found, closing, place⟩
  · rintro ⟨inside, right, rest, rfl, nested, closing, place⟩
    exact ⟨(inside, rest), cutClose?_nested nested closing rest, place⟩

theorem mem_evenOffsets :
    offset ∈ evenOffsets text (byteSize before) ↔
      ∃ front, front <+: after ∧ byteSize before + byteSize front = offset ∧
        front.countP closes = front.countP opens + 1 := by
  subst cut
  have narrow := utf8Size_of_opens opening
  constructor
  · rintro ⟨reached, part, found, even⟩
    obtain ⟨start, size⟩ := slice_eq_ok_iff.mp found
    rcases List.prefix_cons_iff.mp start with rfl | ⟨front, rfl, inner⟩
    · rw [byteSize_nil] at size
      omega
    · rw [byteSize, narrow] at size
      refine ⟨front, inner, by omega, ?_⟩
      simpa [opening, closes_of_opens opening] using even.symm
  · rintro ⟨front, inner, rfl, surplus⟩
    refine ⟨Nat.le_add_right _ _, bracket :: front, slice_eq_ok_iff.mpr ⟨?_, ?_⟩, ?_⟩
    · exact List.cons_prefix_cons.mpr ⟨rfl, inner⟩
    · rw [byteSize, narrow]
      omega
    · simp [opening, closes_of_opens opening, surplus]

theorem isLeast_evenOffsets (found : closeOffset text (byteSize before) = .ok (some offset)) :
    IsLeast (evenOffsets text (byteSize before)) offset := by
  obtain ⟨inside, right, rest, rfl, nested, closing, rfl⟩ :=
    (closeOffset_eq_some_iff cut opening).mp found
  have depths := nested_iff_closesFrom.mp nested
  constructor
  · refine (mem_evenOffsets cut opening).mpr ⟨inside ++ [right], ⟨rest, by simp⟩, ?_, ?_⟩
    · simp only [byteSize_append, byteSize, utf8Size_of_closes closing]
      omega
    · simp [depths.countP_closes, closing, opens_of_closes closing]
  · intro other even
    obtain ⟨front, start, rfl, surplus⟩ := (mem_evenOffsets cut opening).mp even
    by_contra earlier
    -- A shorter start of the text lies between the brackets.
    have within : front <+: inside :=
      isPrefix_of_byteSize_le start (List.prefix_append _ _) (by omega)
    have unclosed := depths.countP_closes_le within
    omega

theorem evenOffsets_eq_empty (missing : closeOffset text (byteSize before) = .ok none) :
    evenOffsets text (byteSize before) = ∅ := by
  rw [closeOffset_eq cut opening, Except.ok.injEq, Option.map_eq_none_iff] at missing
  refine Set.eq_empty_iff_forall_notMem.mpr fun offset even => ?_
  obtain ⟨front, start, _, surplus⟩ := (mem_evenOffsets cut opening).mp even
  have unclosed := countP_closes_le_of_cutClose? missing start
  omega

theorem closeOffset_iff_evenOffsets :
    (∀ offset, closeOffset text (byteSize before) = .ok (some offset) ↔
      IsLeast (evenOffsets text (byteSize before)) offset) ∧
    (closeOffset text (byteSize before) = .ok none ↔ evenOffsets text (byteSize before) = ∅) := by
  cases search : (cutClose? 1 after).map fun close => byteSize before + 1 + byteSize close.1 with
  | none =>
    have missing : closeOffset text (byteSize before) = .ok none := by
      rw [closeOffset_eq cut opening, search]
    rw [missing, evenOffsets_eq_empty cut opening missing]
    refine ⟨fun offset => ⟨fun impossible => ?_, fun least => ?_⟩, by simp⟩
    · cases impossible
    · exact absurd least.1 (Set.notMem_empty offset)
  | some offset =>
    have found : closeOffset text (byteSize before) = .ok (some offset) := by
      rw [closeOffset_eq cut opening, search]
    have least := isLeast_evenOffsets cut opening found
    have nonempty : evenOffsets text (byteSize before) ≠ ∅ := Set.Nonempty.ne_empty ⟨_, least.1⟩
    rw [found]
    refine ⟨fun other => ?_, by simp [nonempty]⟩
    rw [Except.ok.injEq, Option.some.injEq]
    exact ⟨fun same => same ▸ least, fun also => least.unique also⟩

end Search

/-- A closing bracket that is not the one that is due. -/
structure Mismatch where
  offset : Nat
  deriving DecidableEq, Repr

/-- The offset of the bracket after which nothing is due any more. The text is read from `offset`
on. -/
def closeDue (due : List Char) (offset : Nat) : List Char → Except Mismatch (Option Nat)
  | [] => .ok none
  | c :: rest =>
    match dueAfter? due c with
    | none => .error ⟨offset⟩
    | some [] => .ok (some offset)
    | some later => closeDue later (offset + c.utf8Size) rest

/-- The offset of the bracket that closes the one at `start`, where every bracket has to close one
of its own kind. From anything but an opening bracket nothing is found. -/
def closeByKind (text : List Char) (start : Nat) : Except Mismatch (Option Nat) :=
  match dropBytes? start text with
  | some (bracket :: rest) =>
    match partner? bracket with
    | some right => closeDue [right] (start + 1) rest
    | none => .ok none
  | _ => .ok none

section Stack

variable (height : due.length = depth + 1)

include height

private theorem cutClose?_of_dueAfter? (step : dueAfter? due c = some later) (rest : List Char) :
    cutClose? (depth + 1) (c :: rest) =
      if later.length = 0 then some ([], rest)
      else (cutClose? later.length rest).map fun cut => (c :: cut.1, cut.2) := by
  rw [cutClose?_cons, (length_dueAfter? step).1, height]

theorem cutClose?_of_closeDue {result : Option Nat} (run : closeDue due offset text = .ok result) :
    (cutClose? (depth + 1) text).map (fun cut => offset + byteSize cut.1) = result := by
  induction text generalizing due depth offset with
  | nil =>
    cases run
    rfl
  | cons c rest ih =>
    rw [closeDue] at run
    cases step : dueAfter? due c with
    | none =>
      rw [step] at run
      cases run
    | some later =>
      rw [step] at run
      rw [cutClose?_of_dueAfter? height step]
      cases later with
      | nil =>
        cases run
        rfl
      | cons next others =>
        rw [List.length_cons, if_neg (Nat.succ_ne_zero _), ← ih rfl run, Option.map_map]
        simp only [Function.comp_def, byteSize, Nat.add_assoc]

/-- The stack follows the count to the close exactly if all kinds are right up to there. -/
theorem closeDue_eq_iff
    (found : cutClose? (depth + 1) (inside ++ right :: rest) = some (inside, rest)) :
    closeDue due offset (inside ++ right :: rest) = .ok (some (offset + byteSize inside)) ↔
      (inside ++ [right]).foldlM dueAfter? due = some [] := by
  -- The height of the stack is the depth, so it is empty behind the close and not before.
  induction inside generalizing due depth offset with
  | nil =>
    rw [List.nil_append, List.nil_append, closeDue, List.foldlM_cons]
    cases step : dueAfter? due right with
    | none => simp
    | some later =>
      rw [List.nil_append, cutClose?_of_dueAfter? height step] at found
      cases later with
      | nil => simp [byteSize]
      | cons next others => simp at found
  | cons c inside ih =>
    rw [List.cons_append, List.cons_append, closeDue, List.foldlM_cons]
    cases step : dueAfter? due c with
    | none => simp
    | some later =>
      rw [List.cons_append, cutClose?_of_dueAfter? height step] at found
      cases later with
      | nil => simp at found
      | cons next others =>
        rw [List.length_cons, if_neg (Nat.succ_ne_zero _)] at found
        obtain ⟨cut, inner, shape⟩ := Option.map_eq_some_iff.mp found
        cases shape
        rw [byteSize, ← Nat.add_assoc]
        exact ih rfl inner

end Stack

section Search

variable (cut : text = before ++ bracket :: after)

include cut

theorem closeByKind_eq (kind : partner? bracket = some right) :
    closeByKind text (byteSize before) = closeDue [right] (byteSize before + 1) after := by
  subst cut
  simp only [closeByKind, dropBytes?_append, kind]

theorem closeOffset_of_closeByKind (opening : opens bracket = true) {result : Option Nat}
    (run : closeByKind text (byteSize before) = .ok result) :
    closeOffset text (byteSize before) = .ok result := by
  obtain ⟨right, kind, _⟩ := partner?_of_opens opening
  rw [closeByKind_eq cut kind] at run
  have height : [right].length = 0 + 1 := rfl
  rw [closeOffset_eq cut opening, ← cutClose?_of_closeDue height run]

end Search

section Brackets

variable (cut : text = before ++ bracket :: (inside ++ right :: rest))
variable (opening : opens bracket = true) (closing : closes right = true)

include cut opening closing

theorem slice_brackets :
    slice text (byteSize before) (byteSize before + 1 + byteSize inside + 1) =
      .ok (bracket :: (inside ++ [right])) := by
  subst cut
  refine slice_eq_ok_iff.mpr ⟨⟨rest, by simp⟩, ?_⟩
  simp only [byteSize, byteSize_append, utf8Size_of_opens opening, utf8Size_of_closes closing]
  omega

theorem closeByKind_eq_iff_isBalanced (nested : Nested (fun _ => True) inside) :
    closeByKind text (byteSize before) = .ok (some (byteSize before + 1 + byteSize inside)) ↔
      isBalanced (bracket :: (inside ++ [right])) = true := by
  obtain ⟨partner, kind, _⟩ := partner?_of_opens opening
  have height : [partner].length = 0 + 1 := rfl
  rw [closeByKind_eq cut kind, closeDue_eq_iff height (cutClose?_nested nested closing rest),
    isBalanced, beq_iff_eq, List.foldlM_cons, dueAfter?_left kind]
  rfl

end Brackets

/-- The search from an opening bracket finds the first offset at which as many brackets are closed
as opened, if there is one. In between, no bracket is closed that was not opened there. A search
that keeps the kinds apart comes to the same result unless it meets a closing bracket of the wrong
kind, and it finds the bracket exactly if everything up to there is nested kind by kind. -/
theorem closeOffset_counts {text before after : List Char} {bracket : Char} {start : Nat}
    (cut : text = before ++ bracket :: after) (place : byteSize before = start)
    (opening : opens bracket = true) :
    (∀ offset, closeOffset text start = .ok (some offset) ↔
      IsLeast (evenOffsets text start) offset) ∧
    (closeOffset text start = .ok none ↔ evenOffsets text start = ∅) ∧
    (∀ offset, closeOffset text start = .ok (some offset) →
      ∃ inside, slice text (start + 1) offset = .ok inside ∧
        (∀ front, front <+: inside → front.countP closes ≤ front.countP opens) ∧
        inside.countP closes = inside.countP opens) ∧
    (∀ result, closeByKind text start = .ok result → closeOffset text start = .ok result) ∧
    ∀ offset, closeByKind text start = .ok (some offset) ↔
      closeOffset text start = .ok (some offset) ∧
      ∃ part, slice text start (offset + 1) = .ok part ∧ isBalanced part = true := by
  subst place
  obtain ⟨least, empty⟩ := closeOffset_iff_evenOffsets cut opening
  refine ⟨least, empty, ?_, fun result => closeOffset_of_closeByKind cut opening, ?_⟩
  · intro offset found
    obtain ⟨inside, right, rest, rfl, nested, closing, rfl⟩ :=
      (closeOffset_eq_some_iff cut opening).mp found
    have depths := nested_iff_closesFrom.mp nested
    refine ⟨inside, slice_between cut (utf8Size_of_opens opening), fun front start => ?_, ?_⟩
    · simpa using depths.countP_closes_le start
    · simpa using depths.countP_closes
  · intro offset
    constructor
    · intro run
      have found := closeOffset_of_closeByKind cut opening run
      obtain ⟨inside, right, rest, rfl, nested, closing, rfl⟩ :=
        (closeOffset_eq_some_iff cut opening).mp found
      refine ⟨found, _, slice_brackets cut opening closing, ?_⟩
      exact (closeByKind_eq_iff_isBalanced cut opening closing nested).mp run
    · rintro ⟨found, part, sliced, balanced⟩
      obtain ⟨inside, right, rest, rfl, nested, closing, rfl⟩ :=
        (closeOffset_eq_some_iff cut opening).mp found
      rw [slice_brackets cut opening closing, Except.ok.injEq] at sliced
      subst sliced
      exact (closeByKind_eq_iff_isBalanced cut opening closing nested).mpr balanced

/-- Two kinds of bracket around and behind characters of two bytes. -/
theorem closeOffset_counts_mixed :
    let text := ['ü', '<', 'é', '(', 'x', ')', '>', ')']
    opens '<' = true ∧ closeOffset text 2 = .ok (some 8) ∧ IsLeast (evenOffsets text 2) 8 ∧
      closeByKind text 2 = .ok (some 8) ∧
      ∃ inside, slice text 3 8 = .ok inside ∧ inside.countP closes = inside.countP opens := by
  intro text
  have cut : text = ['ü'] ++ '<' :: ['é', '(', 'x', ')', '>', ')'] := rfl
  have place : byteSize ['ü'] = 2 := rfl
  obtain ⟨least, _, within, _, kinds⟩ := closeOffset_counts cut place rfl
  have found : closeOffset text 2 = .ok (some 8) := rfl
  obtain ⟨inside, sliced, _, even⟩ := within 8 found
  exact ⟨rfl, found, (least 8).mp found, (kinds 8).mpr ⟨found, _, rfl, rfl⟩, inside, sliced, even⟩

-- Counted together, a brace closes an angle bracket.
example : closeOffset ['<', 'a', '}'] 0 = .ok (some 2) ∧
    closeByKind ['<', 'a', '}'] 0 = .error ⟨2⟩ := ⟨rfl, rfl⟩

end PolySchema.Text
