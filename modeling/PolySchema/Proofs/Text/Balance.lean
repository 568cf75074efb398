import PolySchema.Proofs.Text.Depth

/-! Nesting kind by kind. Cutting and splitting count all brackets together; here each closing
bracket has to be of the same kind as the one that it closes. -/
namespace PolySchema.Text

/-- The closing bracket of the same kind. -/
def partner? : Char → Option Char
  | '<' => some '>'
  | '{' => some '}'
  | '(' => some ')'
  | '[' => some ']'
  | _ => none

/-- The closing brackets that are due after a character, the innermost first. An opening bracket
makes its partner due, and a closing bracket has to be the one that is due next. -/
def dueAfter? (due : List Char) (c : Char) : Option (List Char) :=
  match partner? c with
  | some right => some (right :: due)
  | none =>
    if closes c then
      match due with
      | [] => none
      | next :: later => if c == next then some later else none
    else some due

/-- Whether the brackets of a text are nested kind by kind. -/
def isBalanced (text : List Char) : Bool := text.foldlM dueAfter? [] == some []

/-- Whatever is due, reading the text leaves it due. -/
def Balanced (text : List Char) : Prop := ∀ due, text.foldlM dueAfter? due = some due

variable {top : Char → Prop} {c left right : Char} {due later text other : List Char}

theorem partner?_of_opens (opening : opens left = true) :
    ∃ right, partner? left = some right ∧ closes right = true := by
  simp only [opens, Bool.or_eq_true, beq_iff_eq] at opening
  rcases opening with ((rfl | rfl) | rfl) | rfl <;> exact ⟨_, rfl, rfl⟩

theorem opens_of_partner? (kind : partner? left = some right) : opens left = true := by
  unfold partner? at kind
  split at kind
  · rfl
  · rfl
  · rfl
  · rfl
  · cases kind

theorem closes_of_partner? (kind : partner? left = some right) : closes right = true := by
  obtain ⟨other, same, closing⟩ := partner?_of_opens (opens_of_partner? kind)
  rw [kind] at same
  rwa [Option.some.inj same]

theorem partner?_eq_none (unopened : opens c = false) : partner? c = none := by
  refine Option.eq_none_iff_forall_not_mem.mpr fun right kind => ?_
  rw [opens_of_partner? kind] at unopened
  cases unopened

theorem dueAfter?_left (kind : partner? left = some right) (due : List Char) :
    dueAfter? due left = some (right :: due) := by
  simp [dueAfter?, kind]

theorem dueAfter?_right (closing : closes right = true) (due : List Char) :
    dueAfter? (right :: due) right = some due := by
  simp [dueAfter?, partner?_eq_none (opens_of_closes closing), closing]

theorem dueAfter?_flat (flat : opens c = false ∧ closes c = false) (due : List Char) :
    dueAfter? due c = some due := by
  simp [dueAfter?, partner?_eq_none flat.1, flat.2]

/-- A closing bracket is read only when it is due. -/
theorem eq_of_dueAfter? (closing : closes c = true) (read : dueAfter? due c = some later) :
    due = c :: later := by
  simp only [dueAfter?, partner?_eq_none (opens_of_closes closing), closing, ↓reduceIte] at read
  cases due with
  | nil => cases read
  | cons next rest =>
    simp only [Option.ite_none_right_eq_some, beq_iff_eq, Option.some.injEq] at read
    obtain ⟨rfl, rfl⟩ := read
    rfl

/-- The number of brackets that are due follows the depth. -/
theorem length_dueAfter? (read : dueAfter? due c = some later) :
    later.length = depthAfter due.length c ∧ (due.length = 0 → closes c = false) := by
  rcases bracket_cases c with opening | closing | flat
  · obtain ⟨right, kind, _⟩ := partner?_of_opens opening
    rw [dueAfter?_left kind] at read
    cases read
    rw [depthAfter_opens opening]
    exact ⟨rfl, fun _ => closes_of_opens opening⟩
  · rw [eq_of_dueAfter? closing read, depthAfter_closes closing]
    exact ⟨rfl, fun empty => absurd empty (Nat.succ_ne_zero _)⟩
  · rw [dueAfter?_flat flat] at read
    cases read
    rw [depthAfter_flat flat]
    exact ⟨rfl, fun _ => flat.2⟩

private theorem closesFrom_of_foldlM (read : text.foldlM dueAfter? due = some []) :
    ClosesFrom (fun _ => True) due.length text := by
  induction text generalizing due with
  | nil =>
    cases read
    rfl
  | cons c rest ih =>
    rw [List.foldlM_cons] at read
    obtain ⟨later, step, tail⟩ := Option.bind_eq_some_iff.mp read
    obtain ⟨depth, open?⟩ := length_dueAfter? step
    refine ⟨fun outer => ⟨trivial, open? outer⟩, ?_⟩
    rw [← depth]
    exact ih tail

theorem nested_of_isBalanced (balanced : isBalanced text = true) : Nested (fun _ => True) text :=
  nested_iff_closesFrom.mpr (closesFrom_of_foldlM (beq_iff_eq.mp balanced))

namespace Balanced

theorem nil : Balanced [] := fun _ => rfl

theorem append (first : Balanced text) (second : Balanced other) : Balanced (text ++ other) := by
  intro due
  rw [List.foldlM_append, first due]
  exact second due

theorem of_flat (flat : ∀ c ∈ text, opens c = false ∧ closes c = false) : Balanced text := by
  intro due
  induction text with
  | nil => rfl
  | cons c rest ih =>
    obtain ⟨first, others⟩ := List.forall_mem_cons.mp flat
    rw [List.foldlM_cons, dueAfter?_flat first]
    exact ih others

theorem of_marks (flat : (text.all fun c => !opens c && !closes c) = true) : Balanced text :=
  of_flat (by simpa using flat)

theorem enclose (inside : Balanced text) (kind : partner? left = some right) :
    Balanced (left :: (text ++ [right])) := by
  intro due
  rw [List.foldlM_cons, dueAfter?_left kind, Option.bind_eq_bind, Option.bind_some,
    List.foldlM_append, inside, Option.bind_eq_bind, Option.bind_some, List.foldlM_cons,
    dueAfter?_right (closes_of_partner? kind)]
  rfl

theorem intercalate {separator : List Char} {items : List (List Char)}
    (between : Balanced separator) (each : ∀ item ∈ items, Balanced item) :
    Balanced (separator.intercalate items) :=
  intercalate_induction nil append between each

theorem isBalanced (balanced : Balanced text) : isBalanced text = true :=
  beq_iff_eq.mpr (balanced [])

theorem nested (balanced : Balanced text) : Nested (fun _ => True) text :=
  nested_of_isBalanced balanced.isBalanced

end Balanced

/-- Where brackets are nested, what is due before the text is due behind it, and it does not matter
what that is. -/
theorem Nested.balanced_of_foldlM (nested : Nested top text)
    (read : text.foldlM dueAfter? due = some later) : later = due ∧ Balanced text := by
  induction nested generalizing due later with
  | nil =>
    cases read
    exact ⟨rfl, .nil⟩
  | @plain _ c rest _ flat _ ih =>
    rw [List.foldlM_cons, dueAfter?_flat flat] at read
    obtain ⟨same, tail⟩ := ih read
    have whole : Balanced [c] := .of_flat (List.forall_mem_singleton.mpr flat)
    exact ⟨same, whole.append tail⟩
  | @bracket _ left right body rest _ opening closing _ _ bodyIh restIh =>
    obtain ⟨partner, kind, _⟩ := partner?_of_opens opening
    rw [List.foldlM_cons, dueAfter?_left kind, Option.bind_eq_bind, Option.bind_some,
      List.foldlM_append] at read
    obtain ⟨inner, inside, behind⟩ := Option.bind_eq_some_iff.mp read
    obtain ⟨rfl, bodyBalanced⟩ := bodyIh inside
    rw [List.foldlM_cons] at behind
    obtain ⟨outer, step, tail⟩ := Option.bind_eq_some_iff.mp behind
    cases eq_of_dueAfter? closing step
    obtain ⟨same, restBalanced⟩ := restIh tail
    refine ⟨same, ?_⟩
    have whole := (bodyBalanced.enclose kind).append restBalanced
    simpa using whole

theorem isBalanced_iff : isBalanced text = true ↔ Balanced text := by
  constructor
  · intro balanced
    exact ((nested_of_isBalanced balanced).balanced_of_foldlM (beq_iff_eq.mp balanced)).2
  · intro balanced
    exact balanced.isBalanced

end PolySchema.Text
