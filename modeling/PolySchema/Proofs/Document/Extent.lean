import Mathlib.Data.List.Forall2
import PolySchema.Proofs.Statement
import PolySchema.Proofs.Text.Part

/-! The extent of a statement. A statement takes its first line and then lines that start no
declaration, and what it holds are stretches of these lines, in their order. -/
namespace PolySchema

/-- A stretch of a line, under the number of that line. -/
structure Line.Within (inner outer : Line) : Prop where
  number : inner.number = outer.number
  text : inner.text <:+: outer.text

instance : Std.Refl Line.Within := ⟨fun _ => ⟨rfl, List.infix_rfl⟩⟩

private theorem Keyword.ofLine?_of_brace {text : List Char} {brace : Char}
    (start : text.head? = some brace) (outside : isIdentifierChar brace = false)
    (visible : Text.isBlank brace = false) : Keyword.ofLine? text = none := by
  by_contra found
  exact Keyword.head?_ne_of_isSome brace (Option.isSome_iff_ne_none.mpr found) outside visible start

theorem BlockTail.exists_taken (opened : Bool) (lines : List Line) :
    ∃ taken, lines = taken ++ (BlockTail.take opened lines).rest ∧
      (BlockTail.take opened lines).body.Sublist taken ∧
      ∀ line ∈ taken, Keyword.ofLine? line.text = none := by
  induction lines generalizing opened with
  | nil => exact ⟨[], rfl, .slnil, List.forall_mem_nil _⟩
  | cons line rest ih =>
    unfold BlockTail.take
    split
    · rename_i opening
      rw [Bool.and_eq_true, beq_iff_eq] at opening
      have brace : line.text.head? = some '{' := by
        rw [opening.2]
        rfl
      obtain ⟨taken, split, body, plain⟩ := ih true
      refine ⟨line :: taken, congrArg (line :: ·) split, body.cons line, ?_⟩
      exact List.forall_mem_cons.mpr ⟨Keyword.ofLine?_of_brace brace rfl (by decide), plain⟩
    · split
      · rename_i closing
        refine ⟨[line], rfl, List.nil_sublist _, ?_⟩
        rw [List.forall_mem_singleton]
        exact Keyword.ofLine?_of_brace (beq_iff_eq.mp closing) rfl (by decide)
      · split
        · exact ⟨[], rfl, .slnil, List.forall_mem_nil _⟩
        · rename_i plain
          obtain ⟨taken, split, body, others⟩ := ih opened
          refine ⟨line :: taken, congrArg (line :: ·) split, body.cons_cons line, ?_⟩
          exact List.forall_mem_cons.mpr ⟨by simpa using plain, others⟩

namespace Block

/-- The header and the lines of the body. -/
def lines (block : Block) : List Line := ⟨block.line, block.header⟩ :: block.body

theorem exists_within_of_mem_items {block : Block} {item : Line} (member : item ∈ block.items) :
    ∃ line ∈ block.body, item.Within line := by
  obtain ⟨line, inside, own⟩ := List.mem_flatMap.mp member
  obtain ⟨text, present, rfl⟩ := List.mem_map.mp own
  exact ⟨line, inside, rfl, Text.isInfix_of_mem_items present⟩

/-- The first line counts twice, since a body can start on it. -/
theorem exists_taken (first : Line) (rest : List Line) :
    ∃ taken, rest = taken ++ (Block.take first rest).2 ∧
      (∀ line ∈ taken, Keyword.ofLine? line.text = none) ∧
      List.SublistForall₂ Line.Within (Block.take first rest).1.lines
        (first :: first :: taken) := by
  unfold Block.take
  split
  · obtain ⟨taken, split, body, plain⟩ := BlockTail.exists_taken false rest
    exact ⟨taken, split, plain, .cons (refl first) (.cons_right body.sublistForall₂)⟩
  · rename_i before after opened
    have cut := Text.cutFirst?_eq_some opened
    have header : Line.Within ⟨first.number, Text.trim before⟩ first :=
      ⟨rfl, (Text.isInfix_trim before).trans (Text.isInfix_before cut)⟩
    split
    · rename_i inside trailing closed
      obtain ⟨bracket, _, shape⟩ := Text.cutClose?_eq_some closed
      have inline : Line.Within ⟨first.number, inside⟩ first :=
        ⟨rfl, (Text.isInfix_before shape).trans (Text.isInfix_after cut)⟩
      exact ⟨[], rfl, List.forall_mem_nil _, .cons header (.cons inline .nil)⟩
    · have inline : Line.Within ⟨first.number, after⟩ first := ⟨rfl, Text.isInfix_after cut⟩
      obtain ⟨taken, split, body, plain⟩ := BlockTail.exists_taken true rest
      exact ⟨taken, split, plain, .cons header (.cons inline body.sublistForall₂)⟩

end Block

namespace Statement

/-- The lines that a statement holds. -/
def lines : Statement → List Line
  | .struct block | .interface block => block.lines
  | .function line | .alias line | .stray line => [line]

theorem exists_taken (first : Line) (rest : List Line) :
    ∃ taken, rest = taken ++ (Statement.take first rest).2 ∧
      (∀ line ∈ taken, Keyword.ofLine? line.text = none) ∧
      List.SublistForall₂ Line.Within (Statement.take first rest).1.lines
        (first :: first :: taken) := by
  have single : ∃ taken, rest = taken ++ rest ∧
      (∀ line ∈ taken, Keyword.ofLine? line.text = none) ∧
      List.SublistForall₂ Line.Within [first] (first :: first :: taken) :=
    ⟨[], rfl, List.forall_mem_nil _, .cons (refl first) .nil⟩
  unfold Statement.take
  split
  · exact Block.exists_taken first rest
  · exact Block.exists_taken first rest
  · exact single
  · exact single
  · exact single

private theorem exists_within_of_mem {inner : Line} {held outer : List Line}
    (within : List.SublistForall₂ Line.Within held outer) (member : inner ∈ held) :
    ∃ line ∈ outer, inner.Within line := by
  induction within with
  | nil => cases member
  | cons stretch _ ih =>
    rcases List.mem_cons.mp member with rfl | later
    · exact ⟨_, List.mem_cons_self, stretch⟩
    · obtain ⟨line, present, found⟩ := ih later
      exact ⟨line, List.mem_cons_of_mem _ present, found⟩
  | cons_right _ ih =>
    obtain ⟨line, present, found⟩ := ih member
    exact ⟨line, List.mem_cons_of_mem _ present, found⟩

/-- Statements hold stretches of the lines that are grouped. -/
theorem exists_within_of_group {lines : List Line} {statement : Statement} {inner : Line}
    (grouped : statement ∈ Statement.group lines) (member : inner ∈ statement.lines) :
    ∃ line ∈ lines, inner.Within line := by
  induction lines using Statement.induction with
  | nil => simp [Statement.group] at grouped
  | cons first rest ih =>
    obtain ⟨taken, split, _, within⟩ := Statement.exists_taken first rest
    have early : taken ⊆ rest := by
      rw [split]
      exact List.subset_append_left _ _
    have late : (Statement.take first rest).2 ⊆ rest := by
      conv_rhs => rw [split]
      exact List.subset_append_right _ _
    rw [Statement.group_cons, List.mem_cons] at grouped
    rcases grouped with rfl | later
    · obtain ⟨line, present, stretch⟩ := exists_within_of_mem within member
      refine ⟨line, ?_, stretch⟩
      simp only [List.mem_cons] at present ⊢
      rcases present with same | same | inside
      · exact Or.inl same
      · exact Or.inl same
      · exact Or.inr (early inside)
    · obtain ⟨line, present, stretch⟩ := ih later
      exact ⟨line, List.mem_cons_of_mem _ (late present), stretch⟩

end Statement
end PolySchema
