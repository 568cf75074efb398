import PolySchema.Proofs.Document.Composition
import PolySchema.Proofs.Document.Location

namespace PolySchema

/-- The block of a header line whose body closes on the same line, and what follows it there. -/
def Block.inline? (line : Line) : Option (Block × List Char) :=
  match Text.cutFirst? '{' line.text with
  | none => none
  | some (before, after) =>
    (Text.cutClose? 1 after).map fun cut =>
      (⟨line.number, Text.trim before, [⟨line.number, cut.1⟩], true⟩, cut.2)

/-- The statement of a struct or interface line whose body closes on the same line, and what follows
it there. -/
def Statement.inline? (line : Line) : Option (Statement × List Char) :=
  match Keyword.ofLine? line.text with
  | some .struct => (Block.inline? line).map fun cut => (.struct cut.1, cut.2)
  | some .interface => (Block.inline? line).map fun cut => (.interface cut.1, cut.2)
  | _ => none

/-- The line closes the body that a struct or interface line in front of it leaves open. -/
def Line.ClosesBody (front : List Line) (line : Line) : Prop :=
  ∃ outer first body, front = outer ++ first :: body ∧
    (Keyword.ofLine? first.text = some .struct ∨ Keyword.ofLine? first.text = some .interface) ∧
    Block.inline? first = none ∧ (∀ inner ∈ body, Line.ContinuesBody inner.text) ∧
    line.text.head? = some '}'

section

variable {line : Line} {trailing : List Char}

theorem Block.of_inline? {block : Block} (found : Block.inline? line = some (block, trailing))
    (rest : List Line) :
    Block.take line rest = (block, rest) ∧ ∀ number ∈ block.numbers, number = line.number := by
  unfold Block.inline? at found
  split at found
  · cases found
  · rename_i before after cut
    obtain ⟨⟨inside, left⟩, closed, same⟩ := Option.map_eq_some_iff.mp found
    cases same
    constructor
    · simp only [Block.take, cut, closed]
    · simp [Block.numbers]

theorem Statement.of_inline? {statement : Statement}
    (found : Statement.inline? line = some (statement, trailing)) (rest : List Line) :
    (Keyword.ofLine? line.text).isSome = true ∧ Statement.take line rest = (statement, rest) ∧
      ∀ number ∈ statement.numbers, number = line.number := by
  unfold Statement.inline? at found
  unfold Statement.take
  split at found
  · rename_i keyword
    obtain ⟨⟨block, left⟩, inline, same⟩ := Option.map_eq_some_iff.mp found
    cases same
    obtain ⟨taken, own⟩ := Block.of_inline? inline rest
    simp only [keyword, taken]
    exact ⟨rfl, trivial, own⟩
  · rename_i keyword
    obtain ⟨⟨block, left⟩, inline, same⟩ := Option.map_eq_some_iff.mp found
    cases same
    obtain ⟨taken, own⟩ := Block.of_inline? inline rest
    simp only [keyword, taken]
    exact ⟨rfl, trivial, own⟩
  · cases found

end

private theorem BlockTail.take_closing {lines : List Line} {close : Line}
    (inside : ∀ line ∈ lines, Line.ContinuesBody line.text)
    (closing : close.text.head? = some '}') (opened : Bool) (rest : List Line) :
    (BlockTail.take opened (lines ++ close :: rest)).rest = rest ∧
      (BlockTail.take opened (lines ++ close :: rest)).body.Sublist lines := by
  induction lines generalizing opened with
  | nil =>
    have brace : close.text ≠ ['{'] := by
      intro lone
      rw [lone] at closing
      cases closing
    simp [BlockTail.take, closing, brace]
  | cons line lines ih =>
    obtain ⟨unclosed, plain⟩ := inside line List.mem_cons_self
    have later := ih fun other member => inside other (List.mem_cons_of_mem _ member)
    rw [List.cons_append]
    unfold BlockTail.take
    split
    · exact ⟨(later true).1, (later true).2.cons line⟩
    · rw [if_neg (by simpa using unclosed), if_neg (by simp [plain])]
      exact ⟨(later opened).1, (later opened).2.cons_cons line⟩

private theorem Block.take_closing {first close : Line} {body : List Line}
    (unclosed : Block.inline? first = none) (inside : ∀ line ∈ body, Line.ContinuesBody line.text)
    (closing : close.text.head? = some '}') (rest : List Line) :
    (Block.take first (body ++ close :: rest)).2 = rest ∧
      ∀ number ∈ (Block.take first (body ++ close :: rest)).1.numbers,
        number ∈ (first :: body).map Line.number := by
  have tail (opened : Bool) := BlockTail.take_closing inside closing opened rest
  have numbers (opened : Bool) := ((tail opened).2.map Line.number).cons_cons first.number
  cases cut : Text.cutFirst? '{' first.text with
  | none =>
    simp only [Block.take, cut]
    exact ⟨(tail false).1, fun number member => (numbers false).subset member⟩
  | some parts =>
    have runsOn : Text.cutClose? 1 parts.2 = none := by
      simpa only [Block.inline?, cut, Option.map_eq_none_iff] using unclosed
    simp only [Block.take, cut, runsOn]
    refine ⟨(tail true).1, fun number member => ?_⟩
    rcases List.mem_cons.mp member with rfl | later
    · exact List.mem_cons_self
    · exact (numbers true).subset later

private theorem Statement.take_closing {first close : Line} {body : List Line}
    (keyword : Keyword.ofLine? first.text = some .struct ∨
      Keyword.ofLine? first.text = some .interface)
    (unclosed : Block.inline? first = none) (inside : ∀ line ∈ body, Line.ContinuesBody line.text)
    (closing : close.text.head? = some '}') (rest : List Line) :
    (Statement.take first (body ++ close :: rest)).2 = rest ∧
      ∀ number ∈ (Statement.take first (body ++ close :: rest)).1.numbers,
        number ∈ (first :: body).map Line.number := by
  have block := Block.take_closing unclosed inside closing rest
  unfold Statement.take
  rcases keyword with struct | interface
  · rw [struct]
    exact block
  · rw [interface]
    exact block

namespace Document

private theorem not_reports_of_group {lines : List Line} {number : Nat}
    (absent : number ∉ lines.map Line.number) :
    ∀ statement ∈ Statement.group lines, ¬ statement.read.Reports number := by
  intro statement grouped reported
  apply absent
  exact Statement.mem_numbers_of_group grouped (Statement.mem_numbers_of_reports reported)

/-- Where a line starts a declaration, the first statement from it on is the only one that can
report a line that neither the lines in front of it nor the lines left after it hold. -/
private theorem reports_iff_take {front rest : List Line} {first : Line} {number : Nat}
    (starts : (Keyword.ofLine? first.text).isSome = true)
    (before : number ∉ front.map Line.number)
    (after : number ∉ (Statement.take first rest).2.map Line.number) :
    (Document.ofLines (front ++ first :: rest)).Reports number ↔
      (Statement.take first rest).1.read.Reports number := by
  have apart : Line.StartsApart (first :: rest) := by
    intro line member
    cases member
    exact starts
  rw [reports_ofLines, Statement.group_append (.inr apart), Statement.group_cons]
  constructor
  · rintro ⟨statement, grouped, reported⟩
    rcases List.mem_append.mp grouped with early | here
    · exact absurd reported (not_reports_of_group before statement early)
    · rcases List.mem_cons.mp here with rfl | late
      · exact reported
      · exact absurd reported (not_reports_of_group after statement late)
  · intro reported
    exact ⟨_, List.mem_append_right _ List.mem_cons_self, reported⟩

/-- A struct or interface line whose body closes on it is reported just when the declaration in
front of the closing brace has something wrong with it, and a line that closes a body is never
reported, whatever follows the brace. -/
theorem reports_trailing_iff (source : String) (front back : List Line) (line : Line)
    (scanned : Line.scan source.toList = front ++ line :: back) :
    (∀ statement trailing, Statement.inline? line = some (statement, trailing) →
      ((Document.read source).Reports line.number ↔ statement.read.diagnostics ≠ [])) ∧
    (Line.ClosesBody front line → ¬ (Document.read source).Reports line.number) := by
  obtain ⟨before, after⟩ := Line.number_not_mem_of_scan scanned
  rw [Document.read, scanned]
  constructor
  · intro statement trailing found
    obtain ⟨starts, taken, own⟩ := Statement.of_inline? found back
    rw [reports_iff_take starts before (by rwa [taken]), taken]
    constructor
    · rintro ⟨diagnostic, member, _⟩
      exact List.ne_nil_of_mem member
    · intro nonempty
      obtain ⟨diagnostic, member⟩ := List.exists_mem_of_ne_nil _ nonempty
      obtain ⟨number, present, located⟩ := statement.each_read diagnostic member
      exact ⟨diagnostic, member, own number present ▸ located⟩
  · rintro ⟨outer, first, body, rfl, keyword, unclosed, inside, closing⟩ reported
    obtain ⟨left, numbers⟩ := Statement.take_closing keyword unclosed inside closing back
    have starts : (Keyword.ofLine? first.text).isSome = true := by
      rcases keyword with struct | interface
      · rw [struct]
        rfl
      · rw [interface]
        rfl
    rw [List.map_append, List.mem_append, not_or] at before
    rw [List.append_assoc, List.cons_append,
      reports_iff_take starts before.1 (by rwa [left])] at reported
    exact before.2 (numbers _ (Statement.mem_numbers_of_reports reported))

/-- The first line is reported for its header, and the last line is not reported for its alias. -/
theorem reports_trailing_iff_mixed :
    let source := "struct A B \x7b\x7d struct C \x7b\x7d\ninterface I \x7b\n\x7d type T = U"
    let first : Line := ⟨1, "struct A B \x7b\x7d struct C \x7b\x7d".toList⟩
    let header : Line := ⟨2, "interface I \x7b".toList⟩
    let close : Line := ⟨3, "\x7d type T = U".toList⟩
    Line.scan source.toList = [first, header, close] ∧
      (∃ statement, Statement.inline? first = some (statement, " struct C \x7b\x7d".toList)) ∧
      (Document.read source).Reports 1 ∧
      Line.ClosesBody [first, header] close ∧ ¬ (Document.read source).Reports 3 := by
  intro source first header close
  have scanned : Line.scan source.toList = [first, header, close] := by
    subst source first header close
    rfl
  have inline : Statement.inline? first =
      some (.struct ⟨1, "struct A B".toList, [⟨1, []⟩], true⟩,
        " struct C \x7b\x7d".toList) := by
    subst first
    rfl
  have malformed :
      (Statement.struct ⟨1, "struct A B".toList, [⟨1, []⟩], true⟩).read.diagnostics =
        [⟨.malformedHeader, some 1, "struct A B"⟩] := rfl
  have closes : Line.ClosesBody [first, header] close := by
    subst first header close
    exact ⟨[_], _, [], rfl, .inr rfl, rfl, by simp, rfl⟩
  refine ⟨scanned, ⟨_, inline⟩, ?_, closes, ?_⟩
  · apply ((reports_trailing_iff source [] [header, close] first scanned).1 _ _ inline).mpr
    rw [malformed]
    exact List.cons_ne_nil _ _
  · exact (reports_trailing_iff source [first, header] [] close scanned).2 closes

/-- A whole declaration behind a closing brace is lost without a report. -/
theorem read_trailing_unreported :
    let source := "struct A \x7b\x7d struct B \x7b\x7d"
    let line : Line := ⟨1, source.toList⟩
    Line.scan source.toList = [line] ∧
      (∃ statement trailing, Statement.inline? line = some (statement, trailing) ∧
        ∃ c ∈ trailing, isIdentifierChar c = true) ∧
      Document.read source = ⟨⟨[.struct ⟨"A", [], none⟩]⟩, []⟩ ∧
      ¬ (Document.read source).Reports line.number := by
  intro source line
  have scanned : Line.scan source.toList = [line] := by
    subst line source
    rfl
  have inline : Statement.inline? line =
      some (.struct ⟨1, "struct A".toList, [⟨1, []⟩], true⟩, " struct B \x7b\x7d".toList) := by
    subst line source
    rfl
  have document : Document.read source = ⟨⟨[.struct ⟨"A", [], none⟩]⟩, []⟩ := by
    rw [Document.read, scanned, Document.ofLines, Statement.group_cons,
      (Statement.of_inline? inline []).2.1, Statement.group]
    rfl
  refine ⟨scanned, ⟨_, _, inline, 's', by decide, rfl⟩, document, ?_⟩
  rw [document]
  rintro ⟨diagnostic, member, _⟩
  cases member

end Document
end PolySchema
