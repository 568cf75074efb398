import PolySchema.Proofs.Document.Attribution

namespace PolySchema

/-- The diagnostic is about a line with one of the numbers. -/
def Diagnostic.LiesIn (numbers : List Nat) (diagnostic : Diagnostic) : Prop :=
  ∃ number ∈ numbers, diagnostic.line = some number

/-- The numbers of the lines of a block. -/
def Block.numbers (block : Block) : List Nat := block.line :: block.body.map Line.number

namespace Statement

/-- The numbers of the lines that a statement was made from. -/
def numbers : Statement → List Nat
  | .struct block | .interface block => block.numbers
  | .function line | .alias line | .stray line => [line.number]

theorem numbers_eq (statement : Statement) :
    statement.numbers = statement.lines.map Line.number := by
  cases statement <;> rfl

theorem each_read (statement : Statement) :
    statement.read.Each (Diagnostic.LiesIn statement.numbers) := by
  intro diagnostic member
  obtain ⟨line, held, quotes⟩ := statement.follow_read.exists_quoted diagnostic member
  rw [numbers_eq]
  exact ⟨line.number, List.mem_map.mpr ⟨line, held, rfl⟩, quotes.number⟩

/-- Statements are made from the lines that are grouped. -/
theorem mem_numbers_of_group {lines : List Line} {statement : Statement} {number : Nat}
    (grouped : statement ∈ Statement.group lines) (member : number ∈ statement.numbers) :
    number ∈ lines.map Line.number := by
  rw [numbers_eq] at member
  obtain ⟨inner, held, rfl⟩ := List.mem_map.mp member
  obtain ⟨line, present, stretch⟩ := Statement.exists_within_of_group grouped held
  exact List.mem_map.mpr ⟨line, present, stretch.number.symm⟩

end Statement

/-- Something is reported about the line of that number. -/
def Reported.Reports (reported : Reported α) (number : Nat) : Prop :=
  ∃ diagnostic ∈ reported.diagnostics, diagnostic.line = some number

theorem Statement.mem_numbers_of_reports {statement : Statement} {number : Nat}
    (reported : statement.read.Reports number) : number ∈ statement.numbers := by
  obtain ⟨diagnostic, member, line⟩ := reported
  obtain ⟨own, present, same⟩ := statement.each_read diagnostic member
  rw [line, Option.some.injEq] at same
  rwa [same]

namespace Document

theorem mem_diagnostics_ofLines {lines : List Line} {diagnostic : Diagnostic} :
    diagnostic ∈ (Document.ofLines lines).diagnostics ↔
      ∃ statement ∈ Statement.group lines, diagnostic ∈ statement.read.diagnostics := by
  rw [Document.ofLines, Reported.diagnostics_map, Reported.collect, List.flatMap_map,
    List.mem_flatMap]

theorem reports_ofLines {lines : List Line} {number : Nat} :
    (Document.ofLines lines).Reports number ↔
      ∃ statement ∈ Statement.group lines, statement.read.Reports number := by
  constructor
  · rintro ⟨diagnostic, member, line⟩
    obtain ⟨statement, grouped, reported⟩ := mem_diagnostics_ofLines.mp member
    exact ⟨statement, grouped, diagnostic, reported, line⟩
  · rintro ⟨statement, grouped, diagnostic, reported, line⟩
    exact ⟨diagnostic, mem_diagnostics_ofLines.mpr ⟨statement, grouped, reported⟩, line⟩

end Document
end PolySchema
