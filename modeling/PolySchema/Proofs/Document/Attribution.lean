import PolySchema.Proofs.Document.Extent
import PolySchema.Proofs.Document.Quotation
import PolySchema.Proofs.Line

namespace PolySchema

/-- The kinds of problems that reading can find. -/
def Statement.problems : List Diagnostic.Kind :=
  [.unrecognizedLine, .unterminatedBody, .malformedHeader, .malformedField, .malformedMethod,
    .malformedFunction, .malformedTypeAlias] ++ FunctionDef.problems

/-- The problem shows only when the document is resolved or rendered. -/
def Diagnostic.Kind.isLate : Diagnostic.Kind → Bool
  | .duplicateDeclaration | .unresolvedParent | .inheritanceCycle | .unsupportedDeclaration _
  | .approximatedType _ => true
  | _ => false

/-- Diagnostics that follow the lines: each of them quotes the line that has been reached. -/
inductive Diagnostic.Follow (kinds : List Diagnostic.Kind) : List Line → List Diagnostic → Prop
  | done : Follow kinds [] []
  | quote {line : Line} : diagnostic.Quotes kinds line →
      Follow kinds (line :: lines) diagnostics →
      Follow kinds (line :: lines) (diagnostic :: diagnostics)
  | pass {line : Line} : Follow kinds lines diagnostics →
      Follow kinds (line :: lines) diagnostics

namespace Diagnostic.Follow

variable {kinds : List Diagnostic.Kind} {line : Line} {lines others : List Line}
variable {diagnostics more : List Diagnostic}

theorem silent (lines : List Line) : Follow kinds lines [] := by
  induction lines with
  | nil => exact .done
  | cons line lines ih => exact .pass ih

theorem append (first : Follow kinds lines diagnostics) (second : Follow kinds others more) :
    Follow kinds (lines ++ others) (diagnostics ++ more) := by
  induction first with
  | done => exact second
  | quote quotes _ ih => exact .quote quotes ih
  | pass _ ih => exact .pass ih

theorem single (each : ∀ diagnostic ∈ diagnostics, diagnostic.Quotes kinds line) :
    Follow kinds [line] diagnostics := by
  induction diagnostics with
  | nil => exact silent _
  | cons diagnostic diagnostics ih =>
    obtain ⟨first, rest⟩ := List.forall_mem_cons.mp each
    exact .quote first (ih rest)

theorem flatMap {part : Line → List Diagnostic}
    (each : ∀ line ∈ lines, ∀ diagnostic ∈ part line, diagnostic.Quotes kinds line) :
    Follow kinds lines (lines.flatMap part) := by
  induction lines with
  | nil => exact .done
  | cons line lines ih =>
    obtain ⟨first, rest⟩ := List.forall_mem_cons.mp each
    exact (single first).append (ih rest)

theorem once (follow : Follow kinds (line :: line :: lines) diagnostics) :
    Follow kinds (line :: lines) diagnostics := by
  generalize twice : line :: line :: lines = all at follow
  induction follow with
  | done => cases twice
  | quote quotes _ ih =>
    cases twice
    exact .quote quotes (ih rfl)
  | pass rest _ =>
    cases twice
    exact rest

private theorem widen_first {inner outer : Line} (stretch : inner.Within outer)
    (rest : ∀ diagnostics, Follow kinds lines diagnostics → Follow kinds others diagnostics)
    (follow : Follow kinds (inner :: lines) diagnostics) :
    Follow kinds (outer :: others) diagnostics := by
  generalize start : inner :: lines = all at follow
  induction follow with
  | done => cases start
  | quote quotes _ ih =>
    cases start
    obtain ⟨number, text⟩ := inner
    obtain ⟨rfl, within⟩ := stretch
    exact .quote (quotes.widen (List.Subset.refl _) within) (ih rfl)
  | pass tail _ =>
    cases start
    exact .pass (rest _ tail)

theorem widen (within : List.SublistForall₂ Line.Within lines others)
    (follow : Follow kinds lines diagnostics) : Follow kinds others diagnostics := by
  induction within generalizing diagnostics with
  | nil =>
    cases follow
    exact silent _
  | cons stretch _ ih => exact widen_first stretch (fun _ tail => ih tail) follow
  | cons_right _ ih => exact .pass (ih follow)

theorem exists_quoted (follow : Follow kinds lines diagnostics) :
    ∀ diagnostic ∈ diagnostics, ∃ line ∈ lines, diagnostic.Quotes kinds line := by
  induction follow with
  | done => exact List.forall_mem_nil _
  | quote quotes _ ih => exact List.forall_mem_cons.mpr ⟨⟨_, List.mem_cons_self, quotes⟩, ih⟩
  | pass _ ih =>
    intro diagnostic member
    obtain ⟨line, present, quotes⟩ := ih diagnostic member
    exact ⟨line, List.mem_cons_of_mem _ present, quotes⟩

/-- Diagnostics that follow lines with increasing numbers carry numbers that do not decrease. -/
theorem exists_numbers (follow : Follow kinds lines diagnostics)
    (increasing : (lines.map Line.number).Pairwise (· < ·)) :
    ∃ numbers : List Nat, diagnostics.map Diagnostic.line = numbers.map some ∧
      (∀ number ∈ numbers, number ∈ lines.map Line.number) ∧ numbers.Pairwise (· ≤ ·) := by
  induction follow with
  | done => exact ⟨[], rfl, List.forall_mem_nil _, .nil⟩
  | @quote _ _ _ line quotes _ ih =>
    -- The line stays in front, since it can be quoted again.
    obtain ⟨numbers, same, among, ordered⟩ := ih increasing
    refine ⟨line.number :: numbers, ?_, ?_, List.pairwise_cons.mpr ⟨?_, ordered⟩⟩
    · rw [List.map_cons, List.map_cons, quotes.number, same]
    · exact List.forall_mem_cons.mpr ⟨List.mem_cons_self, among⟩
    · intro number member
      rcases List.mem_cons.mp (among number member) with here | later
      · exact Nat.le_of_eq here.symm
      · exact Nat.le_of_lt (List.rel_of_pairwise_cons increasing later)
  | pass _ ih =>
    obtain ⟨numbers, same, among, ordered⟩ := ih increasing.of_cons
    refine ⟨numbers, same, fun number member => ?_, ordered⟩
    exact List.mem_cons_of_mem _ (among number member)

end Diagnostic.Follow

open Diagnostic (Follow)

namespace Block

variable (block : Block)

private theorem follow_items {read : Line → Reported (Option α)} {kinds : List Diagnostic.Kind}
    (each : ∀ item, (read item).Each (Diagnostic.Quotes kinds item))
    (within : kinds ⊆ Statement.problems) :
    Follow Statement.problems block.body
      (Reported.collect (block.items.map read)).diagnostics := by
  rw [Reported.collect, List.flatMap_map, items, List.flatMap_assoc]
  refine Follow.flatMap fun line _ diagnostic member => ?_
  obtain ⟨item, own, reported⟩ := List.mem_flatMap.mp member
  obtain ⟨text, present, rfl⟩ := List.mem_map.mp own
  exact (each _ diagnostic reported).widen within (Text.isInfix_of_mem_items present)

private theorem follow_bind {next : Option (String × Option String) → Reported (Option α)}
    (missing : next none = pure none)
    (found : ∀ names, Follow Statement.problems block.body (next (some names)).diagnostics) :
    Follow Statement.problems block.lines (block.readName >>= next).diagnostics := by
  have header : Follow Statement.problems [⟨block.line, block.header⟩] block.readName.diagnostics :=
    .single fun diagnostic member =>
      (block.each_readName diagnostic member).widen (by decide) List.infix_rfl
  rw [Reported.diagnostics_bind]
  refine header.append ?_
  cases block.readName.value with
  | none =>
    rw [missing]
    exact .silent _
  | some names => exact found names

theorem follow_readStruct :
    Follow Statement.problems block.lines (StructDef.read block).diagnostics := by
  refine block.follow_bind rfl fun names => ?_
  rw [Reported.diagnostics_bind, Reported.diagnostics_pure, List.append_nil]
  exact block.follow_items (fun item => Field.each_read .malformedField item.number item.text)
    (by decide)

theorem follow_readInterface :
    Follow Statement.problems block.lines (InterfaceDef.read block).diagnostics := by
  refine block.follow_bind rfl fun names => ?_
  rw [Reported.diagnostics_bind, Reported.diagnostics_pure, List.append_nil]
  exact block.follow_items Method.each_read (by decide)

end Block

namespace Statement

/-- What is said about a statement follows the lines that it holds. -/
theorem follow_read (statement : Statement) :
    Follow problems statement.lines statement.read.diagnostics := by
  match statement with
  | .struct block =>
    rw [Statement.read, Reported.diagnostics_map]
    exact block.follow_readStruct
  | .interface block =>
    rw [Statement.read, Reported.diagnostics_map]
    exact block.follow_readInterface
  | .function line =>
    rw [Statement.read, Reported.diagnostics_map]
    refine .single fun diagnostic member => ?_
    exact (FunctionDef.each_read _ _ _ diagnostic member).widen (by decide)
      (Keyword.isInfix_operand .function line.text)
  | .alias line =>
    rw [Statement.read, Reported.diagnostics_map]
    refine .single fun diagnostic member => ?_
    exact (AliasDef.each_read line diagnostic member).widen (by decide) List.infix_rfl
  | .stray line =>
    have each : (Statement.read (.stray line)).Each (Diagnostic.Quotes problems line) :=
      .bind (Diagnostic.Quotes.each_report List.mem_cons_self List.infix_rfl) (.pure _)
    exact .single each

end Statement

namespace Document

/-- Whatever the lines are, the diagnostics follow them. -/
theorem follow_ofLines (lines : List Line) :
    Follow Statement.problems lines (Document.ofLines lines).diagnostics := by
  rw [Document.ofLines, Reported.diagnostics_map, Reported.collect, List.flatMap_map]
  induction lines using Statement.induction with
  | nil =>
    rw [Statement.group]
    exact .done
  | cons first rest ih =>
    obtain ⟨taken, split, _, within⟩ := Statement.exists_taken first rest
    have own := ((Statement.follow_read (Statement.take first rest).1).widen within).once
    rw [Statement.group_cons, List.flatMap_cons]
    conv => arg 2; rw [split]
    exact own.append ih

/-- Every diagnostic of a source has the number of one of its lines that is neither blank nor a
comment, quotes a stretch of that line, and is of a kind that can be seen on it. The numbers do not
decrease along the diagnostics. -/
theorem read_attributes (source : String) :
    let lines := Text.lines source.toList
    let diagnostics := (Document.read source).diagnostics
    (∀ diagnostic ∈ diagnostics, ∃ index text, lines[index]? = some text ∧
      diagnostic.line = some (index + 1) ∧ Text.trim text ≠ [] ∧ ¬ ['/', '/'] <+: Text.trim text ∧
      diagnostic.context.toList <:+: Text.trim text ∧ diagnostic.kind.isLate = false) ∧
    ∃ numbers : List Nat,
      diagnostics.map Diagnostic.line = numbers.map some ∧ numbers.Pairwise (· ≤ ·) := by
  intro lines diagnostics
  have follow := follow_ofLines (Line.scan source.toList)
  constructor
  · intro diagnostic member
    obtain ⟨line, present, quotes⟩ := follow.exists_quoted diagnostic member
    obtain ⟨index, text, found, rfl, visible, uncommented⟩ := Line.of_mem_scan present
    refine ⟨index, text, found, quotes.number, visible, uncommented, quotes.context, ?_⟩
    have early : ∀ kind ∈ Statement.problems, kind.isLate = false := by decide
    exact early _ quotes.kind
  · obtain ⟨numbers, same, _, ordered⟩ :=
      follow.exists_numbers (Line.pairwise_number_scan source.toList)
    exact ⟨numbers, same, ordered⟩

end Document
end PolySchema
