import PolySchema.Proofs.Document.Extent
import PolySchema.Proofs.Document.Quotation
import PolySchema.Proofs.Line

namespace PolySchema

/-- What a refused declaration is reported as. -/
def Keyword.refusal : Keyword → Diagnostic.Kind
  | .struct | .interface => .malformedHeader
  | .function => .malformedFunction
  | .alias => .malformedTypeAlias

/-- The problem is that of a declaration as a whole. -/
def Diagnostic.Kind.isRefusal : Diagnostic.Kind → Bool
  | .malformedHeader | .malformedFunction | .malformedTypeAlias => true
  | _ => false

namespace Reported

/-- The diagnostics about refused declarations. -/
def refusals (reported : Reported α) : List Diagnostic :=
  reported.diagnostics.filter fun diagnostic => diagnostic.kind.isRefusal

/-- The diagnostics about declarations that are refused on a line. -/
def refusalsAt (reported : Reported α) (number : Nat) : List Diagnostic :=
  reported.refusals.filter fun diagnostic => diagnostic.line == some number

@[simp] theorem refusals_pure (value : α) : (pure value : Reported α).refusals = [] := rfl

@[simp] theorem refusals_bind (step : Reported α) (next : α → Reported β) :
    (step >>= next).refusals = step.refusals ++ (next step.value).refusals :=
  only_bind step next

@[simp] theorem refusals_map (f : α → β) (step : Reported α) :
    (f <$> step).refusals = step.refusals :=
  only_map f step

theorem refusals_collect (steps : List (Reported (Option α))) :
    (collect steps).refusals = steps.flatMap refusals :=
  only_collect steps

theorem refusals_of_quotes {reported : Reported α} {kinds : List Diagnostic.Kind} {line : Line}
    (each : reported.Each (Diagnostic.Quotes kinds line))
    (other : ∀ kind ∈ kinds, kind.isRefusal = false) : reported.refusals = [] :=
  each.only_eq_nil fun _ quotes => other _ quotes.kind

theorem refusals_collect_map {step : α → Reported (Option β)} {items : List α}
    (each : ∀ item ∈ items, (step item).refusals = []) :
    (collect (items.map step)).refusals = [] := by
  rw [refusals_collect, List.flatMap_map]
  exact List.flatMap_eq_nil_iff.mpr each

end Reported

/-- What a line that starts a declaration leads to: a declaration of its kind without a refusal, or
a refusal without a declaration. -/
inductive Accounts (keyword : Keyword) (number : Nat) : Option Declaration → List Diagnostic → Prop
  | declared {declaration : Declaration} (same : declaration.keyword = keyword) :
    Accounts keyword number (some declaration) []
  | refused (context : String) :
    Accounts keyword number none [⟨keyword.refusal, some number, context⟩]

namespace Accounts

variable {keyword : Keyword} {number : Nat} {value : Option Declaration}
  {refusals : List Diagnostic}

theorem line_eq (accounts : Accounts keyword number value refusals) {diagnostic : Diagnostic}
    (member : diagnostic ∈ refusals) : diagnostic.line = some number := by
  cases accounts with
  | declared _ => cases member
  | refused context => rw [List.mem_singleton.mp member]

theorem length_eq (accounts : Accounts keyword number value refusals) :
    value.toList.length + refusals.length = 1 := by
  cases accounts with
  | declared _ => rfl
  | refused _ => rfl

end Accounts

section

open Reported (refusals_of_quotes refusals_collect_map)

theorem TypeExpr.refusals_read (line : Nat) (text : List Char) :
    (TypeExpr.read line text).refusals = [] :=
  refusals_of_quotes (TypeExpr.each_read line text) (by decide)

theorem Block.refusals_readName (block : Block) : block.readName.refusals =
    match block.name? with
    | none => [⟨.malformedHeader, some block.line, String.ofList block.header⟩]
    | some _ => [] := by
  unfold Block.readName
  cases block.name? with
  | none =>
    dsimp only
    split <;> rfl
  | some names =>
    dsimp only
    split <;> rfl

/-- A block is refused for its header and for nothing else. -/
private theorem Block.accounts_bind (block : Block) {keyword : Keyword} {make : α → Declaration}
    {next : Option (String × Option String) → Reported (Option α)}
    (header : keyword.refusal = .malformedHeader) (same : ∀ decl, (make decl).keyword = keyword)
    (missing : next none = pure none)
    (found : ∀ names, (next (some names)).refusals = [] ∧
      ∃ decl, (next (some names)).value = some decl) :
    Accounts keyword block.line ((block.readName >>= next).value.map make)
      (block.readName >>= next).refusals := by
  rw [Reported.value_bind, Reported.refusals_bind, block.value_readName, block.refusals_readName]
  cases block.name? with
  | none =>
    rw [missing, ← header]
    exact .refused _
  | some names =>
    obtain ⟨silent, decl, value⟩ := found names
    rw [silent, value]
    exact .declared (same decl)

theorem StructDef.accounts_read (block : Block) :
    Accounts .struct block.line ((StructDef.read block).value.map .struct)
      (StructDef.read block).refusals := by
  have fields := refusals_collect_map fun item (_ : item ∈ block.items) =>
    refusals_of_quotes (Field.each_read .malformedField item.number item.text) (by decide)
  refine block.accounts_bind rfl (fun _ => rfl) rfl fun names => ⟨?_, _, rfl⟩
  rw [Reported.refusals_bind, fields]
  rfl

theorem InterfaceDef.accounts_read (block : Block) :
    Accounts .interface block.line ((InterfaceDef.read block).value.map .interface)
      (InterfaceDef.read block).refusals := by
  have methods := refusals_collect_map fun item (_ : item ∈ block.items) =>
    refusals_of_quotes (Method.each_read item) (by decide)
  refine block.accounts_bind rfl (fun _ => rfl) rfl fun names => ⟨?_, _, rfl⟩
  rw [Reported.refusals_bind, methods]
  rfl

theorem FunctionDef.accounts_read (line : Nat) (text : List Char) :
    Accounts .function line
      ((FunctionDef.read .malformedFunction line text).value.map .function)
      (FunctionDef.read .malformedFunction line text).refusals := by
  unfold FunctionDef.read
  split
  · exact .refused _
  · rename_i parts found
    have parameters := refusals_collect_map fun item (_ : item ∈ Text.items parts.parameters) =>
      refusals_of_quotes (Field.each_read .malformedParameter line item) (by decide)
    simp only [Reported.refusals_bind, Field.readItems, parameters, TypeExpr.refusals_read,
      Reported.refusals_pure, List.append_nil]
    exact .declared rfl

theorem AliasDef.accounts_read (line : Line) :
    Accounts .alias line.number ((AliasDef.read line).value.map .alias)
      (AliasDef.read line).refusals := by
  unfold AliasDef.read
  split
  · exact .refused _
  · simp only [Reported.refusals_bind, TypeExpr.refusals_read, Reported.refusals_pure,
      List.append_nil]
    exact .declared rfl

end

namespace Statement

/-- The keyword of the declaration that the statement is. -/
def keyword? : Statement → Option Keyword
  | .struct _ => some .struct
  | .interface _ => some .interface
  | .function _ => some .function
  | .alias _ => some .alias
  | .stray _ => none

/-- The number of the first line. -/
def number : Statement → Nat
  | .struct block | .interface block => block.line
  | .function line | .alias line | .stray line => line.number

theorem keyword?_take (first : Line) (rest : List Line) :
    (Statement.take first rest).1.keyword? = Keyword.ofLine? first.text := by
  unfold Statement.take
  split <;> simp_all [keyword?]

private theorem line_takeBlock (first : Line) (rest : List Line) :
    (Block.take first rest).1.line = first.number := by
  unfold Block.take
  split
  · rfl
  · split <;> rfl

theorem number_take (first : Line) (rest : List Line) :
    (Statement.take first rest).1.number = first.number := by
  unfold Statement.take
  split
  · exact line_takeBlock first rest
  · exact line_takeBlock first rest
  · rfl
  · rfl
  · rfl

/-- A statement that starts with a keyword is accounted for by what is read from it. -/
theorem accounts_read {statement : Statement} {keyword : Keyword}
    (starts : statement.keyword? = some keyword) :
    Accounts keyword statement.number statement.read.value statement.read.refusals := by
  rcases statement with block | block | line | line | line
  · cases starts
    rw [Statement.read, Reported.value_map, Reported.refusals_map]
    exact StructDef.accounts_read block
  · cases starts
    rw [Statement.read, Reported.value_map, Reported.refusals_map]
    exact InterfaceDef.accounts_read block
  · cases starts
    rw [Statement.read, Reported.value_map, Reported.refusals_map]
    exact FunctionDef.accounts_read line.number _
  · cases starts
    rw [Statement.read, Reported.value_map, Reported.refusals_map]
    exact AliasDef.accounts_read line
  · cases starts

theorem read_of_keyword?_eq_none {statement : Statement} (stray : statement.keyword? = none) :
    statement.read.value = none ∧ statement.read.refusals = [] := by
  cases statement with
  | stray line => exact ⟨rfl, rfl⟩
  | _ => cases stray

end Statement

/-- A line that starts a declaration, with the lines after it. -/
structure Opening where
  line : Line
  rest : List Line
  keyword : Keyword
  starts : Keyword.ofLine? line.text = some keyword

/-- Whether the line starts a declaration. -/
def Line.isOpening (line : Line) : Bool := (Keyword.ofLine? line.text).isSome

namespace Opening

/-- The statement that starts on the line. -/
def statement (opening : Opening) : Statement :=
  (Statement.take opening.line opening.rest).1

/-- Every line that starts a declaration, in order and wherever it stands. -/
def all : List Line → List Opening
  | [] => []
  | line :: rest =>
    match starts : Keyword.ofLine? line.text with
    | none => all rest
    | some keyword => ⟨line, rest, keyword, starts⟩ :: all rest

theorem all_of_none {line : Line} {rest : List Line} (plain : Keyword.ofLine? line.text = none) :
    all (line :: rest) = all rest := by
  rw [all]
  split
  · rfl
  · rename_i starts
    rw [plain] at starts
    cases starts

theorem all_of_some {line : Line} {rest : List Line} {keyword : Keyword}
    (starts : Keyword.ofLine? line.text = some keyword) :
    all (line :: rest) = ⟨line, rest, keyword, starts⟩ :: all rest := by
  rw [all]
  split
  · rename_i plain
    rw [plain] at starts
    cases starts
  · rename_i other found
    cases Option.some.inj (found.symm.trans starts)
    rfl

theorem map_line_all (lines : List Line) :
    (all lines).map Opening.line = lines.filter Line.isOpening := by
  induction lines with
  | nil => rfl
  | cons line rest ih =>
    cases starts : Keyword.ofLine? line.text with
    | none => rw [all_of_none starts, ih, List.filter_cons_of_neg (by simp [Line.isOpening, starts])]
    | some keyword =>
      rw [all_of_some starts, List.map_cons, ih,
        List.filter_cons_of_pos (by simp [Line.isOpening, starts])]

theorem all_append {taken : List Line} (plain : ∀ line ∈ taken, Keyword.ofLine? line.text = none)
    (rest : List Line) : all (taken ++ rest) = all rest := by
  induction taken with
  | nil => rfl
  | cons line taken ih =>
    obtain ⟨first, others⟩ := List.forall_mem_cons.mp plain
    rw [List.cons_append, all_of_none first, ih others]

/-- Grouping takes a statement from every line that starts a declaration. What it takes otherwise
are stray lines. -/
theorem flatMap_group {part : Statement → List α}
    (stray : ∀ statement, statement.keyword? = none → part statement = []) (lines : List Line) :
    (Statement.group lines).flatMap part =
      (all lines).flatMap fun opening => part opening.statement := by
  induction lines using Statement.induction with
  | nil => simp [Statement.group, all]
  | cons first rest ih =>
    -- No line that the first statement takes is a start, so both sides go on after it.
    obtain ⟨taken, split, plain, _⟩ := Statement.exists_taken first rest
    have later : all rest = all (Statement.take first rest).2 := by
      conv_lhs => rw [split]
      exact all_append plain _
    rw [Statement.group_cons, List.flatMap_cons, ih]
    cases starts : Keyword.ofLine? first.text with
    | none =>
      rw [stray _ ((Statement.keyword?_take first rest).trans starts), all_of_none starts, later,
        List.nil_append]
    | some keyword => rw [all_of_some starts, List.flatMap_cons, later, statement]

theorem accounts_read (opening : Opening) :
    Accounts opening.keyword opening.line.number opening.statement.read.value
      opening.statement.read.refusals := by
  have starts := (Statement.keyword?_take opening.line opening.rest).trans opening.starts
  have accounts := Statement.accounts_read starts
  rwa [Statement.number_take] at accounts

theorem length_outcomes (openings : List Opening) :
    (openings.filterMap fun opening => opening.statement.read.value).length +
        (openings.flatMap fun opening => opening.statement.read.refusals).length =
      openings.length := by
  rw [List.filterMap_eq_flatMap_toList]
  induction openings with
  | nil => rfl
  | cons opening rest ih =>
    have one := opening.accounts_read.length_eq
    simp only [List.flatMap_cons, List.length_append, List.length_cons]
    omega

/-- Lines of a source that start declarations have different numbers. -/
theorem nodup_number_all (source : List Char) :
    ((all (Line.scan source)).map fun opening => opening.line.number).Nodup := by
  have lines := map_line_all (Line.scan source)
  have numbers := congrArg (List.map Line.number) lines
  rw [List.map_map] at numbers
  have increasing := (Line.pairwise_number_scan source).sublist
    (List.filter_sublist (p := Line.isOpening).map Line.number)
  rw [← numbers] at increasing
  exact increasing.imp Nat.ne_of_lt

end Opening

private theorem filter_line_eq_nil {diagnostics : List Diagnostic} {number : Nat}
    (other : ∀ diagnostic ∈ diagnostics, diagnostic.line ≠ some number) :
    diagnostics.filter (fun diagnostic => diagnostic.line == some number) = [] :=
  List.filter_eq_nil_iff.mpr fun diagnostic member => mt beq_iff_eq.mp (other diagnostic member)

/-- Where all parts carry different numbers, those of one number are one part. -/
private theorem filter_line_flatMap {items : List α} {number : α → Nat}
    {part : α → List Diagnostic} (distinct : (items.map number).Nodup)
    (own : ∀ item ∈ items, ∀ diagnostic ∈ part item, diagnostic.line = some (number item))
    {item : α} (member : item ∈ items) :
    (items.flatMap part).filter (fun diagnostic => diagnostic.line == some (number item)) =
      part item := by
  induction items with
  | nil => cases member
  | cons first rest ih =>
    obtain ⟨mine, others⟩ := List.forall_mem_cons.mp own
    obtain ⟨absent, later⟩ := List.nodup_cons.mp distinct
    rw [List.flatMap_cons, List.filter_append]
    rcases List.mem_cons.mp member with rfl | inside
    · have kept : (part item).filter (fun diagnostic => diagnostic.line == some (number item)) =
          part item :=
        List.filter_eq_self.mpr fun diagnostic present => beq_iff_eq.mpr (mine diagnostic present)
      rw [kept, filter_line_eq_nil, List.append_nil]
      intro diagnostic present
      obtain ⟨other, behind, found⟩ := List.mem_flatMap.mp present
      rw [others other behind diagnostic found, Ne, Option.some.injEq]
      intro same
      exact absent (List.mem_map.mpr ⟨other, behind, same⟩)
    · rw [ih later others inside, filter_line_eq_nil, List.nil_append]
      intro diagnostic present
      rw [mine diagnostic present, Ne, Option.some.injEq]
      intro same
      exact absent (List.mem_map.mpr ⟨item, inside, same.symm⟩)

namespace Document

theorem declarations_ofLines (lines : List Line) :
    (Document.ofLines lines).value.declarations =
      (Opening.all lines).filterMap fun opening => opening.statement.read.value := by
  rw [Document.ofLines, Reported.value_map, Reported.collect, List.filterMap_map,
    List.filterMap_eq_flatMap_toList, List.filterMap_eq_flatMap_toList]
  refine Opening.flatMap_group (fun statement stray => ?_) lines
  rw [Function.comp_apply, (Statement.read_of_keyword?_eq_none stray).1]
  rfl

theorem refusals_ofLines (lines : List Line) :
    (Document.ofLines lines).refusals =
      (Opening.all lines).flatMap fun opening => opening.statement.read.refusals := by
  rw [Document.ofLines, Reported.refusals_map, Reported.refusals_collect, List.flatMap_map]
  exact Opening.flatMap_group (fun _ stray => (Statement.read_of_keyword?_eq_none stray).2) lines

/-- Every line that starts a declaration gives one declaration of its kind or one refusal of its
kind, and not both. The declarations are those of these lines, in their order, and there are as many
declarations and refusals together as there are such lines. -/
theorem read_accounts (source : String) :
    let lines := Line.scan source.toList
    let document := Document.read source
    (Opening.all lines).map Opening.line = lines.filter Line.isOpening ∧
      document.value.declarations =
        (Opening.all lines).filterMap (fun opening => opening.statement.read.value) ∧
      (∀ opening ∈ Opening.all lines,
        Accounts opening.keyword opening.line.number opening.statement.read.value
          (document.refusalsAt opening.line.number)) ∧
      document.value.declarations.length + document.refusals.length =
        (lines.filter Line.isOpening).length := by
  intro lines document
  have declarations : document.value.declarations = _ := declarations_ofLines lines
  have refusals : document.refusals = _ := refusals_ofLines lines
  refine ⟨Opening.map_line_all lines, declarations, fun opening member => ?_, ?_⟩
  · have own : document.refusalsAt opening.line.number = opening.statement.read.refusals := by
      rw [Reported.refusalsAt, refusals]
      exact filter_line_flatMap (Opening.nodup_number_all source.toList)
        (fun other _ diagnostic present => other.accounts_read.line_eq present) member
    rw [own]
    exact opening.accounts_read
  · rw [declarations, refusals, ← Opening.map_line_all, List.length_map]
    exact Opening.length_outcomes _

end Document
end PolySchema
