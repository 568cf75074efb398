import PolySchema.Declaration
import PolySchema.Line
import PolySchema.Text.Bracket

/-! Statements: the significant lines of a source, grouped by the declaration that they belong to.
Grouping looks at keywords and braces only, so a malformed declaration never hides the next. -/
namespace PolySchema

/-- The keyword that starts a declaration on a line. A field or method of that name, which goes on
with a colon or a parenthesis, is no declaration. -/
def Keyword.ofLine? (text : List Char) : Option Keyword :=
  let rest := Text.trimStart (text.dropWhile fun c => !Text.isBlank c)
  if rest.isEmpty || rest.head? == some ':' || rest.head? == some '(' then none
  else
    match String.ofList (text.takeWhile fun c => !Text.isBlank c) with
    | "struct" => some .struct
    | "interface" => some .interface
    | "function" => some .function
    | "type" => some .alias
    | _ => none

/-- A header with the texts between its braces, each with its line number. -/
structure Block where
  line : Nat
  header : List Char
  body : List Line
  /-- Whether the body ends with a closing brace of its own. -/
  closed : Bool

/-- The non-empty items between the top-level commas of a body. -/
def Block.items (block : Block) : List Line :=
  block.body.flatMap fun line => (Text.items line.text).map fun item => ⟨line.number, item⟩

/-- What following lines contribute to a body, and the lines left after it. -/
structure BlockTail where
  body : List Line
  closed : Bool
  rest : List Line

/-- A line that starts with a closing brace ends the body. So does a line that starts a
declaration, which is left over. Before the body is opened, a lone brace opens it. -/
def BlockTail.take (opened : Bool) : List Line → BlockTail
  | [] => ⟨[], false, []⟩
  | line :: rest =>
    if !opened && line.text == ['{'] then BlockTail.take true rest
    else if line.text.head? == some '}' then ⟨[], true, rest⟩
    else if (Keyword.ofLine? line.text).isSome then ⟨[], false, line :: rest⟩
    else
      let tail := BlockTail.take opened rest
      { tail with body := line :: tail.body }

/-- The block whose header is on `first`, and the lines left after it. What follows a brace that
closes on the header line itself is passed over. -/
def Block.take (first : Line) (rest : List Line) : Block × List Line :=
  match Text.cutFirst? '{' first.text with
  | none =>
    let tail := BlockTail.take false rest
    (⟨first.number, first.text, tail.body, tail.closed⟩, tail.rest)
  | some (before, after) =>
    match Text.cutClose? 1 after with
    | some (inside, _) => (⟨first.number, Text.trim before, [⟨first.number, inside⟩], true⟩, rest)
    | none =>
      let tail := BlockTail.take true rest
      (⟨first.number, Text.trim before, ⟨first.number, after⟩ :: tail.body, tail.closed⟩, tail.rest)

inductive Statement where
  | struct (block : Block)
  | interface (block : Block)
  | function (line : Line)
  | alias (line : Line)
  /-- A line that belongs to no declaration. -/
  | stray (line : Line)

theorem BlockTail.length_rest_le (opened : Bool) (lines : List Line) :
    (BlockTail.take opened lines).rest.length ≤ lines.length := by
  induction lines generalizing opened with
  | nil => simp [BlockTail.take]
  | cons line rest ih =>
    unfold BlockTail.take
    split
    · exact Nat.le_succ_of_le (ih true)
    · split
      · simp
      · split
        · simp
        · exact Nat.le_succ_of_le (ih opened)

theorem Block.length_rest_le (first : Line) (rest : List Line) :
    (Block.take first rest).2.length ≤ rest.length := by
  unfold Block.take
  split
  · exact BlockTail.length_rest_le false rest
  · split
    · exact Nat.le_refl _
    · exact BlockTail.length_rest_le true rest

/-- The statements of a list of significant lines. -/
def Statement.group : List Line → List Statement
  | [] => []
  | first :: rest =>
    match Keyword.ofLine? first.text with
    | some .struct => .struct (Block.take first rest).1 :: Statement.group (Block.take first rest).2
    | some .interface =>
      .interface (Block.take first rest).1 :: Statement.group (Block.take first rest).2
    | some .function => .function first :: Statement.group rest
    | some .alias => .alias first :: Statement.group rest
    | none => .stray first :: Statement.group rest
termination_by lines => lines.length
decreasing_by
  all_goals simp only [List.length_cons]
  · exact Nat.lt_succ_of_le (Block.length_rest_le first rest)
  · exact Nat.lt_succ_of_le (Block.length_rest_le first rest)
  · exact Nat.lt_succ_self _
  · exact Nat.lt_succ_self _
  · exact Nat.lt_succ_self _

end PolySchema
