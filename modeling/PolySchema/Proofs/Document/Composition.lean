import PolySchema.Proofs.Document.Relocation

namespace PolySchema

/-- Lines that no body goes on with: there are none, or the first of them starts a declaration. -/
def Line.StartsApart (lines : List Line) : Prop :=
  ∀ line ∈ lines.head?, (Keyword.ofLine? line.text).isSome = true

/-- Where a body stops does not depend on why it stops: at the end of the lines, or at a line that
starts a declaration. -/
private theorem BlockTail.take_of_startsApart {lines : List Line} (apart : Line.StartsApart lines)
    (opened : Bool) : BlockTail.take opened lines = ⟨[], false, lines⟩ := by
  cases lines with
  | nil => rfl
  | cons line rest =>
    have found := apart line rfl
    have unclosed := Keyword.head?_ne_of_isSome '}' found rfl (by decide)
    have unopened : line.text ≠ ['{'] := by
      intro lone
      apply Keyword.head?_ne_of_isSome '{' found rfl (by decide)
      rw [lone]
      rfl
    simp [BlockTail.take, unclosed, unopened, found]

theorem BlockTail.take_append {first second : List Line} {opened : Bool}
    (stops : (BlockTail.take opened first).closed = true ∨ Line.StartsApart second) :
    BlockTail.take opened (first ++ second) =
      { BlockTail.take opened first with rest := (BlockTail.take opened first).rest ++ second } := by
  induction first generalizing opened with
  | nil =>
    rcases stops with closed | apart
    · cases closed
    · exact BlockTail.take_of_startsApart apart opened
  | cons line rest ih =>
    rw [List.cons_append]
    unfold BlockTail.take at stops ⊢
    split at stops <;> rename_i opening
    · rw [if_pos opening, if_pos opening]
      exact ih stops
    · rw [if_neg opening, if_neg opening]
      split at stops <;> rename_i closing
      · rw [if_pos closing, if_pos closing]
      · rw [if_neg closing, if_neg closing]
        split at stops <;> rename_i declaring
        · rw [if_pos declaring, if_pos declaring]
          rfl
        · rw [if_neg declaring, if_neg declaring, ih stops]

theorem Block.take_append {first : Line} {rest second : List Line}
    (stops : (Block.take first rest).1.closed = true ∨ Line.StartsApart second) :
    Block.take first (rest ++ second) =
      ((Block.take first rest).1, (Block.take first rest).2 ++ second) := by
  unfold Block.take at stops ⊢
  split
  · rename_i cut
    simp only [cut] at stops
    rw [BlockTail.take_append stops]
  · rename_i before after cut
    simp only [cut] at stops
    split
    · rfl
    · rename_i unclosed
      simp only [unclosed] at stops
      rw [BlockTail.take_append stops]

/-- Whether the body of a statement, if it has one, has its closing brace. -/
def Statement.isClosed : Statement → Bool
  | .struct block | .interface block => block.closed
  | .function _ | .alias _ | .stray _ => true

theorem Statement.take_append {first : Line} {rest second : List Line}
    (stops : (Statement.take first rest).1.isClosed = true ∨ Line.StartsApart second) :
    Statement.take first (rest ++ second) =
      ((Statement.take first rest).1, (Statement.take first rest).2 ++ second) := by
  unfold Statement.take at stops ⊢
  split at stops
  · rw [Block.take_append stops]
  · rw [Block.take_append stops]
  · rfl
  · rfl
  · rfl

theorem Statement.group_append {first second : List Line}
    (stops : (∀ statement ∈ Statement.group first, statement.isClosed = true) ∨
      Line.StartsApart second) :
    Statement.group (first ++ second) = Statement.group first ++ Statement.group second := by
  induction first using Statement.induction with
  | nil => simp [Statement.group]
  | cons line rest ih =>
    rw [Statement.group_cons, List.forall_mem_cons] at stops
    have taken := Statement.take_append (stops.imp And.left id)
    have later := ih (stops.imp And.right id)
    rw [List.cons_append, Statement.group_cons, taken, later, ← List.cons_append,
      ← Statement.group_cons]

theorem Statement.unterminated_of_not_isClosed {statement : Statement}
    (unclosed : statement.isClosed = false) :
    ∃ diagnostic ∈ statement.read.diagnostics, diagnostic.kind = .unterminatedBody := by
  have reported {block : Block} (unclosed : block.closed = false) :
      ∃ diagnostic ∈ block.readName.diagnostics, diagnostic.kind = .unterminatedBody := by
    refine ⟨⟨.unterminatedBody, some block.line, String.ofList block.header⟩, ?_, rfl⟩
    simp [Block.readName, unclosed, Reported.report]
  cases statement with
  | struct block =>
    obtain ⟨diagnostic, member, kind⟩ := reported unclosed
    exact ⟨diagnostic, by simp [Statement.read, StructDef.read, member], kind⟩
  | interface block =>
    obtain ⟨diagnostic, member, kind⟩ := reported unclosed
    exact ⟨diagnostic, by simp [Statement.read, InterfaceDef.read, member], kind⟩
  | _ => cases unclosed

theorem Document.isClosed_of_ofLines {lines : List Line}
    (finished : ∀ diagnostic ∈ (Document.ofLines lines).diagnostics,
      diagnostic.kind ≠ .unterminatedBody) :
    ∀ statement ∈ Statement.group lines, statement.isClosed = true := by
  intro statement member
  by_contra unclosed
  obtain ⟨diagnostic, reported, kind⟩ :=
    Statement.unterminated_of_not_isClosed (Bool.eq_false_iff.mpr unclosed)
  apply finished diagnostic ?_ kind
  rw [Document.ofLines, Reported.diagnostics_map]
  exact List.mem_flatMap.mpr ⟨statement.read, List.mem_map_of_mem member, reported⟩

theorem Document.ofLines_append {first second : List Line}
    (stops : (∀ statement ∈ Statement.group first, statement.isClosed = true) ∨
      Line.StartsApart second) :
    Document.ofLines (first ++ second) = do
      let front ← Document.ofLines first
      let back ← Document.ofLines second
      return front.append back.declarations := by
  simp [Document.ofLines, Statement.group_append stops, Reported.collect_append, Document.append]

/-- Two sources joined by a line feed are read as each by itself, with the lines of the second
counted on, if the first leaves no body unfinished or the second starts with a declaration or has
nothing in it. -/
theorem Document.read_append (first second : String)
    (stops : (∀ diagnostic ∈ (Document.read first).diagnostics,
        diagnostic.kind ≠ .unterminatedBody) ∨
      Line.scan second.toList = [] ∨
      ∃ line rest, Line.scan second.toList = line :: rest ∧
        (Keyword.ofLine? line.text).isSome = true) :
    Document.read (first ++ "\n" ++ second) =
      ⟨(Document.read first).value.append (Document.read second).value.declarations,
        (Document.read first).diagnostics ++ (Document.read second).diagnostics.map
          (Diagnostic.relocate (· + (1 + first.toList.count '\n')))⟩ := by
  have lines : Line.scan (first ++ "\n" ++ second).toList = Line.scan first.toList ++
      (Line.scan second.toList).map (Line.relocate (· + (1 + first.toList.count '\n'))) := by
    rw [← Line.scan_append]
    simp
  have composed : (∀ statement ∈ Statement.group (Line.scan first.toList),
        statement.isClosed = true) ∨
      Line.StartsApart ((Line.scan second.toList).map
        (Line.relocate (· + (1 + first.toList.count '\n')))) := by
    rcases stops with finished | empty | ⟨line, rest, start, found⟩
    · left
      exact Document.isClosed_of_ofLines finished
    · right
      rw [empty]
      intro line member
      cases member
    · right
      rw [start]
      intro other member
      cases member
      exact found
  rw [Document.read, lines, Document.ofLines_append composed, Relocation.ofLines]
  apply Reported.ext
  · rfl
  · simp [Document.read, Reported.relocate]

/-- An unfinished body does not reach into the declaration after it. -/
theorem Document.read_append_unfinished :
    let first := "struct Broken extends \x7b\n  kept: string\n  ???"
    let second := "// next\ntype Id = Set<string"
    (∃ line rest, Line.scan second.toList = line :: rest ∧
      (Keyword.ofLine? line.text).isSome = true) ∧
    Document.read (first ++ "\n" ++ second) =
      ⟨(Document.read first).value.append (Document.read second).value.declarations,
        (Document.read first).diagnostics ++ (Document.read second).diagnostics.map
          (Diagnostic.relocate (· + (1 + first.toList.count '\n')))⟩ := by
  have start : ∃ line rest,
      Line.scan "// next\ntype Id = Set<string".toList = line :: rest ∧
        (Keyword.ofLine? line.text).isSome = true :=
    ⟨⟨2, "type Id = Set<string".toList⟩, [], rfl, rfl⟩
  exact ⟨start, Document.read_append _ _ (Or.inr (Or.inr start))⟩

end PolySchema
