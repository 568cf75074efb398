import PolySchema.Document.Reader
import PolySchema.Proofs.Statement
import PolySchema.Proofs.TypeExpr.Slices

/-! Reading documents by slices and line counts. Statements are read one after another from an index
into the lines, and each says how many lines it took. Main statement: no slice, no search for a
bracket and no step is a fault, and what is read is what the readers without offsets read. -/
namespace PolySchema

namespace SignatureText

/-- The name and the type parameters in front of a parameter list, cut by offsets. -/
def splitHeadChecked (head : List Char) : Except Fault (Option (List Char × List (List Char))) :=
  match Text.firstOffset? '<' head with
  | none => if isIdentifier head then return some (head, []) else return none
  | some start => do
    let before ← Text.slice head 0 start
    let after ← Text.slice head (start + 1) (Text.byteSize head)
    match Text.dropEnding? ['>'] after with
    | none => return none
    | some inside =>
      let parameters ← Text.splitTopChecked ',' inside
      if isIdentifier (Text.trim before) && parameters.all isIdentifier then
        return some (Text.trim before, parameters)
      else return none

theorem splitHeadChecked_eq (head : List Char) :
    splitHeadChecked head = pure (splitHead? head) := by
  unfold splitHeadChecked splitHead? Text.firstOffset?
  cases found : Text.cutFirst? '<' head with
  | none =>
    dsimp only [Option.map_none]
    split <;> rfl
  | some cut =>
    obtain ⟨before, after⟩ := cut
    have shape := Text.cutFirst?_eq_some found
    simp only [Option.map_some, Text.slice_before shape, Text.slice_after shape rfl,
      Text.splitTopChecked_eq, pure_bind]
    cases Text.dropEnding? ['>'] after with
    | none => rfl
    | some inside =>
      dsimp only
      split <;> rfl

/-- The texts of a trimmed signature, cut by offsets. -/
def ofTextChecked (text : List Char) : Except Fault (Option SignatureText) :=
  match Text.topOffset? '(' text with
  | none => return none
  | some start => do
    match ← Text.closeChecked text start with
    | none => return none
    | some stop =>
      let after ← Text.slice text (stop + 1) (Text.byteSize text)
      match Text.trim after with
      | ':' :: type =>
        if (Text.trim type).isEmpty then return none
        else
          let head ← Text.slice text 0 start
          let parameters ← Text.slice text (start + 1) stop
          let parts ← splitHeadChecked (Text.trim head)
          return parts.map fun parts => ⟨parts.1, parts.2, parameters, Text.trim type⟩
      | _ => return none

theorem ofTextChecked_eq (text : List Char) : ofTextChecked text = pure (ofText? text) := by
  unfold ofTextChecked ofText? Text.topOffset?
  cases found : Text.cutTop? '(' text with
  | none => rfl
  | some cut =>
    obtain ⟨head, rest⟩ := cut
    have shape := Text.cutTop?_eq_some found
    simp only [Option.map_some, Text.closeChecked_eq shape rfl, pure_bind]
    cases closed : Text.cutClose? 1 rest with
    | none => rfl
    | some close =>
      obtain ⟨parameters, after⟩ := close
      obtain ⟨bracket, closing, whole⟩ := Text.exists_close shape closed
      simp only [Option.map_some, Text.slice_behind whole rfl closing, Text.slice_before shape,
        Text.slice_between whole rfl, splitHeadChecked_eq, pure_bind]
      rcases Text.trim after with _ | ⟨mark, type⟩
      · rfl
      · by_cases colon : mark = ':'
        · subst colon
          cases empty : (Text.trim type).isEmpty <;> simp [empty]
        · simp [colon]

end SignatureText

/-- The number of lines that a body takes. -/
def BlockTail.taken (opened : Bool) : List Line → Nat
  | [] => 0
  | line :: rest =>
    if !opened && line.text == ['{'] then BlockTail.taken true rest + 1
    else if line.text.head? == some '}' then 1
    else if (Keyword.ofLine? line.text).isSome then 0
    else BlockTail.taken opened rest + 1

theorem BlockTail.rest_eq_drop (opened : Bool) (lines : List Line) :
    (BlockTail.take opened lines).rest = lines.drop (BlockTail.taken opened lines) ∧
      BlockTail.taken opened lines ≤ lines.length := by
  induction lines generalizing opened with
  | nil => exact ⟨rfl, Nat.le_refl 0⟩
  | cons line rest ih =>
    unfold BlockTail.take BlockTail.taken
    split
    · exact ⟨(ih true).1, Nat.succ_le_succ (ih true).2⟩
    · split
      · exact ⟨rfl, Nat.le_add_left 1 rest.length⟩
      · split
        · exact ⟨rfl, Nat.zero_le _⟩
        · exact ⟨(ih opened).1, Nat.succ_le_succ (ih opened).2⟩

/-- The block whose header is on `first`, and the number of lines that it takes. -/
def Block.takeChecked (first : Line) (rest : List Line) : Except Fault (Block × Nat) :=
  match Text.firstOffset? '{' first.text with
  | none =>
    let tail := BlockTail.take false rest
    return (⟨first.number, first.text, tail.body, tail.closed⟩, 1 + BlockTail.taken false rest)
  | some brace => do
    let before ← Text.slice first.text 0 brace
    match ← Text.closeChecked first.text brace with
    | some close =>
      let inside ← Text.slice first.text (brace + 1) close
      return (⟨first.number, Text.trim before, [⟨first.number, inside⟩], true⟩, 1)
    | none =>
      let after ← Text.slice first.text (brace + 1) (Text.byteSize first.text)
      let tail := BlockTail.take true rest
      return (⟨first.number, Text.trim before, ⟨first.number, after⟩ :: tail.body, tail.closed⟩,
        1 + BlockTail.taken true rest)

/-- A step takes the first line and at most all that are there; the others are left. -/
structure Takes (first : Line) (rest : List Line) (taken : Nat) (left : List Line) : Prop where
  pos : 1 ≤ taken
  le : taken ≤ rest.length + 1
  left_eq : (first :: rest).drop taken = left

theorem Takes.one (first : Line) (rest : List Line) : Takes first rest 1 rest :=
  ⟨Nat.le_refl 1, Nat.le_add_left 1 rest.length, rfl⟩

theorem BlockTail.takes (first : Line) (opened : Bool) (rest : List Line) :
    Takes first rest (1 + BlockTail.taken opened rest) (BlockTail.take opened rest).rest := by
  obtain ⟨left, bound⟩ := BlockTail.rest_eq_drop opened rest
  refine ⟨Nat.le_add_right 1 _, by omega, ?_⟩
  rw [left, Nat.add_comm]
  rfl

theorem Block.takeChecked_eq (first : Line) (rest : List Line) :
    ∃ taken, Block.takeChecked first rest = pure ((Block.take first rest).1, taken) ∧
      Takes first rest taken (Block.take first rest).2 := by
  unfold Block.takeChecked Block.take Text.firstOffset?
  cases found : Text.cutFirst? '{' first.text with
  | none => exact ⟨_, rfl, BlockTail.takes first false rest⟩
  | some cut =>
    obtain ⟨before, after⟩ := cut
    have shape := Text.cutFirst?_eq_some found
    simp only [Option.map_some, Text.slice_before shape, Text.closeChecked_eq shape rfl,
      Text.slice_after shape rfl, pure_bind]
    cases closed : Text.cutClose? 1 after with
    | none => exact ⟨_, rfl, BlockTail.takes first true rest⟩
    | some close =>
      obtain ⟨inside, tail⟩ := close
      obtain ⟨bracket, _, whole⟩ := Text.exists_close shape closed
      refine ⟨1, ?_, Takes.one first rest⟩
      simp only [Option.map_some, Text.slice_between whole rfl, pure_bind]

/-- The items of a body, each cut from its line. -/
def Block.itemsChecked (block : Block) : Except Fault (List Line) := do
  let items ← block.body.mapM fun line => do
    let items ← Text.itemsChecked line.text
    return items.map fun item => (⟨line.number, item⟩ : Line)
  return items.flatten

theorem Block.itemsChecked_eq (block : Block) : block.itemsChecked = pure block.items := by
  simp only [Block.itemsChecked, Text.itemsChecked_eq, pure_bind, List.mapM_pure]
  rfl

/-- Read a signature by slices. -/
def FunctionDef.readChecked (kind : Diagnostic.Kind) (line : Nat) (text : List Char) :
    ExceptT Fault Reported (Option FunctionDef) := do
  match ← SignatureText.ofTextChecked (trimStatement text) with
  | none =>
    Reported.report kind line (trimStatement text)
    return none
  | some parts =>
    let items ← Text.itemsChecked parts.parameters
    let parameters ← collectChecked (items.map (Field.readChecked .malformedParameter line))
    let returnType ← TypeExpr.readChecked line parts.returnType
    return some
      { name := String.ofList parts.name
        typeParameters := parts.typeParameters.map String.ofList
        parameters, returnType }

theorem FunctionDef.readChecked_eq (kind : Diagnostic.Kind) (line : Nat) (text : List Char) :
    FunctionDef.readChecked kind line text = liftM (FunctionDef.read kind line text) := by
  have fields (items : List (List Char)) := collectChecked_map items fun item _ =>
    Field.readChecked_eq .malformedParameter line item
  simp only [FunctionDef.readChecked, FunctionDef.read, SignatureText.ofTextChecked_eq,
    Text.itemsChecked_eq, TypeExpr.readChecked_eq, fields, liftM_pure, pure_bind]
  cases SignatureText.ofText? (trimStatement text) with
  | none => simp
  | some parts => simp [Field.readItems]

def Method.readChecked (item : Line) : ExceptT Fault Reported (Option Method) := do
  match ← FunctionDef.readChecked .malformedMethod item.number item.text with
  | none => return none
  | some signature =>
    match signature.method? with
    | some method => return some method
    | none =>
      Reported.report .malformedMethod item.number item.text
      return none

theorem Method.readChecked_eq (item : Line) :
    Method.readChecked item = liftM (Method.read item) := by
  rw [Method.readChecked, Method.read, FunctionDef.readChecked_eq, liftM_bind]
  congr 1
  funext found
  cases found with
  | none => simp
  | some signature =>
    dsimp only
    cases signature.method? <;> simp

/-- Read a struct by slices. All items are cut before the name is looked at. -/
def StructDef.readChecked (block : Block) : ExceptT Fault Reported (Option StructDef) := do
  let items ← block.itemsChecked
  match ← block.readName with
  | none => return none
  | some (name, parent) =>
    let fields ← collectChecked (items.map fun item =>
      Field.readChecked .malformedField item.number item.text)
    return some ⟨name, fields, parent⟩

theorem StructDef.readChecked_eq (block : Block) :
    StructDef.readChecked block = liftM (StructDef.read block) := by
  have fields := collectChecked_map block.items fun item _ =>
    Field.readChecked_eq .malformedField item.number item.text
  simp only [StructDef.readChecked, StructDef.read, Block.itemsChecked_eq, liftM_pure, pure_bind,
    fields, liftM_bind]
  congr 1
  funext names
  cases names <;> simp

def InterfaceDef.readChecked (block : Block) : ExceptT Fault Reported (Option InterfaceDef) := do
  let items ← block.itemsChecked
  match ← block.readName with
  | none => return none
  | some (name, parent) =>
    let methods ← collectChecked (items.map Method.readChecked)
    return some ⟨name, methods, parent⟩

theorem InterfaceDef.readChecked_eq (block : Block) :
    InterfaceDef.readChecked block = liftM (InterfaceDef.read block) := by
  have methods := collectChecked_map block.items fun item _ => Method.readChecked_eq item
  simp only [InterfaceDef.readChecked, InterfaceDef.read, Block.itemsChecked_eq, liftM_pure,
    pure_bind, methods, liftM_bind]
  congr 1
  funext names
  cases names <;> simp

def AliasDef.splitChecked (text : List Char) : Except Fault (Option (List Char × List Char)) :=
  let operand := Keyword.operand .alias text
  match Text.topOffset? '=' operand with
  | none => return none
  | some sign => do
    let before ← Text.slice operand 0 sign
    let after ← Text.slice operand (sign + 1) (Text.byteSize operand)
    if isIdentifier (Text.trim before) && !(Text.trim after).isEmpty then
      return some (Text.trim before, Text.trim after)
    else return none

theorem AliasDef.splitChecked_eq (text : List Char) :
    AliasDef.splitChecked text = pure (AliasDef.split? text) := by
  unfold AliasDef.splitChecked AliasDef.split? Text.topOffset?
  dsimp only
  cases found : Text.cutTop? '=' (Keyword.operand .alias text) with
  | none => rfl
  | some cut =>
    obtain ⟨before, after⟩ := cut
    have shape := Text.cutTop?_eq_some found
    simp only [Option.map_some, Text.slice_before shape, Text.slice_after shape rfl, pure_bind]
    split <;> rfl

def AliasDef.readChecked (line : Line) : ExceptT Fault Reported (Option AliasDef) := do
  match ← AliasDef.splitChecked line.text with
  | none =>
    Reported.report .malformedTypeAlias line.number line.text
    return none
  | some (name, text) =>
    let type ← TypeExpr.readChecked line.number text
    return some ⟨String.ofList name, type⟩

theorem AliasDef.readChecked_eq (line : Line) :
    AliasDef.readChecked line = liftM (AliasDef.read line) := by
  simp only [AliasDef.readChecked, AliasDef.read, AliasDef.splitChecked_eq,
    TypeExpr.readChecked_eq, liftM_pure, pure_bind]
  cases AliasDef.split? line.text <;> simp

/-- Read the first statement of the lines: its declaration, and the number of lines it takes. -/
def Statement.step : List Line → ExceptT Fault Reported (Option Declaration × Nat)
  | [] => throw (.line 0)
  | first :: rest =>
    match Keyword.ofLine? first.text with
    | some .struct => do
      let (block, taken) ← Block.takeChecked first rest
      let decl ← StructDef.readChecked block
      return (decl.map .struct, taken)
    | some .interface => do
      let (block, taken) ← Block.takeChecked first rest
      let decl ← InterfaceDef.readChecked block
      return (decl.map .interface, taken)
    | some .function => do
      let decl ← FunctionDef.readChecked .malformedFunction first.number
        (Keyword.operand .function first.text)
      return (decl.map .function, 1)
    | some .alias => do
      let decl ← AliasDef.readChecked first
      return (decl.map .alias, 1)
    | none => do
      Reported.report .unrecognizedLine first.number first.text
      return (none, 1)

/-- The lines from an index on. -/
def Line.dropChecked (lines : List Line) (index : Nat) : Except Fault (List Line) :=
  if index ≤ lines.length then .ok (lines.drop index) else .error (.line index)

/-- Read the declarations from an index into the lines on, one statement after another. -/
def Document.readFrom (lines : List Line) (index : Nat) :
    ExceptT Fault Reported (List Declaration) :=
  if index < lines.length then do
    let rest ← Line.dropChecked lines index
    let (declaration, taken) ← Statement.step rest
    if 1 ≤ taken ∧ taken ≤ rest.length then
      let others ← Document.readFrom lines (index + taken)
      return declaration.toList ++ others
    else throw (.step taken rest.length)
  else return []
termination_by lines.length - index

def Document.readChecked (source : String) : ExceptT Fault Reported Document :=
  Document.mk <$> Document.readFrom (Line.scan source.toList) 0

/-- A step reads the first statement and takes its lines. -/
theorem Statement.step_eq (first : Line) (rest : List Line) :
    ∃ taken, Statement.step (first :: rest) =
        liftM ((·, taken) <$> Statement.read (Statement.take first rest).1) ∧
      Takes first rest taken (Statement.take first rest).2 := by
  obtain ⟨size, block, takes⟩ := Block.takeChecked_eq first rest
  rw [Statement.step, Statement.take]
  rcases Keyword.ofLine? first.text with _ | ⟨_ | _ | _ | _⟩
  · exact ⟨1, by simp [Statement.read], Takes.one first rest⟩
  · exact ⟨size, by simp [block, StructDef.readChecked_eq, Statement.read], takes⟩
  · exact ⟨size, by simp [block, InterfaceDef.readChecked_eq, Statement.read], takes⟩
  · exact ⟨1, by simp [FunctionDef.readChecked_eq, Statement.read], Takes.one first rest⟩
  · exact ⟨1, by simp [AliasDef.readChecked_eq, Statement.read], Takes.one first rest⟩

/-- Reading from an index on reads the statements of the lines from there. -/
theorem Document.readFrom_eq (lines : List Line) (index : Nat) :
    Document.readFrom lines index =
      liftM (Reported.collect ((Statement.group (lines.drop index)).map Statement.read)) := by
  generalize left : lines.drop index = rest
  induction rest using Statement.induction generalizing index with
  | nil =>
    have done : ¬ index < lines.length := Nat.not_lt.mpr (List.drop_eq_nil_iff.mp left)
    rw [Document.readFrom, if_neg done, Statement.group]
    simp
  | cons first rest ih =>
    have unread : index < lines.length := by
      apply Nat.lt_of_not_le
      intro done
      rw [List.drop_eq_nil_of_le done] at left
      cases left
    have present : Line.dropChecked lines index = pure (first :: rest) := by
      rw [Line.dropChecked, if_pos (Nat.le_of_lt unread), left]
      rfl
    obtain ⟨taken, step, takes⟩ := Statement.step_eq first rest
    have others := ih (index + taken) (by rw [← List.drop_drop, left, takes.left_eq])
    rw [Document.readFrom, if_pos unread, present, Statement.group_cons, List.map_cons,
      Reported.collect_cons]
    simp [step, others, takes.pos, takes.le]

/-- Sources and types are read without a fault. A slice is one unless its bounds are in order,
within the text and on character boundaries; a search for a closing bracket is one unless it starts
at an opening bracket; a step is one unless it takes at least one of the lines and at most all. -/
theorem Document.readChecked_run :
    (∀ text start stop, (∃ part, Text.slice text start stop = .ok part) ↔
      start ≤ stop ∧ stop ≤ (String.ofList text).utf8ByteSize ∧
        (⟨start⟩ : String.Pos.Raw).IsValid (String.ofList text) ∧
        (⟨stop⟩ : String.Pos.Raw).IsValid (String.ofList text)) ∧
    (∀ text start, (∃ close, Text.closeChecked text start = .ok close) ↔
      ∃ before bracket after, text = before ++ bracket :: after ∧
        (String.ofList before).utf8ByteSize = start ∧ Text.opens bracket = true) ∧
    (∀ first rest, ∃ taken, 1 ≤ taken ∧ taken ≤ (first :: rest).length ∧
      (Statement.step (first :: rest)).run =
        .ok <$> (·, taken) <$> Statement.read (Statement.take first rest).1) ∧
    (∀ source, (Document.readChecked source).run = .ok <$> Document.read source) ∧
    ∀ line text, (TypeExpr.readChecked line text).run = .ok <$> TypeExpr.read line text := by
  refine ⟨fun _ _ _ => Text.exists_slice_iff, ?_, ?_, fun source => ?_, fun line text => ?_⟩
  · simp only [← Text.byteSize_eq]
    exact fun _ _ => Text.exists_closeChecked_iff
  · intro first rest
    obtain ⟨taken, step, takes⟩ := Statement.step_eq first rest
    exact ⟨taken, takes.pos, takes.le, by rw [step]; rfl⟩
  · rw [Document.readChecked, Document.readFrom_eq, ← liftM_map]
    rfl
  · rw [TypeExpr.readChecked_eq]
    rfl

end PolySchema
