import Mathlib.Data.List.Basic
import PolySchema.Proofs.Document.Quotation
import PolySchema.Proofs.Statement

namespace PolySchema

/-- The field that an item is, if it has a name and a type. -/
def Field.ofItem? (item : Line) : Option Field :=
  (FieldText.ofText? item.text).map fun parts =>
    ⟨String.ofList parts.name, (TypeExpr.read item.number parts.type).value, parts.optional⟩

/-- The items between the commas of a parameter list on a line. -/
def Line.parameterItems (line : Nat) (parameters : List Char) : List Line :=
  (Text.items parameters).map fun piece => ⟨line, piece⟩

/-- The method that an item is, if it is a signature without type parameters. -/
def Method.ofItem? (item : Line) : Option Method :=
  match SignatureText.ofText? (trimStatement item.text) with
  | some ⟨name, [], parameters, returnType⟩ => some
    { name := String.ofList name
      parameters := (Line.parameterItems item.number parameters).filterMap Field.ofItem?
      returnType := (TypeExpr.read item.number returnType).value }
  | _ => none

/-- What is quoted of an item that is no method. A signature with type parameters is quoted as it
stands in the body. -/
def Method.quote (item : Line) : List Char :=
  match SignatureText.ofText? (trimStatement item.text) with
  | some _ => item.text
  | none => trimStatement item.text

/-- Whether the problem is of the kind. -/
def Diagnostic.hasKind (kind : Diagnostic.Kind) (diagnostic : Diagnostic) : Bool :=
  diagnostic.kind == kind

namespace Reported

theorem only_of_quotes {reported : Reported α} {kind : Diagnostic.Kind}
    {kinds : List Diagnostic.Kind} {line : Line}
    (each : reported.Each (Diagnostic.Quotes kinds line)) (other : kind ∉ kinds) :
    reported.only (Diagnostic.hasKind kind) = [] := by
  refine each.only_eq_nil fun diagnostic quotes => beq_eq_false_iff_ne.mpr ?_
  rintro rfl
  exact other quotes.kind

theorem only_report (kind : Diagnostic.Kind) (line : Nat) (context : List Char) :
    (report kind line context).only (Diagnostic.hasKind kind) =
      [⟨kind, some line, String.ofList context⟩] :=
  List.filter_cons_of_pos (beq_self_eq_true kind)

end Reported

/-- What becomes of one item: it is kept and has no report of the kind, or it is not kept and has
one. -/
inductive ItemOutcome (kind : Diagnostic.Kind) (item : Line) (quote : List Char) :
    Option α → List Diagnostic → Prop
  | kept (value : α) : ItemOutcome kind item quote (some value) []
  | reported : ItemOutcome kind item quote none [⟨kind, some item.number, String.ofList quote⟩]

/-- What becomes of a list of items: those that can be kept are kept, in order, and each of the
others has one report of the kind, which carries its line and quotes it. -/
structure Itemizes (kind : Diagnostic.Kind) (keep? : Line → Option α) (quote : Line → List Char)
    (items : List Line) (values : List α) (reports : List Diagnostic) : Prop where
  kept : values = items.filterMap keep?
  reported : reports = (items.filter fun item => (keep? item).isNone).map fun item =>
    ⟨kind, some item.number, String.ofList (quote item)⟩
  total : items.length = values.length + reports.length

section

variable {kind : Diagnostic.Kind} {keep? : Line → Option α} {quote : Line → List Char}
  {step : Line → Reported (Option α)} {items : List Line}

private theorem flatMap_of_outcome {reports : Line → List Diagnostic}
    (each : ∀ item ∈ items, ItemOutcome kind item (quote item) (keep? item) (reports item)) :
    items.flatMap reports = (items.filter fun item => (keep? item).isNone).map fun item =>
      ⟨kind, some item.number, String.ofList (quote item)⟩ := by
  induction items with
  | nil => rfl
  | cons item rest ih =>
    obtain ⟨first, others⟩ := List.forall_mem_cons.mp each
    rw [List.flatMap_cons, ih others]
    generalize found : keep? item = value at first
    generalize reports item = own at first
    cases first with
    | kept value => rw [List.filter_cons_of_neg (by simp [found]), List.nil_append]
    | reported =>
      rw [List.filter_cons_of_pos (by simp [found]), List.map_cons, List.singleton_append]

/-- Items are accounted for together if each of them is by itself. -/
theorem Itemizes.collect (value : ∀ item ∈ items, (step item).value = keep? item)
    (each : ∀ item ∈ items, ItemOutcome kind item (quote item) (keep? item)
      ((step item).only (Diagnostic.hasKind kind))) :
    Itemizes kind keep? quote items (Reported.collect (items.map step)).value
      ((Reported.collect (items.map step)).only (Diagnostic.hasKind kind)) := by
  have values : (Reported.collect (items.map step)).value = items.filterMap keep? := by
    rw [Reported.collect, List.filterMap_map]
    exact List.filterMap_congr value
  have reports : (Reported.collect (items.map step)).only (Diagnostic.hasKind kind) =
      (items.filter fun item => (keep? item).isNone).map fun item =>
        ⟨kind, some item.number, String.ofList (quote item)⟩ := by
    rw [Reported.only_collect, List.flatMap_map]
    exact flatMap_of_outcome each
  refine ⟨values, reports, ?_⟩
  have others : (fun item => (keep? item).isNone) =
      fun item => decide ¬ (keep? item).isSome = true := by
    funext item
    cases keep? item <;> rfl
  rw [values, reports, List.length_map, List.length_filterMap_eq_countP,
    ← List.countP_eq_length_filter, others]
  exact List.length_eq_countP_add_countP fun item => (keep? item).isSome

end

namespace Field

theorem value_read (kind : Diagnostic.Kind) (item : Line) :
    (Field.read kind item.number item.text).value = Field.ofItem? item := by
  rw [Field.ofItem?]
  cases found : FieldText.ofText? item.text with
  | none =>
    rw [Field.read_of_none found]
    rfl
  | some parts =>
    rw [Field.read_of_parts found]
    rfl

/-- An item is reported for having no name or no type. What its type is reported for are problems of
other kinds. -/
theorem outcome_read {kind : Diagnostic.Kind} (other : kind ∉ TypeExpr.problems) (item : Line) :
    ItemOutcome kind item item.text (Field.ofItem? item)
      ((Field.read kind item.number item.text).only (Diagnostic.hasKind kind)) := by
  rw [Field.ofItem?]
  cases found : FieldText.ofText? item.text with
  | none =>
    rw [Field.read_of_none found, Reported.only_bind, Reported.only_report]
    exact .reported
  | some parts =>
    have silent := Reported.only_of_quotes (TypeExpr.each_read item.number parts.type) other
    rw [Field.read_of_parts found, Reported.only_bind, silent]
    exact .kept _

theorem itemizes_read (kind : Diagnostic.Kind) (other : kind ∉ TypeExpr.problems)
    (items : List Line) :
    let fields := Reported.collect (items.map fun item => Field.read kind item.number item.text)
    Itemizes kind Field.ofItem? Line.text items fields.value
      (fields.only (Diagnostic.hasKind kind)) :=
  .collect (fun item _ => value_read kind item) fun item _ => outcome_read other item

theorem readItems_eq (kind : Diagnostic.Kind) (line : Nat) (text : List Char) :
    Field.readItems kind line (Text.items text) =
      Reported.collect ((Line.parameterItems line text).map fun item =>
        Field.read kind item.number item.text) := by
  rw [Field.readItems, Line.parameterItems, List.map_map]
  rfl

end Field

namespace FunctionDef

variable {kind : Diagnostic.Kind} {line : Nat} {text : List Char} {parts : SignatureText}

theorem only_read {own : Diagnostic.Kind} (other : own ∉ TypeExpr.problems)
    (found : SignatureText.ofText? (trimStatement text) = some parts) :
    (FunctionDef.read kind line text).only (Diagnostic.hasKind own) =
      (Reported.collect ((Line.parameterItems line parts.parameters).map fun item =>
        Field.read .malformedParameter item.number item.text)).only (Diagnostic.hasKind own) := by
  have silent := Reported.only_of_quotes (TypeExpr.each_read line parts.returnType) other
  simp only [FunctionDef.read, found, Reported.only_bind, Reported.only_pure, silent,
    Field.readItems_eq, List.append_nil]

theorem itemizes_read (found : SignatureText.ofText? (trimStatement text) = some parts) :
    ∃ decl, (FunctionDef.read kind line text).value = some decl ∧
      Itemizes .malformedParameter Field.ofItem? Line.text
        (Line.parameterItems line parts.parameters) decl.parameters
        ((FunctionDef.read kind line text).only (Diagnostic.hasKind .malformedParameter)) := by
  have parameters := Field.itemizes_read .malformedParameter (by decide)
    (Line.parameterItems line parts.parameters)
  rw [FunctionDef.value_read, found, only_read (by decide) found]
  refine ⟨_, rfl, ?_⟩
  dsimp only
  rwa [Field.readItems_eq]

end FunctionDef

namespace Method

theorem value_read_eq (item : Line) : (Method.read item).value = Method.ofItem? item := by
  rw [Method.value_read, FunctionDef.value_read, Method.ofItem?]
  cases found : SignatureText.ofText? (trimStatement item.text) with
  | none => rfl
  | some parts =>
    obtain ⟨name, typeParameters, parameters, returnType⟩ := parts
    cases typeParameters with
    | nil =>
      have fields := Field.itemizes_read .malformedParameter (by decide)
        (Line.parameterItems item.number parameters)
      dsimp only
      rw [← fields.kept, ← Field.readItems_eq]
      rfl
    | cons first others => rfl

/-- An item is reported for not being a signature, or for its type parameters. Its parameters and
its types are reported for problems of other kinds. -/
theorem outcome_read (item : Line) :
    ItemOutcome .malformedMethod item (Method.quote item) (Method.ofItem? item)
      ((Method.read item).only (Diagnostic.hasKind .malformedMethod)) := by
  rw [← value_read_eq, Method.value_read, Method.quote, Method.read, Reported.only_bind]
  cases found : SignatureText.ofText? (trimStatement item.text) with
  | none =>
    have refused : FunctionDef.read .malformedMethod item.number item.text = (do
        Reported.report .malformedMethod item.number (trimStatement item.text)
        return none) := by
      simp only [FunctionDef.read, found]
    rw [refused, Reported.only_bind, Reported.only_report]
    exact .reported
  | some parts =>
    have silent : (FunctionDef.read .malformedMethod item.number item.text).only
        (Diagnostic.hasKind .malformedMethod) = [] := by
      rw [FunctionDef.only_read (by decide) found, Reported.only_collect, List.flatMap_map]
      refine List.flatMap_eq_nil_iff.mpr fun piece _ => ?_
      exact Reported.only_of_quotes (Field.each_read .malformedParameter _ _) (by decide)
    rw [silent, FunctionDef.value_read, found, List.nil_append, Option.map_some, Option.bind_some]
    dsimp only
    cases FunctionDef.method? _ with
    | none =>
      dsimp only
      rw [Reported.only_bind, Reported.only_report]
      exact .reported
    | some method => exact .kept method

theorem itemizes_read (items : List Line) :
    let methods := Reported.collect (items.map Method.read)
    Itemizes .malformedMethod Method.ofItem? Method.quote items methods.value
      (methods.only (Diagnostic.hasKind .malformedMethod)) :=
  .collect (fun item _ => value_read_eq item) fun item _ => outcome_read item

end Method

section

variable {block : Block} {name : String} {parent : Option String}

theorem StructDef.itemizes_read (header : block.name? = some (name, parent)) :
    ∃ fields, (StructDef.read block).value = some ⟨name, fields, parent⟩ ∧
      Itemizes .malformedField Field.ofItem? Line.text block.items fields
        ((StructDef.read block).only (Diagnostic.hasKind .malformedField)) := by
  have fields := Field.itemizes_read .malformedField (by decide) block.items
  have silent : block.readName.only (Diagnostic.hasKind .malformedField) = [] :=
    Reported.only_of_quotes block.each_readName (by decide)
  refine ⟨_, by rw [StructDef.value_read, header]; rfl, ?_⟩
  rw [StructDef.read, Reported.only_bind, silent, block.value_readName, header, List.nil_append]
  simpa using fields

theorem InterfaceDef.itemizes_read (header : block.name? = some (name, parent)) :
    ∃ methods, (InterfaceDef.read block).value = some ⟨name, methods, parent⟩ ∧
      Itemizes .malformedMethod Method.ofItem? Method.quote block.items methods
        ((InterfaceDef.read block).only (Diagnostic.hasKind .malformedMethod)) := by
  have methods := Method.itemizes_read block.items
  have silent : block.readName.only (Diagnostic.hasKind .malformedMethod) = [] :=
    Reported.only_of_quotes block.each_readName (by decide)
  refine ⟨_, by rw [InterfaceDef.value_read, header]; rfl, ?_⟩
  rw [InterfaceDef.read, Reported.only_bind, silent, block.value_readName, header, List.nil_append]
  simpa using methods

end

namespace Document

/-- Items are neither lost nor doubled. In a struct and in an interface with a proper header, the
fields and methods are those of the items that can be read as such, in order, every other item is
reported once under its own line, and together these are all items. The same holds for the pieces of
the parameter list in a signature. A method with type parameters is one that cannot be read. -/
theorem read_itemizes :
    (∀ (first : Line) (rest : List Line) (name : String) (parent : Option String),
      Keyword.ofLine? first.text = some .struct →
      (Block.take first rest).1.name? = some (name, parent) →
      let reading := (Statement.take first rest).1.read
      ∃ fields, reading.value = some (.struct ⟨name, fields, parent⟩) ∧
        Itemizes .malformedField Field.ofItem? Line.text (Block.take first rest).1.items fields
          (reading.only (Diagnostic.hasKind .malformedField))) ∧
    (∀ (first : Line) (rest : List Line) (name : String) (parent : Option String),
      Keyword.ofLine? first.text = some .interface →
      (Block.take first rest).1.name? = some (name, parent) →
      let reading := (Statement.take first rest).1.read
      ∃ methods, reading.value = some (.interface ⟨name, methods, parent⟩) ∧
        Itemizes .malformedMethod Method.ofItem? Method.quote (Block.take first rest).1.items
          methods (reading.only (Diagnostic.hasKind .malformedMethod))) ∧
    ∀ (kind : Diagnostic.Kind) (line : Nat) (text : List Char) (parts : SignatureText),
      SignatureText.ofText? (trimStatement text) = some parts →
      let reading := FunctionDef.read kind line text
      ∃ decl, reading.value = some decl ∧
        Itemizes .malformedParameter Field.ofItem? Line.text
          (Line.parameterItems line parts.parameters) decl.parameters
          (reading.only (Diagnostic.hasKind .malformedParameter)) := by
  refine ⟨?_, ?_, fun kind line text parts accepted => FunctionDef.itemizes_read accepted⟩
  · intro first rest name parent keyword header
    obtain ⟨fields, value, itemizes⟩ := StructDef.itemizes_read header
    rw [Statement.take, keyword]
    dsimp only [Statement.read]
    rw [Reported.value_map, Reported.only_map, value]
    exact ⟨fields, rfl, itemizes⟩
  · intro first rest name parent keyword header
    obtain ⟨methods, value, itemizes⟩ := InterfaceDef.itemizes_read header
    rw [Statement.take, keyword]
    dsimp only [Statement.read]
    rw [Reported.value_map, Reported.only_map, value]
    exact ⟨methods, rfl, itemizes⟩

/-- Items on two lines, a method with type parameters, and a parameter without a type. -/
theorem read_itemizes_mixed :
    let struct := Statement.take ⟨3, "struct S \x7b".toList⟩
      [⟨4, "x: A, broken".toList⟩, ⟨6, "1st: B, y?: C".toList⟩, ⟨7, "\x7d".toList⟩]
    let interface := Statement.take
      ⟨8, "interface I \x7b f(a: A, b): R, g<T>(): T, h \x7d".toList⟩ []
    let signature := FunctionDef.read .malformedMethod 8 "f(a: A, b): R".toList
    (∃ fields, struct.1.read.value = some (.struct ⟨"S", fields, none⟩) ∧
      fields.map Field.name = ["x", "y"] ∧
      struct.1.read.only (Diagnostic.hasKind .malformedField) =
        [⟨.malformedField, some 4, "broken"⟩, ⟨.malformedField, some 6, "1st: B"⟩]) ∧
    (∃ methods, interface.1.read.value = some (.interface ⟨"I", methods, none⟩) ∧
      methods.map Method.name = ["f"] ∧
      interface.1.read.only (Diagnostic.hasKind .malformedMethod) =
        [⟨.malformedMethod, some 8, "g<T>(): T"⟩, ⟨.malformedMethod, some 8, "h"⟩]) ∧
    ∃ decl, signature.value = some decl ∧ decl.parameters.map Field.name = ["a"] ∧
      signature.only (Diagnostic.hasKind .malformedParameter) =
        [⟨.malformedParameter, some 8, "b"⟩] := by
  obtain ⟨structs, interfaces, signatures⟩ := read_itemizes
  refine ⟨?_, ?_, ?_⟩
  · obtain ⟨fields, value, itemizes⟩ := structs ⟨3, "struct S \x7b".toList⟩
      [⟨4, "x: A, broken".toList⟩, ⟨6, "1st: B, y?: C".toList⟩, ⟨7, "\x7d".toList⟩] "S" none rfl rfl
    refine ⟨fields, value, ?_, ?_⟩
    · rw [itemizes.kept]
      rfl
    · rw [itemizes.reported]
      rfl
  · obtain ⟨methods, value, itemizes⟩ := interfaces
      ⟨8, "interface I \x7b f(a: A, b): R, g<T>(): T, h \x7d".toList⟩ [] "I" none rfl rfl
    refine ⟨methods, value, ?_, ?_⟩
    · rw [itemizes.kept]
      rfl
    · rw [itemizes.reported]
      rfl
  · obtain ⟨decl, value, itemizes⟩ :=
      signatures .malformedMethod 8 "f(a: A, b): R".toList _ rfl
    refine ⟨decl, value, ?_, ?_⟩
    · rw [itemizes.kept]
      rfl
    · rw [itemizes.reported]
      rfl

end Document
end PolySchema
