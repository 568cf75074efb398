import PolySchema.Json.Diagnostic
import PolySchema.Json.Document
import PolySchema.Proofs.TypeExpr.Writable

namespace PolySchema

namespace Json

@[simp] theorem string?_string (text : String) : (Json.string text).string? = some text := rfl

@[simp] theorem bool?_bool (value : Bool) : (Json.bool value).bool? = some value := rfl

@[simp] theorem unit?_string (tag : String) : (Json.string tag).unit? = some tag := rfl

@[simp] theorem members?_object (keys : List String) (members : List (String × Json)) :
    (Json.object members).members? keys = some members := rfl

@[simp] theorem member?_cons_self (key : String) (value : Json) (rest : List (String × Json))
    (read : Json → Option α) : member? ((key, value) :: rest) key read = read value := by
  simp [member?]

theorem member?_cons_of_ne {key other : String} (different : key ≠ other) (value : Json)
    (rest : List (String × Json)) (read : Json → Option α) :
    member? ((other, value) :: rest) key read = member? rest key read := by
  simp [member?, List.lookup_cons, beq_eq_false_iff_ne.mpr different]

@[simp] theorem optionalMember?_cons_self (key : String) (value : Json)
    (rest : List (String × Json)) (read : Json → Option α) :
    optionalMember? ((key, value) :: rest) key read = read value := by
  simp [optionalMember?]

theorem optionalMember?_cons_of_ne {key other : String} (different : key ≠ other) (value : Json)
    (rest : List (String × Json)) (read : Json → Option α) :
    optionalMember? ((other, value) :: rest) key read = optionalMember? rest key read := by
  simp [optionalMember?, List.lookup_cons, beq_eq_false_iff_ne.mpr different]

@[simp] theorem stringOrNull?_ofString? (text : Option String) :
    (Json.ofString? text).stringOrNull? = some text := by
  cases text <;> rfl

theorem nat?_nat (count : Nat) :
    (Json.nat count).nat? = if count < natLimit then some count else none := rfl

/-- Only counts of 64 bits are read back. -/
theorem natOrNull?_ofNat? (value : Option Nat) :
    (Json.ofNat? value).natOrNull? =
      if ∀ count ∈ value, count < natLimit then some value else none := by
  cases value with
  | none => simp [ofNat?, natOrNull?]
  | some count =>
    have read : (Json.ofNat? (some count)).natOrNull? = (Json.nat count).nat?.map some := rfl
    by_cases fits : count < natLimit
    · simp [read, nat?_nat, fits]
    · simp [read, nat?_nat, fits]

theorem ofNat?_injective : Function.Injective Json.ofNat? := by
  rintro (_ | first) (_ | second) same
  · rfl
  · cases same
  · cases same
  · cases same
    rfl

theorem listOf?_map {read : Json → Option α} {write : α → Json} {items : List α}
    (each : ∀ item ∈ items, read (write item) = some item) :
    listOf? read (.array (items.map write)) = some items := by
  rw [listOf?]
  induction items with
  | nil => rfl
  | cons item rest ih =>
    obtain ⟨first, later⟩ := List.forall_mem_cons.mp each
    simp [first, ih later]

@[simp] theorem strings?_strings (texts : List String) : (strings texts).strings? = some texts :=
  listOf?_map fun _ _ => rfl

/-- What is read back is not confused with anything else. -/
theorem injective_of_read {read : Json → Option α} {write : α → Json}
    (back : ∀ value, read (write value) = some value) : Function.Injective write := by
  intro first second same
  apply Option.some.inj
  rw [← back first, same, back second]

end Json

private theorem Field.ofJson?_toJson_of {field : Field}
    (type : TypeExpr.ofJson? field.type.toJson = some field.type) :
    Field.ofJson? field.toJson = some field := by
  obtain ⟨name, inner, optional⟩ := field
  simp [Field.toJson, Field.ofJson?, TypeExpr.ofMember?_eq_member?, Json.member?_cons_of_ne, type]

private theorem Field.allOfJson?_allToJson {fields : List Field}
    (types : ∀ field ∈ fields, TypeExpr.ofJson? field.type.toJson = some field.type) :
    Field.allOfJson? (Field.allToJson fields) = some fields := by
  induction fields with
  | nil => rfl
  | cons field rest ih =>
    obtain ⟨first, later⟩ := List.forall_mem_cons.mp types
    simp [Field.allToJson, Field.allOfJson?, Field.ofJson?_toJson_of first, ih later]

theorem TypeExpr.ofJson?_toJson (type : TypeExpr) : TypeExpr.ofJson? type.toJson = some type := by
  induction type with
  | primitive leaf =>
    simp [TypeExpr.toJson, TypeExpr.ofJson?, Json.variant, Primitive.withName?_name]
  | named name => simp [TypeExpr.toJson, TypeExpr.ofJson?, Json.variant]
  | array element ih => simp [TypeExpr.toJson, TypeExpr.ofJson?, Json.variant, ih]
  | map key value keyIh valueIh =>
    simp [TypeExpr.toJson, TypeExpr.ofJson?, Json.variant, TypeExpr.ofMember?_eq_member?,
      Json.member?_cons_of_ne, keyIh, valueIh]
  | record fields ih =>
    simp [TypeExpr.toJson, TypeExpr.ofJson?, Json.variant, Field.allOfJson?_allToJson ih]
  | generic base argument ih =>
    simp [TypeExpr.toJson, TypeExpr.ofJson?, Json.variant, TypeExpr.ofMember?_eq_member?,
      Json.member?_cons_of_ne, ih]

theorem Field.ofJson?_toJson (field : Field) : Field.ofJson? field.toJson = some field :=
  Field.ofJson?_toJson_of (TypeExpr.ofJson?_toJson field.type)

private theorem Field.listOf?_map (fields : List Field) :
    Json.listOf? Field.ofJson? (.array (fields.map Field.toJson)) = some fields :=
  Json.listOf?_map fun field _ => Field.ofJson?_toJson field

theorem Method.ofJson?_toJson (method : Method) : Method.ofJson? method.toJson = some method := by
  simp [Method.toJson, Method.ofJson?, Json.member?_cons_of_ne, Field.listOf?_map,
    TypeExpr.ofJson?_toJson]

theorem StructDef.ofJson?_toJson (decl : StructDef) :
    StructDef.ofJson? decl.toJson = some decl := by
  simp [StructDef.toJson, StructDef.ofJson?, Json.member?_cons_of_ne,
    Json.optionalMember?_cons_of_ne, Field.listOf?_map]

theorem InterfaceDef.ofJson?_toJson (decl : InterfaceDef) :
    InterfaceDef.ofJson? decl.toJson = some decl := by
  have methods : Json.listOf? Method.ofJson? (.array (decl.methods.map Method.toJson)) =
      some decl.methods := Json.listOf?_map fun method _ => Method.ofJson?_toJson method
  simp [InterfaceDef.toJson, InterfaceDef.ofJson?, Json.member?_cons_of_ne,
    Json.optionalMember?_cons_of_ne, methods]

theorem FunctionDef.ofJson?_toJson (decl : FunctionDef) :
    FunctionDef.ofJson? decl.toJson = some decl := by
  simp [FunctionDef.toJson, FunctionDef.ofJson?, Json.member?_cons_of_ne, Field.listOf?_map,
    TypeExpr.ofJson?_toJson]

theorem AliasDef.ofJson?_toJson (decl : AliasDef) : AliasDef.ofJson? decl.toJson = some decl := by
  simp [AliasDef.toJson, AliasDef.ofJson?, Json.member?_cons_of_ne, TypeExpr.ofJson?_toJson]

theorem Declaration.ofJson?_toJson (declaration : Declaration) :
    Declaration.ofJson? declaration.toJson = some declaration := by
  rcases declaration with decl | decl | decl | decl <;>
    simp [Declaration.toJson, Declaration.ofJson?, Json.variant, StructDef.ofJson?_toJson,
      InterfaceDef.ofJson?_toJson, FunctionDef.ofJson?_toJson, AliasDef.ofJson?_toJson]

theorem Document.ofJson?_toJson (document : Document) :
    Document.ofJson? document.toJson = some document := by
  have declarations : Json.listOf? Declaration.ofJson?
      (.array (document.declarations.map Declaration.toJson)) = some document.declarations :=
    Json.listOf?_map fun declaration _ => Declaration.ofJson?_toJson declaration
  simp [Document.toJson, Document.ofJson?, declarations]

namespace Diagnostic

theorem Kind.ofJson?_toJson (kind : Kind) : Kind.ofJson? kind.toJson = some kind := by
  cases kind <;> rfl

/-- A diagnostic is read back if its line number is. -/
theorem ofJson?_toJson (diagnostic : Diagnostic) :
    Diagnostic.ofJson? diagnostic.toJson =
      if ∀ line ∈ diagnostic.line, line < Json.natLimit then some diagnostic else none := by
  have members : Diagnostic.ofJson? diagnostic.toJson =
      (Json.ofNat? diagnostic.line).natOrNull?.bind fun line =>
        some { diagnostic with line := line } := by
    simp [Diagnostic.toJson, Diagnostic.ofJson?, Json.member?_cons_of_ne,
      Json.optionalMember?_cons_of_ne, Kind.ofJson?_toJson]
  rw [members, Json.natOrNull?_ofNat?]
  split <;> rfl

theorem toJson_injective : Function.Injective Diagnostic.toJson := by
  rintro ⟨kind, line, context⟩ ⟨otherKind, otherLine, otherContext⟩ same
  simp only [Diagnostic.toJson, Json.object.injEq, List.cons.injEq, Prod.mk.injEq, true_and,
    Json.string.injEq, and_true] at same
  obtain ⟨kinds, lines, rfl⟩ := same
  obtain rfl := Json.injective_of_read Kind.ofJson?_toJson kinds
  obtain rfl := Json.ofNat?_injective lines
  rfl

end Diagnostic

/-- Documents are read back from their JSON form, and so are diagnostics whose line number is a
count of 64 bits. Different values have different forms. -/
theorem Json.round_trip :
    (∀ document : Document, Document.ofJson? document.toJson = some document) ∧
    (∀ diagnostic : Diagnostic, Diagnostic.ofJson? diagnostic.toJson = some diagnostic ↔
      ∀ line ∈ diagnostic.line, line < UInt64.size) ∧
    Function.Injective Document.toJson ∧ Function.Injective Diagnostic.toJson := by
  refine ⟨Document.ofJson?_toJson, ?_, Json.injective_of_read Document.ofJson?_toJson,
    Diagnostic.toJson_injective⟩
  intro diagnostic
  rw [Diagnostic.ofJson?_toJson, show Json.natLimit = UInt64.size from rfl]
  split
  · rename_i fits
    exact iff_of_true rfl fits
  · rename_i exceeds
    exact iff_of_false nofun exceeds

/-- A name with a quotation mark, a record in a map in a record, and the last line number. -/
theorem Json.round_trip_quoted :
    let document : Document := ⟨[
      .struct ⟨"Quoted \"name\"", [⟨"", .record [⟨"entries", .map (.primitive .string)
        (.record [⟨"key", .array (.generic "Set" (.named "null")), true⟩]), false⟩], true⟩],
        some "null"⟩,
      .interface ⟨"Worker", [⟨"work", [], .primitive .void⟩], none⟩,
      .function ⟨"load", ["T", "T"], [⟨"url", .named "String", false⟩], .named "T"⟩,
      .alias ⟨"Ids", .array (.primitive .uint64)⟩]⟩
    let diagnostic : Diagnostic := ⟨.approximatedType "Swift", some 18446744073709551615, "\n"⟩
    Document.ofJson? document.toJson = some document ∧
      (∀ line ∈ diagnostic.line, line < UInt64.size) ∧
      Diagnostic.ofJson? diagnostic.toJson = some diagnostic := by
  intro document diagnostic
  have fits : ∀ line ∈ diagnostic.line, line < UInt64.size := by
    intro line member
    cases member
    decide
  obtain ⟨documents, diagnostics, _⟩ := Json.round_trip
  exact ⟨documents document, fits, (diagnostics diagnostic).mpr fits⟩

end PolySchema
