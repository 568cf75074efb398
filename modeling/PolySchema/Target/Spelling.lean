import PolySchema.TypeExpr.Basic

/-! How a target spells types. A spelling says what becomes of each form of type once its parts are
spelled; `TypeExpr.spell` follows it through a whole expression. -/
namespace PolySchema

structure Spelling where
  primitive : Primitive → String
  /-- A name, escaped where the target reserves it. -/
  name : String → String
  array : String → String
  map : String → String → String
  /-- A record, from the escaped names of its fields and their spelled types. -/
  record : List (String × String) → String
  /-- A type whose value may be missing. -/
  optional : String → String

/-- A spelled type, marked if the value may be missing. -/
def Spelling.marked (spelling : Spelling) (optional : Bool) (type : String) : String :=
  if optional then spelling.optional type else type

mutual

def TypeExpr.spell (spelling : Spelling) : TypeExpr → String
  | .primitive leaf => spelling.primitive leaf
  | .named name => spelling.name name
  | .array element => spelling.array (element.spell spelling)
  | .map key value => spelling.map (key.spell spelling) (value.spell spelling)
  | .record fields => spelling.record (Field.spellAll spelling fields)
  | .generic base argument => spelling.name base ++ "<" ++ argument.spell spelling ++ ">"

/-- The escaped names and spelled types of fields. -/
def Field.spellAll (spelling : Spelling) : List Field → List (String × String)
  | [] => []
  | ⟨name, type, optional⟩ :: rest =>
    (spelling.name name, spelling.marked optional (type.spell spelling)) ::
      Field.spellAll spelling rest

end

def Field.spellType (spelling : Spelling) (field : Field) : String :=
  spelling.marked field.optional (field.type.spell spelling)

/-- A field as `name: type`. -/
def Field.spell (spelling : Spelling) (field : Field) : String :=
  spelling.name field.name ++ ": " ++ field.spellType spelling

theorem Field.spellAll_eq_map (spelling : Spelling) (fields : List Field) :
    Field.spellAll spelling fields =
      fields.map fun field => (spelling.name field.name, field.spellType spelling) := by
  induction fields with
  | nil => rfl
  | cons field rest ih =>
    cases field
    simp [Field.spellAll, Field.spellType, ih]

/-- Fields as a parameter list, without the parentheses. -/
def Spelling.parameters (spelling : Spelling) (fields : List Field) : String :=
  ", ".intercalate (fields.map (Field.spell spelling))

/-- Type parameters in angle brackets, or nothing. -/
def Spelling.typeParameters (spelling : Spelling) (names : List String) : String :=
  if names.isEmpty then "" else "<" ++ ", ".intercalate (names.map spelling.name) ++ ">"

end PolySchema
