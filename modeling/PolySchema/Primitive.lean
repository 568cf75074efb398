namespace PolySchema

inductive Primitive where
  | int8 | int16 | int32 | int64
  | uint8 | uint16 | uint32 | uint64
  | float32 | float64
  | string | char | boolean | void | any
  deriving DecidableEq, Repr

namespace Primitive

def all : List Primitive :=
  [int8, int16, int32, int64, uint8, uint16, uint32, uint64, float32, float64,
    string, char, boolean, void, any]

/-- The name of a primitive in the schema language. -/
def name : Primitive → String
  | int8 => "Int8" | int16 => "Int16" | int32 => "Int32" | int64 => "Int64"
  | uint8 => "UInt8" | uint16 => "UInt16" | uint32 => "UInt32" | uint64 => "UInt64"
  | float32 => "Float32" | float64 => "Float64"
  | string => "String" | char => "Char" | boolean => "Boolean" | void => "Void" | any => "Any"

/-- The primitive of exactly this name. -/
def withName? (name : String) : Option Primitive :=
  all.find? fun primitive => primitive.name == name

/-- The primitive that a source means by a name: `Float` and `Double` are further names of the two
floating-point types. -/
def ofName? (name : String) : Option Primitive :=
  if name == "Float" then some float32
  else if name == "Double" then some float64
  else withName? name

theorem withName?_name (primitive : Primitive) : withName? primitive.name = some primitive := by
  cases primitive <;> rfl

theorem ofName?_name (primitive : Primitive) : ofName? primitive.name = some primitive := by
  cases primitive <;> rfl

end Primitive
end PolySchema
