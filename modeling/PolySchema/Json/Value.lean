namespace PolySchema

inductive Json where
  | null
  | bool (value : Bool)
  /-- The mantissa with the decimal point moved left by that many places. -/
  | number (mantissa : Int) (places : Nat)
  | string (text : String)
  | array (items : List Json)
  | object (members : List (String × Json))
  deriving Inhabited

namespace Json

def nat (value : Nat) : Json := .number value 0

/-- A string, or null if there is none. -/
def ofString? : Option String → Json
  | some text => .string text
  | none => .null

/-- A number, or null if there is none. -/
def ofNat? : Option Nat → Json
  | some value => .nat value
  | none => .null

def strings (texts : List String) : Json := .array (texts.map .string)

/-- An object with one member, whose key says which case of a type the value is. -/
def variant (tag : String) (value : Json) : Json := .object [(tag, value)]

def bool? : Json → Option Bool
  | .bool value => some value
  | _ => none

def string? : Json → Option String
  | .string text => some text
  | _ => none

def array? : Json → Option (List Json)
  | .array items => some items
  | _ => none

def object? : Json → Option (List (String × Json))
  | .object members => some members
  | _ => none

/-- The first integer too large for a count, one more than 64 bits can hold. -/
def natLimit : Nat := 18446744073709551616

/-- A count: an integer without places that is not negative and fits 64 bits. -/
def nat? : Json → Option Nat
  | .number (.ofNat value) 0 => if value < natLimit then some value else none
  | _ => none

/-- A string or null. -/
def stringOrNull? : Json → Option (Option String)
  | .string text => some (some text)
  | .null => some none
  | _ => none

/-- A count or null. -/
def natOrNull? (value : Json) : Option (Option Nat) :=
  match value with
  | .null => some none
  | _ => value.nat?.map some

/-- Every item, read by `read`. -/
def listOf? (read : Json → Option α) : Json → Option (List α)
  | .array items => items.mapM read
  | _ => none

def strings? (value : Json) : Option (List String) := value.listOf? string?

/-- The members of a record with the given keys: those of an object, whatever else it holds, or the
items of an array of just these values in this order. -/
def members? (keys : List String) : Json → Option (List (String × Json))
  | .object members => some members
  | .array items => if items.length == keys.length then some (keys.zip items) else none
  | _ => none

/-- A case without content, by its name alone or by its name over null. -/
def unit? : Json → Option String
  | .string tag => some tag
  | .object [(tag, .null)] => some tag
  | _ => none

/-- The value of a member, read by `read`. -/
def member? (members : List (String × Json)) (key : String) (read : Json → Option α) : Option α :=
  match members.lookup key with
  | some value => read value
  | none => none

/-- The value of a member that may be left out, which is then null. -/
def optionalMember? (members : List (String × Json)) (key : String) (read : Json → Option α) :
    Option α :=
  read ((members.lookup key).getD .null)

end Json
end PolySchema
