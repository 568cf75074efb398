namespace PolySchema.Synthetic

/-- A small source with every kind of declaration. -/
def everyKind : String :=
  "interface Worker \x7b\n" ++
  "  work(hours: Int32): Void\n" ++
  "  report(): String\n" ++
  "\x7d\n" ++
  "\n" ++
  "interface AdvancedWorker extends Worker \x7b\n" ++
  "  lead(teamSize: Int32): Void\n" ++
  "\x7d\n" ++
  "\n" ++
  "struct Engineer extends Person \x7b\n" ++
  "  specialty: String\n" ++
  "  isWorking: Boolean\n" ++
  "\x7d\n" ++
  "\n" ++
  "function hire(person: Person, position: String): Boolean\n" ++
  "\n" ++
  "struct Person \x7b\n" ++
  "  id: Int32\n" ++
  "  name: String\n" ++
  "  tags: String[]\n" ++
  "\x7d\n" ++
  "\n" ++
  "type KeyValue = \x7b key: String, value: Int32 \x7d\n" ++
  "\n" ++
  "function addTags(person: Person, newTags: String[]): Person\n"

/-- The header of the struct at an index of the chain. -/
def nodeHeader : Nat → String
  | 0 => "struct Node0"
  | previous + 1 => "struct Node" ++ toString (previous + 1) ++ " extends Node" ++ toString previous

/-- The lines of one link of the chain: a struct, an interface, a function and an alias. -/
def linkLines (index : Nat) : List String :=
  let number := toString index
  [nodeHeader index ++ " \x7b",
    "  field" ++ number ++ ": Int64",
    "  tags" ++ number ++ ": Record<String, String[]>?",
    "  at" ++ number ++ ": \x7b seconds: Int64, nanos: Int32 \x7d",
    "\x7d",
    "",
    "interface Service" ++ number ++ " \x7b",
    "  fetch(id: Int64, hint: String?): Page<Node" ++ number ++ ">",
    "\x7d",
    "",
    "function load" ++ number ++ "<T>(url: String): ApiResponse<T>",
    "",
    "type Ids" ++ number ++ " = UInt64[]",
    ""]

/-- A chain of structs, each extending the one before it. The last comes first, so that every
parent is declared after its child. -/
def chain (length : Nat) : String :=
  String.join (((List.range length).reverse.flatMap linkLines).map (· ++ "\n"))

end PolySchema.Synthetic
