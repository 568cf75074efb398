namespace PolySchema

inductive Snippet where
  | line (text : String)
  /-- A header with members in braces, below attribute lines; the ending follows the closing
  brace. -/
  | block (attributes : List String) (header : String) (members : List String) (ending : String)

/-- The lines of a snippet: one for every member, between the header line and the closing line. A
block without members closes on its header line. -/
def Snippet.lines (indent : String) : Snippet → List String
  | .line text => [text]
  | .block attributes header members ending =>
    if members.isEmpty then attributes ++ [header ++ " \x7b\x7d" ++ ending]
    else attributes ++ [header ++ " \x7b"] ++ members.map (indent ++ ·) ++ ["\x7d" ++ ending]

def Snippet.render (indent : String) (snippet : Snippet) : String :=
  "\n".intercalate (snippet.lines indent)

end PolySchema
