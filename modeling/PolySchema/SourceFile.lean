import PolySchema.Output

namespace PolySchema

/-- What a path leads to. -/
inductive PathEntry where
  | file (bytes : ByteArray)
  | directory
  | absent

/-- Why a path gives no source text. -/
inductive ReadError where
  | absent
  | directory
  | notText

def ReadError.message (error : ReadError) : String :=
  "IO error: " ++
    match error with
    | .absent => "No such file or directory (os error 2)"
    | .directory => "Is a directory (os error 21)"
    | .notText => "stream did not contain valid UTF-8"

/-- The text of a file, which must be valid UTF-8. A byte order mark belongs to the text. -/
def PathEntry.text : PathEntry → Except ReadError String
  | .file bytes =>
    match String.fromUTF8? bytes with
    | some text => .ok text
    | none => .error .notText
  | .directory => .error .directory
  | .absent => .error .absent

/-- The output for the source that a path leads to. -/
def Output.ofPath (settings : Settings) (target : Target) (entry : PathEntry) :
    Except ReadError Output :=
  entry.text.map (Output.ofSource settings target)

end PolySchema
