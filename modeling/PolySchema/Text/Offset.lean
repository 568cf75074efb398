import PolySchema.Text.Bracket

namespace PolySchema.Text

def byteSize : List Char → Nat
  | [] => 0
  | c :: rest => c.utf8Size + byteSize rest

/-- An offset that lies beyond the text or inside a character. -/
structure BadOffset where
  offset : Nat

/-- The text from a byte offset on, which must be a character boundary of the text. -/
def dropBytes? : Nat → List Char → Option (List Char)
  | 0, text => some text
  | _ + 1, [] => none
  | offset + 1, c :: rest =>
    if c.utf8Size ≤ offset + 1 then dropBytes? (offset + 1 - c.utf8Size) rest else none

/-- The offset of the first `needle` at top level. -/
def topOffset? (needle : Char) (text : List Char) : Option Nat :=
  (cutTop? needle text).map fun cut => byteSize cut.1

/-- The offset of the bracket that closes the one at `start`. -/
def closeOffset (text : List Char) (start : Nat) : Except BadOffset (Option Nat) :=
  match dropBytes? start text with
  | none => .error ⟨start⟩
  | some rest => .ok ((cutClose? 0 rest).map fun cut => start + byteSize cut.1)

end PolySchema.Text
