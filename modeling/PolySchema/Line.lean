import PolySchema.Text.Cut

/-! Source lines. Reading starts from the significant lines of a source: those that are neither
blank nor a comment, trimmed and with their number. -/
namespace PolySchema

structure Line where
  /-- Counted from one over all lines of the source. -/
  number : Nat
  text : List Char

/-- What a comment line starts with. -/
def Line.commentMark : List Char := ['/', '/']

/-- A line that is not empty and is not a comment. -/
def Line.isSignificant (line : Line) : Bool :=
  !line.text.isEmpty && !commentMark.isPrefixOf line.text

/-- The significant lines of a source, in order. -/
def Line.scan (source : List Char) : List Line :=
  let numbered := (Text.lines source).zipIdx 1
  (numbered.map fun entry => ⟨entry.2, Text.trim entry.1⟩).filter isSignificant

end PolySchema
