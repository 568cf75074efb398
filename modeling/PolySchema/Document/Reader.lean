import PolySchema.Document.Basic
import PolySchema.Signature
import PolySchema.Statement

/-! Reading documents. Every statement is read on its own: it gives at most one declaration, and
what is wrong with it is reported. -/
namespace PolySchema

/-- The name and the parent in `keyword Name` or `keyword Name extends Parent`. -/
def Block.name? (block : Block) : Option (String × Option String) :=
  match Text.words block.header with
  | [_, name] => if isIdentifier name then some (String.ofList name, none) else none
  | [_, name, link, parent] =>
    if link == "extends".toList && isIdentifier name && isIdentifier parent then
      some (String.ofList name, some (String.ofList parent))
    else none
  | _ => none

/-- Read the name and parent of a block. An unfinished body is reported before a malformed
header. -/
def Block.readName (block : Block) : Reported (Option (String × Option String)) := do
  if !block.closed then
    Reported.report .unterminatedBody block.line block.header
  match block.name? with
  | none => do
    Reported.report .malformedHeader block.line block.header
    return none
  | some names => return some names

def StructDef.read (block : Block) : Reported (Option StructDef) := do
  match ← block.readName with
  | none => return none
  | some (name, parent) => do
    let fields ← Reported.collect (block.items.map fun item =>
      Field.read .malformedField item.number item.text)
    return some ⟨name, fields, parent⟩

def InterfaceDef.read (block : Block) : Reported (Option InterfaceDef) := do
  match ← block.readName with
  | none => return none
  | some (name, parent) => do
    let methods ← Reported.collect (block.items.map Method.read)
    return some ⟨name, methods, parent⟩

/-- The text after the keyword of a one-line declaration, without semicolons at its end. -/
def Keyword.operand (keyword : Keyword) (text : List Char) : List Char :=
  Text.trimStart ((Text.dropEndWhile (· == ';') text).drop keyword.word.length)

/-- The name and the type text in `type Name = type`. -/
def AliasDef.split? (text : List Char) : Option (List Char × List Char) :=
  match Text.cutTop? '=' (Keyword.operand .alias text) with
  | none => none
  | some (before, after) =>
    if isIdentifier (Text.trim before) && !(Text.trim after).isEmpty then
      some (Text.trim before, Text.trim after)
    else none

def AliasDef.read (line : Line) : Reported (Option AliasDef) :=
  match AliasDef.split? line.text with
  | none => do
    Reported.report .malformedTypeAlias line.number line.text
    return none
  | some (name, text) => do
    let type ← TypeExpr.read line.number text
    return some ⟨String.ofList name, type⟩

def Statement.read : Statement → Reported (Option Declaration)
  | .struct block => (Option.map .struct) <$> StructDef.read block
  | .interface block => (Option.map .interface) <$> InterfaceDef.read block
  | .function line =>
    (Option.map .function) <$>
      FunctionDef.read .malformedFunction line.number (Keyword.operand .function line.text)
  | .alias line => (Option.map .alias) <$> AliasDef.read line
  | .stray line => do
    Reported.report .unrecognizedLine line.number line.text
    return none

/-- The document that a list of significant lines holds. -/
def Document.ofLines (lines : List Line) : Reported Document :=
  Document.mk <$> Reported.collect ((Statement.group lines).map Statement.read)

/-- The document that a source holds, with everything that was skipped. -/
def Document.read (source : String) : Reported Document :=
  Document.ofLines (Line.scan source.toList)

end PolySchema
