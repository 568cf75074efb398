namespace PolySchema

def isIdentifierStart (c : Char) : Bool := c.isAlpha || c == '_'

def isIdentifierChar (c : Char) : Bool := c.isAlphanum || c == '_'

/-- An ASCII letter or underscore followed by ASCII letters, digits and underscores; a lone
underscore is no identifier. -/
def isIdentifier : List Char → Bool
  | [] => false
  | first :: rest =>
    isIdentifierStart first && rest.all isIdentifierChar && !(first == '_' && rest.isEmpty)

end PolySchema
