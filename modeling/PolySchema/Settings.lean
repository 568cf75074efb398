namespace PolySchema

structure Settings where
  indent : String := "  "
  /-- Whether declarations are visible to other modules. -/
  exported : Bool := false
  /-- The traits to derive for structs, where the target derives any. -/
  derives : List String := []
  /-- Text for a comment on top. An empty text is a comment without lines, not its absence. -/
  banner : Option String := none

/-- A choice for one of the settings. -/
inductive Setting where
  | indent (text : String)
  | exported (choice : Bool)
  | derives (traits : List String)
  | banner (text : String)

def Settings.set (settings : Settings) : Setting → Settings
  | .indent text => { settings with indent := text }
  | .exported choice => { settings with exported := choice }
  | .derives traits => { settings with derives := traits }
  | .banner text => { settings with banner := some text }

/-- The defaults with the given choices made in order. -/
def Settings.ofList (choices : List Setting) : Settings := choices.foldl Settings.set {}

/-- The visibility keyword with a blank after it, or nothing. -/
def Settings.visibility (settings : Settings) (keyword : String) : String :=
  if settings.exported then keyword ++ " " else ""

end PolySchema
