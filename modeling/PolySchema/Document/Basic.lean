import PolySchema.Declaration

namespace PolySchema

/-- The first struct of a name in a list. -/
def StructDef.first? (structs : List StructDef) (name : String) : Option StructDef :=
  structs.find? fun decl => decl.name == name

theorem StructDef.name_of_first? {structs : List StructDef} {name : String} {decl : StructDef}
    (found : StructDef.first? structs name = some decl) : decl.name = name := by
  simpa using List.find?_some found

theorem StructDef.mem_names_of_first? {structs : List StructDef} {name : String}
    {decl : StructDef} (found : StructDef.first? structs name = some decl) :
    name ∈ structs.map StructDef.name :=
  List.mem_map.mpr ⟨decl, List.mem_of_find?_eq_some found, StructDef.name_of_first? found⟩

structure Document where
  declarations : List Declaration

namespace Document

def empty : Document := ⟨[]⟩

def structs (document : Document) : List StructDef :=
  document.declarations.filterMap Declaration.struct?

def interfaces (document : Document) : List InterfaceDef :=
  document.declarations.filterMap Declaration.interface?

/-- The first struct of a name. -/
def struct? (document : Document) (name : String) : Option StructDef :=
  StructDef.first? document.structs name

/-- The first interface of a name. -/
def interface? (document : Document) (name : String) : Option InterfaceDef :=
  document.interfaces.find? fun decl => decl.name == name

def append (document : Document) (declarations : List Declaration) : Document :=
  ⟨document.declarations ++ declarations⟩

/-- Replace the declaration at an index by what `change` makes of it, if it makes anything. -/
def modify? (document : Document) (index : Nat) (change : Declaration → Option Declaration) :
    Option Document :=
  match document.declarations[index]? with
  | none => none
  | some declaration =>
    (change declaration).map fun changed => ⟨document.declarations.set index changed⟩

end Document
end PolySchema
