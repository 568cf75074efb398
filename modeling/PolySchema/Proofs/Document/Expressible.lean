import Mathlib.Tactic.MkIffOfInductiveProp
import PolySchema.Document.Basic
import PolySchema.Proofs.TypeExpr.RoundTrip

namespace PolySchema

def TypeExpr.isExpressible (type : TypeExpr) : Bool := type.isWritable && type.isUnclassified

def Field.isExpressible (field : Field) : Bool :=
  isIdentifier field.name.toList && field.type.isExpressible

@[mk_iff] structure StructDef.Expressible (decl : StructDef) : Prop where
  name : isIdentifier decl.name.toList = true
  parent : ∀ parent ∈ decl.parent, isIdentifier parent.toList = true
  fields : ∀ field ∈ decl.fields, field.isExpressible = true

@[mk_iff] structure FunctionDef.Expressible (decl : FunctionDef) : Prop where
  name : isIdentifier decl.name.toList = true
  typeParameters : ∀ parameter ∈ decl.typeParameters, isIdentifier parameter.toList = true
  parameters : ∀ parameter ∈ decl.parameters, parameter.isExpressible = true
  returnType : decl.returnType.isExpressible = true

/-- A method is a signature without type parameters. -/
def Method.signature (method : Method) : FunctionDef :=
  ⟨method.name, [], method.parameters, method.returnType⟩

@[mk_iff] structure InterfaceDef.Expressible (decl : InterfaceDef) : Prop where
  name : isIdentifier decl.name.toList = true
  parent : ∀ parent ∈ decl.parent, isIdentifier parent.toList = true
  methods : ∀ method ∈ decl.methods, method.signature.Expressible

@[mk_iff] structure AliasDef.Expressible (decl : AliasDef) : Prop where
  name : isIdentifier decl.name.toList = true
  type : decl.type.isExpressible = true

def Declaration.Expressible : Declaration → Prop
  | .struct decl => decl.Expressible
  | .interface decl => decl.Expressible
  | .function decl => decl.Expressible
  | .alias decl => decl.Expressible

def Document.Expressible (document : Document) : Prop :=
  ∀ declaration ∈ document.declarations, declaration.Expressible

instance (decl : StructDef) : Decidable decl.Expressible :=
  decidable_of_iff' _ (StructDef.expressible_iff decl)

instance (decl : FunctionDef) : Decidable decl.Expressible :=
  decidable_of_iff' _ (FunctionDef.expressible_iff decl)

instance (decl : InterfaceDef) : Decidable decl.Expressible :=
  decidable_of_iff' _ (InterfaceDef.expressible_iff decl)

instance (decl : AliasDef) : Decidable decl.Expressible :=
  decidable_of_iff' _ (AliasDef.expressible_iff decl)

instance : (declaration : Declaration) → Decidable declaration.Expressible
  | .struct decl => inferInstanceAs (Decidable decl.Expressible)
  | .interface decl => inferInstanceAs (Decidable decl.Expressible)
  | .function decl => inferInstanceAs (Decidable decl.Expressible)
  | .alias decl => inferInstanceAs (Decidable decl.Expressible)

instance (document : Document) : Decidable document.Expressible :=
  inferInstanceAs (Decidable (∀ declaration ∈ document.declarations, declaration.Expressible))

variable {type : TypeExpr} {field : Field}

theorem TypeExpr.isWritable_of_isExpressible (valid : type.isExpressible = true) :
    type.isWritable = true := by
  rw [TypeExpr.isExpressible, Bool.and_eq_true] at valid
  exact valid.1

theorem TypeExpr.unclassify_of_isExpressible (valid : type.isExpressible = true) :
    type.unclassify = type := by
  rw [TypeExpr.isExpressible, Bool.and_eq_true] at valid
  exact TypeExpr.unclassify_eq_self valid.2

theorem Field.isWritable_of_isExpressible (valid : field.isExpressible = true) :
    field.isWritable = true := by
  rw [Field.isExpressible, Bool.and_eq_true] at valid
  rw [Field.isWritable, valid.1, TypeExpr.isWritable_of_isExpressible valid.2]
  rfl

/-- Reading a printed type expression gives it back. -/
theorem TypeExpr.read_of_isExpressible (valid : type.isExpressible = true) (line : Nat) :
    TypeExpr.read line type.print.toList = pure type := by
  rw [TypeExpr.read_print (TypeExpr.isWritable_of_isExpressible valid),
    TypeExpr.unclassify_of_isExpressible valid]

theorem Field.read_of_isExpressible (valid : field.isExpressible = true) (kind : Diagnostic.Kind)
    (line : Nat) : Field.read kind line field.print.toList = pure (some field) := by
  rw [Field.read_print (Field.isWritable_of_isExpressible valid)]
  rw [Field.isExpressible, Bool.and_eq_true] at valid
  cases field
  simp only [Field.unclassify, TypeExpr.unclassify_of_isExpressible valid.2]

theorem Field.isItem_of_isExpressible (valid : field.isExpressible = true) :
    Text.IsItem field.print.toList :=
  Field.isItem_print (Field.isWritable_of_isExpressible valid)

end PolySchema
