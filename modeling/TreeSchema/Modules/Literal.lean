import TreeSchema.Shape.Basic

/-!
# Names and texts in module syntax

The leaves of import and export declarations: names that refer, names that bind, and the texts that
say which module is meant.
-/

namespace TreeSchema.Modules

set_option autoImplicit false

/-- A name that refers to something. -/
structure Identifier where
  name : String
deriving DecidableEq

instance : Shape Identifier :=
  .ofLayout ⟨"Identifier", [.of "name" Identifier.name []]⟩
    (fun n => do return ⟨← n.read? "name"⟩)
    (fun a => by simp [Layout.toNode, FieldOf.of, Node.read?, Node.field?])

/-- A name that is bound where it stands. -/
structure BindingIdentifier where
  name : String
deriving DecidableEq

instance : Shape BindingIdentifier :=
  .ofLayout ⟨"BindingIdentifier", [.of "name" BindingIdentifier.name []]⟩
    (fun n => do return ⟨← n.read? "name"⟩)
    (fun a => by simp [Layout.toNode, FieldOf.of, Node.read?, Node.field?])

structure StringLiteral where
  value : String
deriving DecidableEq

instance : Shape StringLiteral :=
  .ofLayout ⟨"StringLiteral", [.of "value" StringLiteral.value []]⟩
    (fun n => do return ⟨← n.read? "value"⟩)
    (fun a => by simp [Layout.toNode, FieldOf.of, Node.read?, Node.field?])

end TreeSchema.Modules
