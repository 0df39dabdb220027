import TreeSchema.Modules.Export
import TreeSchema.Modules.Import

/-!
# Programs

A program is a file of import and export declarations.
-/

namespace TreeSchema.Modules

set_option autoImplicit false

inductive AnyModuleStatement where
  | imports (declaration : ImportDeclaration)
  | exports (declaration : ExportExternalDeclaration)
deriving DecidableEq

instance : Group AnyModuleStatement where
  target := .group "AnyModuleStatement"
  toNode
    | .imports d => toNode d
    | .exports d => toNode d
  ofNode? n :=
    if Shape.is ImportDeclaration n then (ofNode? n).map .imports
    else (ofNode? n).map .exports
  ofNode?_toNode a := by
    cases a <;> simp [Shape.is, Node.hasTag, Shape.tag, Shape.layout]
  decl :=
    { name := "AnyModuleStatement",
      members := [Shape.tag ImportDeclaration, Shape.tag ExportExternalDeclaration] }
  target_eq := rfl
  tag_mem a := by cases a <;> simp [toNode, Shape.tag, Shape.layout]

structure Program where
  body : List AnyModuleStatement
  filename : String
deriving DecidableEq

instance : Shape Program :=
  .ofLayout
    ⟨"Program", [.of "body" Program.body [.visit], .of "filename" Program.filename []]⟩
    (fun n => do return ⟨← n.read? "body", ← n.read? "filename"⟩)
    (fun a => by simp [Layout.toNode, FieldOf.of, Node.read?, Node.field?, List.lookup_cons])

end TreeSchema.Modules
