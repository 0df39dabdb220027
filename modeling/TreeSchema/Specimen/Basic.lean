import TreeSchema.Shape.Basic

/-!
# Specimen shapes

A small collection of typed shapes that between them use every field kind, every binding kind and
both ways of referring to children. The last few carry marks that validation refuses.
-/

namespace TreeSchema.Specimen

set_option autoImplicit false

structure Blank where
deriving DecidableEq

instance : Shape Blank :=
  .ofLayout ⟨"FxEmpty", []⟩ (fun _ => some ⟨⟩) (fun _ => rfl)

structure Label where
  name : String
deriving DecidableEq

instance : Shape Label :=
  .ofLayout ⟨"FxName", [.of "name" Label.name []]⟩
    (fun n => do return ⟨← n.read? "name"⟩)
    (fun a => by simp [Layout.toNode, FieldOf.of, Node.read?, Node.field?])

structure Number where
  value : UInt64
deriving DecidableEq

instance : Shape Number :=
  .ofLayout ⟨"FxNumber", [.of "value" Number.value []]⟩
    (fun n => do return ⟨← n.read? "value"⟩)
    (fun a => by simp [Layout.toNode, FieldOf.of, Node.read?, Node.field?])

structure TextLiteral where
  value : String
  raw : Bool
deriving DecidableEq

instance : Shape TextLiteral :=
  .ofLayout ⟨"FxText", [.of "value" TextLiteral.value [], .of "raw" TextLiteral.raw []]⟩
    (fun n => do return ⟨← n.read? "value", ← n.read? "raw"⟩)
    (fun a => by simp [Layout.toNode, FieldOf.of, Node.read?, Node.field?, List.lookup_cons])

inductive Literal where
  | text (literal : TextLiteral)
  | number (literal : Number)
deriving DecidableEq

instance : Group Literal where
  target := .group "FxLiteral"
  toNode
    | .text l => toNode l
    | .number l => toNode l
  ofNode? n :=
    if Shape.is TextLiteral n then (ofNode? n).map .text else (ofNode? n).map .number
  ofNode?_toNode a := by
    cases a <;> simp [Shape.is, Node.hasTag, Shape.tag, Shape.layout]
  decl := { name := "FxLiteral", members := [Shape.tag TextLiteral, Shape.tag Number] }
  target_eq := rfl
  tag_mem a := by cases a <;> simp [toNode, Shape.tag, Shape.layout]

inductive Solo where
  | blank (member : Blank)
deriving DecidableEq

instance : Group Solo where
  target := .group "FxSolo"
  toNode
    | .blank e => toNode e
  ofNode? n := (ofNode? n).map .blank
  ofNode?_toNode a := by cases a; simp
  decl := { name := "FxSolo", members := [Shape.tag Blank] }
  target_eq := rfl
  tag_mem a := by cases a; simp [toNode, Shape.tag, Shape.layout]

/-- A declarator: one field of each kind. -/
structure Declarator where
  id : Label
  init : Option Literal
  decorators : List TextLiteral
  extra : Option (List Label)
  origin : Option TextLiteral
  definite : Bool
deriving DecidableEq

instance : Shape Declarator :=
  .ofLayout
    ⟨"FxDeclarator",
      [.of "id" Declarator.id [.visit, .bind .lexical],
       .of "init" Declarator.init [.visit],
       .of "decorators" Declarator.decorators [.visit],
       .of "extra" Declarator.extra [.visit, .bind .parameter],
       .of "origin" Declarator.origin [],
       .of "definite" Declarator.definite []]⟩
    (fun n => do
      return ⟨← n.read? "id", ← n.read? "init", ← n.read? "decorators", ← n.read? "extra",
        ← n.read? "origin", ← n.read? "definite"⟩)
    (fun a => by simp [Layout.toNode, FieldOf.of, Node.read?, Node.field?, List.lookup_cons])

structure Param where
  id : Label
deriving DecidableEq

instance : Shape Param :=
  .ofLayout ⟨"FxParam", [.of "id" Param.id [.visit, .bind .parameter]]⟩
    (fun n => do return ⟨← n.read? "id"⟩)
    (fun a => by simp [Layout.toNode, FieldOf.of, Node.read?, Node.field?])

/-- A scope: its binding keys and its visitor keys differ. -/
structure Scope where
  param : Option Label
  aliasName : Label
  classes : List Label
  types : Option (List Label)
  depth : UInt64
deriving DecidableEq

instance : Shape Scope :=
  .ofLayout
    ⟨"FxScope",
      [.of "param" Scope.param [.bind .catchClause, .visit],
       .of "alias" Scope.aliasName [.bind .constant],
       .of "classes" Scope.classes [.visit, .bind .classDecl],
       .of "types" Scope.types [.visit, .bind .typeAlias],
       .of "depth" Scope.depth []]⟩
    (fun n => do
      return ⟨← n.read? "param", ← n.read? "alias", ← n.read? "classes", ← n.read? "types",
        ← n.read? "depth"⟩)
    (fun a => by simp [Layout.toNode, FieldOf.of, Node.read?, Node.field?, List.lookup_cons])

structure Rebound where
  id : Label
deriving DecidableEq

instance : Shape Rebound :=
  .ofLayout ⟨"FxRebound", [.of "id" Rebound.id [.visit, .bind .lexical, .bind .constant]]⟩
    (fun n => do return ⟨← n.read? "id"⟩)
    (fun a => by simp [Layout.toNode, FieldOf.of, Node.read?, Node.field?])

structure Revisit where
  id : Label
deriving DecidableEq

instance : Shape Revisit :=
  .ofLayout ⟨"FxRevisit", [.of "id" Revisit.id [.visit, .visit]]⟩
    (fun n => do return ⟨← n.read? "id"⟩)
    (fun a => by simp [Layout.toNode, FieldOf.of, Node.read?, Node.field?])

structure VisitScalar where
  flag : Bool
deriving DecidableEq

instance : Shape VisitScalar :=
  .ofLayout ⟨"FxVisitScalar", [.of "flag" VisitScalar.flag [.visit]]⟩
    (fun n => do return ⟨← n.read? "flag"⟩)
    (fun a => by simp [Layout.toNode, FieldOf.of, Node.read?, Node.field?])

structure BindScalar where
  flag : Bool
deriving DecidableEq

instance : Shape BindScalar :=
  .ofLayout ⟨"FxBindScalar", [.of "flag" BindScalar.flag [.bind .var]]⟩
    (fun n => do return ⟨← n.read? "flag"⟩)
    (fun a => by simp [Layout.toNode, FieldOf.of, Node.read?, Node.field?])

end TreeSchema.Specimen
