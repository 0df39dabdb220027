import TreeSchema.Registry.Tables
import TreeSchema.Shape.Content

/-!
# Typed shapes and groups

A typed shape is a structure with a layout: for each of its fields the name, the kind, the marks and
the way to read it. The layout alone gives both the shape's declaration and the node of a value, so
that the two cannot disagree. A typed group is a sum of shapes.
-/

namespace TreeSchema

set_option autoImplicit false

structure FieldOf (α : Type) extends FieldLayout where
  value : α → FieldValue Node

/-- The field read by `get`; its kind follows from the type of what it holds. -/
def FieldOf.of {α β : Type} [Content β] (name : String) (get : α → β) (marks : List Mark) :
    FieldOf α where
  name := name
  kind := Content.kind β
  marks := marks
  value a := Content.toValue (get a)

structure Layout (α : Type) where
  tag : String
  fields : List (FieldOf α)

namespace Layout

variable {α : Type}

def decl (l : Layout α) : ShapeDecl :=
  .ofLayout l.tag (l.fields.map (·.toFieldLayout))

def toNode (l : Layout α) (a : α) : Node where
  origin := .declared l.decl
  fields := l.fields.map fun f => (f.name, f.value a)

@[simp] theorem toNode_origin (l : Layout α) (a : α) : (l.toNode a).origin = .declared l.decl := rfl

@[simp] theorem toNode_tag (l : Layout α) (a : α) : (l.toNode a).tag = l.tag := rfl

end Layout

/-- Types whose values are the nodes of one declared shape. -/
class Shape (α : Type) extends Element α where
  layout : Layout α
  target_eq : Element.target α = .shape layout.tag
  toNode_eq : ∀ a, Element.toNode a = layout.toNode a
  origin_of_ofNode? : ∀ {n : Node} {a : α},
    Element.ofNode? n = some a → n.origin = .declared layout.decl

namespace Shape

/-- A shape from its layout and a reader. The reader sees only nodes made from such values. -/
@[reducible] def ofLayout {α : Type} (layout : Layout α) (read : Node → Option α)
    (law : ∀ a, read (layout.toNode a) = some a) : Shape α where
  target := .shape layout.tag
  toNode := layout.toNode
  ofNode? n := if n.origin = .declared layout.decl then read n else none
  ofNode?_toNode a := by simp [law]
  layout := layout
  target_eq := rfl
  toNode_eq _ := rfl
  origin_of_ofNode? h := by
    split at h
    · assumption
    · cases h

def decl (α : Type) [Shape α] : ShapeDecl :=
  (Shape.layout : Layout α).decl

def tag (α : Type) [Shape α] : String :=
  (Shape.layout : Layout α).tag

@[simp] theorem tag_toNode {α : Type} [Shape α] (a : α) : (toNode a).tag = tag α := by
  rw [toNode_eq]
  rfl

def call (α : Type) [Shape α] : Call :=
  .shape (decl α)

def is (α : Type) [Shape α] (n : Node) : Bool :=
  n.hasTag (tag α)

/-- Reads a value back from its node. A node of another shape, or one that only carries the tag, is
reported as unexpected. -/
def cast {α : Type} [Shape α] (n : Node) : Except SchemaError α :=
  match ofNode? n with
  | some a => .ok a
  | none => .error (.unexpectedNodeTag (tag α) n.tag)

end Shape

/-- Types whose values are the nodes of any member of a variant group. -/
class Group (α : Type) extends Element α where
  decl : GroupDecl
  target_eq : Element.target α = .group decl.name
  tag_mem : ∀ a : α, (Element.toNode a).tag ∈ decl.members

def Group.call (α : Type) [Group α] : Call :=
  .group (Group.decl α)

end TreeSchema
