import TreeSchema.Field

/-!
# Declarations

A shape declaration names a node shape's fields and lists two tables of keys: the fields that a walk
enters and the fields that bind names. Nothing is checked here. A declaration can be written table
by table, or as a layout in which each field carries its own marks.
-/

namespace TreeSchema

set_option autoImplicit false

/-- A node shape as declared, not yet validated. -/
structure ShapeDecl where
  tag : String
  fields : List FieldDecl := []
  visitorKeys : List String := []
  bindingKeys : List (String × BindingKind) := []
deriving DecidableEq

instance : Inspect ShapeDecl where
  inspect d := Text.record "ShapeDecl"
    [("tag", inspect d.tag), ("fields", inspect d.fields),
     ("visitor_keys", inspect d.visitorKeys), ("binding_keys", inspect d.bindingKeys)]

inductive Mark where
  | visit
  | bind (kind : BindingKind)
deriving DecidableEq

structure FieldLayout extends FieldDecl where
  marks : List Mark

namespace FieldLayout

def visitorKeys (f : FieldLayout) : List String :=
  f.marks.filterMap fun
    | .visit => some f.name
    | .bind _ => none

def bindingKeys (f : FieldLayout) : List (String × BindingKind) :=
  f.marks.filterMap fun
    | .visit => none
    | .bind kind => some (f.name, kind)

end FieldLayout

namespace ShapeDecl

/-- The declaration of a shape laid out field by field: the key tables follow the order of the
fields, and within a field the order of its marks. -/
def ofLayout (tag : String) (layout : List FieldLayout) : ShapeDecl where
  tag := tag
  fields := layout.map (·.toFieldDecl)
  visitorKeys := layout.flatMap (·.visitorKeys)
  bindingKeys := layout.flatMap (·.bindingKeys)

def kind? (d : ShapeDecl) (name : String) : Option FieldKind :=
  (d.fields.find? fun f => f.name == name).map (·.kind)

end ShapeDecl

structure GroupDecl where
  name : String
  members : List String
deriving DecidableEq

end TreeSchema
