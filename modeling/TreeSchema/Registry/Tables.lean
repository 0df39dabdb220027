import TreeSchema.Group
import TreeSchema.Log
import TreeSchema.Schema

/-!
# Registration tables

The accepted shapes and groups, each in the order of acceptance, with the warnings that the shapes
drew. Shapes are found by tag and groups by name; the two kinds of names never meet.
-/

namespace TreeSchema

set_option autoImplicit false

inductive Call where
  | shape (decl : ShapeDecl)
  | group (decl : GroupDecl)
deriving DecidableEq

inductive Entry where
  | shape (schema : NodeSchema) (warnings : List SchemaWarning)
  | group (schema : GroupSchema)
deriving DecidableEq

/-- Validates the declaration of a call. This reads no table. -/
def Call.validate (options : ValidationOptions) : Call → Except SchemaError Entry
  | .shape decl => (decl.validate options).map fun (schema, warnings) => .shape schema warnings
  | .group decl => decl.validate.map .group

def Entry.events : Entry → List Event
  | .shape schema warnings =>
    warnings.map (.shapeLint schema.tag) ++ [.shapeRegistered schema.tag]
  | .group schema => [.groupRegistered schema.name schema.members.length]

structure Tables where
  shapes : List NodeSchema := []
  groups : List GroupSchema := []
  warnings : List SchemaWarning := []
deriving DecidableEq

namespace Tables

def shape? (t : Tables) (tag : String) : Option NodeSchema :=
  t.shapes.find? fun s => s.tag == tag

def group? (t : Tables) (name : String) : Option GroupSchema :=
  t.groups.find? fun g => g.name == name

def contains (t : Tables) (tag : String) : Bool :=
  (t.shape? tag).isSome

/-- The schema of a tag, or the complaint that it is not registered. -/
def lookup (t : Tables) (tag : String) : Except SchemaError NodeSchema :=
  match t.shape? tag with
  | some schema => .ok schema
  | none => .error (.unknownNodeTag tag)

def lookupGroup (t : Tables) (name : String) : Except SchemaError GroupSchema :=
  match t.group? name with
  | some group => .ok group
  | none => .error (.unknownVariantGroup name)

theorem tag_of_shape? {t : Tables} {tag : String} {s : NodeSchema} (h : t.shape? tag = some s) :
    s.tag = tag := by
  have := List.find?_some h
  simpa using this

theorem name_of_group? {t : Tables} {name : String} {g : GroupSchema}
    (h : t.group? name = some g) : g.name = name := by
  have := List.find?_some h
  simpa using this

def size (t : Tables) : Nat :=
  t.shapes.length

/-- Enters a validated declaration, unless its name is taken. -/
def insert (t : Tables) : Entry → Except SchemaError Tables
  | .shape schema warnings =>
    if t.contains schema.tag then .error (.duplicateNodeTag schema.tag)
    else .ok { t with shapes := t.shapes ++ [schema], warnings := t.warnings ++ warnings }
  | .group schema =>
    if (t.group? schema.name).isSome then .error (.duplicateGroupName schema.name)
    else .ok { t with groups := t.groups ++ [schema] }

def sortedShapes (t : Tables) : List NodeSchema :=
  t.shapes.mergeSort fun a b => decide (a.tag ≤ b.tag)

def sortedGroups (t : Tables) : List GroupSchema :=
  t.groups.mergeSort fun a b => decide (a.name ≤ b.name)

def resolves (t : Tables) : ChildType → Bool
  | .shape tag => t.contains tag
  | .group name => (t.group? name).isSome

def groupFault? (t : Tables) (g : GroupSchema) : Option SchemaError :=
  (g.members.find? fun tag => !t.contains tag).map (.unknownGroupMember g.name)

def shapeFault? (t : Tables) (s : NodeSchema) : Option SchemaError :=
  (s.childTypes.find? fun c => !t.resolves c.2).map fun c => .unresolvedChildType s.tag c.1 c.2

/-- The first dangling reference: groups come before shapes, each in the order of their names. -/
def firstDangling? (t : Tables) : Option SchemaError :=
  match t.sortedGroups.findSome? t.groupFault? with
  | some fault => some fault
  | none => t.sortedShapes.findSome? t.shapeFault?

end Tables

end TreeSchema
