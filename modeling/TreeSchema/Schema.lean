import TreeSchema.Declaration
import TreeSchema.Error
import TreeSchema.Lint
import TreeSchema.Repeat

/-!
# Node schemas

A schema is the metadata table of a validated shape declaration. Validation refuses a repeated
field, then attaches the visitor keys and the binding keys to the fields one by one, up to the first
key that is bad, and last looks for a child field that no walk enters; the lint level decides about
that.
-/

namespace TreeSchema

set_option autoImplicit false

@[ext] structure FieldSchema where
  name : String
  kind : FieldKind
  visit : Bool
  binding : Option BindingKind
deriving DecidableEq

structure NodeSchema where
  tag : String
  fields : List FieldSchema
  /-- Positions of the visited fields, in declaration order. -/
  traversable : List Nat
deriving DecidableEq

namespace FieldSchema

def dump (f : FieldSchema) : Dump :=
  .record
    [("name", .text f.name), ("kind", f.kind.dump), ("visit", .flag f.visit),
     ("binding", (f.binding.map fun k => Dump.text k.name).getD .null)]

end FieldSchema

namespace NodeSchema

def ofFields (tag : String) (fields : List FieldSchema) : NodeSchema where
  tag := tag
  fields := fields
  traversable := (fields.zipIdx.filter fun f => f.1.visit).map (·.2)

def field? (s : NodeSchema) (name : String) : Option FieldSchema :=
  s.fields.find? fun f => f.name == name

def visitorKeys (s : NodeSchema) : List String :=
  s.traversable.filterMap fun i => s.fields[i]?.map (·.name)

def bindingKeys (s : NodeSchema) : List (String × BindingKind) :=
  s.fields.filterMap fun f => f.binding.map fun kind => (f.name, kind)

def childTypes (s : NodeSchema) : List (String × ChildType) :=
  s.fields.filterMap fun f => f.kind.target?.map fun target => (f.name, target)

/-- Whether a walk enters a field. Names that are not fields are opaque. -/
def isTraversable (s : NodeSchema) (name : String) : Bool :=
  (s.field? name).any (·.visit)

def bindingKind? (s : NodeSchema) (name : String) : Option BindingKind :=
  (s.field? name).bind (·.binding)

def isLeaf (s : NodeSchema) : Bool :=
  s.traversable.isEmpty

def introducesBindings (s : NodeSchema) : Bool :=
  s.fields.any (·.binding.isSome)

/-- The table as written out for tooling. Which fields are visited is told field by field. -/
def dump (s : NodeSchema) : Dump :=
  .record [("tag", .text s.tag), ("fields", .list (s.fields.map (·.dump)))]

end NodeSchema

namespace KeyTable

def scalarFault (tag field : String) : KeyTable → SchemaError
  | .visitor => .nonNodeVisit tag field
  | .binding => .nonNodeBinding tag field

end KeyTable

def Mark.table : Mark → KeyTable
  | .visit => .visitor
  | .bind _ => .binding

namespace FieldSchema

def unmarked (f : FieldDecl) : FieldSchema where
  name := f.name
  kind := f.kind
  visit := false
  binding := none

/-- Whether a key of the same table has marked the field before. -/
def isMarked (f : FieldSchema) : Mark → Bool
  | .visit => f.visit
  | .bind _ => f.binding.isSome

def mark (f : FieldSchema) : Mark → FieldSchema
  | .visit => { f with visit := true }
  | .bind kind => { f with binding := some kind }

/-- Marks the first field of a given name, unless there is none, it is a scalar one, or it has been
marked before. -/
def attach (tag name : String) (m : Mark) :
    List FieldSchema → Except SchemaError (List FieldSchema)
  | [] => .error (.unknownFieldKey tag name m.table)
  | f :: rest =>
    if f.name = name then
      if f.kind.isChild = false then .error (m.table.scalarFault tag name)
      else if f.isMarked m then .error (.duplicateKey tag name m.table)
      else .ok (f.mark m :: rest)
    else (attach tag name m rest).map (f :: ·)

def attachAll (tag : String) :
    List (String × Mark) → List FieldSchema → Except SchemaError (List FieldSchema)
  | [], fields => .ok fields
  | (name, m) :: keys, fields =>
    match attach tag name m fields with
    | .error e => .error e
    | .ok fields => attachAll tag keys fields

def untraversed (fields : List FieldSchema) : List String :=
  (fields.filter fun f => f.kind.isChild && !f.visit).map (·.name)

end FieldSchema

def LintLevel.judge (level : LintLevel) (tag : String) (untraversed : List String) :
    Except SchemaError (List SchemaWarning) :=
  match level, untraversed with
  | .allow, _ => .ok []
  | .warn, fields => .ok (fields.map (.untraversedChild tag))
  | .deny, [] => .ok []
  | .deny, field :: _ => .error (.untraversedChild tag field)

namespace ShapeDecl

def visitorMarks (d : ShapeDecl) : List (String × Mark) :=
  d.visitorKeys.map fun key => (key, .visit)

def bindingMarks (d : ShapeDecl) : List (String × Mark) :=
  d.bindingKeys.map fun key => (key.1, .bind key.2)

/-- The keys with the marks that they set, in the order in which they are attached. -/
def marks (d : ShapeDecl) : List (String × Mark) :=
  d.visitorMarks ++ d.bindingMarks

/-- Validates a declaration: its first fault, or its schema with the lint's warnings. -/
def validate (d : ShapeDecl) (options : ValidationOptions) :
    Except SchemaError (NodeSchema × List SchemaWarning) :=
  match firstRepeat? (d.fields.map (·.name)) with
  | some name => .error (.duplicateField d.tag name)
  | none =>
    match FieldSchema.attachAll d.tag d.marks (d.fields.map .unmarked) with
    | .error e => .error e
    | .ok fields =>
      (options.untraversedChild.judge d.tag (FieldSchema.untraversed fields)).map fun warnings =>
        (.ofFields d.tag fields, warnings)

end ShapeDecl

end TreeSchema
