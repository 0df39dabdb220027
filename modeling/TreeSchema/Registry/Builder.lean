import TreeSchema.Registry.Tables

/-!
# Building a registry

A builder takes declarations one at a time. The first valid declaration of a name is accepted and
stays; finishing checks that every reference between declarations is met.
-/

namespace TreeSchema

set_option autoImplicit false

structure Registry where
  tables : Tables
deriving DecidableEq

namespace Registry

def lookup (r : Registry) (tag : String) : Except SchemaError NodeSchema :=
  r.tables.lookup tag

def lookupGroup (r : Registry) (name : String) : Except SchemaError GroupSchema :=
  r.tables.lookupGroup name

def contains (r : Registry) (tag : String) : Bool :=
  r.tables.contains tag

def size (r : Registry) : Nat :=
  r.tables.size

def tags (r : Registry) : List String :=
  r.tables.sortedShapes.map (·.tag)

def groups (r : Registry) : List GroupSchema :=
  r.tables.sortedGroups

def warnings (r : Registry) : List SchemaWarning :=
  r.tables.warnings

end Registry

structure Builder where
  options : ValidationOptions := {}
  tables : Tables := {}
deriving DecidableEq

structure Reply where
  result : Except SchemaError Unit
  builder : Builder
  log : List Event

namespace Builder

def empty (options : ValidationOptions) : Builder where
  options := options

/-- Validates a declaration and enters it. A refused one leaves the builder as it was and reports
nothing. -/
def submit (b : Builder) (c : Call) : Reply :=
  match c.validate b.options with
  | .error e => ⟨.error e, b, []⟩
  | .ok entry =>
    match b.tables.insert entry with
    | .error e => ⟨.error e, b, []⟩
    | .ok tables => ⟨.ok (), { b with tables }, entry.events⟩

def register (b : Builder) (d : ShapeDecl) : Reply :=
  b.submit (.shape d)

def registerGroup (b : Builder) (g : GroupDecl) : Reply :=
  b.submit (.group g)

/-- Submits calls in turn up to the first refusal, and keeps what was accepted before it. -/
def submitAll (b : Builder) : List Call → Reply
  | [] => ⟨.ok (), b, []⟩
  | c :: cs =>
    let first := b.submit c
    match first.result with
    | .error _ => first
    | .ok () =>
      let rest := first.builder.submitAll cs
      { rest with log := first.log ++ rest.log }

/-- Submits every call in turn, past refusals. The answer holds one result per call. -/
def submitEach (b : Builder) : List Call → List (Except SchemaError Unit) × Builder × List Event
  | [] => ([], b, [])
  | c :: cs =>
    let first := b.submit c
    let (results, last, log) := first.builder.submitEach cs
    (first.result :: results, last, first.log ++ log)

def finish (b : Builder) : Except SchemaError Registry :=
  match b.tables.firstDangling? with
  | some fault => .error fault
  | none => .ok ⟨b.tables⟩

/-- What finishing reports; a failed attempt reports nothing. -/
def finishLog (b : Builder) : List Event :=
  match b.finish with
  | .error _ => []
  | .ok r =>
    [.registryFinished r.size r.tables.groups.length r.warnings.length]

end Builder

end TreeSchema
