import TreeSchema.Node.Basic
import TreeSchema.Registry.Builder
import TreeSchema.Walk.Place

/-!
# Walking a tree

A walk knows nothing about concrete shapes. At each node it looks up the schema by tag and enters
the visitor keys in declaration order, and the nodes of each in their order. A visitor watches nodes
and fields; after each look it lets the walk go on below, steps over what is below, or stops the walk.

What is still to be done is kept as an agenda, so that the depth of a tree costs no stack. The walk
ends because every step replaces the head of the agenda by tasks of smaller total weight.
-/

namespace TreeSchema

set_option autoImplicit false

inductive Action where
  | descend
  | skip
  | fail (error : SchemaError)
deriving DecidableEq

structure Visitor (σ : Type) where
  onNode : Place → Node → σ → Action × σ := fun _ _ state => (.descend, state)
  onField : Place → Node → String → FieldValue Node → σ → Action × σ :=
    fun _ _ _ _ state => (.descend, state)

/-- How a walk ended: its result, the visitor's last state, and the tags of the nodes that were
opened, in order. A node is opened when its schema has been found. -/
structure Outcome (σ : Type) where
  result : Except SchemaError Unit
  state : σ
  opened : Array String

def Outcome.log {σ : Type} (o : Outcome σ) : List Event :=
  o.opened.toList.map .nodeOpened

namespace Registry

/-- The visitor keys of a tag; an unregistered tag has none. -/
def visitorKeys (r : Registry) (tag : String) : List String :=
  match r.tables.shape? tag with
  | some schema => schema.visitorKeys
  | none => []

theorem visitorKeys_of_lookup {r : Registry} {tag : String} {s : NodeSchema}
    (h : r.lookup tag = .ok s) : r.visitorKeys tag = s.visitorKeys := by
  simp only [lookup, Tables.lookup] at h
  split at h
  · rename_i hs
    cases h
    simp [visitorKeys, hs]
  · cases h

end Registry

namespace Walk

inductive Task where
  | node (place : Place) (node : Node)
  /-- Enter the remaining visitor keys of an opened node. -/
  | fields (place : Place) (owner : Node) (schema : NodeSchema) (keys : List String)

def childTasks (place : Place) (field : String) (value : FieldValue Node) : List Task :=
  value.children.zipIdx.map fun c => .node (place.child field c.2) c.1

def total (weights : List Nat) : Nat :=
  weights.foldr (· + ·) 0

@[simp] theorem total_nil : total [] = 0 := rfl

@[simp] theorem total_cons (w : Nat) (ws : List Nat) : total (w :: ws) = w + total ws := rfl

@[simp] theorem total_append (ws ws' : List Nat) : total (ws ++ ws') = total ws + total ws' := by
  induction ws with
  | nil => simp
  | cons w ws ih => simp [ih, Nat.add_assoc]

/-- A bound on the number of steps that visiting a node takes. -/
def nodeWeight (r : Registry) (n : Node) : Nat :=
  2 + total ((r.visitorKeys n.tag).map fun key =>
    1 + total ((n.childrenAt key).attach.map fun c => nodeWeight r c.1))
termination_by n
decreasing_by exact Node.sizeOf_lt_of_mem_childrenAt c.2

def fieldsWeight (r : Registry) (n : Node) (keys : List String) : Nat :=
  total (keys.map fun key => 1 + total ((n.childrenAt key).map (nodeWeight r)))

theorem nodeWeight_eq (r : Registry) (n : Node) :
    nodeWeight r n = 2 + fieldsWeight r n (r.visitorKeys n.tag) := by
  rw [nodeWeight]
  simp [fieldsWeight]

def Task.weight (r : Registry) : Task → Nat
  | .node _ n => nodeWeight r n
  | .fields _ n _ keys => 1 + fieldsWeight r n keys

def agendaWeight (r : Registry) (agenda : List Task) : Nat :=
  total (agenda.map (Task.weight r))

@[simp] theorem agendaWeight_cons (r : Registry) (task : Task) (rest : List Task) :
    agendaWeight r (task :: rest) = task.weight r + agendaWeight r rest := by
  simp [agendaWeight]

@[simp] theorem agendaWeight_append (r : Registry) (first rest : List Task) :
    agendaWeight r (first ++ rest) = agendaWeight r first + agendaWeight r rest := by
  simp [agendaWeight]

theorem agendaWeight_childTasks (r : Registry) (place : Place) (field : String)
    (value : FieldValue Node) :
    agendaWeight r (childTasks place field value) = total (value.children.map (nodeWeight r)) := by
  suffices h : ∀ (cs : List Node) (k : Nat),
      agendaWeight r ((cs.zipIdx k).map fun c => Task.node (place.child field c.2) c.1) =
        total (cs.map (nodeWeight r)) from h value.children 0
  intro cs
  induction cs with
  | nil => intro k; rfl
  | cons c cs ih =>
    intro k
    simp [List.zipIdx_cons, ih, Task.weight]

theorem fieldsWeight_cons (r : Registry) (n : Node) (key : String) (keys : List String) :
    fieldsWeight r n (key :: keys) =
      1 + total ((n.childrenAt key).map (nodeWeight r)) + fieldsWeight r n keys := by
  simp [fieldsWeight]

def run {σ : Type} (v : Visitor σ) (r : Registry) (agenda : List Task) (state : σ)
    (opened : Array String) : Outcome σ :=
  match agenda with
  | [] => ⟨.ok (), state, opened⟩
  | .node place n :: rest =>
    match v.onNode place n state with
    | (.fail e, state) => ⟨.error e, state, opened⟩
    | (.skip, state) => run v r rest state opened
    | (.descend, state) =>
      match _found : r.lookup n.tag with
      | .error e => ⟨.error e, state, opened⟩
      | .ok schema =>
        run v r (.fields place n schema schema.visitorKeys :: rest) state (opened.push schema.tag)
  | .fields _ _ _ [] :: rest => run v r rest state opened
  | .fields place n schema (key :: keys) :: rest =>
    match _held : n.field? key with
    | none => ⟨.error (.unknownFieldKey schema.tag key .visitor), state, opened⟩
    | some value =>
      match v.onField place n key value state with
      | (.fail e, state) => ⟨.error e, state, opened⟩
      | (.skip, state) => run v r (.fields place n schema keys :: rest) state opened
      | (.descend, state) =>
        run v r (childTasks place key value ++ .fields place n schema keys :: rest) state opened
termination_by agendaWeight r agenda
decreasing_by
  · simp only [agendaWeight_cons, Task.weight, nodeWeight_eq]
    omega
  · simp only [agendaWeight_cons, Task.weight, nodeWeight_eq, Registry.visitorKeys_of_lookup _found]
    omega
  · simp only [agendaWeight_cons, Task.weight]
    omega
  · simp only [agendaWeight_cons, Task.weight, fieldsWeight_cons]
    omega
  · simp only [agendaWeight_append, agendaWeight_cons, agendaWeight_childTasks, Task.weight,
      fieldsWeight_cons, Node.childrenAt, _held]
    omega

def tree {σ : Type} (v : Visitor σ) (r : Registry) (root : Node) (state : σ) : Outcome σ :=
  run v r [.node .root root] state #[]

def field {σ : Type} (v : Visitor σ) (r : Registry) (name : String) (value : FieldValue Node)
    (state : σ) : Outcome σ :=
  run v r (childTasks .root name value) state #[]

end Walk

end TreeSchema
