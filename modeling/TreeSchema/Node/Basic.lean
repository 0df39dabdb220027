import TreeSchema.Declaration
import TreeSchema.Error

/-!
# Nodes

A generic consumer sees of a node its tag and its fields by name. A node that came from a value of a
declared shape remembers the declaration; any other node is loose and only has a tag.
-/

namespace TreeSchema

set_option autoImplicit false

inductive Scalar where
  | text (value : String)
  | flag (value : Bool)
  | number (value : Int)
  /-- One of a closed set of named values, or none of them. -/
  | choice (name : Option String)
deriving DecidableEq

instance : Inspect Scalar where
  inspect
    | .text value => inspect value
    | .flag value => inspect value
    | .number value => toString value
    | .choice name => Text.optional name

/-- The contents of one field that may hold children of type `α`. -/
inductive FieldValue (α : Type) where
  | scalar (value : Scalar)
  | absent
  | node (child : α)
  | nodes (children : List α)

namespace FieldValue

variable {α : Type}

def children : FieldValue α → List α
  | .node child => [child]
  | .nodes children => children
  | .scalar _ | .absent => []

def isAbsent : FieldValue α → Bool
  | .absent => true
  | _ => false

def variant : FieldValue α → String
  | .scalar _ => "Scalar"
  | .absent => "Absent"
  | .node _ => "Node"
  | .nodes _ => "Nodes"

end FieldValue

inductive Origin where
  | declared (decl : ShapeDecl)
  /-- No declared shape; the node just carries a tag. -/
  | loose (tag : String)
deriving DecidableEq

def Origin.tag : Origin → String
  | .declared decl => decl.tag
  | .loose tag => tag

structure Node where
  origin : Origin
  /-- The fields by name; of two fields of one name the first counts. -/
  fields : List (String × FieldValue Node)

namespace Node

def tag (n : Node) : String :=
  n.origin.tag

def field? (n : Node) (name : String) : Option (FieldValue Node) :=
  n.fields.lookup name

/-- The children held by a field; none if there is no such field. -/
def childrenAt (n : Node) (name : String) : List Node :=
  match n.field? name with
  | some value => value.children
  | none => []

theorem mem_fields_of_lookup {β : Type} {name : String} {value : β} :
    {fields : List (String × β)} → fields.lookup name = some value → (name, value) ∈ fields
  | [], h => by simp at h
  | (key, v) :: rest, h => by
    by_cases hk : name = key
    · subst hk
      simp at h
      simp [h]
    · have hb : (name == key) = false := by simp [hk]
      simp only [List.lookup_cons, hb] at h
      exact List.mem_cons_of_mem _ (mem_fields_of_lookup h)

theorem sizeOf_lt_of_mem_children {c : Node} {value : FieldValue Node}
    (hc : c ∈ value.children) : sizeOf c < sizeOf value := by
  cases value with
  | scalar _ => simp [FieldValue.children] at hc
  | absent => simp [FieldValue.children] at hc
  | node child =>
    simp only [FieldValue.children, List.mem_singleton] at hc
    subst hc
    simp
  | nodes children =>
    have := List.sizeOf_lt_of_mem hc
    simp only [FieldValue.nodes.sizeOf_spec]
    simp only [FieldValue.children] at this
    omega

theorem sizeOf_lt_of_field? {n c : Node} {name : String} {value : FieldValue Node}
    (hv : n.field? name = some value) (hc : c ∈ value.children) : sizeOf c < sizeOf n := by
  have hChild := sizeOf_lt_of_mem_children hc
  have hField := List.sizeOf_lt_of_mem (mem_fields_of_lookup hv)
  cases n
  simp only [field?, Node.mk.sizeOf_spec, Prod.mk.sizeOf_spec] at *
  omega

theorem sizeOf_lt_of_mem_childrenAt {n c : Node} {name : String} (hc : c ∈ n.childrenAt name) :
    sizeOf c < sizeOf n := by
  unfold childrenAt at hc
  split at hc
  · rename_i value hv
    exact sizeOf_lt_of_field? hv hc
  · simp at hc

/-- Whether the node carries a shape's tag, whatever its origin. -/
def hasTag (n : Node) (tag : String) : Bool :=
  n.tag == tag

end Node

end TreeSchema
