import TreeSchema.Walk.Basic

/-!
# Binding sites

The children of a node that declare names are the nodes in its binding-key fields. For a whole tree
they are gathered while walking it, at each node before its subtrees.
-/

namespace TreeSchema

set_option autoImplicit false

/-- A child node that binds a name. -/
structure BindingSite where
  owner : Node
  place : Place
  field : String
  kind : BindingKind
  index : Nat
  node : Node

namespace BindingSite

/-- The sites in one binding-key field. A field that the node does not have gives none. -/
def ofField (place : Place) (owner : Node) (key : String × BindingKind) : List BindingSite :=
  (owner.childrenAt key.1).zipIdx.map fun c =>
    { owner, place, field := key.1, kind := key.2, index := c.2, node := c.1 }

def ofNode (r : Registry) (place : Place) (owner : Node) : Except SchemaError (List BindingSite) :=
  match r.lookup owner.tag with
  | .error e => .error e
  | .ok schema => .ok (schema.bindingKeys.flatMap (ofField place owner))

def collector (r : Registry) : Visitor (Array BindingSite) where
  onNode place n sites :=
    match ofNode r place n with
    | .error e => (.fail e, sites)
    | .ok new => (.descend, sites ++ new.toArray)

def collectInto (r : Registry) (sites : Array BindingSite) (root : Node) :
    Outcome (Array BindingSite) :=
  Walk.tree (collector r) r root sites

def collect (r : Registry) (root : Node) : Except SchemaError (List BindingSite) :=
  let outcome := collectInto r #[] root
  match outcome.result with
  | .error e => .error e
  | .ok () => .ok outcome.state.toList

end BindingSite

end TreeSchema
