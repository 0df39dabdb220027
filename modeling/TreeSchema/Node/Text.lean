import TreeSchema.Node.Basic

/-!
# Text forms of nodes

A node is shown as a record of its fields. How a field is shown follows from its declared kind:
optional contents say whether they are set, and a member of a group is named before it is shown.
-/

namespace TreeSchema

set_option autoImplicit false

/-- The kind that a node's declaration gives to a field; loose nodes have no declaration. -/
def Origin.kind? (name : String) : Origin → Option FieldKind
  | .declared decl => decl.kind? name
  | .loose _ => none

def memberText (tag text : String) : String :=
  Text.applied tag text

/-- The text of field contents of a given kind whose nodes have the tags and texts `children`. -/
def FieldValue.text {α : Type} (kind : Option FieldKind) (children : List (String × String))
    (value : FieldValue α) : String :=
  let shown := children.map fun c =>
    match kind.bind (·.target?) with
    | some (.group _) => memberText c.1 c.2
    | _ => c.2
  let set (text : String) : String :=
    if kind.any (·.isOptional) then Text.optional (some text) else text
  match value with
  | .scalar s => inspect s
  | .absent => Text.optional none
  | .node _ => set (String.join shown)
  | .nodes _ => set (Text.listed shown)

def Node.text (n : Node) : String :=
  Text.record n.tag <| n.fields.attach.map fun f =>
    (f.1.1, f.1.2.text (n.origin.kind? f.1.1) <|
      f.1.2.children.attach.map fun c => (c.1.tag, Node.text c.1))
termination_by n
decreasing_by
  have hChild := Node.sizeOf_lt_of_mem_children c.2
  have hField := List.sizeOf_lt_of_mem f.2
  obtain ⟨⟨name, value⟩, hf⟩ := f
  cases n
  simp only [Node.mk.sizeOf_spec, Prod.mk.sizeOf_spec] at *
  omega

instance : Inspect Node := ⟨Node.text⟩

end TreeSchema
