import TreeSchema.Declaration
import TreeSchema.Error
import TreeSchema.Repeat

/-!
# Variant groups

A validated variant group has at least one member and lists none twice.
-/

namespace TreeSchema

set_option autoImplicit false

@[ext] structure GroupSchema where
  name : String
  members : List String
deriving DecidableEq

namespace GroupSchema

def contains (g : GroupSchema) (tag : String) : Bool :=
  g.members.contains tag

def dump (g : GroupSchema) : Dump :=
  .record [("name", .text g.name), ("members", .texts g.members)]

end GroupSchema

/-- Validates a group: an empty one is refused, and so is one that repeats a member. -/
def GroupDecl.validate (g : GroupDecl) : Except SchemaError GroupSchema :=
  if g.members = [] then .error (.emptyVariantGroup g.name)
  else
    match firstRepeat? g.members with
    | some member => .error (.duplicateGroupMember g.name member)
    | none => .ok { name := g.name, members := g.members }

end TreeSchema
