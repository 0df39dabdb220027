import TreeSchema.Field

/-!
# Refusals and warnings

Every refusal is a cause with the names involved. Its stable code, its message and its text form are
functions of the cause.
-/

namespace TreeSchema

set_option autoImplicit false

inductive KeyTable where
  | visitor
  | binding
deriving DecidableEq

namespace KeyTable

def describe : KeyTable → String
  | .visitor => "visitor"
  | .binding => "binding"

instance : Inspect KeyTable where
  inspect
    | .visitor => "Visitor"
    | .binding => "Binding"

end KeyTable

inductive SchemaError where
  | duplicateNodeTag (tag : String)
  | unknownFieldKey (tag field : String) (table : KeyTable)
  | duplicateField (tag field : String)
  | nonNodeBinding (tag field : String)
  | nonNodeVisit (tag field : String)
  | duplicateKey (tag field : String) (table : KeyTable)
  | untraversedChild (tag field : String)
  | duplicateGroupName (name : String)
  | emptyVariantGroup (name : String)
  | duplicateGroupMember (group member : String)
  | unknownGroupMember (group member : String)
  | unresolvedChildType (tag field : String) (target : ChildType)
  | alreadyInstalled
  | unknownNodeTag (tag : String)
  | unknownVariantGroup (name : String)
  | unexpectedNodeTag (expected found : String)
deriving DecidableEq

def untraversedMessage (tag field : String) : String :=
  "`" ++ tag ++ "` field `" ++ field ++ "` holds child nodes but is not a visitor key"

namespace SchemaError

def name : SchemaError → String
  | .duplicateNodeTag .. => "DuplicateNodeTag"
  | .unknownFieldKey .. => "UnknownFieldKey"
  | .duplicateField .. => "DuplicateField"
  | .nonNodeBinding .. => "NonNodeBinding"
  | .nonNodeVisit .. => "NonNodeVisit"
  | .duplicateKey .. => "DuplicateKey"
  | .untraversedChild .. => "UntraversedChild"
  | .duplicateGroupName .. => "DuplicateGroupName"
  | .emptyVariantGroup .. => "EmptyVariantGroup"
  | .duplicateGroupMember .. => "DuplicateGroupMember"
  | .unknownGroupMember .. => "UnknownGroupMember"
  | .unresolvedChildType .. => "UnresolvedChildType"
  | .alreadyInstalled => "AlreadyInstalled"
  | .unknownNodeTag .. => "UnknownNodeTag"
  | .unknownVariantGroup .. => "UnknownVariantGroup"
  | .unexpectedNodeTag .. => "UnexpectedNodeTag"

/-- The stable code of the cause: `S0` for a single declaration, `S1` for a whole registry, `S2` for
a query. -/
def code : SchemaError → String
  | .duplicateNodeTag .. => "S0001"
  | .unknownFieldKey .. => "S0002"
  | .duplicateField .. => "S0003"
  | .nonNodeBinding .. => "S0004"
  | .untraversedChild .. => "S0005"
  | .duplicateGroupName .. => "S0006"
  | .emptyVariantGroup .. => "S0007"
  | .duplicateGroupMember .. => "S0008"
  | .nonNodeVisit .. => "S0009"
  | .duplicateKey .. => "S0010"
  | .unknownGroupMember .. => "S1001"
  | .unresolvedChildType .. => "S1002"
  | .alreadyInstalled => "S1003"
  | .unknownNodeTag .. => "S2001"
  | .unknownVariantGroup .. => "S2002"
  | .unexpectedNodeTag .. => "S2003"

def message : SchemaError → String
  | .duplicateNodeTag tag => "node tag `" ++ tag ++ "` is already registered"
  | .unknownFieldKey tag field table =>
    "`" ++ tag ++ "` lists " ++ table.describe ++ " key `" ++ field
      ++ "`, which is not a declared field"
  | .duplicateField tag field => "`" ++ tag ++ "` declares field `" ++ field ++ "` more than once"
  | .nonNodeBinding tag field =>
    "`" ++ tag ++ "` binds scalar field `" ++ field ++ "`; binding keys must name child fields"
  | .nonNodeVisit tag field =>
    "`" ++ tag ++ "` visits scalar field `" ++ field ++ "`; visitor keys must name child fields"
  | .duplicateKey tag field table =>
    "`" ++ tag ++ "` lists " ++ table.describe ++ " key `" ++ field ++ "` more than once"
  | .untraversedChild tag field => untraversedMessage tag field
  | .duplicateGroupName name => "variant group `" ++ name ++ "` is already registered"
  | .emptyVariantGroup name => "variant group `" ++ name ++ "` has no members"
  | .duplicateGroupMember group member =>
    "variant group `" ++ group ++ "` lists `" ++ member ++ "` more than once"
  | .unknownGroupMember group member =>
    "variant group `" ++ group ++ "` lists `" ++ member
      ++ "`, which is not a registered node shape"
  | .unresolvedChildType tag field target =>
    "`" ++ tag ++ "` field `" ++ field ++ "` refers to unregistered " ++ target.describe
  | .alreadyInstalled => "a process-wide node registry is already installed"
  | .unknownNodeTag tag => "no node shape is registered under tag `" ++ tag ++ "`"
  | .unknownVariantGroup name => "no variant group is registered under name `" ++ name ++ "`"
  | .unexpectedNodeTag expected found =>
    "expected a `" ++ expected ++ "` node, found `" ++ found ++ "`"

def parts : SchemaError → List (String × String)
  | .alreadyInstalled => []
  | .duplicateNodeTag tag | .unknownNodeTag tag => [("tag", inspect tag)]
  | .duplicateField tag field | .nonNodeBinding tag field | .nonNodeVisit tag field
  | .untraversedChild tag field => [("tag", inspect tag), ("field", inspect field)]
  | .unknownFieldKey tag field table | .duplicateKey tag field table =>
    [("tag", inspect tag), ("field", inspect field), ("table", inspect table)]
  | .duplicateGroupName name | .emptyVariantGroup name | .unknownVariantGroup name =>
    [("name", inspect name)]
  | .duplicateGroupMember group member | .unknownGroupMember group member =>
    [("group", inspect group), ("member", inspect member)]
  | .unresolvedChildType tag field target =>
    [("tag", inspect tag), ("field", inspect field), ("target", inspect target)]
  | .unexpectedNodeTag expected found =>
    [("expected", inspect expected), ("found", inspect found)]

instance : Inspect SchemaError where
  inspect e := Text.record e.name e.parts

end SchemaError

inductive SchemaWarning where
  | untraversedChild (tag field : String)
deriving DecidableEq

namespace SchemaWarning

def name : SchemaWarning → String
  | .untraversedChild .. => "UntraversedChild"

def tag : SchemaWarning → String
  | .untraversedChild tag _ => tag

def field : SchemaWarning → String
  | .untraversedChild _ field => field

def message : SchemaWarning → String
  | .untraversedChild tag field => untraversedMessage tag field

end SchemaWarning

end TreeSchema
