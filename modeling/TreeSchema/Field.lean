import TreeSchema.Dump
import TreeSchema.Text.Inspect

/-!
# Fields

A node shape is an ordered list of fields. A field is opaque data, or it holds child nodes; what it
may hold is a node shape or a variant group, referred to by name.
-/

namespace TreeSchema

set_option autoImplicit false

inductive ChildType where
  | shape (tag : String)
  | group (name : String)
deriving DecidableEq

namespace ChildType

def name : ChildType → String
  | .shape tag => tag
  | .group name => name

def describe : ChildType → String
  | .shape tag => "node shape `" ++ tag ++ "`"
  | .group name => "variant group `" ++ name ++ "`"

instance : Inspect ChildType where
  inspect
    | .shape tag => Text.applied "Shape" (inspect tag)
    | .group name => Text.applied "Group" (inspect name)

def dump : ChildType → Dump
  | .shape tag => .applied "Shape" (.text tag)
  | .group name => .applied "Group" (.text name)

end ChildType

/-- The kind of a declared field. Optional kinds are told apart from the others, so that a missing
sequence is not taken for an empty one. -/
inductive FieldKind where
  | scalar
  | child (target : ChildType)
  | optionalChild (target : ChildType)
  | sequence (target : ChildType)
  | optionalSequence (target : ChildType)
deriving DecidableEq

namespace FieldKind

def target? : FieldKind → Option ChildType
  | .scalar => none
  | .child t | .optionalChild t | .sequence t | .optionalSequence t => some t

def isChild : FieldKind → Bool
  | .scalar => false
  | _ => true

def isOptional : FieldKind → Bool
  | .optionalChild _ | .optionalSequence _ => true
  | _ => false

def isSequence : FieldKind → Bool
  | .sequence _ | .optionalSequence _ => true
  | _ => false

@[simp] theorem isSome_target? (k : FieldKind) : k.target?.isSome = k.isChild := by
  cases k <;> rfl

/-- The name of a kind that refers to a child type, with that type. -/
def parts? : FieldKind → Option (String × ChildType)
  | .scalar => none
  | .child t => some ("Child", t)
  | .optionalChild t => some ("OptionalChild", t)
  | .sequence t => some ("Sequence", t)
  | .optionalSequence t => some ("OptionalSequence", t)

instance : Inspect FieldKind where
  inspect k :=
    match k.parts? with
    | none => "Scalar"
    | some (name, t) => Text.applied name (inspect t)

def dump (k : FieldKind) : Dump :=
  match k.parts? with
  | none => .text "Scalar"
  | some (name, t) => .applied name t.dump

end FieldKind

inductive BindingKind where
  | var
  | lexical
  | constant
  | function
  | classDecl
  | parameter
  | imported
  | typeAlias
  | catchClause
deriving DecidableEq

namespace BindingKind

def name : BindingKind → String
  | .var => "Var"
  | .lexical => "Let"
  | .constant => "Const"
  | .function => "Function"
  | .classDecl => "Class"
  | .parameter => "Parameter"
  | .imported => "Import"
  | .typeAlias => "TypeAlias"
  | .catchClause => "CatchClause"

/-- The word by which source text introduces such a declaration. -/
def keyword : BindingKind → String
  | .var => "var"
  | .lexical => "let"
  | .constant => "const"
  | .function => "function"
  | .classDecl => "class"
  | .parameter => "parameter"
  | .imported => "import"
  | .typeAlias => "type"
  | .catchClause => "catch"

def all : List BindingKind :=
  [.var, .lexical, .constant, .function, .classDecl, .parameter, .imported, .typeAlias,
   .catchClause]

def ofName? (s : String) : Option BindingKind :=
  all.find? fun k => k.name == s

theorem ofName?_name (k : BindingKind) : ofName? k.name = some k := by
  cases k <;> decide

instance : Inspect BindingKind := ⟨name⟩

end BindingKind

structure FieldDecl where
  name : String
  kind : FieldKind
deriving DecidableEq

instance : Inspect FieldDecl where
  inspect f := Text.record "FieldDecl" [("name", inspect f.name), ("kind", inspect f.kind)]

end TreeSchema
