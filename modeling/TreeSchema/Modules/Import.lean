import TreeSchema.Modules.Literal

/-!
# Imports

An import declaration binds names here to what another module exports.
-/

namespace TreeSchema.Modules

set_option autoImplicit false

inductive ImportKind where
  | value
  | type
  | typeOf
deriving DecidableEq

namespace ImportKind

def name : ImportKind → String
  | .value => "Value"
  | .type => "Type"
  | .typeOf => "TypeOf"

def keyword : ImportKind → String
  | .value => "value"
  | .type => "type"
  | .typeOf => "typeof"

def all : List ImportKind :=
  [.value, .type, .typeOf]

def ofKeyword? (s : String) : Option ImportKind :=
  all.find? fun k => k.keyword == s

instance : Named ImportKind where
  name := name
  ofName? s := all.find? fun k => k.name == s
  ofName?_name k := by cases k <;> decide

end ImportKind

/-- A single thing imported, perhaps under another name. -/
structure ImportSpecifier where
  imported : Identifier
  localName : BindingIdentifier
  importKind : Option ImportKind
deriving DecidableEq

instance : Shape ImportSpecifier :=
  .ofLayout
    ⟨"ImportSpecifier",
      [.of "imported" ImportSpecifier.imported [.visit],
       .of "local" ImportSpecifier.localName [.visit, .bind .imported],
       .of "import_kind" ImportSpecifier.importKind []]⟩
    (fun n => do return ⟨← n.read? "imported", ← n.read? "local", ← n.read? "import_kind"⟩)
    (fun a => by simp [Layout.toNode, FieldOf.of, Node.read?, Node.field?, List.lookup_cons])

/-- The source module's default imported under a name. -/
structure ImportDefaultSpecifier where
  localName : BindingIdentifier
deriving DecidableEq

instance : Shape ImportDefaultSpecifier :=
  .ofLayout
    ⟨"ImportDefaultSpecifier",
      [.of "local" ImportDefaultSpecifier.localName [.visit, .bind .imported]]⟩
    (fun n => do return ⟨← n.read? "local"⟩)
    (fun a => by simp [Layout.toNode, FieldOf.of, Node.read?, Node.field?])

/-- Everything imported under one name. -/
structure ImportNamespaceSpecifier where
  localName : BindingIdentifier
deriving DecidableEq

instance : Shape ImportNamespaceSpecifier :=
  .ofLayout
    ⟨"ImportNamespaceSpecifier",
      [.of "local" ImportNamespaceSpecifier.localName [.visit, .bind .imported]]⟩
    (fun n => do return ⟨← n.read? "local"⟩)
    (fun a => by simp [Layout.toNode, FieldOf.of, Node.read?, Node.field?])

inductive AnyImportSpecifier where
  | default (specifier : ImportDefaultSpecifier)
  | whole (specifier : ImportNamespaceSpecifier)
  | single (specifier : ImportSpecifier)
deriving DecidableEq

namespace AnyImportSpecifier

def localName : AnyImportSpecifier → BindingIdentifier
  | .default s => s.localName
  | .whole s => s.localName
  | .single s => s.localName

instance : Group AnyImportSpecifier where
  target := .group "AnyImportSpecifier"
  toNode
    | .default s => toNode s
    | .whole s => toNode s
    | .single s => toNode s
  ofNode? n :=
    if Shape.is ImportDefaultSpecifier n then (ofNode? n).map .default
    else if Shape.is ImportNamespaceSpecifier n then (ofNode? n).map .whole
    else (ofNode? n).map .single
  ofNode?_toNode a := by
    cases a <;> simp [Shape.is, Node.hasTag, Shape.tag, Shape.layout]
  decl :=
    { name := "AnyImportSpecifier",
      members := [Shape.tag ImportDefaultSpecifier, Shape.tag ImportNamespaceSpecifier,
        Shape.tag ImportSpecifier] }
  target_eq := rfl
  tag_mem a := by cases a <;> simp [toNode, Shape.tag, Shape.layout]

end AnyImportSpecifier

structure ImportDeclaration where
  specifiers : Option (List AnyImportSpecifier)
  source : StringLiteral
  importKind : Option ImportKind
deriving DecidableEq

namespace ImportDeclaration

instance : Shape ImportDeclaration :=
  .ofLayout
    ⟨"ImportDeclaration",
      [.of "specifiers" specifiers [.visit], .of "source" source [.visit],
       .of "import_kind" importKind []]⟩
    (fun n => do return ⟨← n.read? "specifiers", ← n.read? "source", ← n.read? "import_kind"⟩)
    (fun a => by simp [Layout.toNode, FieldOf.of, Node.read?, Node.field?, List.lookup_cons])

/-- The names that are bound, in order, if there is a list of specifiers at all. -/
def localNames? (d : ImportDeclaration) : Option (List String) :=
  d.specifiers.map fun specifiers => specifiers.map (·.localName.name)

end ImportDeclaration

end TreeSchema.Modules
