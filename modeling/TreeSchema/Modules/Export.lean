import TreeSchema.Modules.Literal

/-!
# Exports from another module

An export declaration that names a source module passes on what that module exports. Its specifiers
name things elsewhere, so none of them binds a name here.
-/

namespace TreeSchema.Modules

set_option autoImplicit false

inductive ExportKind where
  | value
  | type
deriving DecidableEq

namespace ExportKind

def name : ExportKind → String
  | .value => "Value"
  | .type => "Type"

def keyword : ExportKind → String
  | .value => "value"
  | .type => "type"

def all : List ExportKind :=
  [.value, .type]

def ofKeyword? (s : String) : Option ExportKind :=
  all.find? fun k => k.keyword == s

instance : Named ExportKind where
  name := name
  ofName? s := all.find? fun k => k.name == s
  ofName?_name k := by cases k <;> decide

end ExportKind

/-- A single thing passed on, perhaps under another name. -/
structure ExportExternalSpecifier where
  localName : Identifier
  exported : Identifier
  exportKind : Option ExportKind
deriving DecidableEq

instance : Shape ExportExternalSpecifier :=
  .ofLayout
    ⟨"ExportExternalSpecifier",
      [.of "local" ExportExternalSpecifier.localName [.visit],
       .of "exported" ExportExternalSpecifier.exported [.visit],
       .of "export_kind" ExportExternalSpecifier.exportKind []]⟩
    (fun n => do return ⟨← n.read? "local", ← n.read? "exported", ← n.read? "export_kind"⟩)
    (fun a => by simp [Layout.toNode, FieldOf.of, Node.read?, Node.field?, List.lookup_cons])

/-- Everything passed on under one name. -/
structure ExportNamespaceSpecifier where
  exported : Identifier
deriving DecidableEq

instance : Shape ExportNamespaceSpecifier :=
  .ofLayout
    ⟨"ExportNamespaceSpecifier", [.of "exported" ExportNamespaceSpecifier.exported [.visit]]⟩
    (fun n => do return ⟨← n.read? "exported"⟩)
    (fun a => by simp [Layout.toNode, FieldOf.of, Node.read?, Node.field?])

/-- The source module's default passed on under a name. -/
structure ExportDefaultSpecifier where
  exported : Identifier
deriving DecidableEq

instance : Shape ExportDefaultSpecifier :=
  .ofLayout
    ⟨"ExportDefaultSpecifier", [.of "exported" ExportDefaultSpecifier.exported [.visit]]⟩
    (fun n => do return ⟨← n.read? "exported"⟩)
    (fun a => by simp [Layout.toNode, FieldOf.of, Node.read?, Node.field?])

inductive AnyExportExternalSpecifier where
  | whole (specifier : ExportNamespaceSpecifier)
  | default (specifier : ExportDefaultSpecifier)
  | single (specifier : ExportExternalSpecifier)
deriving DecidableEq

namespace AnyExportExternalSpecifier

def exported : AnyExportExternalSpecifier → Identifier
  | .whole s => s.exported
  | .default s => s.exported
  | .single s => s.exported

instance : Group AnyExportExternalSpecifier where
  target := .group "AnyExportExternalSpecifier"
  toNode
    | .whole s => toNode s
    | .default s => toNode s
    | .single s => toNode s
  ofNode? n :=
    if Shape.is ExportNamespaceSpecifier n then (ofNode? n).map .whole
    else if Shape.is ExportDefaultSpecifier n then (ofNode? n).map .default
    else (ofNode? n).map .single
  ofNode?_toNode a := by
    cases a <;> simp [Shape.is, Node.hasTag, Shape.tag, Shape.layout]
  decl :=
    { name := "AnyExportExternalSpecifier",
      members := [Shape.tag ExportNamespaceSpecifier, Shape.tag ExportDefaultSpecifier,
        Shape.tag ExportExternalSpecifier] }
  target_eq := rfl
  tag_mem a := by cases a <;> simp [toNode, Shape.tag, Shape.layout]

end AnyExportExternalSpecifier

structure ExportExternalDeclaration where
  specifiers : Option (List AnyExportExternalSpecifier)
  source : StringLiteral
  exportKind : Option ExportKind
deriving DecidableEq

namespace ExportExternalDeclaration

instance : Shape ExportExternalDeclaration :=
  .ofLayout
    ⟨"ExportExternalDeclaration",
      [.of "specifiers" specifiers [.visit], .of "source" source [.visit],
       .of "export_kind" exportKind []]⟩
    (fun n => do return ⟨← n.read? "specifiers", ← n.read? "source", ← n.read? "export_kind"⟩)
    (fun a => by simp [Layout.toNode, FieldOf.of, Node.read?, Node.field?, List.lookup_cons])

def isTypeOnly (d : ExportExternalDeclaration) : Bool :=
  d.exportKind == some .type

def exportedNames (d : ExportExternalDeclaration) : List String :=
  (d.specifiers.getD []).map (·.exported.name)

end ExportExternalDeclaration

end TreeSchema.Modules
