import TreeSchema.Modules.Catalog
import TreeSchema.Proofs.Walk.Collection

/-!
# Pieces of module syntax

A piece is a value of any of the twelve shapes. Its structure says which pieces stand below it, field
by field, and so gives a listing in pre-order that knows nothing of nodes, schemas or registries. The
node of a piece holds, in fields of the same names, the nodes of those pieces.
-/

namespace TreeSchema.Modules

set_option autoImplicit false

/-- A value of any shape of module syntax. -/
inductive Piece where
  | identifier (value : Identifier)
  | bindingIdentifier (value : BindingIdentifier)
  | stringLiteral (value : StringLiteral)
  | exportSpecifier (value : ExportExternalSpecifier)
  | exportNamespace (value : ExportNamespaceSpecifier)
  | exportDefault (value : ExportDefaultSpecifier)
  | exportDeclaration (value : ExportExternalDeclaration)
  | importSpecifier (value : ImportSpecifier)
  | importDefault (value : ImportDefaultSpecifier)
  | importNamespace (value : ImportNamespaceSpecifier)
  | importDeclaration (value : ImportDeclaration)
  | program (value : Program)

namespace Piece

def node : Piece → Node
  | .identifier a => toNode a
  | .bindingIdentifier a => toNode a
  | .stringLiteral a => toNode a
  | .exportSpecifier a => toNode a
  | .exportNamespace a => toNode a
  | .exportDefault a => toNode a
  | .exportDeclaration a => toNode a
  | .importSpecifier a => toNode a
  | .importDefault a => toNode a
  | .importNamespace a => toNode a
  | .importDeclaration a => toNode a
  | .program a => toNode a

def decl : Piece → ShapeDecl
  | .identifier _ => Shape.decl Identifier
  | .bindingIdentifier _ => Shape.decl BindingIdentifier
  | .stringLiteral _ => Shape.decl StringLiteral
  | .exportSpecifier _ => Shape.decl ExportExternalSpecifier
  | .exportNamespace _ => Shape.decl ExportNamespaceSpecifier
  | .exportDefault _ => Shape.decl ExportDefaultSpecifier
  | .exportDeclaration _ => Shape.decl ExportExternalDeclaration
  | .importSpecifier _ => Shape.decl ImportSpecifier
  | .importDefault _ => Shape.decl ImportDefaultSpecifier
  | .importNamespace _ => Shape.decl ImportNamespaceSpecifier
  | .importDeclaration _ => Shape.decl ImportDeclaration
  | .program _ => Shape.decl Program

def ofExportSpecifier : AnyExportExternalSpecifier → Piece
  | .whole s => .exportNamespace s
  | .default s => .exportDefault s
  | .single s => .exportSpecifier s

def ofImportSpecifier : AnyImportSpecifier → Piece
  | .default s => .importDefault s
  | .whole s => .importNamespace s
  | .single s => .importSpecifier s

def ofStatement : AnyModuleStatement → Piece
  | .imports d => .importDeclaration d
  | .exports d => .exportDeclaration d

/-- The fields of the structure in the order of its declaration, each with the pieces that it holds.
Where a member of a group may stand, that is the active member. -/
def fields : Piece → List (String × List Piece)
  | .identifier _ => [("name", [])]
  | .bindingIdentifier _ => [("name", [])]
  | .stringLiteral _ => [("value", [])]
  | .exportSpecifier s =>
    [("local", [.identifier s.localName]), ("exported", [.identifier s.exported]),
     ("export_kind", [])]
  | .exportNamespace s => [("exported", [.identifier s.exported])]
  | .exportDefault s => [("exported", [.identifier s.exported])]
  | .exportDeclaration d =>
    [("specifiers", (d.specifiers.getD []).map ofExportSpecifier),
     ("source", [.stringLiteral d.source]), ("export_kind", [])]
  | .importSpecifier s =>
    [("imported", [.identifier s.imported]), ("local", [.bindingIdentifier s.localName]),
     ("import_kind", [])]
  | .importDefault s => [("local", [.bindingIdentifier s.localName])]
  | .importNamespace s => [("local", [.bindingIdentifier s.localName])]
  | .importDeclaration d =>
    [("specifiers", (d.specifiers.getD []).map ofImportSpecifier),
     ("source", [.stringLiteral d.source]), ("import_kind", [])]
  | .program p => [("body", p.body.map ofStatement), ("filename", [])]

/-- How many levels of pieces there can be below one of its shape. -/
def height : Piece → Nat
  | .identifier _ | .bindingIdentifier _ | .stringLiteral _ => 0
  | .exportSpecifier _ | .exportNamespace _ | .exportDefault _ => 1
  | .importSpecifier _ | .importDefault _ | .importNamespace _ => 1
  | .exportDeclaration _ | .importDeclaration _ => 2
  | .program _ => 3

@[simp] theorem height_ofExportSpecifier (s : AnyExportExternalSpecifier) :
    (ofExportSpecifier s).height = 1 := by
  cases s <;> rfl

@[simp] theorem height_ofImportSpecifier (s : AnyImportSpecifier) :
    (ofImportSpecifier s).height = 1 := by
  cases s <;> rfl

@[simp] theorem height_ofStatement (s : AnyModuleStatement) : (ofStatement s).height = 2 := by
  cases s <;> rfl

theorem height_lt_of_mem {p : Piece} : ∀ f ∈ p.fields, ∀ c ∈ f.2, c.height < p.height := by
  cases p <;> simp [fields] <;> simp [height]

/-- The pieces from `p` on downwards in pre-order, with their places if `p` stands at `place`. -/
def preorder (place : Place) (p : Piece) : List (Place × Piece) :=
  (place, p) :: p.fields.attach.flatMap fun f =>
    f.1.2.zipIdx.attach.flatMap fun c => preorder (place.child f.1.1 c.1.2) c.1.1
termination_by p.height
decreasing_by exact height_lt_of_mem f.1 f.2 c.1.1 (List.fst_mem_of_mem_zipIdx c.2)

theorem preorder_eq (place : Place) (p : Piece) :
    p.preorder place = (place, p) :: p.fields.flatMap fun f =>
      f.2.zipIdx.flatMap fun c => c.1.preorder (place.child f.1 c.2) := by
  rw [preorder]
  congr 1
  rw [← flatMap_attach_val p.fields]
  congr 1
  funext f
  exact flatMap_attach_val f.1.2.zipIdx fun c => c.1.preorder (place.child f.1.1 c.2)

theorem place_induction {motive : Place → Piece → Prop}
    (step : ∀ place p, (∀ f ∈ p.fields, ∀ c ∈ f.2, ∀ i, motive (place.child f.1 i) c) →
      motive place p) (place : Place) (p : Piece) : motive place p := by
  induction h : p.height using Nat.strongRecOn generalizing place p with
  | ind height ih =>
    subst h
    apply step
    intro f hf c hc i
    exact ih _ (height_lt_of_mem f hf c hc) _ _ rfl

theorem node_tag (p : Piece) : p.node.tag = p.decl.tag := by
  cases p <;> rfl

theorem names_decl (p : Piece) : p.decl.fields.map (·.name) = p.fields.map (·.1) := by
  cases p <;> rfl

@[simp] theorem node_ofExportSpecifier (s : AnyExportExternalSpecifier) :
    (ofExportSpecifier s).node = toNode s := by
  cases s <;> rfl

@[simp] theorem node_ofImportSpecifier (s : AnyImportSpecifier) :
    (ofImportSpecifier s).node = toNode s := by
  cases s <;> rfl

@[simp] theorem node_ofStatement (s : AnyModuleStatement) : (ofStatement s).node = toNode s := by
  cases s <;> rfl

theorem map_node_map {α : Type} [Element α] {g : α → Piece} (hg : ∀ a, (g a).node = toNode a)
    (xs : List α) : (xs.map g).map node = xs.map toNode := by
  simp [hg]

theorem children_toValue_optional {α : Type} [Element α] (xs : Option (List α)) :
    (Content.toValue xs).children = (xs.getD []).map toNode := by
  cases xs <;> rfl

theorem contents_node (p : Piece) :
    p.node.fields.map (fun f => (f.1, f.2.children)) =
      p.fields.map fun f => (f.1, f.2.map node) := by
  cases p with
  | exportDeclaration d =>
    show [("specifiers", (Content.toValue d.specifiers).children), ("source", [toNode d.source]),
      ("export_kind", [])] = _
    rw [children_toValue_optional, ← map_node_map node_ofExportSpecifier]
    rfl
  | importDeclaration d =>
    show [("specifiers", (Content.toValue d.specifiers).children), ("source", [toNode d.source]),
      ("import_kind", [])] = _
    rw [children_toValue_optional, ← map_node_map node_ofImportSpecifier]
    rfl
  | program p =>
    show [("body", p.body.map toNode), ("filename", [])] = _
    rw [← map_node_map node_ofStatement]
    rfl
  | _ => rfl

theorem names_nodup (p : Piece) : (p.fields.map (·.1)).Nodup := by
  cases p <;> simp [fields]

theorem node_names (p : Piece) : p.node.fields.map (·.1) = p.fields.map (·.1) := by
  have hContents := congrArg (List.map Prod.fst) p.contents_node
  simpa only [List.map_map, Function.comp_def] using hContents

/-- The node answers for every field of the structure, with the nodes of the pieces in it. -/
theorem field?_of_mem {p : Piece} {f : String × List Piece} (hf : f ∈ p.fields) :
    ∃ value, p.node.field? f.1 = some value ∧ value.children = f.2.map node := by
  have hm : (f.1, f.2.map node) ∈ p.node.fields.map fun g => (g.1, g.2.children) := by
    rw [contents_node]
    exact List.mem_map_of_mem hf
  obtain ⟨⟨name, value⟩, hValue, hEq⟩ := List.mem_map.mp hm
  obtain ⟨rfl, hChildren⟩ := Prod.mk.inj hEq
  have hDistinct : (p.node.fields.map (·.1)).Nodup := by
    rw [node_names]
    exact p.names_nodup
  exact ⟨value, (lookup_eq_some_iff_mem hDistinct f.1 value).mpr hValue, hChildren⟩

theorem childrenAt_of_mem {p : Piece} {f : String × List Piece} (hf : f ∈ p.fields) :
    p.node.childrenAt f.1 = f.2.map node := by
  obtain ⟨value, hValue, hChildren⟩ := field?_of_mem hf
  rw [Node.childrenAt_of_field? hValue, hChildren]

theorem exists_field_of_mem_childrenAt {p : Piece} {key : String} {c : Node}
    (hc : c ∈ p.node.childrenAt key) : ∃ f ∈ p.fields, f.1 = key := by
  unfold Node.childrenAt at hc
  split at hc
  · rename_i value hv
    have hName : key ∈ p.node.fields.map (·.1) :=
      List.mem_map_of_mem (f := (·.1)) (Node.mem_fields_of_lookup hv)
    rw [node_names] at hName
    exact List.mem_map.mp hName
  · cases hc

theorem visited_or_empty (p : Piece) :
    ∀ f ∈ p.fields, f.1 ∈ p.decl.visitorKeys ∨ f.2 = [] := by
  cases p <;> simp [fields, decl, Shape.decl, Shape.layout, Layout.decl, ShapeDecl.ofLayout,
    FieldOf.of, FieldLayout.visitorKeys]

theorem mem_registrations (p : Piece) : .shape p.decl ∈ registrations := by
  cases p <;> simp [registrations, decl, Shape.call]

end Piece

end TreeSchema.Modules
