import Mathlib.Data.List.Forall2
import TreeSchema.Proofs.Schema.Validation
import TreeSchema.Shape.Basic

/-!
# Typed values and their declarations

A typed value can be looked at in three ways: as a structure whose fields hold data and further
typed values, through the declaration of its shape, and through the node that answers for the fields
by name. The three agree if the node answers for the declared fields and for no others, and if each
answer is of the declared kind and shows what the structure holds.
-/

namespace TreeSchema

set_option autoImplicit false

theorem exists_of_mem_left {α β : Type} {R : α → β → Prop} {xs : List α} {ys : List β}
    (h : List.Forall₂ R xs ys) {x : α} (hx : x ∈ xs) : ∃ y ∈ ys, R x y := by
  induction h with
  | nil => cases hx
  | cons hHead _ ih =>
    rcases List.mem_cons.mp hx with rfl | hx
    · exact ⟨_, List.mem_cons_self, hHead⟩
    · obtain ⟨y, hy, hR⟩ := ih hx
      exact ⟨y, List.mem_cons_of_mem _ hy, hR⟩

/-- What one field of a structure holds, if the typed values that it can hold are those of `V`. -/
inductive Holding (V : Type) where
  | scalar (data : Scalar)
  | child (value : V)
  | optionalChild (value : Option V)
  | sequence (values : List V)
  | optionalSequence (values : Option (List V))

def Holding.values {V : Type} : Holding V → List V
  | .scalar _ => []
  | .child value => [value]
  | .optionalChild value => value.toList
  | .sequence values => values
  | .optionalSequence values => values.getD []

/-- A value of some shape. -/
structure Shaped where
  {α : Type}
  [shape : Shape α]
  value : α

attribute [instance] Shaped.shape

namespace Shaped

def tag (x : Shaped) : String :=
  Shape.tag x.α

def decl (x : Shaped) : ShapeDecl :=
  Shape.decl x.α

def layout (x : Shaped) : Layout x.α :=
  Shape.layout

def node (x : Shaped) : Node :=
  toNode x.value

theorem node_fields (x : Shaped) :
    x.node.fields = x.layout.fields.map fun f => (f.name, f.value x.value) := by
  rw [node, Shape.toNode_eq]
  rfl

theorem mem_decl_iff {x : Shaped} {f : FieldDecl} :
    f ∈ x.decl.fields ↔ ∃ g ∈ x.layout.fields, g.toFieldDecl = f := by
  show f ∈ (x.layout.fields.map (·.toFieldLayout)).map (·.toFieldDecl) ↔ _
  simp

end Shaped

/-- Shapes that refer to one another. The values of all of them together are those of `V`. -/
structure Family (V : Type) where
  shaped : V → Shaped
  /-- The fields of the structure with what they hold. Where a group is declared, that is the active
  member. -/
  holdings : V → List (String × Holding V)
  groups : List GroupDecl

namespace Family

variable {V : Type} (F : Family V)

def node (v : V) : Node :=
  (F.shaped v).node

/-- Which tags may stand where a child type is declared. -/
def Admits : ChildType → String → Prop
  | .shape target, tag => tag = target
  | .group name, tag => ∃ decl ∈ F.groups, decl.name = name ∧ tag ∈ decl.members

/-- The contents of a field that is declared with some kind and holds something. Nodes are those of
the values held, and only what is not set is absent. -/
inductive Conforms : FieldKind → Holding V → FieldValue Node → Prop
  | scalar (data : Scalar) : Conforms .scalar (.scalar data) (.scalar data)
  | child {target : ChildType} {v : V} (h : F.Admits target (F.node v).tag) :
    Conforms (.child target) (.child v) (.node (F.node v))
  | unsetChild (target : ChildType) :
    Conforms (.optionalChild target) (.optionalChild none) .absent
  | setChild {target : ChildType} {v : V} (h : F.Admits target (F.node v).tag) :
    Conforms (.optionalChild target) (.optionalChild (some v)) (.node (F.node v))
  | sequence {target : ChildType} {vs : List V} (h : ∀ v ∈ vs, F.Admits target (F.node v).tag) :
    Conforms (.sequence target) (.sequence vs) (.nodes (vs.map F.node))
  | unsetSequence (target : ChildType) :
    Conforms (.optionalSequence target) (.optionalSequence none) .absent
  | setSequence {target : ChildType} {vs : List V}
    (h : ∀ v ∈ vs, F.Admits target (F.node v).tag) :
    Conforms (.optionalSequence target) (.optionalSequence (some vs)) (.nodes (vs.map F.node))

/-- The three views of one value agree. -/
structure AgreesAt (v : V) : Prop where
  node_tag : (F.node v).tag = (F.shaped v).tag
  decl_tag : (F.shaped v).decl.tag = (F.shaped v).tag
  answers : ∀ name, ((F.node v).field? name).isSome = true ↔
    ∃ f ∈ (F.shaped v).decl.fields, f.name = name
  conforms : ∀ f ∈ (F.shaped v).decl.fields, ∃ held value,
    (f.name, held) ∈ F.holdings v ∧ (F.node v).field? f.name = some value ∧
      F.Conforms f.kind held value

/-- The three views agree for a value and, in turn, for the values that it holds. -/
inductive Agrees : V → Prop
  | of {v : V} (here : F.AgreesAt v)
    (below : ∀ f ∈ F.holdings v, ∀ c ∈ f.2.values, Agrees c) : Agrees v

def FieldAgrees (v : V) (f : FieldOf (F.shaped v).α) (held : String × Holding V) : Prop :=
  f.name = held.1 ∧ F.Conforms f.kind held.2 (f.value (F.shaped v).value)

/-- The layout of a value's shape and its structure agree field by field. -/
def LaidOut (v : V) : Prop :=
  List.Forall₂ (F.FieldAgrees v) (F.shaped v).layout.fields (F.holdings v)

variable {F} {v : V}

theorem Conforms.children {kind : FieldKind} {held : Holding V} {value : FieldValue Node}
    (h : F.Conforms kind held value) : value.children = held.values.map F.node := by
  cases h <;> rfl

theorem LaidOut.names (h : F.LaidOut v) :
    (F.node v).fields.map (·.1) = (F.holdings v).map (·.1) := by
  rw [node, Shaped.node_fields, List.map_map]
  refine List.forall₂_eq_eq_eq ▸ List.forall₂_map_left_iff.mpr (List.forall₂_map_right_iff.mpr ?_)
  exact h.imp fun _ _ hField => hField.1

section Agreement

variable (hNames : ((F.holdings v).map (·.1)).Nodup) (h : F.LaidOut v)
include hNames h

theorem LaidOut.field?_of_mem {f : FieldOf (F.shaped v).α}
    (hf : f ∈ (F.shaped v).layout.fields) :
    (F.node v).field? f.name = some (f.value (F.shaped v).value) := by
  have hDistinct : ((F.node v).fields.map (·.1)).Nodup := by
    rw [h.names]
    exact hNames
  apply (lookup_eq_some_iff_mem hDistinct _ _).mpr
  rw [node, Shaped.node_fields]
  exact List.mem_map_of_mem hf

theorem LaidOut.agreesAt : F.AgreesAt v where
  node_tag := Shape.tag_toNode _
  decl_tag := rfl
  answers name := by
    constructor
    · intro hSome
      obtain ⟨value, hValue⟩ := Option.isSome_iff_exists.mp hSome
      have hMem := Node.mem_fields_of_lookup hValue
      rw [node, Shaped.node_fields] at hMem
      obtain ⟨f, hf, hEq⟩ := List.mem_map.mp hMem
      exact ⟨f.toFieldDecl, Shaped.mem_decl_iff.mpr ⟨f, hf, rfl⟩, congrArg Prod.fst hEq⟩
    · rintro ⟨_, hMem, rfl⟩
      obtain ⟨f, hf, rfl⟩ := Shaped.mem_decl_iff.mp hMem
      rw [h.field?_of_mem hNames hf]
      rfl
  conforms f hMem := by
    obtain ⟨f, hf, rfl⟩ := Shaped.mem_decl_iff.mp hMem
    obtain ⟨⟨name, held⟩, hHeld, hName, hConforms⟩ := exists_of_mem_left h hf
    exact ⟨held, _, hName ▸ hHeld, h.field?_of_mem hNames hf, hConforms⟩

theorem LaidOut.sizeOf_lt {held : String × Holding V} (hHeld : held ∈ F.holdings v) {c : V}
    (hc : c ∈ held.2.values) : sizeOf (F.node c) < sizeOf (F.node v) := by
  obtain ⟨f, hf, _, hConforms⟩ := exists_of_mem_left h.flip hHeld
  apply Node.sizeOf_lt_of_field? (h.field?_of_mem hNames hf)
  rw [hConforms.children]
  exact List.mem_map_of_mem hc

end Agreement

theorem agrees_of_laidOut (hNames : ∀ v, ((F.holdings v).map (·.1)).Nodup)
    (h : ∀ v, F.LaidOut v) (v : V) : F.Agrees v := by
  -- By the size of the node, since `V` itself is any type: what a value holds has smaller nodes.
  induction hn : sizeOf (F.node v) using Nat.strongRecOn generalizing v with
  | ind size ih =>
    subst hn
    refine .of ((h v).agreesAt (hNames v)) ?_
    intro held hHeld c hc
    exact ih _ ((h v).sizeOf_lt (hNames v) hHeld hc) c rfl

/-- `into` takes the values of an element to values of the family with the same node, whose tag may
stand where the element is declared. -/
structure Embeds {α : Type} [Element α] (F : Family V) (into : α → V) : Prop where
  node_eq : ∀ a : α, F.node (into a) = toNode a
  admits : ∀ a : α, F.Admits (Element.target α) (toNode a).tag

section Embeddings

variable {α : Type}

theorem Embeds.of_shape [Shape α] {into : α → V} (h : ∀ a, F.node (into a) = toNode a) :
    F.Embeds into where
  node_eq := h
  admits a := by
    rw [Shape.target_eq, Shape.tag_toNode]
    rfl

theorem Embeds.of_group [Group α] {into : α → V} (h : ∀ a, F.node (into a) = toNode a)
    (hg : Group.decl α ∈ F.groups) : F.Embeds into where
  node_eq := h
  admits a := by
    rw [Group.target_eq]
    exact ⟨_, hg, rfl, Group.tag_mem a⟩

variable [Element α] {into : α → V} (h : F.Embeds into)
include h

theorem Embeds.admits_into (a : α) : F.Admits (Element.target α) (F.node (into a)).tag := by
  rw [h.node_eq]
  exact h.admits a

theorem Embeds.map_node (as : List α) : (as.map into).map F.node = as.map toNode := by
  simp [h.node_eq]

theorem Embeds.child (a : α) :
    F.Conforms (.child (Element.target α)) (.child (into a)) (.node (toNode a)) := by
  rw [← h.node_eq]
  exact .child (h.admits_into a)

theorem Embeds.optionalChild (a : Option α) :
    F.Conforms (.optionalChild (Element.target α)) (.optionalChild (a.map into))
      (Content.toValue a) := by
  cases a with
  | none => exact .unsetChild _
  | some a =>
    show F.Conforms _ _ (.node (toNode a))
    rw [← h.node_eq]
    exact .setChild (h.admits_into a)

theorem Embeds.forall_admits (as : List α) :
    ∀ v ∈ as.map into, F.Admits (Element.target α) (F.node v).tag := by
  intro v hv
  obtain ⟨a, _, rfl⟩ := List.mem_map.mp hv
  exact h.admits_into a

theorem Embeds.sequence (as : List α) :
    F.Conforms (.sequence (Element.target α)) (.sequence (as.map into))
      (.nodes (as.map toNode)) := by
  rw [← h.map_node]
  exact .sequence (h.forall_admits as)

theorem Embeds.optionalSequence (as : Option (List α)) :
    F.Conforms (.optionalSequence (Element.target α))
      (.optionalSequence (as.map fun as => as.map into)) (Content.toValue as) := by
  cases as with
  | none => exact .unsetSequence _
  | some as =>
    show F.Conforms _ _ (.nodes (as.map toNode))
    rw [← h.map_node]
    exact .setSequence (h.forall_admits as)

end Embeddings

end Family

end TreeSchema
