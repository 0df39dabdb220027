import TreeSchema.Node.Basic

/-!
# What typed fields hold

Values of a declared shape are ordinary structures. Each type that can stand in a field of such a
structure says which field kind it stands for, how it is seen as field contents, and how it is read
back from them. Reading back what was written gives the value again.
-/

namespace TreeSchema

set_option autoImplicit false

/-- Types whose values stand in child fields: the node shapes and the variant groups. -/
class Element (α : Type) where
  target : ChildType
  /-- The value as a node. For a group this is the node of the active member. -/
  toNode : α → Node
  ofNode? : Node → Option α
  ofNode?_toNode : ∀ a, ofNode? (toNode a) = some a

attribute [simp] Element.ofNode?_toNode

export Element (toNode ofNode?)

/-- Types with finitely many values that are known by name. -/
class Named (κ : Type) where
  name : κ → String
  ofName? : String → Option κ
  ofName?_name : ∀ k, ofName? (name k) = some k

attribute [simp] Named.ofName?_name

class ScalarData (β : Type) where
  toScalar : β → Scalar
  ofScalar? : Scalar → Option β
  ofScalar?_toScalar : ∀ b, ofScalar? (toScalar b) = some b

attribute [simp] ScalarData.ofScalar?_toScalar

instance : ScalarData String where
  toScalar := .text
  ofScalar?
    | .text value => some value
    | _ => none
  ofScalar?_toScalar _ := rfl

instance : ScalarData Bool where
  toScalar := .flag
  ofScalar?
    | .flag value => some value
    | _ => none
  ofScalar?_toScalar _ := rfl

instance : ScalarData UInt64 where
  toScalar value := .number value.toNat
  ofScalar?
    | .number value =>
      if 0 ≤ value ∧ value.toNat < UInt64.size then some (UInt64.ofNat value.toNat) else none
    | _ => none
  ofScalar?_toScalar value := by simp [value.toNat_lt_size]

instance {κ : Type} [Named κ] : ScalarData (Option κ) where
  toScalar value := .choice (value.map Named.name)
  ofScalar?
    | .choice none => some none
    | .choice (some name) => (Named.ofName? name).map some
    | _ => none
  ofScalar?_toScalar value := by cases value <;> simp

/-- Types that a field of a shape can have. -/
class Content (β : Type) where
  kind : FieldKind
  toValue : β → FieldValue Node
  ofValue? : FieldValue Node → Option β
  ofValue?_toValue : ∀ b, ofValue? (toValue b) = some b

attribute [simp] Content.ofValue?_toValue

def Element.ofNodes? {α : Type} [Element α] : List Node → Option (List α)
  | [] => some []
  | n :: ns =>
    match ofNode? n, Element.ofNodes? ns with
    | some a, some as => some (a :: as)
    | _, _ => none

@[simp] theorem Element.ofNodes?_map_toNode {α : Type} [Element α] (as : List α) :
    Element.ofNodes? (as.map toNode) = some as := by
  induction as with
  | nil => rfl
  | cons a as ih => simp [Element.ofNodes?, ih]

instance {β : Type} [ScalarData β] : Content β where
  kind := .scalar
  toValue b := .scalar (ScalarData.toScalar b)
  ofValue?
    | .scalar value => ScalarData.ofScalar? value
    | _ => none
  ofValue?_toValue b := by simp

instance {α : Type} [Element α] : Content α where
  kind := .child (Element.target α)
  toValue a := .node (toNode a)
  ofValue?
    | .node n => ofNode? n
    | _ => none
  ofValue?_toValue a := by simp

instance {α : Type} [Element α] : Content (Option α) where
  kind := .optionalChild (Element.target α)
  toValue
    | none => .absent
    | some a => .node (toNode a)
  ofValue?
    | .absent => some none
    | .node n => (ofNode? n).map some
    | _ => none
  ofValue?_toValue a := by cases a <;> simp

instance {α : Type} [Element α] : Content (List α) where
  kind := .sequence (Element.target α)
  toValue as := .nodes (as.map toNode)
  ofValue?
    | .nodes ns => Element.ofNodes? ns
    | _ => none
  ofValue?_toValue as := by simp

instance {α : Type} [Element α] : Content (Option (List α)) where
  kind := .optionalSequence (Element.target α)
  toValue
    | none => .absent
    | some as => .nodes (as.map toNode)
  ofValue?
    | .absent => some none
    | .nodes ns => (Element.ofNodes? ns).map some
    | _ => none
  ofValue?_toValue as := by cases as <;> simp

def Node.read? {β : Type} [Content β] (n : Node) (name : String) : Option β :=
  (n.field? name).bind Content.ofValue?

end TreeSchema
