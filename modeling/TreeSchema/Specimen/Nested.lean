import TreeSchema.Specimen.Basic

/-!
# Specimen shapes that hold their own kind

Chains and functions have children of their own shape. Their declarations are written out, since a
layout can only be given once the type is known to be an element.
-/

namespace TreeSchema.Specimen

set_option autoImplicit false

structure Chain where
  next : Option Chain

namespace Chain

def decEq : (c d : Chain) → Decidable (c = d)
  | ⟨none⟩, ⟨none⟩ => .isTrue rfl
  | ⟨some c⟩, ⟨some d⟩ =>
    have := decEq c d
    decidable_of_iff (c = d) (by simp)
  | ⟨none⟩, ⟨some _⟩ | ⟨some _⟩, ⟨none⟩ => .isFalse nofun

instance : DecidableEq Chain := decEq

def decl : ShapeDecl :=
  .ofLayout "FxChain" [⟨⟨"next", .optionalChild (.shape "FxChain")⟩, [.visit]⟩]

def toNode : Chain → Node
  | ⟨none⟩ => ⟨.declared decl, [("next", .absent)]⟩
  | ⟨some c⟩ => ⟨.declared decl, [("next", .node c.toNode)]⟩

/-- The chain that a node was made from. -/
def ofNode? (n : Node) : Option Chain :=
  if n.origin = .declared decl then
    match _held : n.field? "next" with
    | some .absent => some ⟨none⟩
    | some (.node c) => (ofNode? c).map fun next => ⟨some next⟩
    | _ => none
  else none
termination_by n
decreasing_by
  exact Node.sizeOf_lt_of_field? _held (by simp [FieldValue.children])

theorem ofNode?_toNode : (c : Chain) → ofNode? c.toNode = some c
  | ⟨none⟩ => by
    rw [toNode, ofNode?]
    rfl
  | ⟨some c⟩ => by
    rw [toNode, ofNode?, if_pos rfl]
    have hNext := ofNode?_toNode c
    split <;> simp_all [Node.field?]

theorem origin_of_ofNode? {n : Node} {c : Chain} (h : ofNode? n = some c) :
    n.origin = .declared decl := by
  rw [ofNode?] at h
  split at h
  · assumption
  · cases h

instance : Element Chain where
  target := .shape "FxChain"
  toNode := toNode
  ofNode? := ofNode?
  ofNode?_toNode := ofNode?_toNode

instance : Shape Chain where
  layout := ⟨"FxChain", [.of "next" next [.visit]]⟩
  target_eq := rfl
  toNode_eq c := by
    cases c with
    | mk next => cases next <;> rfl
  origin_of_ofNode? := origin_of_ofNode?

end Chain

structure Func where
  id : Option Label
  params : List Param
  hoisted : Option (List Label)
  body : List Func

namespace Func

mutual

def decEq : (f g : Func) → Decidable (f = g)
  | ⟨id, params, hoisted, body⟩, ⟨id', params', hoisted', body'⟩ =>
    have := decEqs body body'
    decidable_of_iff (id = id' ∧ params = params' ∧ hoisted = hoisted' ∧ body = body') (by simp)

def decEqs : (fs gs : List Func) → Decidable (fs = gs)
  | [], [] => .isTrue rfl
  | f :: fs, g :: gs =>
    have := decEq f g
    have := decEqs fs gs
    decidable_of_iff (f = g ∧ fs = gs) (by simp)
  | [], _ :: _ | _ :: _, [] => .isFalse nofun

end

instance : DecidableEq Func := decEq

def decl : ShapeDecl :=
  .ofLayout "FxFunction"
    [⟨⟨"id", .optionalChild (.shape "FxName")⟩, [.visit, .bind .function]⟩,
     ⟨⟨"params", .sequence (.shape "FxParam")⟩, [.visit]⟩,
     ⟨⟨"hoisted", .optionalSequence (.shape "FxName")⟩, [.visit, .bind .var]⟩,
     ⟨⟨"body", .sequence (.shape "FxFunction")⟩, [.visit]⟩]

mutual

def toNode : Func → Node
  | ⟨id, params, hoisted, body⟩ =>
    ⟨.declared decl,
      [("id", Content.toValue id), ("params", Content.toValue params),
       ("hoisted", Content.toValue hoisted), ("body", .nodes (toNodes body))]⟩

def toNodes : List Func → List Node
  | [] => []
  | f :: fs => f.toNode :: toNodes fs

end

/-- The function that a node was made from. -/
def ofNode? (n : Node) : Option Func :=
  if n.origin = .declared decl then do
    let id ← n.read? "id"
    let params ← n.read? "params"
    let hoisted ← n.read? "hoisted"
    match _held : n.field? "body" with
    | some (.nodes ns) =>
      let body ← ns.attach.mapM fun m => ofNode? m.1
      return ⟨id, params, hoisted, body⟩
    | _ => none
  else none
termination_by n
decreasing_by
  exact Node.sizeOf_lt_of_field? _held m.2

theorem toNodes_eq_map (fs : List Func) : toNodes fs = fs.map toNode := by
  induction fs with
  | nil => rfl
  | cons f fs ih => simp [toNodes, ih]

mutual

theorem ofNode?_toNode : (f : Func) → ofNode? f.toNode = some f
  | ⟨id, params, hoisted, body⟩ => by
    have hBody := mapM_ofNode?_toNodes body
    rw [toNode, ofNode?, if_pos rfl]
    simp only [Node.read?, Node.field?, List.lookup_cons]
    split <;> simp_all

theorem mapM_ofNode?_toNodes : (fs : List Func) → (toNodes fs).mapM ofNode? = some fs
  | [] => rfl
  | f :: fs => by
    rw [toNodes, List.mapM_cons, ofNode?_toNode f, mapM_ofNode?_toNodes fs]
    rfl

end

theorem origin_of_ofNode? {n : Node} {f : Func} (h : ofNode? n = some f) :
    n.origin = .declared decl := by
  rw [ofNode?] at h
  split at h
  · assumption
  · cases h

instance : Element Func where
  target := .shape "FxFunction"
  toNode := toNode
  ofNode? := ofNode?
  ofNode?_toNode := ofNode?_toNode

instance : Shape Func where
  layout :=
    ⟨"FxFunction",
      [.of "id" id [.visit, .bind .function],
       .of "params" params [.visit],
       .of "hoisted" hoisted [.visit, .bind .var],
       .of "body" body [.visit]]⟩
  target_eq := rfl
  toNode_eq f := by
    cases f with
    | mk id params hoisted body =>
      show toNode _ = _
      rw [toNode, toNodes_eq_map]
      rfl
  origin_of_ofNode? := origin_of_ofNode?

end Func

end TreeSchema.Specimen
