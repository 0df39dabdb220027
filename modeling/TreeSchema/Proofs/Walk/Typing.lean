import TreeSchema.Binding
import TreeSchema.Proofs.Walk.Itinerary

/-!
# Well typed trees

A tree is well typed if every node of a registered tag answers for the fields of its schema, each in
the form of its kind and with children that the kind admits. Nothing is said about nodes of other
tags. Under a finished registry there are none below a registered root, so that no walk through such
a tree comes to a stop. What a field holds is said here once for all four variants of contents, and
the relations that place nodes in a tree go by that.
-/

namespace TreeSchema

set_option autoImplicit false

/-- Whether contents have the form that a kind asks for. -/
def FieldKind.fits : FieldKind → FieldValue Node → Bool
  | .scalar, .scalar _ => true
  | .child _, .node _ => true
  | .optionalChild _, .absent => true
  | .optionalChild _, .node _ => true
  | .sequence _, .nodes _ => true
  | .optionalSequence _, .absent => true
  | .optionalSequence _, .nodes _ => true
  | _, _ => false

namespace Registry

/-- Whether a node answers for a field in the form of its kind and with children that it admits. -/
def typesField (r : Registry) (n : Node) (f : FieldSchema) : Bool :=
  match n.field? f.name with
  | none => false
  | some value =>
    f.kind.fits value &&
      f.kind.target?.all fun target => value.children.all fun c => r.admits target c.tag

theorem typesField_iff (r : Registry) (n : Node) (f : FieldSchema) :
    r.typesField n f = true ↔ ∃ value, n.field? f.name = some value ∧ f.kind.fits value = true ∧
      ∀ target ∈ f.kind.target?, ∀ c ∈ value.children, r.admits target c.tag = true := by
  unfold typesField
  cases n.field? f.name with
  | none => simp
  | some value => cases f.kind.target? <;> simp

end Registry

/-- The contents hold `c` at index `i`, said variant by variant. -/
def FieldValue.Holds {α : Type} : FieldValue α → Nat → α → Prop
  | .scalar _, _, _ => False
  | .absent, _, _ => False
  | .node child, i, c => i = 0 ∧ child = c
  | .nodes children, i, c => children[i]? = some c

theorem FieldValue.holds_iff {α : Type} {value : FieldValue α} {i : Nat} {c : α} :
    value.Holds i c ↔ value.children[i]? = some c := by
  cases value with
  | scalar _ => simp [Holds, children]
  | absent => simp [Holds, children]
  | node child => cases i <;> simp [Holds, children]
  | nodes children => exact Iff.rfl

namespace Node

def HoldsAt (n : Node) (key : String) (i : Nat) (c : Node) : Prop :=
  ∃ value, n.field? key = some value ∧ value.Holds i c

theorem holdsAt_iff {n c : Node} {key : String} {i : Nat} :
    n.HoldsAt key i c ↔ (n.childrenAt key)[i]? = some c := by
  unfold HoldsAt childrenAt
  cases n.field? key with
  | none => simp
  | some value => simp [FieldValue.holds_iff]

theorem HoldsAt.mem_childrenAt {n c : Node} {key : String} {i : Nat} (h : n.HoldsAt key i c) :
    c ∈ n.childrenAt key :=
  List.mem_of_getElem? (holdsAt_iff.mp h)

theorem childrenAt_of_field? {n : Node} {name : String} {value : FieldValue Node}
    (h : n.field? name = some value) : n.childrenAt name = value.children := by
  simp [childrenAt, h]

/-- The node `n` stands at `place` in the tree of `root`, whatever the fields on the way. -/
inductive Occurs (root : Node) : Place → Node → Prop where
  | root : Occurs root .root root
  | child {place : Place} {n c : Node} {key : String} {i : Nat} : Occurs root place n →
      n.HoldsAt key i c → Occurs root (place.child key i) c

theorem mem_of_mem_childrenAt {n c : Node} {key : String} (h : c ∈ n.childrenAt key) :
    c ∈ n.fields.flatMap (·.2.children) := by
  unfold childrenAt at h
  split at h
  · rename_i value hv
    exact List.mem_flatMap.mpr ⟨(key, value), mem_fields_of_lookup hv, h⟩
  · cases h

theorem Occurs.eq_or_below {root n : Node} {place : Place} (h : root.Occurs place n) :
    n = root ∨ ∃ c ∈ root.fields.flatMap (·.2.children), ∃ below, c.Occurs below n := by
  induction h with
  | root => exact .inl rfl
  | @child place n c key i _ hc ih =>
    rcases ih with rfl | ⟨top, hTop, below, hBelow⟩
    · exact .inr ⟨c, mem_of_mem_childrenAt hc.mem_childrenAt, .root, .root⟩
    · exact .inr ⟨top, hTop, below.child key i, hBelow.child hc⟩

end Node

inductive WellTyped (r : Registry) : Node → Prop where
  | intro {n : Node}
      (fields : ∀ s, r.lookup n.tag = .ok s → ∀ f ∈ s.fields, r.typesField n f = true)
      (children : ∀ s, r.lookup n.tag = .ok s → ∀ f ∈ s.fields, ∀ c ∈ n.childrenAt f.name,
        WellTyped r c) : WellTyped r n

theorem WellTyped.of_lookup {r : Registry} {n : Node} {s : NodeSchema}
    (hs : r.lookup n.tag = .ok s) (fields : ∀ f ∈ s.fields, r.typesField n f = true)
    (children : ∀ c ∈ s.fields.flatMap fun f => n.childrenAt f.name, WellTyped r c) :
    WellTyped r n := by
  constructor
  · intro s' hs'
    rw [hs] at hs'
    cases hs'
    exact fields
  · intro s' hs' f hf c hc
    rw [hs] at hs'
    cases hs'
    exact children c (List.mem_flatMap.mpr ⟨f, hf, hc⟩)

/-- A well typed tree in which no node of a registered tag has a field besides those of its
schema. -/
structure ExactlyTyped (r : Registry) (root : Node) : Prop where
  typed : WellTyped r root
  noOther : ∀ place n, root.Occurs place n → ∀ s, r.lookup n.tag = .ok s →
    ∀ name, (n.field? name).isSome = true → ∃ f ∈ s.fields, f.name = name

theorem ExactlyTyped.of_lookup {r : Registry} {n : Node} {s : NodeSchema}
    (hs : r.lookup n.tag = .ok s) (fields : ∀ f ∈ s.fields, r.typesField n f = true)
    (names : ∀ name ∈ n.fields.map (·.1), ∃ f ∈ s.fields, f.name = name)
    (children : ∀ c ∈ n.fields.flatMap (·.2.children), ExactlyTyped r c) : ExactlyTyped r n where
  typed := by
    refine .of_lookup hs fields fun c hc => ?_
    obtain ⟨f, _, hc⟩ := List.mem_flatMap.mp hc
    exact (children c (Node.mem_of_mem_childrenAt hc)).typed
  noOther := by
    intro place m hm s' hs' name hName
    rcases hm.eq_or_below with rfl | ⟨c, hc, below, hBelow⟩
    · rw [hs] at hs'
      cases hs'
      obtain ⟨value, hv⟩ := Option.isSome_iff_exists.mp hName
      exact names name (List.mem_map_of_mem (f := (·.1)) (Node.mem_fields_of_lookup hv))
    · exact (children c hc).noOther below m hBelow s' hs' name hName

theorem Registry.childrenAt_of_scalar {r : Registry} {n : Node} {f : FieldSchema}
    (ht : r.typesField n f = true) (hk : f.kind = .scalar) : n.childrenAt f.name = [] := by
  obtain ⟨value, hv, hFits, _⟩ := (r.typesField_iff n f).mp ht
  rw [hk] at hFits
  rw [Node.childrenAt_of_field? hv]
  cases value with
  | scalar _ => rfl
  | absent => rfl
  | node _ => cases hFits
  | nodes _ => cases hFits

/-- The children of a typed field have registered tags, since finishing has checked what the field
refers to and the members of the groups among that. -/
theorem Registry.contains_of_typesField {r : Registry} (hr : r.tables.Closed) {n : Node}
    {s : NodeSchema} (hs : r.lookup n.tag = .ok s) {f : FieldSchema} (hf : f ∈ s.fields)
    (ht : r.typesField n f = true) {c : Node} (hc : c ∈ n.childrenAt f.name) :
    r.contains c.tag = true := by
  cases hTarget : f.kind.target? with
  | none =>
    have hKind : f.kind = .scalar := by
      cases hk : f.kind <;> simp [hk, FieldKind.target?] at hTarget ⊢
    rw [childrenAt_of_scalar ht hKind] at hc
    cases hc
  | some target =>
    obtain ⟨value, hv, _, hAdmits⟩ := (r.typesField_iff n f).mp ht
    rw [Node.childrenAt_of_field? hv] at hc
    exact contains_of_admits hr hs hf hTarget (hAdmits target hTarget c hc)

theorem WellTyped.no_stop {r : Registry} (hr : r.tables.Closed) {n : Node} (ht : WellTyped r n)
    (hn : r.contains n.tag = true) (place : Place) (e : SchemaError) :
    .stop e ∉ Walk.itinerary r place n := by
  induction ht generalizing place with
  | @intro n fields children ih =>
    obtain ⟨s, hs⟩ := (r.contains_iff n.tag).mp hn
    rw [Walk.itinerary_open hs]
    intro hm
    rcases List.mem_cons.mp hm with hm | hm
    · cases hm
    · obtain ⟨key, hKey, hm⟩ := List.mem_flatMap.mp hm
      obtain ⟨f, hf, rfl⟩ := NodeSchema.exists_field_of_mem_visitorKeys hKey
      have hTyped := fields s hs f hf
      obtain ⟨value, hv, _, _⟩ := (r.typesField_iff n f).mp hTyped
      simp only [Walk.fieldItinerary, hv] at hm
      rcases List.mem_cons.mp hm with hm | hm
      · cases hm
      · obtain ⟨⟨c, i⟩, hc, hm⟩ := List.mem_flatMap.mp hm
        have hChild : c ∈ n.childrenAt f.name := by
          rw [Node.childrenAt_of_field? hv]
          exact List.fst_mem_of_mem_zipIdx hc
        have hRegistered := Registry.contains_of_typesField hr hs hf hTyped hChild
        exact ih s hs f hf c hChild hRegistered _ hm

theorem BindingSite.collector_thorough (r : Registry) : (collector r).Thorough r where
  node place n state := by
    cases hs : r.lookup n.tag with
    | error e => exact .inr ⟨e, rfl, by simp [collector, ofNode, hs]⟩
    | ok s => exact .inl (by simp [collector, ofNode, hs])
  field _ _ _ _ _ := rfl

theorem BindingSite.collect_eq_ok {r : Registry} {root : Node}
    (h : Moment.ending (Walk.itinerary r .root root) = .ok ()) :
    ∃ sites, collect r root = .ok sites := by
  unfold collect collectInto
  rw [Walk.tree_of_thorough (collector_thorough r), h]
  exact ⟨_, rfl⟩

/-- Under a finished registry, nothing stops a walk through a well typed tree with a registered
root: neither the recorder's nor the collector's. -/
theorem walks_succeed_of_wellTyped {options : ValidationOptions} {calls : List Call} {r : Registry}
    (hr : (Builder.after options calls).finish = .ok r) {root : Node}
    (hRoot : r.contains root.tag = true) (ht : WellTyped r root) :
    (Walk.tree recorder r root #[]).result = .ok () ∧
      ∃ sites, BindingSite.collect r root = .ok sites := by
  obtain ⟨_, hClosed, _⟩ := Builder.tables_of_finish hr
  have hEnding : Moment.ending (Walk.itinerary r .root root) = .ok () :=
    (Moment.ending_eq_ok_iff _).mpr (ht.no_stop hClosed hRoot .root)
  exact ⟨(Walk.tree_recorder r root).1.trans hEnding, BindingSite.collect_eq_ok hEnding⟩

def pairNode (first : Node) (rest : FieldValue Node) : Node :=
  ⟨.loose "Pair", [("mark", .scalar (.flag true)), ("first", .node first), ("rest", rest)]⟩

/-- A pair with more in its field `rest`: a pair that ends there, and a name. -/
def nestedPair : Node :=
  pairNode (nameNode "a") (.nodes [pairNode (nameNode "b") .absent, nameNode "c"])

theorem nestedPair_exactlyTyped : ExactlyTyped pairRegistry nestedPair := by
  have hName (text : String) : ExactlyTyped pairRegistry (nameNode text) := by
    refine .of_lookup (s := pairRegistry.tables.shapes[0]) rfl ?_ ?_ (List.forall_mem_nil _)
    · intro f hf
      rcases List.mem_singleton.mp hf with rfl
      rfl
    · intro name hName
      rcases List.mem_singleton.mp hName with rfl
      exact ⟨_, List.mem_cons_self, rfl⟩
  refine .of_lookup (s := pairRegistry.tables.shapes[1]) rfl (by decide) (by decide) ?_
  refine List.forall_mem_cons.mpr ⟨hName "a", List.forall_mem_cons.mpr ⟨?_, ?_⟩⟩
  · refine .of_lookup (s := pairRegistry.tables.shapes[1]) rfl (by decide) (by decide) ?_
    exact List.forall_mem_cons.mpr ⟨hName "b", List.forall_mem_nil _⟩
  · exact List.forall_mem_cons.mpr ⟨hName "c", List.forall_mem_nil _⟩

theorem walks_succeed_of_nestedPair :
    pairRegistry.contains nestedPair.tag = true ∧
      (Walk.tree recorder pairRegistry nestedPair #[]).result = .ok () :=
  ⟨by decide,
    (walks_succeed_of_wellTyped finish_pairCalls (by decide) nestedPair_exactlyTyped.typed).1⟩

end TreeSchema
