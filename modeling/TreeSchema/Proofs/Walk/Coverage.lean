import TreeSchema.Proofs.Walk.Typing

/-!
# What a walk covers

The nodes of an itinerary are the tree in pre-order along the visitor keys. If a registry's lint has
left no child field unvisited, then in a well typed tree these are all nodes there are: a recording
walk visits every occurrence once, with the fields in the order of their declaration.
-/

namespace TreeSchema

set_option autoImplicit false

namespace Node

/-- The occurrences in the subtree of the node `n` that stands at `place`, in pre-order. At each node
the fields named by `keys` are gone through in that order. -/
def preorder (keys : Node → List String) (place : Place) (n : Node) : List (Place × Node) :=
  (place, n) :: (keys n).flatMap fun key =>
    (n.childrenAt key).zipIdx.attach.flatMap fun c => preorder keys (place.child key c.1.2) c.1.1
termination_by n
decreasing_by exact sizeOf_lt_of_mem_childrenAt (List.fst_mem_of_mem_zipIdx c.2)

theorem preorder_eq (keys : Node → List String) (place : Place) (n : Node) :
    preorder keys place n = (place, n) :: (keys n).flatMap fun key =>
      (n.childrenAt key).zipIdx.flatMap fun c => preorder keys (place.child key c.2) c.1 := by
  rw [preorder]
  congr 2
  funext key
  exact flatMap_attach_val (n.childrenAt key).zipIdx fun c =>
    preorder keys (place.child key c.2) c.1

theorem place_induction {motive : Place → Node → Prop}
    (step : ∀ place n, (∀ key i c, (n.childrenAt key)[i]? = some c →
      motive (place.child key i) c) → motive place n) (place : Place) (n : Node) :
    motive place n := by
  induction place, n using preorder.induct with
  | case1 place n ih =>
    apply step
    intro key i c hc
    exact ih key ⟨(c, i), List.mem_zipIdx_iff_getElem?.mpr hc⟩

variable {keys : Node → List String}

theorem mem_preorder_iff {place p : Place} {n m : Node} :
    (p, m) ∈ preorder keys place n ↔ (p = place ∧ m = n) ∨
      ∃ key ∈ keys n, ∃ i c, (n.childrenAt key)[i]? = some c ∧
        (p, m) ∈ preorder keys (place.child key i) c := by
  rw [preorder_eq]
  simp only [List.mem_cons, List.mem_flatMap, Prod.exists, List.mem_zipIdx_iff_getElem?,
    Prod.mk.injEq]
  constructor
  · rintro (h | ⟨key, hk, c, i, hc, h⟩)
    · exact .inl h
    · exact .inr ⟨key, hk, i, c, hc, h⟩
  · rintro (h | ⟨key, hk, i, c, hc, h⟩)
    · exact .inl h
    · exact .inr ⟨key, hk, c, i, hc, h⟩

theorem occurs_of_mem_preorder {root : Node} {place p : Place} {n m : Node}
    (hn : root.Occurs place n) (hm : (p, m) ∈ preorder keys place n) : root.Occurs p m := by
  induction place, n using place_induction with
  | step place n ih =>
    rcases mem_preorder_iff.mp hm with ⟨rfl, rfl⟩ | ⟨key, _, i, c, hc, hm⟩
    · exact hn
    · exact ih key i c hc (hn.child (holdsAt_iff.mpr hc)) hm

theorem child_mem_preorder {place p : Place} {n m c : Node} {key : String} {i : Nat}
    (hm : (p, m) ∈ preorder keys place n) (hk : key ∈ keys m)
    (hc : m.HoldsAt key i c) : (p.child key i, c) ∈ preorder keys place n := by
  induction place, n using place_induction with
  | step place n ih =>
    rcases mem_preorder_iff.mp hm with ⟨rfl, rfl⟩ | ⟨key', hk', i', c', hc', hm⟩
    · have hSelf : (p.child key i, c) ∈ preorder keys (p.child key i) c :=
        mem_preorder_iff.mpr (.inl ⟨rfl, rfl⟩)
      exact mem_preorder_iff.mpr (.inr ⟨key, hk, i, c, holdsAt_iff.mp hc, hSelf⟩)
    · exact mem_preorder_iff.mpr (.inr ⟨key', hk', i', c', hc', ih key' i' c' hc' hm⟩)

theorem steps_suffix_of_mem_preorder {place p : Place} {n m : Node}
    (hm : (p, m) ∈ preorder keys place n) : place.steps <:+ p.steps := by
  induction place, n using place_induction with
  | step place n ih =>
    rcases mem_preorder_iff.mp hm with ⟨rfl, rfl⟩ | ⟨key, _, i, c, hc, hm⟩
    · exact List.suffix_rfl
    · have hStep : place.steps <:+ (place.child key i).steps := List.suffix_cons _ _
      exact hStep.trans (ih key i c hc hm)

theorem ne_of_step_ne {place p q : Place} {a b : Step} (hp : a :: place.steps <:+ p.steps)
    (hq : b :: place.steps <:+ q.steps) (hab : a ≠ b) : p ≠ q := by
  rintro rfl
  have hBoth := List.suffix_of_suffix_length_le hp hq (by simp)
  have hEq := hBoth.eq_of_length (by simp)
  exact hab (List.cons.inj hEq).1

/-- No place is listed twice, if no field of a node is gone through twice. -/
theorem preorder_places_distinct (hKeys : ∀ n, (keys n).Nodup) (place : Place) (n : Node) :
    (preorder keys place n).Pairwise fun a b => a.1 ≠ b.1 := by
  induction place, n using place_induction with
  | step place n ih =>
    have hBelow {key : String} {c : Node × Nat} {x : Place × Node}
        (hx : x ∈ preorder keys (place.child key c.2) c.1) :
        ⟨key, c.2⟩ :: place.steps <:+ x.1.steps :=
      steps_suffix_of_mem_preorder hx
    rw [preorder_eq, List.pairwise_cons]
    constructor
    · intro x hx
      obtain ⟨key, _, hx⟩ := List.mem_flatMap.mp hx
      obtain ⟨c, _, hx⟩ := List.mem_flatMap.mp hx
      have hLength := (hBelow hx).length_le
      rintro rfl
      simp only [List.length_cons] at hLength
      omega
    · rw [List.pairwise_flatMap]
      constructor
      · intro key _
        rw [List.pairwise_flatMap]
        constructor
        · intro c hc
          exact ih key c.2 c.1 (List.mem_zipIdx_iff_getElem?.mp hc)
        · have hIndex : ((n.childrenAt key).zipIdx.map Prod.snd).Nodup := by
            rw [List.zipIdx_map_snd]
            exact List.nodup_range'
          refine (List.pairwise_map.mp hIndex).imp ?_
          intro c d hcd x hx y hy
          exact ne_of_step_ne (hBelow hx) (hBelow hy) fun h => hcd (Step.mk.inj h).2
      · refine (hKeys n).imp ?_
        intro key key' hne x hx y hy
        obtain ⟨c, _, hx⟩ := List.mem_flatMap.mp hx
        obtain ⟨d, _, hy⟩ := List.mem_flatMap.mp hy
        exact ne_of_step_ne (hBelow hx) (hBelow hy) fun h => hne (Step.mk.inj h).1

end Node

/-- The occurrence that a look shows, if it is at a node. -/
def Look.visit? : Look → Option (Place × Node)
  | .node place n => some (place, n)
  | .field .. => none

def Moment.visit? : Moment → Option (Place × Node)
  | .look l => l.visit?
  | .stop _ => none

theorem Registry.visitorKeys_of_unknown {r : Registry} {tag : String} {e : SchemaError}
    (h : r.lookup tag = .error e) : r.visitorKeys tag = [] := by
  unfold visitorKeys
  split
  · rename_i s hs
    rw [(r.lookup_eq_ok_iff tag s).mpr hs] at h
    cases h
  · rfl

/-- The nodes of an itinerary are the subtree in pre-order along the visitor keys, stops or not. -/
theorem Walk.visits_itinerary (r : Registry) (place : Place) (n : Node) :
    (itinerary r place n).filterMap Moment.visit? =
      n.preorder (fun n => r.visitorKeys n.tag) place := by
  induction place, n using Node.place_induction with
  | step place n ih =>
    rw [Node.preorder_eq]
    cases hs : r.lookup n.tag with
    | error e =>
      simp [itinerary_unknown hs, Registry.visitorKeys_of_unknown hs, Moment.visit?, Look.visit?]
    | ok s =>
      rw [itinerary_open hs, Registry.visitorKeys_of_lookup hs]
      simp only [List.filterMap_cons, Moment.visit?, Look.visit?, List.filterMap_flatMap]
      congr 1
      apply List.flatMap_congr
      intro key _
      unfold fieldItinerary Node.childrenAt
      cases hf : n.field? key with
      | none => simp [Moment.visit?]
      | some value =>
        simp only [List.filterMap_cons, Moment.visit?, Look.visit?, List.filterMap_flatMap]
        apply List.flatMap_congr
        rintro ⟨c, i⟩ hc
        apply ih key i c
        rw [Node.childrenAt_of_field? hf]
        exact List.mem_zipIdx_iff_getElem?.mp hc

theorem Walk.visits_recorder {r : Registry} {root : Node}
    (h : (tree recorder r root #[]).result = .ok ()) :
    (tree recorder r root #[]).state.toList.filterMap Look.visit? =
      root.preorder (fun n => r.visitorKeys n.tag) .root := by
  obtain ⟨hResult, hState⟩ := tree_recorder r root
  rw [hResult] at h
  calc (tree recorder r root #[]).state.toList.filterMap Look.visit?
      = ((Moment.looks (itinerary r .root root)).map Moment.look).filterMap Moment.visit? := by
        rw [hState, List.filterMap_map]
        rfl
    _ = (itinerary r .root root).filterMap Moment.visit? := by
        rw [← Moment.eq_map_looks h]
    _ = root.preorder (fun n => r.visitorKeys n.tag) .root := visits_itinerary r .root root

def Registry.fieldNames (r : Registry) (tag : String) : List String :=
  match r.tables.shape? tag with
  | some s => s.fields.map (·.name)
  | none => []

theorem Registry.fieldNames_of_lookup {r : Registry} {tag : String} {s : NodeSchema}
    (h : r.lookup tag = .ok s) : r.fieldNames tag = s.fields.map (·.name) := by
  simp [fieldNames, (r.lookup_eq_ok_iff tag s).mp h]

theorem Registry.fieldNames_nodup {options : ValidationOptions} {r : Registry}
    (hr : r.tables.Validated options) (tag : String) : (r.fieldNames tag).Nodup := by
  unfold fieldNames
  split
  · rename_i s hs
    exact hr.fieldNames_nodup (List.mem_of_find?_eq_some hs)
  · exact List.nodup_nil

theorem flatMap_filter_of_eq_nil {α β : Type} {p : α → Bool} {g : α → List β} {xs : List α}
    (h : ∀ x ∈ xs, p x = false → g x = []) : (xs.filter p).flatMap g = xs.flatMap g := by
  induction xs with
  | nil => rfl
  | cons x xs ih =>
    have hTail := ih fun y hy => h y (List.mem_cons_of_mem x hy)
    cases hp : p x with
    | true => simp [hp, hTail]
    | false => simp [hp, hTail, h x List.mem_cons_self hp]

section Coverage
variable {options : ValidationOptions} {calls : List Call} {r : Registry}

def Registry.VisitsChildren (r : Registry) : Prop :=
  ∀ tag s, r.lookup tag = .ok s → ∀ f ∈ s.fields, f.kind ≠ .scalar → f.visit = true

/-- In a well typed tree the fields that are not visited hold nothing, so that leaving them out does
not change the listing. -/
theorem WellTyped.preorder_visitorKeys (hClosed : r.tables.Closed)
    (hValidated : r.tables.Validated options) (hVisits : r.VisitsChildren) {n : Node}
    (ht : WellTyped r n) (hn : r.contains n.tag = true) (place : Place) :
    n.preorder (fun n => r.visitorKeys n.tag) place =
      n.preorder (fun n => r.fieldNames n.tag) place := by
  induction ht generalizing place with
  | @intro n fields children ih =>
    obtain ⟨s, hs⟩ := (r.contains_iff n.tag).mp hn
    have hShape := Registry.mem_shapes_of_lookup hs
    rw [Node.preorder_eq, Node.preorder_eq, Registry.visitorKeys_of_lookup hs,
      Registry.fieldNames_of_lookup hs, hValidated.visitorKeys_eq hShape, List.flatMap_map,
      List.flatMap_map]
    congr 1
    rw [flatMap_filter_of_eq_nil]
    · apply List.flatMap_congr
      intro f hf
      apply List.flatMap_congr
      rintro ⟨c, i⟩ hc
      have hChild := List.fst_mem_of_mem_zipIdx hc
      have hRegistered :=
        Registry.contains_of_typesField hClosed hs hf (fields s hs f hf) hChild
      exact ih s hs f hf c hChild hRegistered _
    · intro f hf hUnvisited
      have hScalar : f.kind = .scalar := by
        by_contra hk
        rw [hVisits n.tag s hs f hf hk] at hUnvisited
        cases hUnvisited
      rw [Registry.childrenAt_of_scalar (fields s hs f hf) hScalar]
      rfl

theorem ExactlyTyped.mem_preorder (hClosed : r.tables.Closed) {root : Node}
    (hRoot : r.contains root.tag = true) (ht : ExactlyTyped r root) {place : Place} {n : Node}
    (hn : root.Occurs place n) :
    WellTyped r n ∧ r.contains n.tag = true ∧
      (place, n) ∈ root.preorder (fun n => r.fieldNames n.tag) .root := by
  induction hn with
  | root => exact ⟨ht.typed, hRoot, Node.mem_preorder_iff.mpr (.inl ⟨rfl, rfl⟩)⟩
  | @child place n c key i hOccurs hc ih =>
    obtain ⟨⟨fields, children⟩, hRegistered, hListed⟩ := ih
    obtain ⟨s, hs⟩ := (r.contains_iff n.tag).mp hRegistered
    have hChild : c ∈ n.childrenAt key := hc.mem_childrenAt
    have hHeld : (n.field? key).isSome = true := by
      obtain ⟨value, hv, _⟩ := hc
      simp [hv]
    obtain ⟨f, hf, rfl⟩ := ht.noOther place n hOccurs s hs key hHeld
    refine ⟨children s hs f hf c hChild,
      Registry.contains_of_typesField hClosed hs hf (fields s hs f hf) hChild, ?_⟩
    apply Node.child_mem_preorder hListed _ hc
    rw [Registry.fieldNames_of_lookup hs]
    exact List.mem_map_of_mem hf

/-- If the lint refuses unvisited child fields, or warns and has had no cause to, then a recording
walk from a registered root visits all of a well typed tree: each occurrence once, in pre-order, with
the fields in the order of their declaration. -/
theorem recording_walk_covers_tree (hr : (Builder.after options calls).finish = .ok r)
    (hl : options.untraversedChild = .deny ∨
      options.untraversedChild = .warn ∧ (Builder.after options calls).tables.warnings = [])
    {root : Node} (hRoot : r.contains root.tag = true) (ht : ExactlyTyped r root) :
    let walk := Walk.tree recorder r root #[]
    let visited := walk.state.toList.filterMap Look.visit?
    walk.result = .ok () ∧ visited = root.preorder (fun n => r.fieldNames n.tag) .root ∧
      (visited.map (·.1)).Nodup ∧ ∀ place n, (place, n) ∈ visited ↔ root.Occurs place n := by
  obtain ⟨hTables, hClosed, hValidated⟩ := Builder.tables_of_finish hr
  have hVisits : r.VisitsChildren := by
    intro tag s hs f hf hk
    rw [← hTables] at hl
    exact hValidated.visit_of_child hl (Registry.mem_shapes_of_lookup hs) hf hk
  have hOk : (Walk.tree recorder r root #[]).result = .ok () := by
    rw [(Walk.tree_recorder r root).1, Moment.ending_eq_ok_iff]
    exact ht.typed.no_stop hClosed hRoot .root
  have hVisited := (Walk.visits_recorder hOk).trans
    (ht.typed.preorder_visitorKeys hClosed hValidated hVisits hRoot .root)
  refine ⟨hOk, hVisited, ?_, ?_⟩
  · rw [hVisited]
    apply List.pairwise_map.mpr
    exact Node.preorder_places_distinct (fun n => Registry.fieldNames_nodup hValidated n.tag)
      .root root
  · intro place n
    rw [hVisited]
    constructor
    · exact Node.occurs_of_mem_preorder .root
    · exact fun hn => (ht.mem_preorder hClosed hRoot hn).2.2

end Coverage

theorem recording_walk_covers_nestedPair :
    pairRegistry.contains nestedPair.tag = true ∧
      ∀ place n, (place, n) ∈ (Walk.tree recorder pairRegistry nestedPair #[]).state.toList.filterMap
        Look.visit? ↔ nestedPair.Occurs place n :=
  ⟨by decide, (recording_walk_covers_tree finish_pairCalls (.inl rfl) (by decide)
    nestedPair_exactlyTyped).2.2.2⟩

end TreeSchema
