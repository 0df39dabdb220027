import TreeSchema.Proofs.Walk.Coverage

/-!
# Where a walk comes by

A walk reaches what stands below its root along visitor keys. If it can open every node that it
reaches, which is to say that the tag is registered and the node answers for each visitor key, then
nothing stops it.
-/

namespace TreeSchema

set_option autoImplicit false

namespace Registry

/-- The node `n` stands at `place` in the tree of `root`, and every field on the way is a visitor
key. -/
inductive Reaches (r : Registry) (root : Node) : Place → Node → Prop where
  | root : Reaches r root .root root
  | child {place : Place} {n c : Node} {s : NodeSchema} {key : String} {i : Nat} :
      Reaches r root place n → r.lookup n.tag = .ok s → key ∈ s.visitorKeys →
      n.HoldsAt key i c → Reaches r root (place.child key i) c

theorem visitorKeys_nodup {options : ValidationOptions} {r : Registry}
    (hr : r.tables.Validated options) (tag : String) : (r.visitorKeys tag).Nodup := by
  cases hs : r.lookup tag with
  | error e =>
    rw [visitorKeys_of_unknown hs]
    exact List.nodup_nil
  | ok s =>
    have hShape := mem_shapes_of_lookup hs
    rw [visitorKeys_of_lookup hs, hr.visitorKeys_eq hShape]
    exact (hr.fieldNames_nodup hShape).sublist (List.filter_sublist.map _)

theorem exists_lookup_of_mem_visitorKeys {r : Registry} {tag key : String}
    (h : key ∈ r.visitorKeys tag) : ∃ s, r.lookup tag = .ok s ∧ key ∈ s.visitorKeys := by
  cases hs : r.lookup tag with
  | error e =>
    rw [visitorKeys_of_unknown hs] at h
    cases h
  | ok s =>
    rw [visitorKeys_of_lookup hs] at h
    exact ⟨s, rfl, h⟩

theorem Reaches.of_mem_preorder {r : Registry} {root : Node} {place p : Place} {n m : Node}
    (hn : r.Reaches root place n)
    (hm : (p, m) ∈ n.preorder (fun n => r.visitorKeys n.tag) place) : r.Reaches root p m := by
  induction place, n using Node.place_induction with
  | step place n ih =>
    rcases Node.mem_preorder_iff.mp hm with ⟨rfl, rfl⟩ | ⟨key, hk, i, c, hc, hm⟩
    · exact hn
    · obtain ⟨s, hs, hKey⟩ := exists_lookup_of_mem_visitorKeys hk
      exact ih key i c hc (hn.child hs hKey (Node.holdsAt_iff.mpr hc)) hm

theorem mem_preorder_iff_reaches {r : Registry} {root n : Node} {place : Place} :
    (place, n) ∈ root.preorder (fun n => r.visitorKeys n.tag) .root ↔ r.Reaches root place n := by
  constructor
  · intro h
    exact .of_mem_preorder .root h
  · intro h
    induction h with
    | root => exact Node.mem_preorder_iff.mpr (.inl ⟨rfl, rfl⟩)
    | child _ hs hKey hc ih =>
      apply Node.child_mem_preorder ih _ hc
      rw [visitorKeys_of_lookup hs]
      exact hKey

end Registry

/-- The tag is registered, and the node answers for every visitor key of its schema. -/
def Registry.Opens (r : Registry) (n : Node) : Prop :=
  ∃ s, r.lookup n.tag = .ok s ∧ ∀ key ∈ s.visitorKeys, (n.field? key).isSome = true

theorem Walk.ending_eq_ok_of_opens {r : Registry} {place : Place} {n : Node}
    (h : ∀ p m, (p, m) ∈ n.preorder (fun n => r.visitorKeys n.tag) place → r.Opens m) :
    Moment.ending (itinerary r place n) = .ok () := by
  rw [Moment.ending_eq_ok_iff]
  intro e
  induction place, n using Node.place_induction with
  | step place n ih =>
    obtain ⟨s, hs, hAnswers⟩ := h place n (Node.mem_preorder_iff.mpr (.inl ⟨rfl, rfl⟩))
    rw [itinerary_open hs]
    intro hm
    rcases List.mem_cons.mp hm with hm | hm
    · cases hm
    · obtain ⟨key, hKey, hm⟩ := List.mem_flatMap.mp hm
      obtain ⟨value, hv⟩ := Option.isSome_iff_exists.mp (hAnswers key hKey)
      simp only [fieldItinerary, hv] at hm
      rcases List.mem_cons.mp hm with hm | hm
      · cases hm
      · obtain ⟨⟨c, i⟩, hc, hm⟩ := List.mem_flatMap.mp hm
        have hChild : (n.childrenAt key)[i]? = some c := by
          rw [Node.childrenAt_of_field? hv]
          exact List.mem_zipIdx_iff_getElem?.mp hc
        refine ih key i c hChild ?_ hm
        intro p m hBelow
        apply h p m
        apply Node.mem_preorder_iff.mpr
        rw [Registry.visitorKeys_of_lookup hs]
        exact .inr ⟨key, hKey, i, c, hChild, hBelow⟩

end TreeSchema
