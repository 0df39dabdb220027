import Mathlib.Data.List.Forall2
import TreeSchema.Proofs.Walk.Collection

/-!
# What a walk does not look at

Two trees agree if they look the same along the visitor keys: the same tags, the same keys answered
for, and as many nodes in each. Their walks come by moments that are alike, one by one. So a visitor
that keeps tags ends in the same way on both, whatever the other fields hold. The collector also
reads the fields that bind, and ends in the same way if these hold the same tags.
-/

namespace TreeSchema

set_option autoImplicit false

section Lists

variable {α β γ : Type} {R : α → β → Prop} {xs : List α} {ys : List β}

theorem flatMap_eq_of_forall₂ {f : α → List γ} {g : β → List γ} (h : List.Forall₂ R xs ys)
    (hfg : ∀ x ∈ xs, ∀ y ∈ ys, R x y → f x = g y) : xs.flatMap f = ys.flatMap g := by
  induction h with
  | nil => rfl
  | @cons x y xs ys hxy _ ih =>
    rw [List.flatMap_cons, List.flatMap_cons,
      hfg x List.mem_cons_self y List.mem_cons_self hxy]
    congr 1
    apply ih
    intro x' hx' y' hy'
    exact hfg x' (List.mem_cons_of_mem x hx') y' (List.mem_cons_of_mem y hy')

theorem forall₂_zipIdx (hl : xs.length = ys.length)
    (h : ∀ (i : Nat) x y, xs[i]? = some x → ys[i]? = some y → R x y) :
    List.Forall₂ (fun x y => x.2 = y.2 ∧ R x.1 y.1) xs.zipIdx ys.zipIdx := by
  apply List.forall₂_iff_get.mpr
  refine ⟨by simpa using hl, ?_⟩
  intro i hx hy
  rw [List.length_zipIdx] at hx hy
  simp only [List.get_eq_getElem, List.getElem_zipIdx, true_and]
  exact h i _ _ (List.getElem?_eq_getElem hx) (List.getElem?_eq_getElem hy)

end Lists

namespace Registry

/-- Two nodes that look the same along visitor keys. What a field holds counts only as a list of
nodes, so that a node by itself is as good as a list of one. -/
inductive Agree (r : Registry) : Node → Node → Prop where
  | intro {m n : Node} (tag : m.tag = n.tag)
      (answers : ∀ s, r.lookup m.tag = .ok s → ∀ key ∈ s.visitorKeys,
        (m.field? key).isSome = (n.field? key).isSome)
      (lengths : ∀ s, r.lookup m.tag = .ok s → ∀ key ∈ s.visitorKeys,
        (m.childrenAt key).length = (n.childrenAt key).length)
      (children : ∀ s, r.lookup m.tag = .ok s → ∀ key ∈ s.visitorKeys, ∀ (i : Nat) c d,
        (m.childrenAt key)[i]? = some c → (n.childrenAt key)[i]? = some d → Agree r c d) :
      Agree r m n

def BindsAlike (r : Registry) (m n : Node) : Prop :=
  ∀ s, r.lookup m.tag = .ok s → ∀ key ∈ s.bindingKeys,
    (m.childrenAt key.1).map (·.tag) = (n.childrenAt key.1).map (·.tag)

end Registry

namespace Moment

inductive Alike : Moment → Moment → Prop where
  | node {place : Place} {m n : Node} : m.tag = n.tag →
      Alike (.look (.node place m)) (.look (.node place n))
  | field {place : Place} {m n : Node} {key : String} {value value' : FieldValue Node} :
      Alike (.look (.field place m key value)) (.look (.field place n key value'))
  | stop (e : SchemaError) : Alike (.stop e) (.stop e)

variable {ms ns : List Moment}

theorem ending_eq_of_alike (h : List.Forall₂ Alike ms ns) : ending ms = ending ns := by
  induction h with
  | nil => rfl
  | cons hm _ ih =>
    cases hm with
    | node _ => exact ih
    | field => exact ih
    | stop e => rfl

theorem visits_alike (h : List.Forall₂ Alike ms ns) :
    List.Forall₂ (fun x y => x.1 = y.1 ∧ x.2.tag = y.2.tag)
      ((looks ms).filterMap Look.visit?) ((looks ns).filterMap Look.visit?) := by
  induction h with
  | nil => exact .nil
  | cons hm _ ih =>
    cases hm with
    | node hTag => exact .cons ⟨rfl, hTag⟩ ih
    | field => exact ih
    | stop e => exact .nil

end Moment

theorem Place.child_inj {p q : Place} {key key' : String} {i i' : Nat}
    (h : p.child key i = q.child key' i') : p = q ∧ key = key' ∧ i = i' := by
  have hSteps := congrArg Place.steps h
  simp only [child_steps, List.cons.injEq, Step.mk.injEq] at hSteps
  exact ⟨Place.ext hSteps.2, hSteps.1⟩

section Walks

variable {r : Registry} {a b : Node}

theorem Registry.Agree.itinerary (h : r.Agree a b) (place : Place) :
    List.Forall₂ Moment.Alike (Walk.itinerary r place a) (Walk.itinerary r place b) := by
  induction h generalizing place with
  | @intro m n tag answers lengths _ ih =>
    cases hs : r.lookup m.tag with
    | error e =>
      rw [Walk.itinerary_unknown hs, Walk.itinerary_unknown (tag ▸ hs)]
      exact .cons (.node tag) (.cons (.stop e) .nil)
    | ok s =>
      rw [Walk.itinerary_open hs, Walk.itinerary_open (tag ▸ hs)]
      refine .cons (.node tag) ?_
      have hKeys : List.Forall₂ (fun key key' => key = key' ∧ key ∈ s.visitorKeys)
          s.visitorKeys s.visitorKeys :=
        List.forall₂_same.mpr fun key hk => ⟨rfl, hk⟩
      refine List.rel_flatMap hKeys ?_
      rintro key _ ⟨rfl, hk⟩
      have hAnswers := answers s hs key hk
      have hChildren := forall₂_zipIdx (lengths s hs key hk) (ih s hs key hk)
      unfold Walk.fieldItinerary
      cases hm : m.field? key with
      | none =>
        have hn : n.field? key = none := by simpa [hm] using hAnswers
        rw [hn]
        exact .cons (.stop _) .nil
      | some value =>
        obtain ⟨value', hn⟩ : ∃ value', n.field? key = some value' := by
          simpa [hm, Option.isSome_iff_exists] using hAnswers.symm
        rw [hn]
        rw [Node.childrenAt_of_field? hm, Node.childrenAt_of_field? hn] at hChildren
        refine .cons .field (List.rel_flatMap hChildren ?_)
        rintro ⟨c, i⟩ ⟨d, _⟩ ⟨rfl, hcd⟩
        exact hcd _

theorem Registry.Agree.of_reaches (h : r.Agree a b) {place : Place} {m n : Node}
    (hm : r.Reaches a place m) (hn : r.Reaches b place n) : r.Agree m n := by
  -- A place spells out the way to it, so the second way down takes the same steps as the first.
  induction hm generalizing n with
  | root =>
    generalize hp : Place.root = place at hn
    cases hn with
    | root => exact h
    | child => cases congrArg Place.steps hp
  | @child place m c s key i _ hs hk hc ih =>
    generalize hp : place.child key i = place' at hn
    cases hn with
    | root => cases congrArg Place.steps hp
    | child hn _ _ hd =>
      obtain ⟨rfl, rfl, rfl⟩ := Place.child_inj hp
      cases ih hn with
      | intro _ _ _ children =>
        rw [Node.holdsAt_iff] at hc hd
        exact children s hs key hk i c n hc hd

theorem Registry.Agree.of_lookup {s : NodeSchema} (hs : r.lookup a.tag = .ok s)
    (tag : a.tag = b.tag)
    (answers : ∀ key ∈ s.visitorKeys, (a.field? key).isSome = (b.field? key).isSome)
    (children : ∀ key ∈ s.visitorKeys,
      List.Forall₂ r.Agree (a.childrenAt key) (b.childrenAt key)) : r.Agree a b := by
  refine .intro tag ?_ ?_ ?_
  · intro s' hs'
    obtain rfl : s = s' := Except.ok.inj (hs.symm.trans hs')
    exact answers
  · intro s' hs' key hk
    obtain rfl : s = s' := Except.ok.inj (hs.symm.trans hs')
    exact (children key hk).length_eq
  · intro s' hs' key hk i c d hc hd
    obtain rfl : s = s' := Except.ok.inj (hs.symm.trans hs')
    obtain ⟨hi, rfl⟩ := List.getElem?_eq_some_iff.mp hc
    obtain ⟨hj, rfl⟩ := List.getElem?_eq_some_iff.mp hd
    exact (children key hk).get hi hj

/-- Where a walk enters every field that binds, these fields hold the same tags anyway. -/
theorem Registry.Agree.bindsAlike (h : r.Agree a b)
    (hKeys : ∀ s, r.lookup a.tag = .ok s → ∀ key ∈ s.bindingKeys, key.1 ∈ s.visitorKeys) :
    r.BindsAlike a b := by
  intro s hs key hk
  cases h with
  | intro _ _ lengths children =>
    have hVisited := hKeys s hs key hk
    apply List.ext_getElem
    · simpa using lengths s hs key.1 hVisited
    · intro i hi hj
      rw [List.length_map] at hi hj
      have hChild := children s hs key.1 hVisited i _ _ (List.getElem?_eq_getElem hi)
        (List.getElem?_eq_getElem hj)
      cases hChild with
      | intro tag => simpa using tag

theorem tagRecorder_thorough (r : Registry) : tagRecorder.Thorough r where
  node _ _ _ := .inl rfl
  field _ _ _ _ _ := rfl

theorem tagRecorder_note (l : Look) (tags : Array String) :
    tagRecorder.note l tags = tags ++ (l.visit?.toList.flatMap fun o => [o.2.tag]).toArray := by
  cases l <;> simp [Visitor.note, tagRecorder, Look.visit?]

theorem Walk.openedTags_eq (r : Registry) (looks : List Look) :
    openedTags r looks = ((looks.filterMap Look.visit?).map (·.2.tag)).filter r.contains := by
  induction looks with
  | nil => rfl
  | cons l looks ih =>
    cases l with
    | field => exact ih
    | node place n =>
      unfold openedTags at ih ⊢
      cases hc : r.contains n.tag <;> simp [Look.visit?, hc, ih]

/-- All that a walk with the tag recorder answers is read off the tags that it has written down and
the way it ended. -/
theorem Walk.tree_tagRecorder (r : Registry) (root : Node) :
    let moments := itinerary r .root root
    let tags := ((Moment.looks moments).filterMap Look.visit?).map (·.2.tag)
    tree tagRecorder r root #[] =
      ⟨Moment.ending moments, tags.toArray, (tags.filter r.contains).toArray⟩ := by
  rw [tree_of_thorough (tagRecorder_thorough r), Visitor.foldl_note tagRecorder_note, openedTags_eq]
  simp [List.map_eq_flatMap]

end Walks

namespace BindingSite

def summary (site : BindingSite) : String × String × BindingKind × String :=
  (site.owner.tag, site.field, site.kind, site.node.tag)

theorem summary_ofField (place : Place) (owner : Node) (key : String × BindingKind) :
    (ofField place owner key).map summary =
      ((owner.childrenAt key.1).map (·.tag)).map fun tag => (owner.tag, key.1, key.2, tag) := by
  calc (ofField place owner key).map summary
      = ((owner.childrenAt key.1).zipIdx.map Prod.fst).map fun c =>
          (owner.tag, key.1, key.2, c.tag) := by
        rw [ofField, List.map_map, List.map_map]
        rfl
    _ = ((owner.childrenAt key.1).map (·.tag)).map fun tag =>
          (owner.tag, key.1, key.2, tag) := by
        rw [List.zipIdx_map_fst, List.map_map]
        rfl

theorem summaries_eq {r : Registry} {m n : Node} (ht : m.tag = n.tag) (hb : r.BindsAlike m n)
    (place : Place) : (r.sites place m).map summary = (r.sites place n).map summary := by
  cases hs : r.lookup m.tag with
  | error e => rw [Registry.sites_of_unknown hs, Registry.sites_of_unknown (ht ▸ hs)]
  | ok s =>
    rw [Registry.sites_of_lookup hs, Registry.sites_of_lookup (ht ▸ hs), ← flatMap_ofField,
      ← flatMap_ofField, List.map_flatMap, List.map_flatMap]
    apply List.flatMap_congr
    intro key hk
    rw [summary_ofField, summary_ofField, hb s hs key hk, ht]

end BindingSite

/-- Of two trees that agree along visitor keys, a walk that writes down tags gives the same account,
whatever the other fields hold. If the fields that bind hold the same tags wherever a walk comes by,
then the collections fail alike or have sites with the same owner tags, fields, kinds and node
tags. -/
theorem unvisited_fields_have_no_influence {r : Registry} {a b : Node} (h : r.Agree a b) :
    Walk.tree tagRecorder r a #[] = Walk.tree tagRecorder r b #[] ∧
    ((∀ place m n, r.Reaches a place m → r.Reaches b place n → r.BindsAlike m n) →
      (BindingSite.collect r a).map (List.map BindingSite.summary) =
        (BindingSite.collect r b).map (List.map BindingSite.summary)) := by
  have hMoments := h.itinerary .root
  have hEnding := Moment.ending_eq_of_alike hMoments
  have hVisits := Moment.visits_alike hMoments
  constructor
  · have hTags := List.rel_map (fun _ _ hxy => hxy.2) hVisits
    rw [List.forall₂_eq_eq_eq] at hTags
    rw [Walk.tree_tagRecorder, Walk.tree_tagRecorder, hEnding, hTags]
  · intro hBinds
    obtain ⟨hResultA, hStateA⟩ := Walk.tree_recorder r a
    obtain ⟨hResultB, hStateB⟩ := Walk.tree_recorder r b
    rw [BindingSite.collect_eq, BindingSite.collect_eq, hResultA, hResultB, hEnding]
    cases hOk : Moment.ending (Walk.itinerary r .root b) with
    | error e => rfl
    | ok _ =>
      rw [hEnding.trans hOk] at hResultA
      rw [hOk] at hResultB
      simp only [Except.map, List.map_flatMap, Except.ok.injEq]
      rw [← hStateA, ← hStateB] at hVisits
      apply flatMap_eq_of_forall₂ hVisits
      rintro ⟨place, m⟩ hm ⟨_, n⟩ hn ⟨rfl, hTag⟩
      rw [Walk.visits_recorder hResultA, Registry.mem_preorder_iff_reaches] at hm
      rw [Walk.visits_recorder hResultB, Registry.mem_preorder_iff_reaches] at hn
      exact BindingSite.summaries_eq hTag (hBinds place m n hm hn) place

/-- The nested pair again, with other contents in the fields that no walk enters. -/
def disguisedPair : Node :=
  ⟨.loose "Pair",
    [("rest", .nodes
      [⟨.loose "Pair", [("rest", .scalar (.flag false)), ("first", .nodes [nameNode "z"])]⟩,
       ⟨.loose "Name", []⟩]),
     ("first", .nodes [⟨.loose "Name", [("text", .node brokenPair)]⟩])]⟩

theorem nestedPair_agree : pairRegistry.Agree nestedPair disguisedPair := by
  have hName (m n : Node) (hm : m.tag = "Name") (hn : n.tag = "Name") :
      pairRegistry.Agree m n := by
    refine .of_lookup (s := pairRegistry.tables.shapes[0]) (by rw [hm]; rfl) (hm.trans hn.symm)
      ?_ ?_
    · exact List.forall_mem_nil _
    · exact List.forall_mem_nil _
  have hPair (m n : Node) (hm : m.tag = "Pair") (hn : n.tag = "Pair")
      (answers : ∀ key ∈ ["first", "rest"], (m.field? key).isSome = (n.field? key).isSome)
      (first : List.Forall₂ pairRegistry.Agree (m.childrenAt "first") (n.childrenAt "first"))
      (rest : List.Forall₂ pairRegistry.Agree (m.childrenAt "rest") (n.childrenAt "rest")) :
      pairRegistry.Agree m n := by
    refine .of_lookup (s := pairRegistry.tables.shapes[1]) (by rw [hm]; rfl) (hm.trans hn.symm)
      answers ?_
    exact List.forall_mem_cons.mpr ⟨first, List.forall_mem_cons.mpr ⟨rest, List.forall_mem_nil _⟩⟩
  have hInner : pairRegistry.Agree (pairNode (nameNode "b") .absent)
      ⟨.loose "Pair", [("rest", .scalar (.flag false)), ("first", .nodes [nameNode "z"])]⟩ :=
    hPair _ _ rfl rfl (by decide) (.cons (hName _ _ rfl rfl) .nil) .nil
  exact hPair _ _ rfl rfl (by decide) (.cons (hName _ _ rfl rfl) .nil)
    (.cons hInner (.cons (hName _ _ rfl rfl) .nil))

theorem disguisedPair_walks_as_nestedPair :
    pairRegistry.Agree nestedPair disguisedPair ∧
      Walk.tree tagRecorder pairRegistry nestedPair #[] =
        Walk.tree tagRecorder pairRegistry disguisedPair #[] ∧
      (BindingSite.collect pairRegistry nestedPair).map (List.map BindingSite.summary) =
        (BindingSite.collect pairRegistry disguisedPair).map (List.map BindingSite.summary) := by
  obtain ⟨hWalk, hCollect⟩ := unvisited_fields_have_no_influence nestedPair_agree
  refine ⟨nestedPair_agree, hWalk, hCollect ?_⟩
  intro place m n hm hn
  have hKeys : ∀ s ∈ pairRegistry.tables.shapes, ∀ key ∈ s.bindingKeys,
      key.1 ∈ s.visitorKeys := by decide
  apply (nestedPair_agree.of_reaches hm hn).bindsAlike
  intro s hs
  exact hKeys s (Registry.mem_shapes_of_lookup hs)

end TreeSchema
