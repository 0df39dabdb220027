import Mathlib.Data.List.Perm.Subperm
import TreeSchema.Proofs.Schema.Index
import TreeSchema.Proofs.Walk.Pruning

/-!
# Binding sites as occurrences

A site is known by the place of its owner, the field and the index in it. No site is gathered twice:
a walk comes to no place twice, the fields of a schema have distinct names, and each has at most one
binding kind. Where walks enter every field that binds, the sites are themselves visited. None of them
is the root, so that there are fewer sites than visits.
-/

namespace TreeSchema

set_option autoImplicit false

theorem NodeSchema.bindingKind?_of_mem {s : NodeSchema} (hs : (s.fields.map (·.name)).Nodup)
    {name : String} {kind : BindingKind} (h : (name, kind) ∈ s.bindingKeys) :
    s.bindingKind? name = some kind :=
  (bindingKind?_eq_some_iff hs name kind).mpr h

namespace BindingSite

/-- Where the child that declares stands. -/
def occurrence (site : BindingSite) : Place :=
  site.place.child site.field site.index

theorem ofField_distinct (place : Place) (owner : Node) (key : String × BindingKind) :
    (ofField place owner key).Pairwise fun a b => a.occurrence ≠ b.occurrence := by
  have hIndex : ((owner.childrenAt key.1).zipIdx.map Prod.snd).Nodup := by
    rw [List.zipIdx_map_snd]
    exact List.nodup_range'
  apply List.pairwise_map.mpr
  apply (List.pairwise_map.mp hIndex).imp
  intro c d hne hEq
  exact hne (Place.child_inj hEq).2.2

theorem of_mem_ofField {place : Place} {owner : Node} {key : String × BindingKind}
    {site : BindingSite} (h : site ∈ ofField place owner key) :
    site.place = place ∧ site.field = key.1 := by
  obtain ⟨c, _, rfl⟩ := List.mem_map.mp h
  exact ⟨rfl, rfl⟩

section Collections

variable {options : ValidationOptions} {r : Registry} {root : Node} {sites : List BindingSite}

theorem sites_distinct (hr : r.tables.Validated options) (place : Place) (n : Node) :
    (r.sites place n).Pairwise fun a b => a.occurrence ≠ b.occurrence := by
  cases hs : r.lookup n.tag with
  | error e =>
    rw [Registry.sites_of_unknown hs]
    exact .nil
  | ok s =>
    have hNames := hr.fieldNames_nodup (Registry.mem_shapes_of_lookup hs)
    rw [Registry.sites_of_lookup hs, ← flatMap_ofField]
    apply List.pairwise_flatMap.mpr
    refine ⟨fun key _ => ofField_distinct place n key, ?_⟩
    apply (NodeSchema.bindingKeys_distinct hNames).imp
    intro key key' hne a ha b hb hEq
    apply hne
    rw [← (of_mem_ofField ha).2, ← (of_mem_ofField hb).2]
    exact (Place.child_inj hEq).2.1

theorem collect_eq_ok_iff :
    collect r root = .ok sites ↔ (Walk.tree recorder r root #[]).result = .ok () ∧
      sites = (root.preorder (fun n => r.visitorKeys n.tag) .root).flatMap fun o =>
        r.sites o.1 o.2 := by
  rw [collect_eq]
  cases hw : (Walk.tree recorder r root #[]).result with
  | error e => simp [Except.map]
  | ok _ => simp [Except.map, Walk.visits_recorder hw, eq_comm]

theorem occurrences_distinct (hr : r.tables.Validated options) (h : collect r root = .ok sites) :
    sites.Pairwise fun a b => a.occurrence ≠ b.occurrence := by
  obtain ⟨_, rfl⟩ := collect_eq_ok_iff.mp h
  apply List.pairwise_flatMap.mpr
  refine ⟨fun o _ => sites_distinct hr o.1 o.2, ?_⟩
  have hPlaces := Node.preorder_places_distinct
    (fun n => Registry.visitorKeys_nodup hr n.tag) .root root
  apply hPlaces.imp
  intro o o' hne a ha b hb hEq
  apply hne
  rw [← (mem_sites_iff.mp ha).1, ← (mem_sites_iff.mp hb).1]
  exact (Place.child_inj hEq).1

theorem of_mem_collect (h : collect r root = .ok sites) {site : BindingSite} (hSite : site ∈ sites) :
    r.Reaches root site.place site.owner ∧ ∃ s, r.lookup site.owner.tag = .ok s ∧
      (site.field, site.kind) ∈ s.bindingKeys ∧
      (site.owner.childrenAt site.field)[site.index]? = some site.node := by
  obtain ⟨_, rfl⟩ := collect_eq_ok_iff.mp h
  obtain ⟨⟨place, n⟩, hn, hSite⟩ := List.mem_flatMap.mp hSite
  obtain ⟨rfl, rfl, hKey⟩ := mem_sites_iff.mp hSite
  exact ⟨Registry.mem_preorder_iff_reaches.mp hn, hKey⟩

/-- Where walks enter every field that binds, they come by the sites. -/
theorem reaches_of_mem_collect
    (hKeys : ∀ tag s, r.lookup tag = .ok s → ∀ key ∈ s.bindingKeys, key.1 ∈ s.visitorKeys)
    (h : collect r root = .ok sites) {site : BindingSite} (hSite : site ∈ sites) :
    r.Reaches root site.occurrence site.node := by
  obtain ⟨hOwner, s, hs, hKey, hNode⟩ := of_mem_collect h hSite
  exact hOwner.child hs (hKeys _ s hs _ hKey) (Node.holdsAt_iff.mpr hNode)

theorem occurrence_ne_root (site : BindingSite) : site.occurrence ≠ .root := by
  intro hEq
  cases congrArg Place.steps hEq

/-- A collection has each site once, and with the binding kind of its field. If every binding key is
also a visitor key, then the walk visits the sites, which therefore have registered tags, and there
are fewer of them than nodes visited. -/
theorem sites_are_distinct_occurrences {calls : List Call}
    (hr : (Builder.after options calls).finish = .ok r) (h : collect r root = .ok sites) :
    (sites.map (·.occurrence)).Nodup ∧
    (∀ site ∈ sites, root.Occurs site.place site.owner ∧
      (site.owner.childrenAt site.field)[site.index]? = some site.node ∧
      ∃ s, r.lookup site.owner.tag = .ok s ∧ s.bindingKind? site.field = some site.kind) ∧
    ((∀ tag s, r.lookup tag = .ok s → ∀ key ∈ s.bindingKeys, key.1 ∈ s.visitorKeys) →
      let visited := (Walk.tree recorder r root #[]).state.toList.filterMap Look.visit?
      (∀ site ∈ sites, (site.occurrence, site.node) ∈ visited ∧ site.occurrence ≠ .root ∧
        r.contains site.node.tag = true) ∧
      sites.length < visited.length) := by
  obtain ⟨_, _, hValidated⟩ := Builder.tables_of_finish hr
  have hDistinct : (sites.map (·.occurrence)).Nodup :=
    List.pairwise_map.mpr (occurrences_distinct hValidated h)
  refine ⟨hDistinct, ?_, ?_⟩
  · intro site hSite
    obtain ⟨hOwner, s, hs, hKey, hNode⟩ := of_mem_collect h hSite
    have hNames := hValidated.fieldNames_nodup (Registry.mem_shapes_of_lookup hs)
    refine ⟨?_, hNode, s, hs, NodeSchema.bindingKind?_of_mem hNames hKey⟩
    exact Node.occurs_of_mem_preorder .root (Registry.mem_preorder_iff_reaches.mpr hOwner)
  · intro hKeys visited
    have hOk := (collect_eq_ok_iff.mp h).1
    have hVisited : ∀ place n, (place, n) ∈ visited ↔ r.Reaches root place n := by
      intro place n
      rw [← Registry.mem_preorder_iff_reaches, ← Walk.visits_recorder hOk]
    constructor
    · intro site hSite
      have hReached := reaches_of_mem_collect hKeys h hSite
      refine ⟨(hVisited _ _).mpr hReached, site.occurrence_ne_root, ?_⟩
      cases hl : r.lookup site.node.tag with
      | ok s => exact Registry.contains_of_lookup hl
      | error e => exact absurd (.unknown hl) (Walk.no_fault hOk hReached e)
    · -- The root and the sites are visited, each at a place of its own.
      have hPlaces : (Place.root :: sites.map (·.occurrence)).Nodup := by
        refine List.nodup_cons.mpr ⟨?_, hDistinct⟩
        intro hRoot
        obtain ⟨site, _, hEq⟩ := List.mem_map.mp hRoot
        exact site.occurrence_ne_root hEq
      have hSubset : Place.root :: sites.map (·.occurrence) ⊆ visited.map (·.1) := by
        intro place hPlace
        rcases List.mem_cons.mp hPlace with rfl | hPlace
        · exact List.mem_map.mpr ⟨(.root, root), (hVisited _ _).mpr .root, rfl⟩
        · obtain ⟨site, hSite, rfl⟩ := List.mem_map.mp hPlace
          have hReached := reaches_of_mem_collect hKeys h hSite
          exact List.mem_map.mpr ⟨_, (hVisited _ _).mpr hReached, rfl⟩
      have hLength := (List.subperm_of_subset hPlaces hSubset).length_le
      simp only [List.length_cons, List.length_map] at hLength
      omega

end Collections

/-- In pairs only the field `first` binds, and walks enter it. -/
theorem sites_of_nestedPair_are_distinct :
    (Builder.after .strict pairCalls).finish = .ok pairRegistry ∧
      ∃ sites, collect pairRegistry nestedPair = .ok sites ∧
        (sites.map (·.occurrence)).Nodup ∧
        sites.length < ((Walk.tree recorder pairRegistry nestedPair #[]).state.toList.filterMap
          Look.visit?).length := by
  refine ⟨finish_pairCalls, ?_⟩
  obtain ⟨_, hClosed, _⟩ := Builder.tables_of_finish finish_pairCalls
  have hEnding : Moment.ending (Walk.itinerary pairRegistry .root nestedPair) = .ok () :=
    (Moment.ending_eq_ok_iff _).mpr
      (nestedPair_exactlyTyped.typed.no_stop hClosed (by decide) .root)
  obtain ⟨sites, hSites⟩ := collect_eq_ok hEnding
  obtain ⟨hDistinct, _, hVisited⟩ := sites_are_distinct_occurrences finish_pairCalls hSites
  have hKeys : ∀ s ∈ pairRegistry.tables.shapes, ∀ key ∈ s.bindingKeys,
      key.1 ∈ s.visitorKeys := by decide
  have hFewer := hVisited fun tag s hs => hKeys s (Registry.mem_shapes_of_lookup hs)
  exact ⟨sites, hSites, hDistinct, hFewer.2⟩

end BindingSite

end TreeSchema
