import TreeSchema.Proofs.Walk.Reach

/-!
# What a collection gathers

The collector of binding sites fails where the recorder fails, and with the same complaint. If it
succeeds, it has gathered the sites of the nodes that the recorder visits, node by node. A site
counts as soon as a walk reaches its owner. Whether a walk also enters the field that binds makes
no difference, but below a field that no walk enters there are no owners.
-/

namespace TreeSchema

set_option autoImplicit false

/-- The sites in one field of a node. A field that binds nothing has none, nor has one that the node
does not answer for. -/
def FieldSchema.sites (f : FieldSchema) (place : Place) (owner : Node) : List BindingSite :=
  match f.binding, owner.field? f.name with
  | some kind, some value => value.children.zipIdx.map fun c =>
      { owner, place, field := f.name, kind, index := c.2, node := c.1 }
  | _, _ => []

def Registry.sites (r : Registry) (place : Place) (owner : Node) : List BindingSite :=
  match r.lookup owner.tag with
  | .ok s => s.fields.flatMap (·.sites place owner)
  | .error _ => []

theorem Registry.sites_of_lookup {r : Registry} {n : Node} {s : NodeSchema}
    (h : r.lookup n.tag = .ok s) (place : Place) :
    r.sites place n = s.fields.flatMap (·.sites place n) := by
  simp [sites, h]

theorem Registry.sites_of_unknown {r : Registry} {n : Node} {e : SchemaError}
    (h : r.lookup n.tag = .error e) (place : Place) : r.sites place n = [] := by
  simp [sites, h]

theorem Visitor.foldl_note {α : Type} {v : Visitor (Array α)} {f : Place × Node → List α}
    (h : ∀ l (out : Array α), v.note l out = out ++ (l.visit?.toList.flatMap f).toArray)
    (looks : List Look) (out : Array α) :
    looks.foldl (fun out l => v.note l out) out =
      out ++ ((looks.filterMap Look.visit?).flatMap f).toArray := by
  induction looks generalizing out with
  | nil => simp
  | cons l looks ih =>
    rw [List.foldl_cons, ih, h, List.filterMap_cons]
    cases l <;> simp [Look.visit?]

namespace BindingSite

theorem flatMap_ofField (s : NodeSchema) (place : Place) (owner : Node) :
    s.bindingKeys.flatMap (ofField place owner) = s.fields.flatMap (·.sites place owner) := by
  unfold NodeSchema.bindingKeys
  rw [List.filterMap_eq_flatMap_toList, List.flatMap_assoc]
  apply List.flatMap_congr
  intro f _
  unfold FieldSchema.sites ofField Node.childrenAt
  cases f.binding with
  | none => rfl
  | some kind => cases hf : owner.field? f.name <;> simp [hf]

theorem collector_note (r : Registry) (l : Look) (sites : Array BindingSite) :
    (collector r).note l sites =
      sites ++ (l.visit?.toList.flatMap fun o => r.sites o.1 o.2).toArray := by
  cases l with
  | field place owner name value => simp [Visitor.note, collector, Look.visit?]
  | node place n =>
    cases hs : r.lookup n.tag with
    | error e =>
      simp [Visitor.note, collector, ofNode, hs, Look.visit?, Registry.sites_of_unknown hs]
    | ok s =>
      simp [Visitor.note, collector, ofNode, hs, Look.visit?, Registry.sites_of_lookup hs,
        flatMap_ofField]

theorem collect_eq_itinerary (r : Registry) (root : Node) :
    collect r root = (Moment.ending (Walk.itinerary r .root root)).map fun _ =>
      ((Moment.looks (Walk.itinerary r .root root)).filterMap Look.visit?).flatMap fun o =>
        r.sites o.1 o.2 := by
  unfold collect collectInto
  rw [Walk.tree_of_thorough (collector_thorough r), Visitor.foldl_note (collector_note r)]
  cases Moment.ending (Walk.itinerary r .root root) <;> simp [Except.map]

theorem collect_eq (r : Registry) (root : Node) :
    collect r root = (Walk.tree recorder r root #[]).result.map fun _ =>
      ((Walk.tree recorder r root #[]).state.toList.filterMap Look.visit?).flatMap fun o =>
        r.sites o.1 o.2 := by
  obtain ⟨hResult, hState⟩ := Walk.tree_recorder r root
  rw [collect_eq_itinerary, hResult, hState]

theorem mem_sites_iff {r : Registry} {place : Place} {n : Node} {site : BindingSite} :
    site ∈ r.sites place n ↔ site.place = place ∧ site.owner = n ∧ ∃ s, r.lookup n.tag = .ok s ∧
      (site.field, site.kind) ∈ s.bindingKeys ∧
      (n.childrenAt site.field)[site.index]? = some site.node := by
  cases hs : r.lookup n.tag with
  | error e => simp [Registry.sites_of_unknown hs]
  | ok s =>
    rw [Registry.sites_of_lookup hs, ← flatMap_ofField]
    simp only [List.mem_flatMap, ofField, List.mem_map, Prod.exists, List.mem_zipIdx_iff_getElem?]
    constructor
    · rintro ⟨field, kind, hKey, c, i, hc, rfl⟩
      exact ⟨rfl, rfl, s, rfl, hKey, hc⟩
    · rintro ⟨rfl, rfl, _, ⟨⟩, hKey, hc⟩
      exact ⟨site.field, site.kind, hKey, site.node, site.index, hc, rfl⟩

/-- A collection fails exactly where the recording walk fails, with the same error. If it succeeds,
it has the sites of the nodes that the walk visits, in the order of the visits: that is, every child
in a binding field of a node that is reached along visitor keys. The itinerary tells both without a
walk, by its ending and by the looks before it. -/
theorem collect_gathers_along_walk (r : Registry) (root : Node) :
    let walk := Walk.tree recorder r root #[]
    let visited := walk.state.toList.filterMap Look.visit?
    let itinerary := Walk.itinerary r .root root
    (∀ e, collect r root = .error e ↔ walk.result = .error e) ∧
    (walk.result = .ok () →
      collect r root = .ok (visited.flatMap fun o => r.sites o.1 o.2)) ∧
    (∀ e, collect r root = .error e ↔ Moment.ending itinerary = .error e) ∧
    (Moment.ending itinerary = .ok () → collect r root =
      .ok (((Moment.looks itinerary).filterMap Look.visit?).flatMap fun o => r.sites o.1 o.2)) ∧
    ∀ sites, collect r root = .ok sites → ∀ site, site ∈ sites ↔
      r.Reaches root site.place site.owner ∧ ∃ s, r.lookup site.owner.tag = .ok s ∧
        (site.field, site.kind) ∈ s.bindingKeys ∧
        (site.owner.childrenAt site.field)[site.index]? = some site.node := by
  intro walk visited itinerary
  have hCollect : collect r root =
      walk.result.map fun _ => visited.flatMap fun o => r.sites o.1 o.2 := collect_eq r root
  have hPlanned := collect_eq_itinerary r root
  refine ⟨?_, ?_, ?_, ?_, ?_⟩
  · intro e
    rw [hCollect]
    cases walk.result <;> simp [Except.map]
  · intro hOk
    rw [hCollect, hOk]
    rfl
  · intro e
    rw [hPlanned]
    cases Moment.ending itinerary <;> simp [Except.map]
  · intro hOk
    rw [hPlanned, hOk]
    rfl
  · intro sites hSites site
    have hOk : walk.result = .ok () := by
      cases hw : walk.result with
      | error e =>
        rw [hCollect, hw] at hSites
        cases hSites
      | ok _ => rfl
    have hVisited : visited = root.preorder (fun n => r.visitorKeys n.tag) .root :=
      Walk.visits_recorder hOk
    rw [hCollect, hOk, hVisited] at hSites
    cases hSites
    simp only [List.mem_flatMap, Prod.exists, mem_sites_iff, Registry.mem_preorder_iff_reaches]
    constructor
    · rintro ⟨place, n, hn, rfl, rfl, hSite⟩
      exact ⟨hn, hSite⟩
    · rintro ⟨hn, hSite⟩
      exact ⟨site.place, site.owner, hn, rfl, rfl, hSite⟩

end BindingSite

/-- A registry of chained entries whose keys bind although no walk enters them. -/
def entryCalls : List Call :=
  [.shape { tag := "Name", fields := [⟨"text", .scalar⟩] },
   .shape { tag := "Entry"
            fields := [⟨"key", .child (.group "Any")⟩, ⟨"next", .optionalChild (.shape "Entry")⟩]
            visitorKeys := ["next"]
            bindingKeys := [("key", .var)] },
   .group { name := "Any", members := ["Entry", "Name"] }]

def entryRegistry : Registry :=
  ⟨(Builder.after ⟨.allow⟩ entryCalls).tables⟩

def entryNode (key : Node) (next : FieldValue Node) : Node :=
  ⟨.loose "Entry", [("key", .node key), ("next", next)]⟩

def lastEntry : Node :=
  entryNode (nameNode "b") .absent

def chainedEntry : Node :=
  entryNode (entryNode (nameNode "a") .absent) (.node lastEntry)

theorem itinerary_entryNode (place : Place) (key : Node) (next : FieldValue Node) :
    Walk.itinerary entryRegistry place (entryNode key next) =
      .look (.node place (entryNode key next)) ::
        .look (.field place (entryNode key next) "next" next) ::
          next.children.zipIdx.flatMap fun c =>
            Walk.itinerary entryRegistry (place.child "next" c.2) c.1 := by
  have hNext : (entryNode key next).field? "next" = some next := rfl
  rw [Walk.itinerary_open (s := entryRegistry.tables.shapes[1]) rfl]
  have hKeys : entryRegistry.tables.shapes[1].visitorKeys = ["next"] := rfl
  rw [hKeys]
  simp [Walk.fieldItinerary, hNext]

/-- The keys of both entries in the chain are found, but not the name in the first one's key. -/
theorem collect_chainedEntry :
    (Builder.after ⟨.allow⟩ entryCalls).finish = .ok entryRegistry ∧
      BindingSite.collect entryRegistry chainedEntry =
        .ok [⟨chainedEntry, .root, "key", .var, 0, entryNode (nameNode "a") .absent⟩,
          ⟨lastEntry, Place.root.child "next" 0, "key", .var, 0, nameNode "b"⟩] := by
  constructor
  · exact (Builder.finish_eq_ok_iff _ _).mpr ⟨by decide, rfl⟩
  · have hItinerary : Walk.itinerary entryRegistry .root chainedEntry =
        [.look (.node .root chainedEntry),
         .look (.field .root chainedEntry "next" (.node lastEntry)),
         .look (.node (Place.root.child "next" 0) lastEntry),
         .look (.field (Place.root.child "next" 0) lastEntry "next" .absent)] := by
      simp [chainedEntry, lastEntry, itinerary_entryNode, FieldValue.children]
    have hGathers :=
      (BindingSite.collect_gathers_along_walk entryRegistry chainedEntry).2.2.2.1
    rw [hItinerary] at hGathers
    exact hGathers rfl

end TreeSchema
