import TreeSchema.Proofs.Modules.Piece
import TreeSchema.Proofs.Registry.Precedence

/-!
# Module syntax in a host's registry

A host may register its own declarations before and after those of module syntax. Once the latter
have all been accepted, their names are taken for good, so that every registry that comes of it has
the schemas that module syntax has in its own catalog. Walks through module syntax then visit every
piece, and neither they nor the collection of binding sites can tell the registries apart.
-/

namespace TreeSchema

set_option autoImplicit false

namespace Builder

theorem submitAll_eq_ok {b : Builder} {cs : List Call} (h : (b.submitAll cs).result = .ok ()) :
    (b.submitAll cs).builder = (b.submitEach cs).2.1 ∧ ∀ earlier c later,
      cs = earlier ++ c :: later → ((b.submitEach earlier).2.1.submit c).result = .ok () := by
  induction cs generalizing b with
  | nil =>
    refine ⟨rfl, ?_⟩
    intro earlier c later hSplit
    simp at hSplit
  | cons c cs ih =>
    cases hFirst : (b.submit c).result with
    | error e => simp [submitAll, hFirst] at h
    | ok _ =>
      simp only [submitAll, hFirst] at h ⊢
      obtain ⟨hBuilder, hEach⟩ := ih h
      refine ⟨hBuilder, ?_⟩
      intro earlier c' later hSplit
      cases earlier with
      | nil =>
        obtain ⟨rfl, _⟩ := List.cons.inj hSplit
        exact hFirst
      | cons c'' earlier =>
        obtain ⟨rfl, hRest⟩ := List.cons.inj hSplit
        exact hEach earlier c' later hRest

section Batches

variable {options : ValidationOptions} {calls batch : List Call}

theorem after_append (calls more : List Call) :
    after options (calls ++ more) = ((after options calls).submitEach more).2.1 := by
  simp only [after, submitEach_append]

theorem after_submitAll (h : ((after options calls).submitAll batch).result = .ok ())
    (more : List Call) :
    (((after options calls).submitAll batch).builder.submitEach more).2.1 =
      after options (calls ++ batch ++ more) := by
  rw [after_append, after_append, (submitAll_eq_ok h).1]

/-- Each call of an accepted batch has its name for good. -/
theorem firstValid_of_submitAll (h : ((after options calls).submitAll batch).result = .ok ())
    {c : Call} (hc : c ∈ batch) (more : List Call) :
    Call.FirstValid options (calls ++ batch ++ more) c := by
  obtain ⟨earlier, later, rfl⟩ := List.append_of_mem hc
  have hAccepted : outcome options (calls ++ earlier) c = .ok () := by
    rw [outcome, after_append]
    exact (submitAll_eq_ok h).2 earlier c later rfl
  obtain ⟨hValid, hFresh⟩ := (outcome_eq_ok_iff _ c).mp hAccepted
  exact ⟨calls ++ earlier, later ++ more, by simp, hValid, hFresh⟩

theorem lookup_of_submitAll (h : ((after options calls).submitAll batch).result = .ok ())
    {d : ShapeDecl} (hd : .shape d ∈ batch) (more : List Call) :
    (after options (calls ++ batch ++ more)).tables.lookup d.tag = .ok d.schema := by
  have hFirst := firstValid_of_submitAll h hd more
  obtain ⟨entry, hEntry⟩ := hFirst.valid
  obtain ⟨s, warnings, hs, _⟩ := (Call.validate_shape_eq_ok_iff d entry).mp hEntry
  obtain ⟨_, rfl, _⟩ := (d.validate_eq_ok_iff options s warnings).mp hs
  exact (lookup_after_eq_ok_iff _ d.tag _).mpr ⟨d, warnings, hFirst, rfl, hs⟩

end Batches

end Builder

theorem ShapeDecl.visitorKeys_schema (d : ShapeDecl) :
    d.schema.visitorKeys = (d.fields.map (·.name)).filter (d.visitorKeys.contains ·) := by
  rw [schema, NodeSchema.visitorKeys_ofFields, List.filter_map, List.filter_map, List.map_map]
  rfl

namespace Modules

/-- The registry has the schemas of module syntax under their tags. -/
def Hosts (r : Registry) : Prop :=
  ∀ p : Piece, r.lookup p.decl.tag = .ok p.decl.schema

theorem hosts_of_registerAll {options : ValidationOptions} {calls more : List Call} {r : Registry}
    (hAll : (registerAll (.after options calls)).result = .ok ())
    (hr : ((registerAll (.after options calls)).builder.submitEach more).2.1.finish = .ok r) :
    Hosts r := by
  intro p
  obtain ⟨_, rfl⟩ := (Builder.finish_eq_ok_iff _ r).mp hr
  rw [registerAll, Builder.after_submitAll hAll]
  exact Builder.lookup_of_submitAll hAll p.mem_registrations more

theorem registerAll_fresh : (registerAll {}).result = .ok () := by
  decide

theorem finish_registerAll_fresh :
    (registerAll {}).builder.finish = .ok ⟨(registerAll {}).builder.tables⟩ := by
  have hClosed : (registerAll {}).builder.tables.Closed := by decide
  exact (Builder.finish_eq_ok_iff _ _).mpr ⟨hClosed, rfl⟩

theorem catalog_eq_ok : catalog = .ok ⟨(registerAll {}).builder.tables⟩ := by
  simp only [catalog, registerAll_fresh]
  exact finish_registerAll_fresh

theorem exists_catalog : ∃ own, catalog = .ok own ∧ Hosts own := by
  have hAll : (registerAll (.after {} [])).result = .ok () := registerAll_fresh
  have hFinish : ((registerAll (.after {} [])).builder.submitEach []).2.1.finish = .ok _ :=
    finish_registerAll_fresh
  exact ⟨_, catalog_eq_ok, hosts_of_registerAll hAll hFinish⟩

namespace Piece

variable {r : Registry}

theorem lookup_node (hr : Hosts r) (p : Piece) : r.lookup p.node.tag = .ok p.decl.schema := by
  rw [node_tag]
  exact hr p

theorem visitorKeys_node (hr : Hosts r) (p : Piece) :
    r.visitorKeys p.node.tag =
      (p.fields.filter fun f => p.decl.visitorKeys.contains f.1).map (·.1) := by
  rw [Registry.visitorKeys_of_lookup (lookup_node hr p), ShapeDecl.visitorKeys_schema, names_decl,
    List.filter_map]
  rfl

/-- Along the visitor keys, the node of a piece has below it the nodes of the pieces below. -/
theorem preorder_node (hr : Hosts r) (place : Place) (p : Piece) :
    p.node.preorder (fun n => r.visitorKeys n.tag) place =
      (p.preorder place).map fun o => (o.1, o.2.node) := by
  induction place, p using place_induction with
  | step place p ih =>
    rw [Node.preorder_eq, preorder_eq, visitorKeys_node hr, List.flatMap_map,
      flatMap_filter_of_eq_nil]
    · rw [List.map_cons, List.map_flatMap]
      congr 1
      apply List.flatMap_congr
      intro f hf
      rw [childrenAt_of_mem hf, List.zipIdx_map, List.flatMap_map, List.map_flatMap]
      apply List.flatMap_congr
      rintro ⟨c, i⟩ hc
      exact ih f hf c (List.fst_mem_of_mem_zipIdx hc) i
    · -- A field that no walk enters holds no pieces, so nothing is lost below it.
      intro f hf hUnvisited
      have hEmpty : f.2 = [] := by
        rcases p.visited_or_empty f hf with hVisited | hEmpty
        · simp [hVisited] at hUnvisited
        · exact hEmpty
      rw [childrenAt_of_mem hf, hEmpty]
      rfl

theorem opens_node (hr : Hosts r) (p : Piece) : r.Opens p.node := by
  refine ⟨p.decl.schema, lookup_node hr p, ?_⟩
  intro key hk
  rw [ShapeDecl.visitorKeys_schema, names_decl, List.mem_filter] at hk
  obtain ⟨f, hf, rfl⟩ := List.mem_map.mp hk.1
  obtain ⟨value, hv, _⟩ := field?_of_mem hf
  exact Option.isSome_iff_exists.mpr ⟨value, hv⟩

theorem walk_node (hr : Hosts r) (p : Piece) :
    (Walk.tree recorder r p.node #[]).result = .ok () ∧
      (Walk.tree recorder r p.node #[]).state.toList.filterMap Look.visit? =
        (p.preorder .root).map fun o => (o.1, o.2.node) := by
  have hOk : (Walk.tree recorder r p.node #[]).result = .ok () := by
    rw [(Walk.tree_recorder r p.node).1]
    apply Walk.ending_eq_ok_of_opens
    intro place n hn
    rw [preorder_node hr] at hn
    obtain ⟨⟨_, c⟩, _, hEq⟩ := List.mem_map.mp hn
    obtain ⟨_, rfl⟩ := Prod.mk.inj hEq
    exact opens_node hr c
  exact ⟨hOk, (Walk.visits_recorder hOk).trans (preorder_node hr .root p)⟩

def sites (place : Place) (p : Piece) : List BindingSite :=
  p.decl.schema.fields.flatMap (·.sites place p.node)

theorem collect_node (hr : Hosts r) (p : Piece) :
    BindingSite.collect r p.node =
      .ok ((p.preorder .root).flatMap fun o => o.2.sites o.1) := by
  obtain ⟨hOk, hVisited⟩ := walk_node hr p
  rw [BindingSite.collect_eq, hOk, hVisited, List.flatMap_map]
  apply congrArg Except.ok
  apply List.flatMap_congr
  intro o _
  exact Registry.sites_of_lookup (lookup_node hr o.2) o.1

/-- Nothing in the node of a piece is out of reach. -/
theorem mem_preorder_of_occurs (hr : Hosts r) {p : Piece} {place : Place} {n : Node}
    (hn : p.node.Occurs place n) : (∃ q : Piece, n = q.node) ∧
      (place, n) ∈ p.node.preorder (fun n => r.visitorKeys n.tag) .root := by
  induction hn with
  | root => exact ⟨⟨p, rfl⟩, Node.mem_preorder_iff.mpr (.inl ⟨rfl, rfl⟩)⟩
  | @child place n c key i _ hc ih =>
    obtain ⟨⟨q, rfl⟩, hListed⟩ := ih
    have hChild : c ∈ q.node.childrenAt key := hc.mem_childrenAt
    obtain ⟨f, hf, rfl⟩ := exists_field_of_mem_childrenAt hChild
    rw [childrenAt_of_mem hf] at hChild
    obtain ⟨d, hd, rfl⟩ := List.mem_map.mp hChild
    refine ⟨⟨d, rfl⟩, Node.child_mem_preorder hListed ?_ hc⟩
    rw [visitorKeys_node hr]
    apply List.mem_map_of_mem
    apply List.mem_filter.mpr
    rcases q.visited_or_empty f hf with hVisited | hEmpty
    · exact ⟨hf, by simpa using hVisited⟩
    · rw [hEmpty] at hd
      cases hd

end Piece

/-- Whatever a host has registered before and after module syntax, a walk through any piece of it
succeeds and visits every piece below once, in pre-order. What it visits, and what binding sites
there are, is as under the catalog of module syntax alone. -/
theorem walks_in_host_visit_every_piece {options : ValidationOptions} {calls more : List Call}
    {r : Registry} (hAll : (registerAll (.after options calls)).result = .ok ())
    (hr : ((registerAll (.after options calls)).builder.submitEach more).2.1.finish = .ok r)
    (p : Piece) :
    let walk := Walk.tree recorder r p.node #[]
    let visited := walk.state.toList.filterMap Look.visit?
    walk.result = .ok () ∧
    visited = (p.preorder .root).map (fun o => (o.1, o.2.node)) ∧
    (visited.map (·.1)).Nodup ∧
    (∀ place n, (place, n) ∈ visited ↔ p.node.Occurs place n) ∧
    ∃ own, catalog = .ok own ∧
      (Walk.tree recorder own p.node #[]).state.toList.filterMap Look.visit? = visited ∧
      ∃ sites, BindingSite.collect r p.node = .ok sites ∧
        BindingSite.collect own p.node = .ok sites := by
  intro walk visited
  have hHosts := hosts_of_registerAll hAll hr
  obtain ⟨hOk, hVisited⟩ : walk.result = .ok () ∧ visited = _ := p.walk_node hHosts
  have hPreorder : visited = p.node.preorder (fun n => r.visitorKeys n.tag) .root :=
    hVisited.trans (p.preorder_node hHosts .root).symm
  refine ⟨hOk, hVisited, ?_, ?_, ?_⟩
  · have hValidated : r.tables.Validated options := by
      rw [registerAll, Builder.after_submitAll hAll] at hr
      exact (Builder.tables_of_finish hr).2.2
    rw [hPreorder]
    apply List.pairwise_map.mpr
    apply Node.preorder_places_distinct
    intro n
    exact Registry.visitorKeys_nodup hValidated n.tag
  · intro place n
    rw [hPreorder]
    exact ⟨Node.occurs_of_mem_preorder .root, fun hn => (Piece.mem_preorder_of_occurs hHosts hn).2⟩
  · obtain ⟨own, hOwn, hOwnHosts⟩ := exists_catalog
    refine ⟨own, hOwn, ?_, ?_⟩
    · rw [(p.walk_node hOwnHosts).2, hVisited]
    · exact ⟨_, p.collect_node hHosts, p.collect_node hOwnHosts⟩

/-- A host with a shape that holds programs, and a group that is spelt like one of our shapes. -/
def hostCalls : List Call :=
  [.shape { tag := "Host", fields := [⟨"program", .child (.shape "Program")⟩],
            visitorKeys := ["program"] },
   .group { name := "Program", members := ["Host"] }]

/-- What the host goes on to register, with an attempt on a name that is taken. -/
def hostExtras : List Call :=
  [.shape { tag := "Identifier" }, .group { name := "AnyHost", members := ["Host", "Program"] }]

def hostRegistry : Registry :=
  ⟨((registerAll (.after .strict hostCalls)).builder.submitEach hostExtras).2.1.tables⟩

def sampleProgram : Program where
  body :=
    [.imports ⟨some [.default ⟨⟨"def"⟩⟩, .single ⟨⟨"a"⟩, ⟨"b"⟩, none⟩], ⟨"lib"⟩, none⟩,
     .exports ⟨some [.whole ⟨⟨"ns"⟩⟩], ⟨"mod"⟩, some .type⟩, .exports ⟨none, ⟨"mod"⟩, none⟩]
  filename := "index.js"

theorem walk_of_sampleProgram_in_host :
    (registerAll (.after .strict hostCalls)).result = .ok () ∧
      (Walk.tree recorder hostRegistry (toNode sampleProgram) #[]).result = .ok () ∧
      ∀ place n, (place, n) ∈ (Walk.tree recorder hostRegistry (toNode sampleProgram)
        #[]).state.toList.filterMap Look.visit? ↔ (toNode sampleProgram).Occurs place n := by
  have hAll : (registerAll (.after .strict hostCalls)).result = .ok () := by decide
  have hFinish : ((registerAll (.after .strict hostCalls)).builder.submitEach
      hostExtras).2.1.finish = .ok hostRegistry :=
    (Builder.finish_eq_ok_iff _ _).mpr ⟨by decide, rfl⟩
  obtain ⟨hOk, _, _, hVisited, _⟩ :=
    walks_in_host_visit_every_piece hAll hFinish (.program sampleProgram)
  exact ⟨hAll, hOk, hVisited⟩

end Modules

end TreeSchema
