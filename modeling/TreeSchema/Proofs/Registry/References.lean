import TreeSchema.Proofs.Registry.Population

/-!
# References between declarations

Finishing succeeds exactly on closed tables: every member of a group is a registered tag, and every
child field refers to something registered. So whatever a field of a registered shape may hold, by
shape or through a group, has a registered tag in turn.
-/

namespace TreeSchema

set_option autoImplicit false

namespace Tables

structure Closed (t : Tables) : Prop where
  members : ∀ g ∈ t.groups, ∀ tag ∈ g.members, t.contains tag = true
  targets : ∀ s ∈ t.shapes, ∀ f ∈ s.fields, ∀ target ∈ f.kind.target?, t.resolves target = true

instance (t : Tables) : Decidable t.Closed :=
  decidable_of_iff
    ((∀ g ∈ t.groups, ∀ tag ∈ g.members, t.contains tag = true) ∧
      ∀ s ∈ t.shapes, ∀ f ∈ s.fields, ∀ target ∈ f.kind.target?, t.resolves target = true)
    ⟨fun h => ⟨h.1, h.2⟩, fun h => ⟨h.members, h.targets⟩⟩

theorem groupFault?_eq_none_iff (t : Tables) (g : GroupSchema) :
    t.groupFault? g = none ↔ ∀ tag ∈ g.members, t.contains tag = true := by
  simp [groupFault?]

theorem shapeFault?_eq_none_iff (t : Tables) (s : NodeSchema) :
    t.shapeFault? s = none ↔
      ∀ f ∈ s.fields, ∀ target ∈ f.kind.target?, t.resolves target = true := by
  simp only [shapeFault?, Option.map_eq_none_iff, List.find?_eq_none, NodeSchema.childTypes,
    List.mem_filterMap, Option.map_eq_some_iff]
  constructor
  · intro h f hf target ht
    simpa using h (f.name, target) ⟨f, hf, target, ht, rfl⟩
  · rintro h _ ⟨f, hf, target, ht, rfl⟩
    simpa using h f hf target ht

/-- Sorting before the search decides only which fault is reported, not whether there is one. -/
theorem firstDangling?_eq_none_iff (t : Tables) : t.firstDangling? = none ↔ t.Closed := by
  have hGroups : t.sortedGroups.findSome? t.groupFault? = none ↔
      ∀ g ∈ t.groups, ∀ tag ∈ g.members, t.contains tag = true := by
    simp only [List.findSome?_eq_none_iff, sortedGroups, List.mem_mergeSort,
      groupFault?_eq_none_iff]
  have hShapes : t.sortedShapes.findSome? t.shapeFault? = none ↔
      ∀ s ∈ t.shapes, ∀ f ∈ s.fields, ∀ target ∈ f.kind.target?, t.resolves target = true := by
    simp only [List.findSome?_eq_none_iff, sortedShapes, List.mem_mergeSort,
      shapeFault?_eq_none_iff]
  have hBoth : t.firstDangling? = none ↔ t.sortedGroups.findSome? t.groupFault? = none ∧
      t.sortedShapes.findSome? t.shapeFault? = none := by
    unfold firstDangling?
    cases t.sortedGroups.findSome? t.groupFault? <;> simp
  rw [hBoth, hGroups, hShapes]
  exact ⟨fun h => ⟨h.1, h.2⟩, fun h => ⟨h.members, h.targets⟩⟩

end Tables

theorem Builder.finish_eq_ok_iff (b : Builder) (r : Registry) :
    b.finish = .ok r ↔ b.tables.Closed ∧ r = ⟨b.tables⟩ := by
  rw [← Tables.firstDangling?_eq_none_iff]
  unfold finish
  cases b.tables.firstDangling? <;> simp [eq_comm]

theorem Builder.tables_of_finish {options : ValidationOptions} {calls : List Call} {r : Registry}
    (hr : (after options calls).finish = .ok r) :
    r.tables = (after options calls).tables ∧ r.tables.Closed ∧ r.tables.Validated options := by
  obtain ⟨hClosed, rfl⟩ := (finish_eq_ok_iff _ r).mp hr
  exact ⟨rfl, hClosed, after_validated options calls⟩

namespace Registry

/-- Whether a node of a given tag may stand in a field that refers to a child type. -/
def admits (r : Registry) (target : ChildType) (tag : String) : Bool :=
  match target with
  | .shape expected => tag == expected
  | .group name =>
    match r.lookupGroup name with
    | .ok group => group.contains tag
    | .error _ => false

theorem contains_of_admits {r : Registry} (hr : r.tables.Closed) {tag : String} {s : NodeSchema}
    (hs : r.lookup tag = .ok s) {f : FieldSchema} (hf : f ∈ s.fields) {target : ChildType}
    (ht : target ∈ f.kind.target?) {childTag : String}
    (ha : r.admits target childTag = true) : r.contains childTag = true := by
  have hResolved := hr.targets s (mem_shapes_of_lookup hs) f hf target ht
  cases target with
  | shape expected =>
    have hTag : childTag = expected := by simpa [admits] using ha
    subst hTag
    exact hResolved
  | group name =>
    cases hg : r.tables.group? name with
    | none => simp [Tables.resolves, hg] at hResolved
    | some g =>
      have hMember : childTag ∈ g.members := by
        simpa [admits, lookupGroup, Tables.lookupGroup, hg, GroupSchema.contains] using ha
      exact hr.members g (List.mem_of_find?_eq_some hg) childTag hMember

end Registry

end TreeSchema
