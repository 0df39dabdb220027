import TreeSchema.Proofs.Registry.Precedence
import TreeSchema.Proofs.Registry.References

/-!
# What finishing reports

The tables may enumerate their shapes and groups in any order. Finishing sorts them by their names,
which are distinct, so neither its answer nor the listings of the registry depend on the order: if
a reference dangles, the fault is the one that comes first by name and then by position.
-/

namespace TreeSchema

set_option autoImplicit false

section SortedByKey

variable {α β : Type} {key : α → String} {xs ys : List α}

theorem mergeSort_pairwise_lt (hn : (xs.map key).Nodup) :
    (xs.mergeSort fun a b => decide (key a ≤ key b)).Pairwise fun a b => key a < key b := by
  have hSorted : (xs.mergeSort fun a b => decide (key a ≤ key b)).Pairwise fun a b =>
      decide (key a ≤ key b) = true := by
    apply List.pairwise_mergeSort
    · intro a b c hab hbc
      simp only [decide_eq_true_eq] at hab hbc ⊢
      exact String.le_trans hab hbc
    · intro a b
      simpa using String.le_total (key a) (key b)
  have hDistinct : ((xs.mergeSort fun a b => decide (key a ≤ key b)).map key).Nodup :=
    ((List.mergeSort_perm xs _).map key).nodup_iff.mpr hn
  apply (hSorted.and (List.pairwise_map.mp hDistinct)).imp
  rintro a b ⟨hle, hne⟩
  apply String.not_le.mp
  intro hge
  exact hne (String.le_antisymm (by simpa using hle) hge)

/-- Distinct keys leave only one sorted order. -/
theorem mergeSort_eq_of_perm (hn : (xs.map key).Nodup) (hp : ys.Perm xs) :
    (ys.mergeSort fun a b => decide (key a ≤ key b)) =
      xs.mergeSort fun a b => decide (key a ≤ key b) := by
  have hys := mergeSort_pairwise_lt ((hp.map key).nodup_iff.mpr hn)
  have hxs := mergeSort_pairwise_lt hn
  refine List.Perm.eq_of_pairwise ?_ hys hxs ?_
  · intro a b _ _ hab hba
    exact absurd (String.lt_trans hab hba) (String.lt_irrefl _)
  · exact ((List.mergeSort_perm ys _).trans hp).trans (List.mergeSort_perm xs _).symm

/-- A search in the order of the keys finds the value of the least key that has one. -/
theorem findSome?_mergeSort_eq_some_iff (hn : (xs.map key).Nodup) (f : α → Option β) (b : β) :
    (xs.mergeSort fun a b => decide (key a ≤ key b)).findSome? f = some b ↔
      ∃ a ∈ xs, f a = some b ∧ ∀ a' ∈ xs, key a' < key a → f a' = none := by
  have hSorted := mergeSort_pairwise_lt hn
  have hMem : ∀ a, (a ∈ xs.mergeSort fun a b => decide (key a ≤ key b)) ↔ a ∈ xs := fun a =>
    List.mem_mergeSort
  generalize (xs.mergeSort fun a b => decide (key a ≤ key b)) = sorted at hSorted hMem
  rw [List.findSome?_eq_some_iff]
  constructor
  · rintro ⟨before, a, after, rfl, ha, hNone⟩
    refine ⟨a, (hMem a).mp (by simp), ha, ?_⟩
    intro a' hm hlt
    rw [List.pairwise_append, List.pairwise_cons] at hSorted
    rcases List.mem_append.mp ((hMem a').mpr hm) with hBefore | hAfter
    · exact hNone a' hBefore
    · rcases List.mem_cons.mp hAfter with rfl | hAfter
      · exact absurd hlt (String.lt_irrefl _)
      · exact absurd (String.lt_trans hlt (hSorted.2.1.1 a' hAfter)) (String.lt_irrefl _)
  · rintro ⟨a, hm, ha, hLeast⟩
    obtain ⟨before, after, rfl⟩ := List.append_of_mem ((hMem a).mpr hm)
    refine ⟨before, a, after, rfl, ha, ?_⟩
    intro x hx
    rw [List.pairwise_append] at hSorted
    exact hLeast x ((hMem x).mp (by simp [hx])) (hSorted.2.2 x hx a List.mem_cons_self)

end SortedByKey

namespace Tables

/-- A name that some entry of the tables bears. -/
def Registered (t : Tables) : ChildType → Prop
  | .shape tag => ∃ s ∈ t.shapes, s.tag = tag
  | .group name => ∃ g ∈ t.groups, g.name = name

theorem resolves_iff (t : Tables) (target : ChildType) :
    t.resolves target = true ↔ t.Registered target := by
  cases target <;> simp [resolves, Registered, contains, shape?, group?]

instance (t : Tables) (target : ChildType) : Decidable (t.Registered target) :=
  decidable_of_iff _ (t.resolves_iff target)

theorem contains_iff_registered (t : Tables) (tag : String) :
    t.contains tag = true ↔ t.Registered (.shape tag) :=
  t.resolves_iff (.shape tag)

/-- What there is to complain about: the first unregistered member of the group of least name that
has one; if no group has one, the first unregistered target of the shape of least tag. -/
inductive Complaint (t : Tables) : SchemaError → Prop where
  | member {g : GroupSchema} {before after : List String} {tag : String} :
    g ∈ t.groups → (∀ g' ∈ t.groups, g'.name < g.name →
      ∀ m ∈ g'.members, t.Registered (.shape m)) →
    g.members = before ++ tag :: after → (∀ m ∈ before, t.Registered (.shape m)) →
    ¬ t.Registered (.shape tag) → Complaint t (.unknownGroupMember g.name tag)
  | target {s : NodeSchema} {before after : List FieldSchema} {f : FieldSchema}
    {target : ChildType} :
    (∀ g ∈ t.groups, ∀ m ∈ g.members, t.Registered (.shape m)) →
    s ∈ t.shapes → (∀ s' ∈ t.shapes, s'.tag < s.tag →
      ∀ f ∈ s'.fields, ∀ target ∈ f.kind.target?, t.Registered target) →
    s.fields = before ++ f :: after →
    (∀ f ∈ before, ∀ target ∈ f.kind.target?, t.Registered target) →
    f.kind.target? = some target → ¬ t.Registered target →
    Complaint t (.unresolvedChildType s.tag f.name target)

theorem groupFault?_eq_some_iff (t : Tables) (g : GroupSchema) (e : SchemaError) :
    t.groupFault? g = some e ↔ ∃ before tag after, g.members = before ++ tag :: after ∧
      (∀ m ∈ before, t.Registered (.shape m)) ∧ ¬ t.Registered (.shape tag) ∧
      e = .unknownGroupMember g.name tag := by
  simp only [groupFault?, Option.map_eq_some_iff, List.find?_eq_some_iff_append, Bool.not_not,
    Bool.not_eq_true', ← contains_iff_registered, Bool.not_eq_true]
  constructor
  · rintro ⟨tag, ⟨hMissing, before, after, hSplit, hBefore⟩, rfl⟩
    exact ⟨before, tag, after, hSplit, hBefore, hMissing, rfl⟩
  · rintro ⟨before, tag, after, hSplit, hBefore, hMissing, rfl⟩
    exact ⟨tag, ⟨hMissing, before, after, hSplit, hBefore⟩, rfl⟩

theorem shapeFault?_eq_some_iff (t : Tables) (s : NodeSchema) (e : SchemaError) :
    t.shapeFault? s = some e ↔ ∃ before f after target, s.fields = before ++ f :: after ∧
      (∀ f ∈ before, ∀ target ∈ f.kind.target?, t.Registered target) ∧
      f.kind.target? = some target ∧ ¬ t.Registered target ∧
      e = .unresolvedChildType s.tag f.name target := by
  have hResolved (f : FieldSchema) :
      (!(f.kind.target?.map fun target => (f.name, target)).any fun c => !t.resolves c.2) = true ↔
        ∀ target ∈ f.kind.target?, t.Registered target := by
    cases f.kind.target? <;> simp [resolves_iff]
  simp only [shapeFault?, NodeSchema.childTypes, List.find?_filterMap, Option.map_eq_some_iff,
    Option.bind_eq_some_iff, List.find?_eq_some_iff_append, hResolved]
  constructor
  · rintro ⟨_, ⟨f, ⟨hMissing, before, after, hSplit, hBefore⟩, target, ht, rfl⟩, rfl⟩
    refine ⟨before, f, after, target, hSplit, hBefore, ht, ?_, rfl⟩
    rw [← resolves_iff]
    simpa [ht] using hMissing
  · rintro ⟨before, f, after, target, hSplit, hBefore, ht, hMissing, rfl⟩
    refine ⟨_, ⟨f, ⟨?_, before, after, hSplit, hBefore⟩, target, ht, rfl⟩, rfl⟩
    rw [← resolves_iff] at hMissing
    simpa [ht] using hMissing

theorem Distinct.findSome?_groupFault?_iff {t : Tables} (ht : t.Distinct) (e : SchemaError) :
    t.sortedGroups.findSome? t.groupFault? = some e ↔ ∃ g before tag after, g ∈ t.groups ∧
      (∀ g' ∈ t.groups, g'.name < g.name → ∀ m ∈ g'.members, t.Registered (.shape m)) ∧
      g.members = before ++ tag :: after ∧ (∀ m ∈ before, t.Registered (.shape m)) ∧
      ¬ t.Registered (.shape tag) ∧ e = .unknownGroupMember g.name tag := by
  unfold sortedGroups
  rw [findSome?_mergeSort_eq_some_iff ht.names]
  simp only [groupFault?_eq_some_iff, groupFault?_eq_none_iff, contains_iff_registered]
  constructor
  · rintro ⟨g, hg, ⟨before, tag, after, hSplit, hBefore, hMissing, rfl⟩, hLeast⟩
    exact ⟨g, before, tag, after, hg, hLeast, hSplit, hBefore, hMissing, rfl⟩
  · rintro ⟨g, before, tag, after, hg, hLeast, hSplit, hBefore, hMissing, rfl⟩
    exact ⟨g, hg, ⟨before, tag, after, hSplit, hBefore, hMissing, rfl⟩, hLeast⟩

theorem Distinct.findSome?_shapeFault?_iff {t : Tables} (ht : t.Distinct) (e : SchemaError) :
    t.sortedShapes.findSome? t.shapeFault? = some e ↔ ∃ s before f after target, s ∈ t.shapes ∧
      (∀ s' ∈ t.shapes, s'.tag < s.tag →
        ∀ f ∈ s'.fields, ∀ target ∈ f.kind.target?, t.Registered target) ∧
      s.fields = before ++ f :: after ∧
      (∀ f ∈ before, ∀ target ∈ f.kind.target?, t.Registered target) ∧
      f.kind.target? = some target ∧ ¬ t.Registered target ∧
      e = .unresolvedChildType s.tag f.name target := by
  unfold sortedShapes
  rw [findSome?_mergeSort_eq_some_iff ht.tags]
  simp only [shapeFault?_eq_some_iff, shapeFault?_eq_none_iff, resolves_iff]
  constructor
  · rintro ⟨s, hs, ⟨before, f, after, target, hSplit, hBefore, hTarget, hMissing, rfl⟩, hLeast⟩
    exact ⟨s, before, f, after, target, hs, hLeast, hSplit, hBefore, hTarget, hMissing, rfl⟩
  · rintro ⟨s, before, f, after, target, hs, hLeast, hSplit, hBefore, hTarget, hMissing, rfl⟩
    exact ⟨s, hs, ⟨before, f, after, target, hSplit, hBefore, hTarget, hMissing, rfl⟩, hLeast⟩

/-- The search for a dangling reference finds what there is to complain about. -/
theorem Distinct.firstDangling?_eq_some_iff {t : Tables} (ht : t.Distinct) (e : SchemaError) :
    t.firstDangling? = some e ↔ t.Complaint e := by
  have hGroups := ht.findSome?_groupFault?_iff
  unfold firstDangling?
  cases hFirst : t.sortedGroups.findSome? t.groupFault? with
  | some fault =>
    obtain ⟨g, before, tag, after, hg, hLeast, hSplit, hBefore, hMissing, rfl⟩ :=
      (hGroups fault).mp hFirst
    constructor
    · rintro ⟨⟩
      exact .member hg hLeast hSplit hBefore hMissing
    · intro h
      cases h with
      | member hg' hLeast' hSplit' hBefore' hMissing' =>
        have hFound := (hGroups _).mpr
          ⟨_, _, _, _, hg', hLeast', hSplit', hBefore', hMissing', rfl⟩
        exact hFirst.symm.trans hFound
      | target hAll =>
        exact absurd (hAll g hg tag (by simp [hSplit])) hMissing
  | none =>
    have hNone : ∀ g ∈ t.groups, t.groupFault? g = none := by
      simpa [sortedGroups] using hFirst
    have hAll : ∀ g ∈ t.groups, ∀ m ∈ g.members, t.Registered (.shape m) := by
      simpa only [groupFault?_eq_none_iff, contains_iff_registered] using hNone
    constructor
    · intro h
      obtain ⟨s, before, f, after, target, hs, hLeast, hSplit, hBefore, hTarget, hMissing, rfl⟩ :=
        (ht.findSome?_shapeFault?_iff e).mp h
      exact .target hAll hs hLeast hSplit hBefore hTarget hMissing
    · intro h
      cases h with
      | member hg _ hSplit _ hMissing =>
        exact absurd (hAll _ hg _ (by simp [hSplit])) hMissing
      | target _ hs hLeast hSplit hBefore hTarget hMissing =>
        exact (ht.findSome?_shapeFault?_iff _).mpr
          ⟨_, _, _, _, _, hs, hLeast, hSplit, hBefore, hTarget, hMissing, rfl⟩

/-- The same declarations, enumerated in another order. -/
structure Reorders (t' t : Tables) : Prop where
  shapes : t'.shapes.Perm t.shapes
  groups : t'.groups.Perm t.groups

section Reorders

variable {t t' : Tables} (h : t'.Reorders t) (ht : t.Distinct)

include h in
theorem Reorders.registered_iff (target : ChildType) :
    t'.Registered target ↔ t.Registered target := by
  cases target with
  | shape tag => simp only [Registered, h.shapes.mem_iff]
  | group name => simp only [Registered, h.groups.mem_iff]

include h in
theorem Reorders.resolves_eq (target : ChildType) : t'.resolves target = t.resolves target := by
  rw [Bool.eq_iff_iff, resolves_iff, resolves_iff, h.registered_iff]

include h in
theorem Reorders.contains_eq (tag : String) : t'.contains tag = t.contains tag :=
  h.resolves_eq (.shape tag)

include h ht

theorem Reorders.distinct : t'.Distinct :=
  ⟨(h.shapes.map _).nodup_iff.mpr ht.tags, (h.groups.map _).nodup_iff.mpr ht.names⟩

theorem Reorders.lookup_eq (tag : String) : t'.lookup tag = t.lookup tag := by
  have hFound : t'.shape? tag = t.shape? tag := by
    ext s
    rw [(h.distinct ht).shape?_eq_some_iff, ht.shape?_eq_some_iff, h.shapes.mem_iff]
  simp only [lookup, hFound]

theorem Reorders.lookupGroup_eq (name : String) : t'.lookupGroup name = t.lookupGroup name := by
  have hFound : t'.group? name = t.group? name := by
    ext g
    rw [(h.distinct ht).group?_eq_some_iff, ht.group?_eq_some_iff, h.groups.mem_iff]
  simp only [lookupGroup, hFound]

theorem Reorders.sortedShapes_eq : t'.sortedShapes = t.sortedShapes :=
  mergeSort_eq_of_perm ht.tags h.shapes

theorem Reorders.sortedGroups_eq : t'.sortedGroups = t.sortedGroups :=
  mergeSort_eq_of_perm ht.names h.groups

theorem Reorders.firstDangling?_eq : t'.firstDangling? = t.firstDangling? := by
  have hGroup : t'.groupFault? = t.groupFault? := by
    funext g
    simp only [groupFault?, h.contains_eq]
  have hShape : t'.shapeFault? = t.shapeFault? := by
    funext s
    simp only [shapeFault?, h.resolves_eq]
  simp only [firstDangling?, h.sortedShapes_eq ht, h.sortedGroups_eq ht, hGroup, hShape]

end Reorders

end Tables

/-- A registry that answers as the tables `t` do and lists their entries in the order of names. -/
structure Registry.Answers (r : Registry) (t : Tables) : Prop where
  lookup : ∀ tag, r.lookup tag = t.lookup tag
  lookupGroup : ∀ name, r.lookupGroup name = t.lookupGroup name
  contains : ∀ tag, r.contains tag = t.contains tag
  size : r.size = t.size
  warnings : r.warnings = t.warnings
  tags_increase : r.tags.Pairwise (· < ·)
  mem_tags : ∀ tag, tag ∈ r.tags ↔ ∃ s ∈ t.shapes, s.tag = tag
  groups_increase : r.groups.Pairwise (·.name < ·.name)
  mem_groups : ∀ g, g ∈ r.groups ↔ g ∈ t.groups

theorem Registry.answers_of_reorders {t t' : Tables} (h : t'.Reorders t) (ht : t.Distinct)
    (hw : t'.warnings = t.warnings) : (Registry.mk t').Answers t where
  lookup := h.lookup_eq ht
  lookupGroup := h.lookupGroup_eq ht
  contains := h.contains_eq
  size := h.shapes.length_eq
  warnings := hw
  tags_increase := by
    rw [tags, List.pairwise_map, h.sortedShapes_eq ht]
    exact mergeSort_pairwise_lt ht.tags
  mem_tags tag := by
    simp only [tags, Tables.sortedShapes, List.mem_map, List.mem_mergeSort, h.shapes.mem_iff]
  groups_increase := by
    rw [groups, h.sortedGroups_eq ht]
    exact mergeSort_pairwise_lt ht.names
  mem_groups g := by
    simp only [groups, Tables.sortedGroups, List.mem_mergeSort, h.groups.mem_iff]

theorem Tables.closed_iff (t : Tables) :
    t.Closed ↔ (∀ g ∈ t.groups, ∀ tag ∈ g.members, t.Registered (.shape tag)) ∧
      ∀ s ∈ t.shapes, ∀ f ∈ s.fields, f.kind ≠ .scalar →
        ∃ target ∈ f.kind.target?, t.Registered target := by
  have hTargets (f : FieldSchema) :
      (f.kind ≠ .scalar → ∃ target ∈ f.kind.target?, t.Registered target) ↔
        ∀ target ∈ f.kind.target?, t.resolves target = true := by
    cases f.kind <;> simp [FieldKind.target?, resolves_iff]
  simp only [hTargets, ← contains_iff_registered]
  exact ⟨fun h => ⟨h.members, h.targets⟩, fun h => ⟨h.1, h.2⟩⟩

namespace Builder

theorem finish_eq_error_iff (b : Builder) (e : SchemaError) :
    b.finish = .error e ↔ b.tables.firstDangling? = some e := by
  unfold finish
  cases b.tables.firstDangling? <;> simp

/-- In whatever order `t` enumerates what the calls have registered, finishing succeeds exactly
when every reference is met, its complaint is the first one by name and position, and the registry
answers as the tables that were built. -/
theorem finish_independent_of_enumeration (options : ValidationOptions) (calls : List Call)
    {t : Tables} (ht : t.Reorders (after options calls).tables)
    (hw : t.warnings = (after options calls).tables.warnings) :
    let built := (after options calls).tables
    let b : Builder := { options, tables := t }
    ((∃ r, b.finish = .ok r) ↔
      (∀ g ∈ built.groups, ∀ tag ∈ g.members, built.Registered (.shape tag)) ∧
      ∀ s ∈ built.shapes, ∀ f ∈ s.fields, f.kind ≠ .scalar →
        ∃ target ∈ f.kind.target?, built.Registered target) ∧
    (∀ e, b.finish = .error e ↔ built.Complaint e) ∧
    ∀ r, b.finish = .ok r → r.Answers built := by
  intro built b
  have hDistinct : built.Distinct := after_distinct calls
  have hSame : b.tables.firstDangling? = built.firstDangling? := ht.firstDangling?_eq hDistinct
  refine ⟨?_, ?_, ?_⟩
  · rw [← Tables.closed_iff, ← Tables.firstDangling?_eq_none_iff, ← hSame]
    unfold finish
    cases b.tables.firstDangling? <;> simp
  · intro e
    rw [finish_eq_error_iff, hSame, hDistinct.firstDangling?_eq_some_iff]
  · intro r hr
    obtain ⟨_, rfl⟩ := (finish_eq_ok_iff b r).mp hr
    exact Registry.answers_of_reorders ht hDistinct hw

end Builder

/-- Two groups and a shape with dangling references. -/
def danglingCalls : List Call :=
  [.group { name := "Any", members := ["Pair", "Lost", "Gone"] }, .shape pairDecl,
   .group { name := "Zone", members := ["Gone"] }]

/-- What these calls register, enumerated backwards. -/
def danglingTables : Tables where
  shapes := (Builder.after .strict danglingCalls).tables.shapes
  groups := (Builder.after .strict danglingCalls).tables.groups.reverse

theorem danglingTables_reorders :
    danglingTables.Reorders (Builder.after .strict danglingCalls).tables :=
  ⟨.refl _, List.reverse_perm _⟩

theorem finish_danglingTables :
    danglingTables.Reorders (Builder.after .strict danglingCalls).tables ∧
      Builder.finish ⟨.strict, danglingTables⟩ = .error (.unknownGroupMember "Any" "Lost") := by
  refine ⟨danglingTables_reorders, ?_⟩
  have hReported := (Builder.finish_independent_of_enumeration .strict danglingCalls
    danglingTables_reorders (by decide)).2.1
  apply (hReported _).mpr
  exact @Tables.Complaint.member _ ⟨"Any", ["Pair", "Lost", "Gone"]⟩ ["Pair"] ["Gone"] "Lost"
    (by decide) (by decide) rfl (by decide) (by decide)

end TreeSchema
