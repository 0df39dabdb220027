import Mathlib.Data.List.Sort
import TreeSchema.Proofs.Schema.Validation

/-!
# The index of a schema

A schema says twice which fields a walk enters: each field carries a mark, and an index lists the
positions of the marked ones. Some queries search the marks by name, others follow the index. They
agree because validation reads the index off the finished marks, gives no two fields one name, and
marks child fields only.
-/

namespace TreeSchema

set_option autoImplicit false

namespace NodeSchema

/-- The index lists the positions of the visited fields, in declaration order and nothing else. -/
structure Indexed (s : NodeSchema) : Prop where
  increasing : s.traversable.Pairwise (· < ·)
  bounded : ∀ i ∈ s.traversable, i < s.fields.length
  marked : ∀ i f, s.fields[i]? = some f → (i ∈ s.traversable ↔ f.visit = true)

/-- Names tell the fields apart, and only child fields are visited or bind names. -/
structure Marked (s : NodeSchema) : Prop where
  distinct : (s.fields.map (·.name)).Nodup
  visited : ∀ f ∈ s.fields, f.visit = true → f.kind.isChild = true
  bound : ∀ f ∈ s.fields, f.binding.isSome = true → f.kind.isChild = true

/-- What the queries on a schema have to do with each other. -/
structure Consistent (s : NodeSchema) : Prop where
  /-- No position of the index is passed over. -/
  visitorKeys_named : s.visitorKeys.map some = s.traversable.map fun i => s.fields[i]?.map (·.name)
  isTraversable_iff : ∀ name, s.isTraversable name = true ↔ name ∈ s.visitorKeys
  bindingKind?_iff : ∀ name kind, s.bindingKind? name = some kind ↔ (name, kind) ∈ s.bindingKeys
  isLeaf_iff : s.isLeaf = true ↔ s.visitorKeys = []
  introducesBindings_iff : s.introducesBindings = true ↔ s.bindingKeys ≠ []
  visitorKeys_nodup : s.visitorKeys.Nodup
  visitorKeys_sublist : s.visitorKeys.Sublist (s.childTypes.map (·.1))
  bindingKeys_nodup : (s.bindingKeys.map (·.1)).Nodup
  bindingKeys_sublist : (s.bindingKeys.map (·.1)).Sublist (s.childTypes.map (·.1))

section Index

variable {s : NodeSchema}

theorem mem_traversable_ofFields (tag : String) (fields : List FieldSchema) (i : Nat) :
    i ∈ (ofFields tag fields).traversable ↔ ∃ f, fields[i]? = some f ∧ f.visit = true := by
  simp only [ofFields, List.mem_map, List.mem_filter, List.mem_zipIdx_iff_getElem?]
  constructor
  · rintro ⟨⟨f, _⟩, ⟨hf, hv⟩, rfl⟩
    exact ⟨f, hf, hv⟩
  · rintro ⟨f, hf, hv⟩
    exact ⟨(f, i), ⟨hf, hv⟩, rfl⟩

theorem indexed_ofFields (tag : String) (fields : List FieldSchema) :
    (ofFields tag fields).Indexed where
  increasing := by
    have hPositions : (fields.zipIdx.map Prod.snd).Pairwise (· < ·) := by
      rw [List.zipIdx_map_snd]
      exact List.pairwise_lt_range' 1
    exact hPositions.sublist (List.filter_sublist.map _)
  bounded := by
    intro i hi
    obtain ⟨f, hf, _⟩ := (mem_traversable_ofFields tag fields i).mp hi
    exact (List.getElem?_eq_some_iff.mp hf).1
  marked := by
    intro i f hf
    rw [mem_traversable_ofFields]
    constructor
    · rintro ⟨g, hg, hv⟩
      obtain rfl : f = g := Option.some.inj (hf.symm.trans hg)
      exact hv
    · intro hv
      exact ⟨f, hf, hv⟩

theorem Indexed.mem_traversable_iff (h : s.Indexed) (i : Nat) :
    i ∈ s.traversable ↔ ∃ f, s.fields[i]? = some f ∧ f.visit = true := by
  constructor
  · intro hi
    have hf := List.getElem?_eq_getElem (h.bounded i hi)
    exact ⟨_, hf, (h.marked i _ hf).mp hi⟩
  · rintro ⟨f, hf, hv⟩
    exact (h.marked i f hf).mpr hv

/-- An index adds nothing to the marks: it can be computed from them. -/
theorem Indexed.eq_ofFields (h : s.Indexed) : s = ofFields s.tag s.fields := by
  have hIndex : s.traversable = (ofFields s.tag s.fields).traversable := by
    apply h.increasing.eq_of_mem_iff (indexed_ofFields s.tag s.fields).increasing
    intro i
    rw [h.mem_traversable_iff, mem_traversable_ofFields]
  cases s
  simp only [ofFields] at hIndex ⊢
  rw [← hIndex]

theorem Indexed.visitorKeys_eq (h : s.Indexed) :
    s.visitorKeys = (s.fields.filter (·.visit)).map (·.name) := by
  have hKeys := visitorKeys_ofFields s.tag s.fields
  rwa [← h.eq_ofFields] at hKeys

theorem Indexed.mem_visitorKeys_iff (h : s.Indexed) (name : String) :
    name ∈ s.visitorKeys ↔ ∃ f ∈ s.fields, f.name = name ∧ f.visit = true := by
  rw [h.visitorKeys_eq]
  simp only [List.mem_map, List.mem_filter]
  constructor
  · rintro ⟨f, ⟨hf, hv⟩, hName⟩
    exact ⟨f, hf, hName, hv⟩
  · rintro ⟨f, hf, hName, hv⟩
    exact ⟨f, ⟨hf, hv⟩, hName⟩

theorem Indexed.map_some_visitorKeys (h : s.Indexed) :
    s.visitorKeys.map some = s.traversable.map fun i => s.fields[i]?.map (·.name) := by
  rw [visitorKeys, List.map_filterMap]
  apply List.filterMap_eq_map_iff_forall_eq_some.mpr
  intro i hi
  obtain ⟨f, hf, _⟩ := (h.mem_traversable_iff i).mp hi
  simp [hf]

theorem Indexed.isLeaf_iff (h : s.Indexed) : s.isLeaf = true ↔ s.visitorKeys = [] := by
  have hLength := congrArg List.length h.map_some_visitorKeys
  simp only [List.length_map] at hLength
  rw [isLeaf, List.isEmpty_iff, ← List.length_eq_zero_iff, ← List.length_eq_zero_iff, hLength]

end Index

section Names

variable {s : NodeSchema}

theorem field?_eq_some_iff (hs : (s.fields.map (·.name)).Nodup) (name : String)
    (f : FieldSchema) : s.field? name = some f ↔ f ∈ s.fields ∧ f.name = name := by
  constructor
  · intro h
    have hName := List.find?_some h
    exact ⟨List.mem_of_find?_eq_some h, by simpa using hName⟩
  · rintro ⟨hf, rfl⟩
    exact find?_eq_some_of_nodup FieldSchema.name hs hf

theorem bindingKind?_eq_some_iff (hs : (s.fields.map (·.name)).Nodup) (name : String)
    (kind : BindingKind) : s.bindingKind? name = some kind ↔ (name, kind) ∈ s.bindingKeys := by
  simp only [bindingKind?, Option.bind_eq_some_iff, field?_eq_some_iff hs, mem_bindingKeys_iff,
    and_assoc]

theorem isTraversable_iff (hs : (s.fields.map (·.name)).Nodup) (name : String) :
    s.isTraversable name = true ↔ ∃ f ∈ s.fields, f.name = name ∧ f.visit = true := by
  simp only [isTraversable, Option.any_eq_true, field?_eq_some_iff hs, and_assoc]

/-- The fields that answer a question, listed by name with their answers. -/
theorem names_of_answers {α : Type} (answer? : FieldSchema → Option α)
    (fields : List FieldSchema) :
    (fields.filterMap fun f => (answer? f).map fun a => (f.name, a)).map (·.1) =
      (fields.filter fun f => (answer? f).isSome).map (·.name) := by
  induction fields with
  | nil => rfl
  | cons f fields ih => cases h : answer? f <;> simp [h, ih]

theorem names_bindingKeys (s : NodeSchema) :
    s.bindingKeys.map (·.1) = (s.fields.filter (·.binding.isSome)).map (·.name) :=
  names_of_answers FieldSchema.binding s.fields

theorem names_childTypes (s : NodeSchema) :
    s.childTypes.map (·.1) = (s.fields.filter (·.kind.isChild)).map (·.name) := by
  rw [childTypes, names_of_answers fun f => f.kind.target?]
  simp only [FieldKind.isSome_target?]

theorem introducesBindings_iff (s : NodeSchema) :
    s.introducesBindings = true ↔ s.bindingKeys ≠ [] := by
  have hKeys : s.bindingKeys = [] ↔ ∀ f ∈ s.fields, ¬ f.binding.isSome = true := by
    rw [← List.map_eq_nil_iff, names_bindingKeys, List.map_eq_nil_iff, List.filter_eq_nil_iff]
  simp only [introducesBindings, List.any_eq_true, ne_eq, hKeys, not_forall, not_not, exists_prop]

/-- Child fields picked out by a mark keep distinct names and their order. -/
theorem Marked.picked (h : s.Marked) (p : FieldSchema → Bool)
    (hp : ∀ f ∈ s.fields, p f = true → f.kind.isChild = true) :
    ((s.fields.filter p).map (·.name)).Nodup ∧
      ((s.fields.filter p).map (·.name)).Sublist (s.childTypes.map (·.1)) := by
  refine ⟨h.distinct.sublist (List.filter_sublist.map _), ?_⟩
  have hPicked : s.fields.filter p = (s.fields.filter (·.kind.isChild)).filter p := by
    rw [List.filter_filter]
    apply List.filter_congr
    intro f hf
    cases hv : p f with
    | false => rfl
    | true => simp [hp f hf hv]
  rw [names_childTypes, hPicked]
  exact List.filter_sublist.map _

end Names

/-- The queries agree on every schema with an index and with marks in the right places. -/
theorem Indexed.consistent {s : NodeSchema} (hi : s.Indexed) (hm : s.Marked) : s.Consistent where
  visitorKeys_named := hi.map_some_visitorKeys
  isTraversable_iff := by
    intro name
    rw [isTraversable_iff hm.distinct, hi.mem_visitorKeys_iff]
  bindingKind?_iff := bindingKind?_eq_some_iff hm.distinct
  isLeaf_iff := hi.isLeaf_iff
  introducesBindings_iff := s.introducesBindings_iff
  visitorKeys_nodup := hi.visitorKeys_eq ▸ (hm.picked _ hm.visited).1
  visitorKeys_sublist := hi.visitorKeys_eq ▸ (hm.picked _ hm.visited).2
  bindingKeys_nodup := s.names_bindingKeys ▸ (hm.picked _ hm.bound).1
  bindingKeys_sublist := s.names_bindingKeys ▸ (hm.picked _ hm.bound).2

end NodeSchema

namespace ShapeDecl

theorem ValidKeys.isChild {d : ShapeDecl} {keys : List String}
    (hn : (d.fields.map (·.name)).Nodup) (hk : d.ValidKeys keys) {f : FieldDecl}
    (hf : f ∈ d.fields) (hm : f.name ∈ keys) : f.kind.isChild = true := by
  obtain ⟨g, hg, hName, hChild⟩ := hk.declared f.name hm
  rw [List.inj_on_of_nodup_map hn hf hg hName.symm]
  exact g.kind.isChild_iff.mpr hChild

theorem Valid.marked_schema {d : ShapeDecl} {options : ValidationOptions} (h : d.Valid options) :
    d.schema.Marked where
  distinct := h.names_schema_nodup
  visited := by
    intro f hf hv
    obtain ⟨g, hg, rfl⟩ := List.mem_map.mp hf
    have hKey : g.name ∈ d.visitorKeys := ((describes_schema h).visit _ hf).mp hv
    exact h.visitorKeys.isChild h.fields hg hKey
  bound := by
    intro f hf hb
    obtain ⟨g, hg, rfl⟩ := List.mem_map.mp hf
    obtain ⟨kind, hb⟩ := Option.isSome_iff_exists.mp hb
    have hKey := ((describes_schema h).binding _ hf kind).mp hb
    exact h.bindingKeys.isChild h.fields hg (List.mem_map_of_mem (f := (·.1)) hKey)

theorem indexed_of_validate {d : ShapeDecl} {options : ValidationOptions} {s : NodeSchema}
    {warnings : List SchemaWarning} (h : d.validate options = .ok (s, warnings)) : s.Indexed := by
  obtain ⟨_, rfl, _⟩ := (validate_eq_ok_iff d options s warnings).mp h
  exact NodeSchema.indexed_ofFields d.tag _

/-- In every schema that comes out of validation the index and the marks say the same, and hence so
do all queries. -/
theorem validate_keeps_index_and_marks_together (d : ShapeDecl) (options : ValidationOptions)
    (s : NodeSchema) (warnings : List SchemaWarning)
    (h : d.validate options = .ok (s, warnings)) : s.Indexed ∧ s.Consistent := by
  have hIndexed := indexed_of_validate h
  obtain ⟨hd, rfl, _⟩ := (validate_eq_ok_iff d options s warnings).mp h
  exact ⟨hIndexed, hIndexed.consistent hd.marked_schema⟩

end ShapeDecl

theorem index_of_pairDecl : ∃ s, pairDecl.validate .strict = .ok (s, []) ∧
    s.traversable = [1, 2] ∧ s.Indexed ∧ s.Consistent := by
  have hAccepted : pairDecl.validate .strict = .ok (pairDecl.schema, []) := by decide
  exact ⟨_, hAccepted, by decide,
    ShapeDecl.validate_keeps_index_and_marks_together pairDecl .strict _ _ hAccepted⟩

end TreeSchema
