import Mathlib.Data.List.Basic
import TreeSchema.Proofs.Schema.Marking

/-!
# What validation accepts

A declaration is accepted exactly when its field names are distinct, each key table lists distinct
child fields, and the lint has nothing to refuse. What comes out is the declared layout with every
key attached to the field that it names; the order in which the keys were listed is gone.
-/

namespace TreeSchema

set_option autoImplicit false

theorem FieldKind.isChild_iff (k : FieldKind) : k.isChild = true ↔ k ≠ .scalar := by
  cases k <;> simp [isChild]

namespace NodeSchema

theorem visitorKeys_ofFields (tag : String) (fields : List FieldSchema) :
    (ofFields tag fields).visitorKeys = (fields.filter (·.visit)).map (·.name) := by
  have hFound : ∀ f ∈ fields.zipIdx.filter (fun f => f.1.visit),
      fields[f.2]?.map (·.name) = some f.1.name := by
    intro f hf
    have hGet := List.mem_zipIdx_iff_getElem?.mp (List.mem_filter.mp hf).1
    simp [hGet]
  calc (ofFields tag fields).visitorKeys
      = (fields.zipIdx.filter fun f => f.1.visit).filterMap fun f =>
          fields[f.2]?.map (·.name) := by
        simp [visitorKeys, ofFields, List.filterMap_map]
    _ = (fields.zipIdx.filter fun f => f.1.visit).map fun f => f.1.name := by
        rw [List.filterMap_eq_map_iff_forall_eq_some.mpr hFound]
    _ = ((fields.zipIdx.map Prod.fst).filter (·.visit)).map (·.name) := by
        rw [List.filter_map, List.map_map]
        rfl
    _ = (fields.filter (·.visit)).map (·.name) := by
        rw [List.zipIdx_map_fst]

theorem exists_field_of_mem_visitorKeys {s : NodeSchema} {key : String}
    (h : key ∈ s.visitorKeys) : ∃ f ∈ s.fields, f.name = key := by
  obtain ⟨i, _, hi⟩ := List.mem_filterMap.mp h
  obtain ⟨f, hf, rfl⟩ := Option.map_eq_some_iff.mp hi
  exact ⟨f, List.mem_of_getElem? hf, rfl⟩

theorem mem_bindingKeys_iff (s : NodeSchema) (name : String) (kind : BindingKind) :
    (name, kind) ∈ s.bindingKeys ↔ ∃ f ∈ s.fields, f.name = name ∧ f.binding = some kind := by
  simp only [bindingKeys, List.mem_filterMap, Option.map_eq_some_iff, Prod.mk.injEq]
  constructor
  · rintro ⟨f, hf, _, hb, hName, rfl⟩
    exact ⟨f, hf, hName, hb⟩
  · rintro ⟨f, hf, hName, hb⟩
    exact ⟨f, hf, kind, hb, hName, rfl⟩

theorem bindingKeys_distinct {s : NodeSchema} (hs : (s.fields.map (·.name)).Nodup) :
    s.bindingKeys.Pairwise fun a b => a.1 ≠ b.1 := by
  apply List.pairwise_filterMap.mpr
  apply (List.pairwise_map.mp hs).imp
  intro f g hne a ha b hb
  obtain ⟨_, _, rfl⟩ := Option.map_eq_some_iff.mp ha
  obtain ⟨_, _, rfl⟩ := Option.map_eq_some_iff.mp hb
  exact hne

end NodeSchema

namespace ShapeDecl

theorem kind?_eq_some_iff {d : ShapeDecl} (hn : (d.fields.map (·.name)).Nodup) (name : String)
    (kind : FieldKind) : d.kind? name = some kind ↔ ⟨name, kind⟩ ∈ d.fields := by
  simp only [kind?, Option.map_eq_some_iff]
  constructor
  · rintro ⟨f, hf, rfl⟩
    have hName : f.name = name := by simpa using List.find?_some hf
    rw [← hName]
    exact List.mem_of_find?_eq_some hf
  · intro hm
    exact ⟨_, find?_eq_some_of_nodup FieldDecl.name hn hm, rfl⟩

/-- A table of keys that validation lets pass: distinct names, each of a child field. -/
structure ValidKeys (d : ShapeDecl) (keys : List String) : Prop where
  distinct : keys.Nodup
  declared : ∀ key ∈ keys, ∃ f ∈ d.fields, f.name = key ∧ f.kind ≠ .scalar

def FullyTraversed (d : ShapeDecl) : Prop :=
  ∀ f ∈ d.fields, f.kind ≠ .scalar → f.name ∈ d.visitorKeys

/-- The declarations that validation accepts, stated without its order of checks. -/
structure Valid (d : ShapeDecl) (options : ValidationOptions) : Prop where
  fields : (d.fields.map (·.name)).Nodup
  visitorKeys : d.ValidKeys d.visitorKeys
  bindingKeys : d.ValidKeys (d.bindingKeys.map (·.1))
  lint : options.untraversedChild = .deny → d.FullyTraversed

/-- What a declaration must turn into: its own layout with the keys attached to the fields, and one
warning for each child field that the lint level `warn` finds unvisited. -/
structure Describes (d : ShapeDecl) (options : ValidationOptions) (s : NodeSchema)
    (warnings : List SchemaWarning) : Prop where
  tag : s.tag = d.tag
  layout : s.fields.map (fun f => (f.name, f.kind)) = d.fields.map fun f => (f.name, f.kind)
  visit : ∀ f ∈ s.fields, f.visit = true ↔ f.name ∈ d.visitorKeys
  binding : ∀ f ∈ s.fields, ∀ kind, f.binding = some kind ↔ (f.name, kind) ∈ d.bindingKeys
  visitorKeys : s.visitorKeys = (d.fields.map (·.name)).filter (· ∈ d.visitorKeys)
  warnings : warnings =
    match options.untraversedChild with
    | .warn => (d.fields.filter fun f => f.kind ≠ .scalar ∧ f.name ∉ d.visitorKeys).map fun f =>
        .untraversedChild d.tag f.name
    | .allow | .deny => []

theorem keyFault?_eq_none_iff {d : ShapeDecl} (hn : (d.fields.map (·.name)).Nodup)
    (table : KeyTable) (earlier : List String) (key : String) :
    d.keyFault? table earlier key = none ↔
      (∃ f ∈ d.fields, f.name = key ∧ f.kind ≠ .scalar) ∧ key ∉ earlier := by
  have hDeclared : (∃ f ∈ d.fields, f.name = key ∧ f.kind ≠ .scalar) ↔
      ∃ kind, d.kind? key = some kind ∧ kind.isChild = true := by
    simp only [kind?_eq_some_iff hn, FieldKind.isChild_iff]
    constructor
    · rintro ⟨f, hf, rfl, hk⟩
      exact ⟨f.kind, hf, hk⟩
    · rintro ⟨kind, hm, hk⟩
      exact ⟨_, hm, rfl, hk⟩
  rw [hDeclared]
  unfold keyFault?
  cases d.kind? key with
  | none => simp
  | some kind => cases hk : kind.isChild <;> simp [hk]

theorem firstKeyFaultAfter?_eq_none_iff {d : ShapeDecl} (hn : (d.fields.map (·.name)).Nodup)
    (table : KeyTable) (earlier keys : List String) :
    d.firstKeyFaultAfter? table earlier keys = none ↔
      d.ValidKeys keys ∧ ∀ key ∈ keys, key ∉ earlier := by
  induction keys generalizing earlier with
  | nil => simpa [firstKeyFaultAfter?] using ⟨List.nodup_nil, by simp⟩
  | cons key keys ih =>
    have hStep : d.firstKeyFaultAfter? table earlier (key :: keys) = none ↔
        d.keyFault? table earlier key = none ∧
          d.firstKeyFaultAfter? table (key :: earlier) keys = none := by
      simp only [firstKeyFaultAfter?]
      cases d.keyFault? table earlier key <;> simp
    rw [hStep, keyFault?_eq_none_iff hn, ih]
    constructor
    · rintro ⟨⟨hKey, hFresh⟩, ⟨hd, hk⟩, he⟩
      refine ⟨⟨List.nodup_cons.mpr ⟨fun hm => he key hm List.mem_cons_self, hd⟩, ?_⟩, ?_⟩
      · intro k hm
        rcases List.mem_cons.mp hm with rfl | hm
        · exact hKey
        · exact hk k hm
      · intro k hm
        rcases List.mem_cons.mp hm with rfl | hm
        · exact hFresh
        · exact fun h => he k hm (List.mem_cons_of_mem key h)
    · rintro ⟨⟨hd, hk⟩, he⟩
      obtain ⟨hOut, hd⟩ := List.nodup_cons.mp hd
      refine ⟨⟨hk key List.mem_cons_self, he key List.mem_cons_self⟩,
        ⟨hd, fun k hm => hk k (List.mem_cons_of_mem key hm)⟩, ?_⟩
      intro k hm h
      rcases List.mem_cons.mp h with rfl | h
      · exact hOut hm
      · exact he k (List.mem_cons_of_mem key hm) h

theorem firstKeyFault?_eq_none_iff {d : ShapeDecl} (hn : (d.fields.map (·.name)).Nodup)
    (table : KeyTable) (keys : List String) :
    d.firstKeyFault? table keys = none ↔ d.ValidKeys keys := by
  simp [firstKeyFault?, firstKeyFaultAfter?_eq_none_iff hn]

theorem firstFault?_eq_none_iff (d : ShapeDecl) :
    d.firstFault? = none ↔ (d.fields.map (·.name)).Nodup ∧ d.ValidKeys d.visitorKeys ∧
      d.ValidKeys (d.bindingKeys.map (·.1)) := by
  unfold firstFault?
  cases hr : firstRepeat? (d.fields.map (·.name)) with
  | some name =>
    have hNot : ¬ (d.fields.map (·.name)).Nodup := fun hn => by
      rw [(firstRepeat?_eq_none_iff _).mpr hn] at hr
      cases hr
    simp [hNot]
  | none =>
    have hn := (firstRepeat?_eq_none_iff _).mp hr
    rw [← firstKeyFault?_eq_none_iff hn .visitor, ← firstKeyFault?_eq_none_iff hn .binding]
    cases d.firstKeyFault? .visitor d.visitorKeys <;> simp [hn]

theorem untraversed_fieldSchema (d : ShapeDecl) :
    FieldSchema.untraversed (d.fields.map d.fieldSchema) = d.untraversed := by
  simp [FieldSchema.untraversed, untraversed, List.filter_map, Function.comp_def, fieldSchema]

theorem untraversed_eq_nil_iff (d : ShapeDecl) : d.untraversed = [] ↔ d.FullyTraversed := by
  simp only [untraversed, FullyTraversed, List.map_eq_nil_iff, List.filter_eq_nil_iff,
    Bool.and_eq_true, FieldKind.isChild_iff, Bool.not_eq_true', List.contains_eq_mem,
    decide_eq_false_iff_not, not_and, not_not]

/-- Validation in terms of the declaration alone: what the loop over the keys stops at or builds is
read off the two tables. -/
theorem validate_eq (d : ShapeDecl) (options : ValidationOptions) :
    d.validate options =
      match d.firstFault? with
      | some fault => .error fault
      | none => (options.untraversedChild.judge d.tag d.untraversed).map fun warnings =>
          (d.schema, warnings) := by
  unfold validate firstFault?
  cases hr : firstRepeat? (d.fields.map (·.name)) with
  | some name => rfl
  | none =>
    have hn := (firstRepeat?_eq_none_iff _).mp hr
    simp only [attachAll_marks hn]
    cases d.firstKeyFault? .visitor d.visitorKeys with
    | some fault => rfl
    | none =>
      cases hf : d.firstKeyFault? .binding (d.bindingKeys.map (·.1)) with
      | some fault => rfl
      | none =>
        have hKeys := (firstKeyFault?_eq_none_iff hn _ _).mp hf
        have hMarked : d.fields.map (·.markedBy d.marks) = d.fields.map d.fieldSchema :=
          List.map_congr_left fun f _ => markedBy_marks hKeys.distinct f
        simp only [hMarked, untraversed_fieldSchema]
        rfl

/-- What the lint says of a declaration that it lets pass. -/
def lintWarnings (d : ShapeDecl) (options : ValidationOptions) : List SchemaWarning :=
  match options.untraversedChild with
  | .warn => d.untraversed.map (.untraversedChild d.tag)
  | .allow | .deny => []

theorem validate_eq_ok_iff (d : ShapeDecl) (options : ValidationOptions) (s : NodeSchema)
    (warnings : List SchemaWarning) :
    d.validate options = .ok (s, warnings) ↔
      d.Valid options ∧ s = d.schema ∧ warnings = d.lintWarnings options := by
  have hLevels := firstFault?_eq_none_iff d
  rw [validate_eq]
  unfold lintWarnings
  cases hf : d.firstFault? with
  | some fault =>
    have hNot : ¬ d.Valid options := fun h => by
      rw [hLevels.mpr ⟨h.fields, h.visitorKeys, h.bindingKeys⟩] at hf
      cases hf
    simp [hNot]
  | none =>
    obtain ⟨hFields, hVisitor, hBinding⟩ := hLevels.mp hf
    cases hl : options.untraversedChild with
    | allow =>
      have hValid : d.Valid options := ⟨hFields, hVisitor, hBinding, by simp [hl]⟩
      simp [hValid, LintLevel.judge, Except.map, eq_comm]
    | warn =>
      have hValid : d.Valid options := ⟨hFields, hVisitor, hBinding, by simp [hl]⟩
      simp [hValid, LintLevel.judge, Except.map, eq_comm]
    | deny =>
      have hValid : d.Valid options ↔ d.untraversed = [] := by
        rw [untraversed_eq_nil_iff]
        exact ⟨fun h => h.lint hl, fun h => ⟨hFields, hVisitor, hBinding, fun _ => h⟩⟩
      cases hu : d.untraversed <;>
        simp [hValid, hu, LintLevel.judge, Except.map, eq_comm]

theorem describes_schema {d : ShapeDecl} {options : ValidationOptions} (h : d.Valid options) :
    d.Describes options d.schema (d.lintWarnings options) where
  tag := rfl
  layout := by
    simp [schema, NodeSchema.ofFields, fieldSchema]
  visit := by
    intro f hf
    obtain ⟨g, _, rfl⟩ := List.mem_map.mp hf
    simp [fieldSchema]
  binding := by
    intro f hf kind
    obtain ⟨g, _, rfl⟩ := List.mem_map.mp hf
    exact lookup_eq_some_iff_mem h.bindingKeys.distinct g.name kind
  visitorKeys := by
    rw [schema, NodeSchema.visitorKeys_ofFields, List.filter_map, List.filter_map, List.map_map]
    simp [Function.comp_def, fieldSchema]
  warnings := by
    unfold lintWarnings
    cases options.untraversedChild with
    | allow => rfl
    | deny => rfl
    | warn =>
      simp only [untraversed, List.map_map]
      congr 1
      apply List.filter_congr
      intro f _
      cases f.kind <;> simp [FieldKind.isChild]

theorem Valid.names_schema_nodup {d : ShapeDecl} {options : ValidationOptions}
    (h : d.Valid options) : (d.schema.fields.map (·.name)).Nodup := by
  simpa [schema, NodeSchema.ofFields, fieldSchema, Function.comp_def] using h.fields

/-- Validation accepts exactly the valid declarations, and what it then answers is described by the
declaration alone, whatever the order in which the keys were listed. -/
theorem validate_accepts_exactly_valid (d : ShapeDecl) (options : ValidationOptions) :
    ((∃ s warnings, d.validate options = .ok (s, warnings)) ↔ d.Valid options) ∧
      ∀ s warnings, d.validate options = .ok (s, warnings) →
        d.Describes options s warnings := by
  constructor
  · constructor
    · rintro ⟨s, warnings, h⟩
      exact ((validate_eq_ok_iff d options s warnings).mp h).1
    · intro h
      exact ⟨d.schema, _, (validate_eq_ok_iff d options _ _).mpr ⟨h, rfl, rfl⟩⟩
  · intro s warnings h
    obtain ⟨hValid, rfl, rfl⟩ := (validate_eq_ok_iff d options s warnings).mp h
    exact describes_schema hValid

end ShapeDecl

/-- A pair of a name and possibly more. The keys are not listed in the order of the fields. -/
def pairDecl : ShapeDecl where
  tag := "Pair"
  fields := [⟨"mark", .scalar⟩, ⟨"first", .child (.shape "Name")⟩,
    ⟨"rest", .optionalSequence (.group "Any")⟩]
  visitorKeys := ["rest", "first"]
  bindingKeys := [("first", .var)]

theorem pairDecl_valid : pairDecl.Valid .strict where
  fields := by decide
  visitorKeys := ⟨by decide, by decide⟩
  bindingKeys := ⟨by decide, by decide⟩
  lint _ := by
    unfold ShapeDecl.FullyTraversed
    decide

theorem validate_pairDecl : ∃ s warnings, pairDecl.validate .strict = .ok (s, warnings) ∧
    s.visitorKeys = ["first", "rest"] := by
  obtain ⟨hAccepts, hDescribes⟩ := ShapeDecl.validate_accepts_exactly_valid pairDecl .strict
  obtain ⟨s, warnings, h⟩ := hAccepts.mpr pairDecl_valid
  exact ⟨s, warnings, h, (hDescribes s warnings h).visitorKeys⟩

end TreeSchema
