import Mathlib.Data.List.Nodup
import TreeSchema.Proofs.Schema.Validation

/-!
# What validation forgets

A schema keeps all of the declaration that it was made from, save the order in which the keys were
listed. Its own queries spell that declaration out again, with the keys in the order of the fields,
and this is accepted as the first one was. So two accepted declarations have one schema exactly when
one of them rearranges the keys of the other.
-/

namespace TreeSchema

set_option autoImplicit false

/-- The declaration that the queries on a schema spell out. -/
def NodeSchema.toDecl (s : NodeSchema) : ShapeDecl where
  tag := s.tag
  fields := s.fields.map fun f => ⟨f.name, f.kind⟩
  visitorKeys := s.visitorKeys
  bindingKeys := s.bindingKeys

namespace ShapeDecl

/-- The same declaration, with the keys of either table perhaps in another order. -/
structure Rearranges (d d' : ShapeDecl) : Prop where
  tag : d.tag = d'.tag
  fields : d.fields = d'.fields
  visitorKeys : d.visitorKeys.Perm d'.visitorKeys
  bindingKeys : d.bindingKeys.Perm d'.bindingKeys

section Rearranging

variable {d d' d'' : ShapeDecl} {options : ValidationOptions}

theorem Rearranges.symm (h : d.Rearranges d') : d'.Rearranges d :=
  ⟨h.tag.symm, h.fields.symm, h.visitorKeys.symm, h.bindingKeys.symm⟩

theorem Rearranges.trans (h : d.Rearranges d') (h' : d'.Rearranges d'') : d.Rearranges d'' :=
  ⟨h.tag.trans h'.tag, h.fields.trans h'.fields, h.visitorKeys.trans h'.visitorKeys,
    h.bindingKeys.trans h'.bindingKeys⟩

theorem ValidKeys.rearranged {keys keys' : List String} (hd : d.ValidKeys keys)
    (hf : d.fields = d'.fields) (hp : keys.Perm keys') : d'.ValidKeys keys' := by
  refine ⟨hp.nodup_iff.mp hd.distinct, ?_⟩
  intro key hk
  rw [← hf]
  exact hd.declared key (hp.mem_iff.mpr hk)

theorem Rearranges.valid (h : d.Rearranges d') (hd : d.Valid options) : d'.Valid options where
  fields := h.fields ▸ hd.fields
  visitorKeys := hd.visitorKeys.rearranged h.fields h.visitorKeys
  bindingKeys := hd.bindingKeys.rearranged h.fields (h.bindingKeys.map _)
  lint hDeny := by
    intro f hf hk
    rw [← h.fields] at hf
    exact h.visitorKeys.mem_iff.mp (hd.lint hDeny f hf hk)

theorem Rearranges.lookup_eq (h : d.Rearranges d') (hd : d.Valid options) (name : String) :
    d.bindingKeys.lookup name = d'.bindingKeys.lookup name := by
  have hDistinct := hd.bindingKeys.distinct
  have hDistinct' := (h.valid hd).bindingKeys.distinct
  apply Option.ext
  intro kind
  rw [lookup_eq_some_iff_mem hDistinct, lookup_eq_some_iff_mem hDistinct']
  exact h.bindingKeys.mem_iff

theorem Rearranges.schema_eq (h : d.Rearranges d') (hd : d.Valid options) :
    d.schema = d'.schema := by
  have hField : d.fieldSchema = d'.fieldSchema := by
    funext f
    simp only [fieldSchema, h.visitorKeys.contains_eq, h.lookup_eq hd]
  rw [schema, schema, hField, h.tag, h.fields]

theorem Rearranges.lintWarnings_eq (h : d.Rearranges d') :
    d.lintWarnings options = d'.lintWarnings options := by
  simp only [lintWarnings, untraversed, h.tag, h.fields, h.visitorKeys.contains_eq]

/-- The order of the keys has no influence on what validation answers. -/
theorem Rearranges.validate_eq (h : d.Rearranges d') (hd : d.Valid options) :
    d.validate options = d'.validate options := by
  have hFirst := (validate_eq_ok_iff d options _ _).mpr ⟨hd, rfl, rfl⟩
  have hSecond := (validate_eq_ok_iff d' options _ _).mpr ⟨h.valid hd, rfl, rfl⟩
  rw [hFirst, hSecond, h.schema_eq hd, h.lintWarnings_eq]

theorem Valid.visitorKeys_perm (hd : d.Valid options) :
    d.schema.visitorKeys.Perm d.visitorKeys := by
  rw [(describes_schema hd).visitorKeys]
  apply (List.perm_ext_iff_of_nodup (hd.fields.filter _) hd.visitorKeys.distinct).mpr
  intro key
  simp only [List.mem_filter, decide_eq_true_eq]
  constructor
  · exact And.right
  · intro hk
    obtain ⟨f, hf, rfl, _⟩ := hd.visitorKeys.declared key hk
    exact ⟨List.mem_map_of_mem hf, hk⟩

theorem Valid.bindingKeys_perm (hd : d.Valid options) :
    d.schema.bindingKeys.Perm d.bindingKeys := by
  have hKept : d.schema.bindingKeys.Nodup := by
    apply (NodeSchema.bindingKeys_distinct hd.names_schema_nodup).imp
    intro a b hne hEq
    exact hne (congrArg Prod.fst hEq)
  apply (List.perm_ext_iff_of_nodup hKept (List.Nodup.of_map _ hd.bindingKeys.distinct)).mpr
  rintro ⟨name, kind⟩
  have hBinding := (describes_schema hd).binding
  rw [NodeSchema.mem_bindingKeys_iff]
  constructor
  · rintro ⟨f, hf, rfl, hb⟩
    exact (hBinding f hf kind).mp hb
  · intro hm
    -- The key names a declared field, and this field has kept the kind.
    obtain ⟨f, hf, rfl, _⟩ := hd.bindingKeys.declared name (List.mem_map_of_mem (f := (·.1)) hm)
    have hField : d.fieldSchema f ∈ d.schema.fields := List.mem_map_of_mem hf
    exact ⟨_, hField, rfl, (hBinding _ hField kind).mpr hm⟩

theorem fields_toDecl_schema (d : ShapeDecl) : d.schema.toDecl.fields = d.fields := by
  simp [NodeSchema.toDecl, schema, NodeSchema.ofFields, fieldSchema, Function.comp_def]

theorem Valid.toDecl_rearranges (hd : d.Valid options) : d.schema.toDecl.Rearranges d :=
  ⟨rfl, d.fields_toDecl_schema, hd.visitorKeys_perm, hd.bindingKeys_perm⟩

end Rearranging

/-- Validation loses nothing but the order of the keys. The declaration that a schema spells out is
accepted with the same answer, and accepted declarations have the same schema exactly when they
differ in that order alone. -/
theorem validate_forgets_only_key_order (options : ValidationOptions) :
    (∀ (d : ShapeDecl) s warnings, d.validate options = .ok (s, warnings) →
      s.toDecl.validate options = .ok (s, warnings)) ∧
    ∀ (d d' : ShapeDecl) s s' warnings warnings', d.validate options = .ok (s, warnings) →
      d'.validate options = .ok (s', warnings') → (s = s' ↔ d.Rearranges d') := by
  constructor
  · intro d s warnings h
    obtain ⟨hd, rfl, _⟩ := (validate_eq_ok_iff d options s warnings).mp h
    have hBack := hd.toDecl_rearranges.symm
    rw [← hBack.validate_eq hd]
    exact h
  · intro d d' s s' warnings warnings' h h'
    obtain ⟨hd, rfl, _⟩ := (validate_eq_ok_iff d options s warnings).mp h
    obtain ⟨hd', rfl, _⟩ := (validate_eq_ok_iff d' options s' warnings').mp h'
    constructor
    · intro hSame
      have hMiddle : d.Rearranges d'.schema.toDecl := hSame ▸ hd.toDecl_rearranges.symm
      exact hMiddle.trans hd'.toDecl_rearranges
    · intro hRearranged
      exact hRearranged.schema_eq hd

end ShapeDecl

theorem validate_pairDecl_spelt_out :
    ∃ s, pairDecl.validate .strict = .ok (s, []) ∧ s.toDecl.validate .strict = .ok (s, []) ∧
      s.toDecl ≠ pairDecl ∧ pairDecl.Rearranges s.toDecl := by
  have hAccepted : pairDecl.validate .strict = .ok (pairDecl.schema, []) := by decide
  obtain ⟨hSpelt, hSame⟩ := ShapeDecl.validate_forgets_only_key_order .strict
  have hAgain := hSpelt pairDecl _ _ hAccepted
  exact ⟨_, hAccepted, hAgain, by decide, (hSame _ _ _ _ _ _ hAccepted hAgain).mp rfl⟩

end TreeSchema
