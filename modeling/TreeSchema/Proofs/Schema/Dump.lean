import TreeSchema.Group
import TreeSchema.Node.Basic
import TreeSchema.Proofs.Schema.Index

/-!
# What a dump tells

Tools see schemas only as they are written out. The index of visited fields is left out there, yet
nothing is lost: two validated schemas with like dumps are equal, and so is every answer that they
give. The dump tells the marks of every field, and the index follows from them.
-/

namespace TreeSchema

set_option autoImplicit false

namespace Dump

/-- Two documents hold the same. The records in them are compared label by label, whatever the order
in which the labels are written. -/
inductive Alike : Dump → Dump → Prop where
  | null : Alike .null .null
  | flag (value : Bool) : Alike (.flag value) (.flag value)
  | text (value : String) : Alike (.text value) (.text value)
  | list {xs ys : List Dump} : xs.length = ys.length →
      (∀ (i : Nat) x y, xs[i]? = some x → ys[i]? = some y → Alike x y) → Alike (.list xs) (.list ys)
  | record {xs ys : List (String × Dump)} :
      (∀ label, (xs.lookup label).isSome = (ys.lookup label).isSome) →
      (∀ label x y, xs.lookup label = some x → ys.lookup label = some y → Alike x y) →
      Alike (.record xs) (.record ys)

theorem Alike.refl : (d : Dump) → d.Alike d
  | .null => .null
  | .flag value => .flag value
  | .text value => .text value
  | .list xs => .list rfl fun i x y hx hy => by
    obtain rfl := Option.some.inj (hx.symm.trans hy)
    -- Termination: the parts of a document are smaller than the document.
    have hSmaller := List.sizeOf_lt_of_mem (List.mem_of_getElem? hx)
    exact refl x
  | .record xs => .record (fun _ => rfl) fun label x y hx hy => by
    obtain rfl := Option.some.inj (hx.symm.trans hy)
    have hSmaller : sizeOf x < sizeOf xs := by
      have hEntry := List.sizeOf_lt_of_mem (Node.mem_fields_of_lookup hx)
      rw [Prod.mk.sizeOf_spec] at hEntry
      omega
    exact refl x
termination_by d => sizeOf d

section Parts

variable {x y : Dump} {xs ys : List (String × Dump)}

theorem Alike.text_eq {a b : String} (h : (Dump.text a).Alike (.text b)) : a = b := by
  cases h
  rfl

theorem Alike.flag_eq {a b : Bool} (h : (Dump.flag a).Alike (.flag b)) : a = b := by
  cases h
  rfl

theorem Alike.entry (h : (Dump.record xs).Alike (.record ys)) (label : String)
    (hx : xs.lookup label = some x) (hy : ys.lookup label = some y) : x.Alike y := by
  cases h with
  | record _ hEntries => exact hEntries label x y hx hy

theorem Alike.applied {a b : String} (h : (applied a x).Alike (applied b y)) :
    a = b ∧ x.Alike y := by
  cases h with
  | record hLabels hEntries =>
    have hLabel : a = b := by
      by_contra hne
      have hb : (a == b) = false := by simp [hne]
      have hFound := hLabels a
      simp [List.lookup_cons, hb] at hFound
    subst hLabel
    exact ⟨rfl, hEntries a x y (by simp) (by simp)⟩

theorem Alike.list_inj {α : Type} {dump : α → Dump}
    (hInj : ∀ a b, (dump a).Alike (dump b) → a = b) {as bs : List α}
    (h : (Dump.list (as.map dump)).Alike (.list (bs.map dump))) : as = bs := by
  cases h with
  | list hLength hItems =>
    simp only [List.length_map] at hLength
    apply List.ext_getElem hLength
    intro i ha hb
    exact hInj _ _ (hItems i _ _ (by simp [ha]) (by simp [hb]))

end Parts

end Dump

theorem ChildType.eq_of_dump_alike (t t' : ChildType) (h : t.dump.Alike t'.dump) : t = t' := by
  cases t with
  | shape tag =>
    cases t' with
    | shape tag' => rw [h.applied.2.text_eq]
    | group name' => exact absurd h.applied.1 (by decide)
  | group name =>
    cases t' with
    | shape tag' => exact absurd h.applied.1 (by decide)
    | group name' => rw [h.applied.2.text_eq]

namespace FieldKind

theorem eq_of_parts?_eq (k k' : FieldKind) (h : k.parts? = k'.parts?) : k = k' := by
  cases k <;> cases k' <;> simp_all [parts?]

theorem eq_of_dump_alike (k k' : FieldKind) (h : k.dump.Alike k'.dump) : k = k' := by
  apply eq_of_parts?_eq
  unfold dump at h
  cases hk : k.parts? with
  | none =>
    cases hk' : k'.parts? with
    | none => rfl
    | some p' =>
      simp only [hk, hk'] at h
      cases h
  | some p =>
    cases hk' : k'.parts? with
    | none =>
      simp only [hk, hk'] at h
      cases h
    | some p' =>
      simp only [hk, hk'] at h
      obtain ⟨hName, hTarget⟩ := h.applied
      rw [Prod.ext hName (ChildType.eq_of_dump_alike _ _ hTarget)]

end FieldKind

theorem BindingKind.name_injective (k k' : BindingKind) (h : k.name = k'.name) : k = k' := by
  apply Option.some.inj
  rw [← ofName?_name k, ← ofName?_name k', h]

namespace FieldSchema

theorem binding_eq_of_dump_alike {b b' : Option BindingKind}
    (h : ((b.map fun k => Dump.text k.name).getD .null).Alike
      ((b'.map fun k => Dump.text k.name).getD .null)) : b = b' := by
  cases b with
  | none =>
    cases b' with
    | none => rfl
    | some k' => cases h
  | some k =>
    cases b' with
    | none => cases h
    | some k' => rw [BindingKind.name_injective k k' h.text_eq]

theorem eq_of_dump_alike (f f' : FieldSchema) (h : f.dump.Alike f'.dump) : f = f' := by
  have hName : f.name = f'.name := (h.entry "name" rfl rfl).text_eq
  have hKind : f.kind = f'.kind :=
    FieldKind.eq_of_dump_alike _ _ (h.entry "kind" rfl rfl)
  have hVisit : f.visit = f'.visit := (h.entry "visit" rfl rfl).flag_eq
  have hBinding : f.binding = f'.binding :=
    binding_eq_of_dump_alike (h.entry "binding" rfl rfl)
  exact FieldSchema.ext hName hKind hVisit hBinding

end FieldSchema

namespace NodeSchema

/-- A dump tells the tag and the fields, and these tell the index. -/
theorem Indexed.eq_of_dump_alike {s s' : NodeSchema} (hs : s.Indexed) (hs' : s'.Indexed)
    (h : s.dump.Alike s'.dump) : s = s' := by
  have hTag : s.tag = s'.tag := (h.entry "tag" rfl rfl).text_eq
  have hFields : s.fields = s'.fields :=
    (h.entry "fields" rfl rfl).list_inj FieldSchema.eq_of_dump_alike
  rw [hs.eq_ofFields, hs'.eq_ofFields, hTag, hFields]

end NodeSchema

theorem GroupSchema.eq_of_dump_alike (g g' : GroupSchema) (h : g.dump.Alike g'.dump) : g = g' := by
  have hName : g.name = g'.name := (h.entry "name" rfl rfl).text_eq
  have hMembers : g.members = g'.members :=
    (h.entry "members" rfl rfl).list_inj fun _ _ => Dump.Alike.text_eq
  exact GroupSchema.ext hName hMembers

/-- A dump determines the validated schema that it was made from, and likewise a group or the kind
of a field: no two of these are written alike. -/
theorem dump_determines_what_was_dumped :
    (∀ (d d' : ShapeDecl) (options options' : ValidationOptions) s s' warnings warnings',
      d.validate options = .ok (s, warnings) → d'.validate options' = .ok (s', warnings') →
      (s.dump.Alike s'.dump ↔ s = s')) ∧
    (∀ g g' : GroupSchema, g.dump.Alike g'.dump ↔ g = g') ∧
    (∀ k k' : FieldKind, k.dump.Alike k'.dump ↔ k = k') := by
  refine ⟨?_, ?_, ?_⟩
  · intro d d' options options' s s' warnings warnings' h h'
    constructor
    · exact (ShapeDecl.indexed_of_validate h).eq_of_dump_alike (ShapeDecl.indexed_of_validate h')
    · rintro rfl
      exact .refl _
  · intro g g'
    constructor
    · exact GroupSchema.eq_of_dump_alike g g'
    · rintro rfl
      exact .refl _
  · intro k k'
    constructor
    · exact FieldKind.eq_of_dump_alike k k'
    · rintro rfl
      exact .refl _

/-- The pair with its keys listed in the order of its fields. -/
def orderedPairDecl : ShapeDecl :=
  { pairDecl with visitorKeys := ["first", "rest"] }

theorem dump_of_orderedPairDecl :
    ∃ s s', pairDecl.validate .strict = .ok (s, []) ∧ orderedPairDecl.validate {} = .ok (s', []) ∧
      s.dump.Alike s'.dump ∧ s = s' := by
  have h : pairDecl.validate .strict = .ok (pairDecl.schema, []) := by decide
  have h' : orderedPairDecl.validate {} = .ok (orderedPairDecl.schema, []) := by decide
  have hAlike : pairDecl.schema.dump.Alike orderedPairDecl.schema.dump := .refl _
  have hSame := (dump_determines_what_was_dumped.1 _ _ _ _ _ _ _ _ h h').mp hAlike
  exact ⟨_, _, h, h', hAlike, hSame⟩

-- Without an index that follows the marks, a dump does not tell what a walk enters.
example : ∃ s s' : NodeSchema, s.dump = s'.dump ∧ s.isLeaf ≠ s'.isLeaf := by
  refine ⟨pairDecl.schema, { pairDecl.schema with traversable := [] }, rfl, ?_⟩
  decide

end TreeSchema
