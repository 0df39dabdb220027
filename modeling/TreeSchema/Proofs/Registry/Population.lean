import TreeSchema.Proofs.Schema.Validation
import TreeSchema.Registry.Builder

/-!
# How a builder is populated

All that a call can do to a builder is said once, in `submit_cases` and `insert_cases`. What holds
of the empty tables and is kept by every accepted entry then holds after any sequence of calls. The
first use is where registered shapes come from: each was validated under the builder's options, and
the warnings that it drew are still on record.
-/

namespace TreeSchema

set_option autoImplicit false

namespace Tables

theorem insert_cases {t t' : Tables} {entry : Entry} (h : t.insert entry = .ok t') :
    (∃ s warnings, entry = .shape s warnings ∧ t.contains s.tag = false ∧
      t' = { t with shapes := t.shapes ++ [s], warnings := t.warnings ++ warnings }) ∨
    (∃ g, entry = .group g ∧ t.group? g.name = none ∧
      t' = { t with groups := t.groups ++ [g] }) := by
  cases entry with
  | shape s warnings =>
    simp only [insert] at h
    split at h
    · cases h
    · rename_i hFresh
      cases h
      exact .inl ⟨s, warnings, rfl, by simpa using hFresh, rfl⟩
  | group g =>
    simp only [insert] at h
    split at h
    · cases h
    · rename_i hFresh
      cases h
      exact .inr ⟨g, rfl, by simpa using hFresh, rfl⟩

/-- Every registered shape was validated under `options`, and its warnings are on record. -/
def Validated (options : ValidationOptions) (t : Tables) : Prop :=
  ∀ s ∈ t.shapes, ∃ (d : ShapeDecl) (warnings : List SchemaWarning),
    d.validate options = .ok (s, warnings) ∧ ∀ w ∈ warnings, w ∈ t.warnings

theorem validated_empty (options : ValidationOptions) : Validated options {} := by
  intro s hs
  cases hs

theorem Validated.insert {options : ValidationOptions} {t t' : Tables} {c : Call} {entry : Entry}
    (ht : Validated options t) (hc : c.validate options = .ok entry)
    (hi : t.insert entry = .ok t') : Validated options t' := by
  rcases insert_cases hi with ⟨s, warnings, rfl, _, rfl⟩ | ⟨g, rfl, _, rfl⟩
  · intro s' hs'
    rcases List.mem_append.mp hs' with hOld | hNew
    · obtain ⟨d, ws, hd, hw⟩ := ht s' hOld
      exact ⟨d, ws, hd, fun w hm => List.mem_append_left _ (hw w hm)⟩
    · have hs : s' = s := by simpa using hNew
      subst hs
      -- Only a shape call validates to a shape entry.
      cases c with
      | shape d =>
        cases hd : d.validate options with
        | error e => simp [Call.validate, hd, Except.map] at hc
        | ok out =>
          obtain ⟨s, ws⟩ := out
          simp only [Call.validate, hd, Except.map, Except.ok.injEq, Entry.shape.injEq] at hc
          obtain ⟨rfl, rfl⟩ := hc
          exact ⟨d, ws, hd, fun w hm => List.mem_append_right _ hm⟩
      | group d =>
        cases hd : d.validate <;> simp [Call.validate, hd, Except.map] at hc
  · exact ht

theorem Validated.visitorKeys_eq {options : ValidationOptions} {t : Tables}
    (ht : Validated options t) {s : NodeSchema} (hs : s ∈ t.shapes) :
    s.visitorKeys = (s.fields.filter (·.visit)).map (·.name) := by
  obtain ⟨d, warnings, hd, _⟩ := ht s hs
  obtain ⟨_, rfl, _⟩ := (d.validate_eq_ok_iff options s warnings).mp hd
  exact NodeSchema.visitorKeys_ofFields d.tag _

theorem Validated.fieldNames_nodup {options : ValidationOptions} {t : Tables}
    (ht : Validated options t) {s : NodeSchema} (hs : s ∈ t.shapes) :
    (s.fields.map (·.name)).Nodup := by
  obtain ⟨d, warnings, hd, _⟩ := ht s hs
  obtain ⟨hValid, rfl, _⟩ := (d.validate_eq_ok_iff options s warnings).mp hd
  exact hValid.names_schema_nodup

/-- A lint that refuses, or that warns and has never had to, leaves no child field unvisited. -/
theorem Validated.visit_of_child {options : ValidationOptions} {t : Tables}
    (ht : Validated options t)
    (hl : options.untraversedChild = .deny ∨
      options.untraversedChild = .warn ∧ t.warnings = []) {s : NodeSchema} (hs : s ∈ t.shapes)
    {f : FieldSchema} (hf : f ∈ s.fields) (hk : f.kind ≠ .scalar) : f.visit = true := by
  obtain ⟨d, warnings, hd, hKept⟩ := ht s hs
  obtain ⟨hValid, rfl, hw⟩ := (d.validate_eq_ok_iff options s warnings).mp hd
  have hFull : d.FullyTraversed := by
    rcases hl with hDeny | ⟨hWarn, hNone⟩
    · exact hValid.lint hDeny
    · rw [← ShapeDecl.untraversed_eq_nil_iff]
      have hEmpty : warnings = [] := by
        rw [hNone] at hKept
        exact List.eq_nil_iff_forall_not_mem.mpr fun w hm => by cases hKept w hm
      simp only [ShapeDecl.lintWarnings, hWarn, hEmpty] at hw
      exact List.map_eq_nil_iff.mp hw.symm
  obtain ⟨g, hg, rfl⟩ := List.mem_map.mp hf
  simpa [ShapeDecl.fieldSchema] using hFull g hg hk

theorem lookup_eq_ok_iff (t : Tables) (tag : String) (s : NodeSchema) :
    t.lookup tag = .ok s ↔ t.shape? tag = some s := by
  unfold lookup
  cases t.shape? tag <;> simp

end Tables

namespace Registry

theorem lookup_eq_ok_iff (r : Registry) (tag : String) (s : NodeSchema) :
    r.lookup tag = .ok s ↔ r.tables.shape? tag = some s :=
  r.tables.lookup_eq_ok_iff tag s

theorem mem_shapes_of_lookup {r : Registry} {tag : String} {s : NodeSchema}
    (h : r.lookup tag = .ok s) : s ∈ r.tables.shapes :=
  List.mem_of_find?_eq_some ((r.lookup_eq_ok_iff tag s).mp h)

theorem lookup_eq_error {r : Registry} {tag : String} {e : SchemaError}
    (h : r.lookup tag = .error e) : e = .unknownNodeTag tag := by
  unfold lookup Tables.lookup at h
  cases hs : r.tables.shape? tag <;> simp_all

theorem contains_iff (r : Registry) (tag : String) :
    r.contains tag = true ↔ ∃ s, r.lookup tag = .ok s := by
  simp only [lookup_eq_ok_iff, contains, Tables.contains, Option.isSome_iff_exists]

theorem contains_of_lookup {r : Registry} {tag : String} {s : NodeSchema}
    (h : r.lookup tag = .ok s) : r.contains tag = true :=
  (r.contains_iff tag).mpr ⟨s, h⟩

theorem not_contains_of_lookup {r : Registry} {tag : String} {e : SchemaError}
    (h : r.lookup tag = .error e) : ¬ r.contains tag = true := by
  intro hc
  obtain ⟨s, hs⟩ := (r.contains_iff tag).mp hc
  rw [h] at hs
  cases hs

theorem tag_of_lookup {r : Registry} {tag : String} {s : NodeSchema} (h : r.lookup tag = .ok s) :
    s.tag = tag :=
  Tables.tag_of_shape? ((r.lookup_eq_ok_iff tag s).mp h)

end Registry

namespace Builder

/-- All that a call can do: it is refused by validation or because its name is taken, and nothing
changes and nothing is reported, or its entry is accepted. -/
theorem submit_cases (b : Builder) (c : Call) :
    (∃ e, b.submit c = ⟨.error e, b, []⟩ ∧ (c.validate b.options = .error e ∨
      ∃ entry, c.validate b.options = .ok entry ∧ b.tables.insert entry = .error e)) ∨
    (∃ entry t, c.validate b.options = .ok entry ∧ b.tables.insert entry = .ok t ∧
      b.submit c = ⟨.ok (), { b with tables := t }, entry.events⟩) := by
  unfold submit
  cases hv : c.validate b.options with
  | error e => exact .inl ⟨e, rfl, .inl rfl⟩
  | ok entry =>
    cases hi : b.tables.insert entry with
    | error e => exact .inl ⟨e, by simp [hi], .inr ⟨entry, rfl, hi⟩⟩
    | ok t => exact .inr ⟨entry, t, rfl, hi, by simp [hi]⟩

theorem submitEach_keeps {P : Tables → Prop} {options : ValidationOptions}
    (step : ∀ {t t' : Tables} {c : Call} {entry : Entry}, P t → c.validate options = .ok entry →
      t.insert entry = .ok t' → P t') (calls : List Call) (b : Builder) (ho : b.options = options)
    (hb : P b.tables) :
    (b.submitEach calls).2.1.options = options ∧ P (b.submitEach calls).2.1.tables := by
  induction calls generalizing b with
  | nil => exact ⟨ho, hb⟩
  | cons c calls ih =>
    rcases submit_cases b c with ⟨e, hs, _⟩ | ⟨entry, t, hv, hi, hs⟩
    · simp only [submitEach, hs]
      exact ih b ho hb
    · simp only [submitEach, hs]
      exact ih { b with tables := t } ho (step hb (ho ▸ hv) hi)

/-- The builder that a sequence of calls leaves behind, those that were refused included. -/
def after (options : ValidationOptions) (calls : List Call) : Builder :=
  ((empty options).submitEach calls).2.1

theorem after_validated (options : ValidationOptions) (calls : List Call) :
    (after options calls).tables.Validated options :=
  (submitEach_keeps Tables.Validated.insert calls (empty options) rfl
    (Tables.validated_empty options)).2

end Builder

end TreeSchema
