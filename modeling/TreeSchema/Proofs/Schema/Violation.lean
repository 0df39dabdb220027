import TreeSchema.Proofs.Schema.Validation

/-!
# What validation refuses with

A declaration may be wrong in many ways at once. It is refused with the first violation: a repeated
field comes before a bad visitor key, that before a bad binding key, and that before a child field
that no walk enters; within each of these the position decides. A key counts as repeated only among
the keys of its own table.
-/

namespace TreeSchema

set_option autoImplicit false

namespace ShapeDecl

/-- The names that a table of keys lists, in order. -/
def keys (d : ShapeDecl) : KeyTable → List String
  | .visitor => d.visitorKeys
  | .binding => d.bindingKeys.map (·.1)

/-- What is wrong with a key that follows the keys `earlier` of its own table. -/
inductive KeyViolation (d : ShapeDecl) (earlier : List String) (key : String) :
    KeyTable → SchemaError → Prop where
  | undeclared {table : KeyTable} : (∀ f ∈ d.fields, f.name ≠ key) →
      KeyViolation d earlier key table (.unknownFieldKey d.tag key table)
  | visitsScalar : ⟨key, .scalar⟩ ∈ d.fields →
      KeyViolation d earlier key .visitor (.nonNodeVisit d.tag key)
  | bindsScalar : ⟨key, .scalar⟩ ∈ d.fields →
      KeyViolation d earlier key .binding (.nonNodeBinding d.tag key)
  | repeated {table : KeyTable} : (∃ f ∈ d.fields, f.name = key ∧ f.kind ≠ .scalar) →
      key ∈ earlier → KeyViolation d earlier key table (.duplicateKey d.tag key table)

/-- The first violation of a declaration, by kinds of violations and then by position. -/
inductive FirstViolation (d : ShapeDecl) (options : ValidationOptions) : SchemaError → Prop where
  | field {earlier later : List String} {name : String} :
      d.fields.map (·.name) = earlier ++ name :: later → earlier.Nodup → name ∈ earlier →
      FirstViolation d options (.duplicateField d.tag name)
  | visitorKey {earlier later : List String} {key : String} {e : SchemaError} :
      (d.fields.map (·.name)).Nodup →
      d.keys .visitor = earlier ++ key :: later → d.ValidKeys earlier →
      d.KeyViolation earlier key .visitor e → FirstViolation d options e
  | bindingKey {earlier later : List String} {key : String} {e : SchemaError} :
      (d.fields.map (·.name)).Nodup → d.ValidKeys (d.keys .visitor) →
      d.keys .binding = earlier ++ key :: later → d.ValidKeys earlier →
      d.KeyViolation earlier key .binding e → FirstViolation d options e
  | untraversed {earlier later : List FieldDecl} {f : FieldDecl} :
      (d.fields.map (·.name)).Nodup → d.ValidKeys (d.keys .visitor) →
      d.ValidKeys (d.keys .binding) → options.untraversedChild = .deny →
      d.fields = earlier ++ f :: later → f.kind ≠ .scalar → f.name ∉ d.keys .visitor →
      (∀ g ∈ earlier, g.kind ≠ .scalar → g.name ∈ d.keys .visitor) →
      FirstViolation d options (.untraversedChild d.tag f.name)

section Keys

variable {d : ShapeDecl} {table : KeyTable} {earlier earlier' : List String} {key : String}
  {e : SchemaError}

theorem KeyViolation.congr (h : d.KeyViolation earlier key table e)
    (hm : key ∈ earlier → key ∈ earlier') : d.KeyViolation earlier' key table e := by
  cases h with
  | undeclared h => exact .undeclared h
  | visitsScalar h => exact .visitsScalar h
  | bindsScalar h => exact .bindsScalar h
  | repeated h hk => exact .repeated h (hm hk)

theorem kind_unique (hn : (d.fields.map (·.name)).Nodup) {kind kind' : FieldKind}
    (h : ⟨key, kind⟩ ∈ d.fields) (h' : ⟨key, kind'⟩ ∈ d.fields) : kind = kind' := by
  have hKind := (kind?_eq_some_iff hn key kind').mpr h'
  rw [(kind?_eq_some_iff hn key kind).mpr h] at hKind
  exact Option.some.inj hKind

theorem keyViolation_of_scalar (hn : (d.fields.map (·.name)).Nodup)
    (hs : ⟨key, .scalar⟩ ∈ d.fields) :
    d.KeyViolation earlier key table e ↔ e = table.scalarFault d.tag key := by
  constructor
  · intro h
    cases h with
    | undeclared h => exact absurd rfl (h _ hs)
    | visitsScalar h => rfl
    | bindsScalar h => rfl
    | repeated h _ =>
      obtain ⟨f, hf, rfl, hk⟩ := h
      exact absurd (kind_unique hn hf hs) hk
  · rintro rfl
    cases table with
    | visitor => exact .visitsScalar hs
    | binding => exact .bindsScalar hs

theorem keyViolation_of_child (hn : (d.fields.map (·.name)).Nodup) {kind : FieldKind}
    (hf : ⟨key, kind⟩ ∈ d.fields) (hk : kind ≠ .scalar) :
    d.KeyViolation earlier key table e ↔ key ∈ earlier ∧ e = .duplicateKey d.tag key table := by
  have hScalar : ⟨key, .scalar⟩ ∉ d.fields := fun hs => hk (kind_unique hn hf hs)
  constructor
  · intro h
    cases h with
    | undeclared h => exact absurd rfl (h _ hf)
    | visitsScalar h => exact absurd h hScalar
    | bindsScalar h => exact absurd h hScalar
    | repeated _ hm => exact ⟨hm, rfl⟩
  · rintro ⟨hm, rfl⟩
    exact .repeated ⟨_, hf, rfl, hk⟩ hm

theorem keyViolation_of_undeclared (hu : ∀ f ∈ d.fields, f.name ≠ key) :
    d.KeyViolation earlier key table e ↔ e = .unknownFieldKey d.tag key table := by
  constructor
  · intro h
    cases h with
    | undeclared _ => rfl
    | visitsScalar h => exact absurd rfl (hu _ h)
    | bindsScalar h => exact absurd rfl (hu _ h)
    | repeated h _ =>
      obtain ⟨f, hf, hName, _⟩ := h
      exact absurd hName (hu f hf)
  · rintro rfl
    exact .undeclared hu

/-- The check of a key finds its violation, if there is one. -/
theorem keyFault?_eq_some_iff (hn : (d.fields.map (·.name)).Nodup) :
    d.keyFault? table earlier key = some e ↔ d.KeyViolation earlier key table e := by
  unfold keyFault?
  cases hk : d.kind? key with
  | none =>
    have hu : ∀ f ∈ d.fields, f.name ≠ key := by
      simpa [kind?] using hk
    rw [keyViolation_of_undeclared hu, Option.some.injEq, eq_comm]
  | some kind =>
    have hf := (kind?_eq_some_iff hn key kind).mp hk
    by_cases hs : kind = .scalar
    · subst hs
      rw [keyViolation_of_scalar hn hf]
      simp [FieldKind.isChild, eq_comm]
    · have hChild := kind.isChild_iff.mpr hs
      rw [keyViolation_of_child hn hf hs]
      by_cases hm : key ∈ earlier <;> simp [hChild, hm, eq_comm]

theorem firstKeyFaultAfter?_eq_some_iff (hn : (d.fields.map (·.name)).Nodup)
    (keys : List String) :
    d.firstKeyFaultAfter? table earlier keys = some e ↔ ∃ before key later,
      keys = before ++ key :: later ∧ d.firstKeyFaultAfter? table earlier before = none ∧
        d.KeyViolation (before ++ earlier) key table e := by
  -- The search starts after the keys of `earlier`, so the induction is over the rest for any start.
  -- It collects those keys in reverse, but what is wrong with a key depends only on which they are.
  induction keys generalizing earlier with
  | nil => simp [firstKeyFaultAfter?]
  | cons first keys ih =>
    simp only [List.cons_eq_append_iff]
    cases hFirst : d.keyFault? table earlier first with
    | some fault =>
      have hViolation := (keyFault?_eq_some_iff hn).mp hFirst
      simp only [firstKeyFaultAfter?, hFirst, Option.some.injEq]
      constructor
      · rintro rfl
        exact ⟨[], first, keys, .inl ⟨rfl, rfl⟩, rfl, hViolation⟩
      · rintro ⟨_, key, later, ⟨rfl, hSplit⟩ | ⟨before, rfl, _⟩, hNone, hv⟩
        · obtain ⟨rfl, _⟩ := List.cons.inj hSplit
          rw [List.nil_append, ← keyFault?_eq_some_iff hn, hFirst] at hv
          exact Option.some.inj hv
        · simp [firstKeyFaultAfter?, hFirst] at hNone
    | none =>
      simp only [firstKeyFaultAfter?, hFirst, ih]
      constructor
      · rintro ⟨before, key, later, rfl, hNone, hv⟩
        refine ⟨first :: before, key, later, .inr ⟨before, rfl, rfl⟩, ?_, ?_⟩
        · simpa only [firstKeyFaultAfter?, hFirst] using hNone
        · exact hv.congr List.perm_middle.mem_iff.mp
      · rintro ⟨_, key, later, ⟨rfl, hSplit⟩ | ⟨before, rfl, rfl⟩, hNone, hv⟩
        · obtain ⟨rfl, _⟩ := List.cons.inj hSplit
          rw [List.nil_append, ← keyFault?_eq_some_iff hn, hFirst] at hv
          cases hv
        · refine ⟨before, key, later, rfl, ?_, hv.congr List.perm_middle.mem_iff.mpr⟩
          simpa only [firstKeyFaultAfter?, hFirst] using hNone

theorem firstKeyFault?_eq_some_iff (hn : (d.fields.map (·.name)).Nodup) (keys : List String) :
    d.firstKeyFault? table keys = some e ↔ ∃ earlier key later,
      keys = earlier ++ key :: later ∧ d.ValidKeys earlier ∧
        d.KeyViolation earlier key table e := by
  simp [firstKeyFault?, firstKeyFaultAfter?_eq_some_iff hn, firstKeyFaultAfter?_eq_none_iff hn]

end Keys

section Refusals

variable {d : ShapeDecl} {options : ValidationOptions} {e : SchemaError}

theorem firstViolation_of_firstFault? (h : d.firstFault? = some e) :
    d.FirstViolation options e := by
  unfold firstFault? at h
  cases hr : firstRepeat? (d.fields.map (·.name)) with
  | some name =>
    obtain ⟨earlier, later, hSplit, hDistinct, hm⟩ := (firstRepeat?_eq_some_iff _ _).mp hr
    simp only [hr, Option.some.injEq] at h
    exact h ▸ .field hSplit hDistinct hm
  | none =>
    have hn := (firstRepeat?_eq_none_iff _).mp hr
    simp only [hr] at h
    cases hVisitor : d.firstKeyFault? .visitor d.visitorKeys with
    | some fault =>
      obtain ⟨earlier, key, later, hSplit, hEarlier, hv⟩ :=
        (firstKeyFault?_eq_some_iff hn _).mp hVisitor
      simp only [hVisitor, Option.some.injEq] at h
      exact h ▸ .visitorKey hn hSplit hEarlier hv
    | none =>
      simp only [hVisitor] at h
      obtain ⟨earlier, key, later, hSplit, hEarlier, hv⟩ := (firstKeyFault?_eq_some_iff hn _).mp h
      have hKeys := (firstKeyFault?_eq_none_iff hn .visitor _).mp hVisitor
      exact .bindingKey hn hKeys hSplit hEarlier hv

theorem untraversed_eq_cons_iff (field : String) :
    (∃ rest, d.untraversed = field :: rest) ↔ ∃ earlier f later, d.fields = earlier ++ f :: later ∧
      f.name = field ∧ f.kind ≠ .scalar ∧ f.name ∉ d.visitorKeys ∧
      ∀ g ∈ earlier, g.kind ≠ .scalar → g.name ∈ d.visitorKeys := by
  have hHead : (∃ rest, d.untraversed = field :: rest) ↔ d.untraversed.head? = some field := by
    cases d.untraversed <;> simp
  rw [hHead, untraversed, List.head?_map, List.head?_filter, Option.map_eq_some_iff]
  simp only [List.find?_eq_some_iff_append, Bool.and_eq_true, FieldKind.isChild_iff,
    Bool.not_eq_true', List.contains_eq_mem, decide_eq_false_iff_not]
  constructor
  · rintro ⟨f, ⟨⟨hk, hm⟩, earlier, later, hSplit, hEarlier⟩, rfl⟩
    refine ⟨earlier, f, later, hSplit, rfl, hk, hm, ?_⟩
    intro g hg hChild
    simpa [FieldKind.isChild_iff, hChild] using hEarlier g hg
  · rintro ⟨earlier, f, later, hSplit, rfl, hk, hm, hEarlier⟩
    refine ⟨f, ⟨⟨hk, hm⟩, earlier, later, hSplit, ?_⟩, rfl⟩
    intro g hg
    by_cases hChild : g.kind = .scalar
    · simp [hChild, FieldKind.isChild]
    · simp [hEarlier g hg hChild]

theorem validate_of_firstViolation (h : d.FirstViolation options e) :
    d.validate options = .error e := by
  cases h with
  | field hSplit hDistinct hm =>
    have hr := (firstRepeat?_eq_some_iff _ _).mpr ⟨_, _, hSplit, hDistinct, hm⟩
    simp only [validate_eq, firstFault?, hr]
  | visitorKey hn hSplit hEarlier hv =>
    have hr := (firstRepeat?_eq_none_iff _).mpr hn
    have hVisitor : d.firstKeyFault? .visitor d.visitorKeys = some e :=
      (firstKeyFault?_eq_some_iff hn _).mpr ⟨_, _, _, hSplit, hEarlier, hv⟩
    simp only [validate_eq, firstFault?, hr, hVisitor]
  | bindingKey hn hKeys hSplit hEarlier hv =>
    have hr := (firstRepeat?_eq_none_iff _).mpr hn
    have hVisitor : d.firstKeyFault? .visitor d.visitorKeys = none :=
      (firstKeyFault?_eq_none_iff hn .visitor _).mpr hKeys
    have hBinding : d.firstKeyFault? .binding (d.bindingKeys.map (·.1)) = some e :=
      (firstKeyFault?_eq_some_iff hn _).mpr ⟨_, _, _, hSplit, hEarlier, hv⟩
    simp only [validate_eq, firstFault?, hr, hVisitor, hBinding]
  | @untraversed earlier later f hn hVisitor hBinding hDeny hSplit hk hm hEarlier =>
    have hFault := (firstFault?_eq_none_iff d).mpr ⟨hn, hVisitor, hBinding⟩
    obtain ⟨rest, hRest⟩ := (untraversed_eq_cons_iff f.name).mpr
      ⟨earlier, f, later, hSplit, rfl, hk, hm, hEarlier⟩
    simp only [validate_eq, hFault, hDeny, hRest, LintLevel.judge, Except.map]

theorem firstViolation_of_validate (h : d.validate options = .error e) :
    d.FirstViolation options e := by
  rw [validate_eq] at h
  cases hFault : d.firstFault? with
  | some fault =>
    simp only [hFault, Except.error.injEq] at h
    exact h ▸ firstViolation_of_firstFault? hFault
  | none =>
    obtain ⟨hn, hVisitor, hBinding⟩ := (firstFault?_eq_none_iff d).mp hFault
    cases hLevel : options.untraversedChild with
    | allow => simp [hFault, hLevel, LintLevel.judge, Except.map] at h
    | warn => simp [hFault, hLevel, LintLevel.judge, Except.map] at h
    | deny =>
      cases hRest : d.untraversed with
      | nil => simp [hFault, hLevel, hRest, LintLevel.judge, Except.map] at h
      | cons field rest =>
        simp only [hFault, hLevel, hRest, LintLevel.judge, Except.map, Except.error.injEq] at h
        obtain ⟨earlier, f, later, hSplit, rfl, hk, hm, hEarlier⟩ :=
          (untraversed_eq_cons_iff field).mp ⟨rest, hRest⟩
        exact h ▸ .untraversed hn hVisitor hBinding hLevel hSplit hk hm hEarlier

theorem KeyViolation.eq_duplicateKey {earlier : List String} {key key' tag : String}
    {table table' : KeyTable}
    (h : d.KeyViolation earlier key table (.duplicateKey tag key' table')) :
    tag = d.tag ∧ key' = key ∧ table' = table ∧ key ∈ earlier := by
  cases h with
  | repeated _ hm => exact ⟨rfl, rfl, rfl, hm⟩

theorem two_le_count {earlier later : List String} {key : String} (hm : key ∈ earlier) :
    2 ≤ (earlier ++ key :: later).count key := by
  have hOne := List.count_pos_iff.mpr hm
  rw [List.count_append, List.count_cons_self]
  omega

/-- A key that is refused as repeated stands twice in its own table. -/
theorem FirstViolation.count_of_duplicateKey {tag key : String} {table : KeyTable}
    (h : d.FirstViolation options (.duplicateKey tag key table)) :
    tag = d.tag ∧ 2 ≤ (d.keys table).count key := by
  generalize he : SchemaError.duplicateKey tag key table = e at h
  cases h with
  | field => cases he
  | visitorKey _ hSplit _ hv =>
    obtain ⟨hTag, rfl, rfl, hm⟩ := (he ▸ hv).eq_duplicateKey
    exact ⟨hTag, hSplit ▸ two_le_count hm⟩
  | bindingKey _ _ hSplit _ hv =>
    obtain ⟨hTag, rfl, rfl, hm⟩ := (he ▸ hv).eq_duplicateKey
    exact ⟨hTag, hSplit ▸ two_le_count hm⟩
  | untraversed => cases he

end Refusals

/-- Validation refuses a declaration exactly with its first violation. Keys of the other table have
no part in it: a key is refused as repeated only if its own table lists it twice. -/
theorem validate_reports_first_violation (d : ShapeDecl) (options : ValidationOptions) :
    (∀ e, d.validate options = .error e ↔ d.FirstViolation options e) ∧
    ∀ tag key table, d.validate options = .error (.duplicateKey tag key table) →
      tag = d.tag ∧ 2 ≤ (d.keys table).count key := by
  constructor
  · intro e
    exact ⟨firstViolation_of_validate, validate_of_firstViolation⟩
  · intro tag key table h
    exact (firstViolation_of_validate h).count_of_duplicateKey

-- Three keys and a field are wrong here; that a field is both visited and bound is not.
example :
    let d : ShapeDecl :=
      { tag := "Pair"
        fields := [⟨"hidden", .child (.shape "Name")⟩, ⟨"label", .scalar⟩,
          ⟨"rest", .child (.shape "Name")⟩]
        visitorKeys := ["rest"]
        bindingKeys := [("rest", .var), ("rest", .lexical), ("label", .var), ("missing", .var)] }
    d.validate ⟨.deny⟩ = .error (.duplicateKey "Pair" "rest" .binding) := by
  rfl

end ShapeDecl

end TreeSchema
