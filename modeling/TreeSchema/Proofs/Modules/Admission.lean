import TreeSchema.Proofs.Modules.Hosting
import TreeSchema.Proofs.Registry.Finishing
import TreeSchema.Proofs.Registry.LintLevels

/-!
# How far module syntax gets in a host

The registrations of module syntax are made one after the other and not as a whole. No lint level
has anything against any of them, so that only a name which the host has taken can stop them. What
stands before that name in the order of registration is then there to stay. Tags and group names
never meet in this.
-/

namespace TreeSchema

set_option autoImplicit false

/-- What is entered for a call that no lint level has a word about. -/
def Call.entry : Call → Entry
  | .shape d => .shape d.schema []
  | .group g => .group { name := g.name, members := g.members }

/-- A call that is valid at every lint level and draws no warning. -/
def Call.Sound (c : Call) : Prop :=
  ∀ options, c.validate options = .ok c.entry

namespace Call

theorem Sound.of_strict {c : Call} (h : c.validate .strict = .ok c.entry) : c.Sound := by
  obtain ⟨hWarn, _⟩ := (c.validate_deny_eq_ok_iff c.entry).mp h
  rintro ⟨level⟩
  cases level with
  | deny => exact h
  | warn => exact hWarn
  | allow =>
    rw [c.validate_allow, hWarn]
    cases c <;> rfl

theorem name_entry (c : Call) : c.entry.name = c.name := by
  cases c <;> rfl

theorem warnings_entry (c : Call) : c.entry.warnings = [] := by
  cases c <;> rfl

end Call

namespace Tables

variable (t u : Tables)

theorem plus_ofEntries_nil : t.plus (ofEntries []) = t := by
  simp [plus, ofEntries]

theorem plus_ofEntries_cons (entry : Entry) (entries : List Entry) :
    t.plus (ofEntries (entry :: entries)) = (t.add entry).plus (ofEntries entries) := by
  cases entry <;> simp [plus, ofEntries, add, Entry.schema?, Entry.group?, Entry.warnings]

theorem registered_add (entry : Entry) (name : ChildType) :
    (t.add entry).Registered name ↔ t.Registered name ∨ entry.name = name := by
  rw [← resolves_iff, ← resolves_iff]
  exact t.resolves_add entry name

variable {t}

theorem lookup_plus {tag : String} {s : NodeSchema} (h : t.lookup tag = .ok s) :
    (t.plus u).lookup tag = .ok s := by
  rw [lookup_eq_ok_iff] at h ⊢
  unfold shape? at h ⊢
  rw [plus, List.find?_append, h]
  rfl

theorem lookupGroup_plus {name : String} {g : GroupSchema} (h : t.lookupGroup name = .ok g) :
    (t.plus u).lookupGroup name = .ok g := by
  rw [lookupGroup_eq_ok_iff] at h ⊢
  unfold group? at h ⊢
  rw [plus, List.find?_append, h]
  rfl

end Tables

namespace Builder

/-- The builder once all of some sound calls have been entered. -/
def extend (b : Builder) (calls : List Call) : Builder :=
  { b with tables := b.tables.plus (.ofEntries (calls.map (·.entry))) }

variable (b : Builder)

theorem extend_nil : b.extend [] = b := by
  rw [extend, List.map_nil, Tables.plus_ofEntries_nil]

theorem extend_cons (c : Call) (calls : List Call) :
    b.extend (c :: calls) = { b with tables := b.tables.add c.entry }.extend calls := by
  rw [extend, List.map_cons, Tables.plus_ofEntries_cons]
  rfl

theorem warnings_extend (calls : List Call) :
    (b.extend calls).tables.warnings = b.tables.warnings := by
  have hNone : (calls.map (·.entry)).flatMap (·.warnings) = [] := by
    simp [List.flatMap_map, Call.warnings_entry]
  rw [extend, Tables.plus, Tables.ofEntries, hNone, List.append_nil]

/-- What comes of a batch of calls: all of it is entered, or as much as stands before the first call
whose name is taken. -/
inductive Enters (batch : List Call) : Except SchemaError Unit → Builder → Prop where
  | whole : (∀ c ∈ batch, ¬ b.tables.Registered c.name) → Enters batch (.ok ()) (b.extend batch)
  | upTo {earlier later : List Call} {c : Call} : batch = earlier ++ c :: later →
    (∀ c' ∈ earlier, ¬ b.tables.Registered c'.name) → b.tables.Registered c.name →
    Enters batch (.error c.name.duplicate) (b.extend earlier)

variable {b} {c : Call} {batch : List Call}

theorem submit_taken (hc : c.Sound) (ht : b.tables.Registered c.name) :
    b.submit c = ⟨.error c.name.duplicate, b, []⟩ := by
  rw [submit_eq, hc b.options]
  exact if_pos ((b.tables.resolves_iff c.name).mpr ht)

theorem submit_free (hc : c.Sound) (hf : ¬ b.tables.Registered c.name) :
    b.submit c = ⟨.ok (), { b with tables := b.tables.add c.entry }, c.entry.events⟩ := by
  rw [submit_eq, hc b.options]
  exact if_neg fun h => hf ((b.tables.resolves_iff c.name).mp h)

theorem Enters.cons {result : Except SchemaError Unit} {last : Builder}
    (hf : ¬ b.tables.Registered c.name) (hNames : ∀ c' ∈ batch, c.name ≠ c'.name)
    (h : Enters { b with tables := b.tables.add c.entry } batch result last) :
    Enters b (c :: batch) result last := by
  have hSame : ∀ c' ∈ batch, (b.tables.add c.entry).Registered c'.name ↔
      b.tables.Registered c'.name := by
    intro c' hc'
    rw [Tables.registered_add, c.name_entry]
    exact or_iff_left (hNames c' hc')
  cases h with
  | whole hFree =>
    rw [← extend_cons]
    apply Enters.whole
    intro c' hc'
    rcases List.mem_cons.mp hc' with rfl | hc'
    · exact hf
    · exact fun hr => hFree c' hc' ((hSame c' hc').mpr hr)
  | @upTo earlier later taken hSplit hFree hTaken =>
    have hMem : ∀ c' ∈ earlier ++ [taken], c' ∈ batch := by
      intro c' hc'
      rw [hSplit]
      simp only [List.mem_append, List.mem_cons] at hc' ⊢
      tauto
    rw [← extend_cons]
    refine .upTo (by rw [hSplit]; rfl) ?_ ((hSame taken (hMem taken (by simp))).mp hTaken)
    intro c' hc'
    rcases List.mem_cons.mp hc' with rfl | hc'
    · exact hf
    · exact fun hr => hFree c' hc' ((hSame c' (hMem c' (by simp [hc']))).mpr hr)

/-- A batch of sound calls with distinct names stops only at a name that was taken before. -/
theorem submitAll_enters (hSound : ∀ c ∈ batch, c.Sound) (hNames : (batch.map (·.name)).Nodup) :
    b.Enters batch (b.submitAll batch).result (b.submitAll batch).builder := by
  induction batch generalizing b with
  | nil =>
    have hAll : b.Enters [] (.ok ()) (b.extend []) := .whole (by simp)
    rwa [extend_nil] at hAll
  | cons c batch ih =>
    have hc := hSound c List.mem_cons_self
    rw [List.map_cons, List.nodup_cons] at hNames
    by_cases ht : b.tables.Registered c.name
    · have hStop : b.Enters (c :: batch) (.error c.name.duplicate) (b.extend []) :=
        .upTo rfl (by simp) ht
      rw [extend_nil] at hStop
      simpa only [submitAll, submit_taken hc ht] using hStop
    · have hRest := ih (b := { b with tables := b.tables.add c.entry })
        (fun c' hc' => hSound c' (List.mem_cons_of_mem c hc')) hNames.2
      have hOthers : ∀ c' ∈ batch, c.name ≠ c'.name := by
        intro c' hc' hEq
        exact hNames.1 (hEq ▸ List.mem_map_of_mem hc')
      simpa only [submitAll, submit_free hc ht] using hRest.cons ht hOthers

section Entered

variable {result : Except SchemaError Unit} {last : Builder} {e : SchemaError}

theorem Enters.ok_iff (h : b.Enters batch result last) :
    result = .ok () ↔ ∀ c ∈ batch, ¬ b.tables.Registered c.name := by
  cases h with
  | whole hFree => exact iff_of_true rfl hFree
  | @upTo earlier later c hSplit _ hTaken =>
    apply iff_of_false
    · simp
    · exact fun hFree => hFree c (by simp [hSplit]) hTaken

theorem Enters.eq_extend (h : b.Enters batch (.ok ()) last) : last = b.extend batch := by
  cases h with
  | whole => rfl

theorem Enters.exists_taken (h : b.Enters batch (.error e) last) :
    ∃ earlier c later, batch = earlier ++ c :: later ∧
      (∀ c' ∈ earlier, ¬ b.tables.Registered c'.name) ∧ b.tables.Registered c.name ∧
      e = c.name.duplicate ∧ last = b.extend earlier := by
  cases h with
  | upTo hSplit hFree hTaken => exact ⟨_, _, _, hSplit, hFree, hTaken, rfl, rfl⟩

theorem Enters.exists_extend (h : b.Enters batch result last) :
    ∃ calls, last = b.extend calls := by
  cases h with
  | whole => exact ⟨_, rfl⟩
  | upTo => exact ⟨_, rfl⟩

end Entered

end Builder

namespace Modules

/-- The tags that module syntax takes. -/
def tags : List String :=
  ["Identifier", "BindingIdentifier", "StringLiteral", "ExportExternalSpecifier",
   "ExportNamespaceSpecifier", "ExportDefaultSpecifier", "ExportExternalDeclaration",
   "ImportSpecifier", "ImportDefaultSpecifier", "ImportNamespaceSpecifier", "ImportDeclaration",
   "Program"]

/-- The group names that module syntax takes. -/
def groupNames : List String :=
  ["AnyExportExternalSpecifier", "AnyImportSpecifier", "AnyModuleStatement"]

theorem registrations_sound : ∀ c ∈ registrations, c.Sound := by
  have hStrict : ∀ c ∈ registrations, c.validate .strict = .ok c.entry := by decide
  exact fun c hc => .of_strict (hStrict c hc)

theorem registrations_names_nodup : (registrations.map (·.name)).Nodup := by
  decide

theorem names_registrations_perm :
    (registrations.map (·.name)).Perm (tags.map .shape ++ groupNames.map .group) := by
  decide

theorem registrations_free_iff (t : Tables) :
    (∀ c ∈ registrations, ¬ t.Registered c.name) ↔
      (∀ tag ∈ tags, ¬ t.Registered (.shape tag)) ∧
        ∀ name ∈ groupNames, ¬ t.Registered (.group name) := by
  have hNames : (∀ c ∈ registrations, ¬ t.Registered c.name) ↔
      ∀ name ∈ registrations.map (·.name), ¬ t.Registered name := by
    simp only [List.forall_mem_map]
  rw [hNames]
  simp only [names_registrations_perm.mem_iff, List.forall_mem_append, List.forall_mem_map]

theorem tags_of_entries :
    (Tables.ofEntries (registrations.map (·.entry))).shapes.map (·.tag) = tags := by
  decide

theorem groupNames_of_entries :
    (Tables.ofEntries (registrations.map (·.entry))).groups.map (·.name) = groupNames := by
  decide

theorem registerAll_enters (b : Builder) :
    b.Enters registrations (registerAll b).result (registerAll b).builder :=
  Builder.submitAll_enters registrations_sound registrations_names_nodup

/-- The catalog holds the entries of the registrations and nothing else. -/
theorem catalog_eq_entries :
    catalog = .ok ⟨.ofEntries (registrations.map (·.entry))⟩ := by
  have hEnters := registerAll_enters {}
  rw [registerAll_fresh] at hEnters
  have hTables : (registerAll {}).builder.tables = .ofEntries (registrations.map (·.entry)) := by
    rw [hEnters.eq_extend]
    rfl
  rw [catalog_eq_ok, hTables]

/-- What the registration of module syntax may and may not do to a host's builder. -/
structure Admits (b : Builder) (reply : Reply) : Prop where
  ok_iff : reply.result = .ok () ↔
    (∀ tag ∈ tags, ¬ b.tables.Registered (.shape tag)) ∧
      ∀ name ∈ groupNames, ¬ b.tables.Registered (.group name)
  whole : reply.result = .ok () →
    reply.builder.tables = b.tables.plus (.ofEntries (registrations.map (·.entry)))
  names : reply.result = .ok () →
    reply.builder.tables.shapes.map (·.tag) = b.tables.shapes.map (·.tag) ++ tags ∧
      reply.builder.tables.groups.map (·.name) = b.tables.groups.map (·.name) ++ groupNames
  catalog : catalog = .ok ⟨.ofEntries (registrations.map (·.entry))⟩
  upTo : ∀ e, reply.result = .error e → ∃ earlier c later, registrations = earlier ++ c :: later ∧
    (∀ c' ∈ earlier, ¬ b.tables.Registered c'.name) ∧ b.tables.Registered c.name ∧
    e = c.name.duplicate ∧
    reply.builder.tables = b.tables.plus (.ofEntries (earlier.map (·.entry)))
  options : reply.builder.options = b.options
  warnings : reply.builder.tables.warnings = b.tables.warnings
  lookup : ∀ tag s, b.tables.lookup tag = .ok s → reply.builder.tables.lookup tag = .ok s
  lookupGroup : ∀ name g, b.tables.lookupGroup name = .ok g →
    reply.builder.tables.lookupGroup name = .ok g
  /-- No lint level refuses any of the registrations or has a warning about it. -/
  sound : ∀ c ∈ registrations, ∀ options, c.validate options = .ok c.entry ∧
    c.entry.warnings = []

/-- Whatever a builder holds, module syntax is registered as a whole if none of its names is taken
there, and otherwise up to the first name that is. -/
theorem registerAll_stops_at_taken_name (b : Builder) : Admits b (registerAll b) := by
  have hEnters := registerAll_enters b
  obtain ⟨calls, hLast⟩ := hEnters.exists_extend
  have hWhole : (registerAll b).result = .ok () → (registerAll b).builder.tables =
      b.tables.plus (.ofEntries (registrations.map (·.entry))) := by
    intro hOk
    rw [hOk] at hEnters
    rw [hEnters.eq_extend]
    rfl
  refine ⟨?_, hWhole, ?_, catalog_eq_entries, ?_, ?_, ?_, ?_, ?_, ?_⟩
  · rw [← registrations_free_iff]
    exact hEnters.ok_iff
  · intro hOk
    rw [hWhole hOk, Tables.plus, List.map_append, List.map_append, tags_of_entries,
      groupNames_of_entries]
    exact ⟨rfl, rfl⟩
  · intro e hError
    rw [hError] at hEnters
    obtain ⟨earlier, c, later, hSplit, hFree, hTaken, he, hBuilder⟩ := hEnters.exists_taken
    exact ⟨earlier, c, later, hSplit, hFree, hTaken, he, by rw [hBuilder]; rfl⟩
  · rw [hLast]
    rfl
  · rw [hLast, Builder.warnings_extend]
  · intro tag s hs
    rw [hLast]
    exact Tables.lookup_plus _ hs
  · intro name g hg
    rw [hLast]
    exact Tables.lookupGroup_plus _ hg
  · intro c hc options
    exact ⟨registrations_sound c hc options, c.warnings_entry⟩

-- A host's shape may be spelt like a group of ours, and its group like a shape. A group that is
-- spelt like a group stops the rest of the registrations, after seven shapes and three.
example :
    let host : Builder := .after .strict
      [.shape { tag := "AnyImportSpecifier" }, .group { name := "Program", members := ["Host"] }]
    let rival : Builder := .after {} [.group { name := "AnyImportSpecifier", members := ["Host"] }]
    (registerAll host).result = .ok () ∧
      (registerAll rival).result = .error (.duplicateGroupName "AnyImportSpecifier") ∧
      (registerAll rival).builder.tables.size = 10 := by
  decide

end Modules

end TreeSchema
