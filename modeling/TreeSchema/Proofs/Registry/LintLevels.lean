import TreeSchema.Proofs.Registry.Precedence

/-!
# What a lint level changes

The lint has its say about a single declaration only after everything else has been found in order.
The level `allow` keeps it silent, and `deny` turns the first warning into a refusal. In a run of
many calls a refusal has consequences of its own, since it leaves the name to a later call. So a
builder that denies and one that warns can drift apart; but they do not as long as no accepted call
draws a warning.
-/

namespace TreeSchema

set_option autoImplicit false

namespace SchemaWarning

/-- The refusal that says the same as a warning. -/
def refusal (w : SchemaWarning) : SchemaError :=
  .untraversedChild w.tag w.field

theorem message_refusal (w : SchemaWarning) : w.refusal.message = w.message := by
  cases w
  rfl

end SchemaWarning

namespace ShapeDecl

theorem validate_allow (d : ShapeDecl) :
    d.validate ⟨.allow⟩ = (d.validate ⟨.warn⟩).map fun out => (out.1, []) := by
  rw [validate_eq, validate_eq]
  cases d.firstFault? <;> rfl

theorem validate_deny (d : ShapeDecl) :
    d.validate ⟨.deny⟩ =
      match d.validate ⟨.warn⟩ with
      | .error e => .error e
      | .ok (s, []) => .ok (s, [])
      | .ok (_, w :: _) => .error w.refusal := by
  rw [validate_eq, validate_eq]
  cases d.firstFault? with
  | some fault => rfl
  | none => cases d.untraversed <;> rfl

end ShapeDecl

namespace Entry

/-- The entry without its warnings. -/
def silenced : Entry → Entry
  | .shape s _ => .shape s []
  | .group g => .group g

end Entry

namespace Call

theorem validate_allow (c : Call) :
    c.validate ⟨.allow⟩ = (c.validate ⟨.warn⟩).map Entry.silenced := by
  cases c with
  | shape d =>
    simp only [validate, d.validate_allow]
    cases d.validate ⟨.warn⟩ <;> rfl
  | group g =>
    simp only [validate]
    cases g.validate <;> rfl

/-- What `deny` accepts is what `warn` accepts without a warning. -/
theorem validate_deny_eq_ok_iff (c : Call) (entry : Entry) :
    c.validate ⟨.deny⟩ = .ok entry ↔ c.validate ⟨.warn⟩ = .ok entry ∧ entry.warnings = [] := by
  cases c with
  | shape d =>
    simp only [validate, d.validate_deny]
    rcases d.validate ⟨.warn⟩ with e | ⟨s, _ | ⟨w, ws⟩⟩
    · simp [Except.map]
    · simp only [Except.map, Except.ok.injEq]
      constructor
      · rintro rfl
        exact ⟨rfl, rfl⟩
      · exact And.left
    · simp only [Except.map, Except.ok.injEq, reduceCtorEq, false_iff]
      rintro ⟨rfl, hw⟩
      cases hw
  | group g =>
    simp only [validate]
    cases g.validate with
    | error e => simp [Except.map]
    | ok s =>
      simp only [Except.map, Except.ok.injEq]
      constructor
      · rintro rfl
        exact ⟨rfl, rfl⟩
      · exact And.left

theorem valid_allow_iff (c : Call) : c.Valid ⟨.allow⟩ ↔ c.Valid ⟨.warn⟩ := by
  simp only [Valid, validate_allow]
  cases c.validate ⟨.warn⟩ <;> simp [Except.map]

theorem Valid.warn_of_deny {c : Call} (h : c.Valid ⟨.deny⟩) : c.Valid ⟨.warn⟩ := by
  obtain ⟨entry, hv⟩ := h
  exact ⟨entry, ((validate_deny_eq_ok_iff c entry).mp hv).1⟩

theorem warnings_of_validate {options : ValidationOptions} {c : Call} {entry : Entry}
    (h : c.validate options = .ok entry) : c.warnings options = entry.warnings := by
  rw [Call.warnings, (c.validated?_eq_some_iff entry).mpr h]
  rfl

theorem Valid.quiet_of_deny {c : Call} (h : c.Valid ⟨.deny⟩) : c.warnings ⟨.warn⟩ = [] := by
  obtain ⟨entry, hv⟩ := h
  obtain ⟨hWarn, hQuiet⟩ := (validate_deny_eq_ok_iff c entry).mp hv
  exact (warnings_of_validate hWarn).trans hQuiet

theorem warnings_deny (c : Call) : c.warnings ⟨.deny⟩ = [] := by
  cases hv : c.validated? ⟨.deny⟩ with
  | none => simp [Call.warnings, hv]
  | some entry =>
    have hOk := (c.validated?_eq_some_iff entry).mp hv
    rw [warnings_of_validate hOk]
    exact ((validate_deny_eq_ok_iff c entry).mp hOk).2

end Call

namespace Builder

variable (calls : List Call)

theorem results_concat {options : ValidationOptions} (c : Call) :
    results options (calls ++ [c]) = results options calls ++ [outcome options calls c] :=
  results_append calls [c]

theorem outcome_eq_ok_iff_resolves {options : ValidationOptions} (c : Call) :
    outcome options calls c = .ok () ↔
      c.Valid options ∧ ¬ (after options calls).tables.resolves c.name = true := by
  rw [outcome_eq_ok_iff, resolves_after]
  simp only [not_exists, not_and, ne_eq]

/-- The results of a run, as far as acceptance goes. -/
def verdicts (options : ValidationOptions) (calls : List Call) : List Bool :=
  (results options calls).map (·.isOk)

theorem isOk_iff (result : Except SchemaError Unit) : result.isOk = true ↔ result = .ok () := by
  cases result <;> simp [Except.isOk, Except.toBool]

theorem verdicts_concat {options : ValidationOptions} (c : Call) :
    verdicts options (calls ++ [c]) =
      verdicts options calls ++ [(outcome options calls c).isOk] := by
  rw [verdicts, results_concat, List.map_append]
  rfl

section Allow

theorem outcome_allow (c : Call) : outcome ⟨.allow⟩ calls c = outcome ⟨.warn⟩ calls c := by
  cases hv : c.validate ⟨.warn⟩ with
  | error e =>
    have hAllow : c.validate ⟨.allow⟩ = .error e := by rw [c.validate_allow, hv]; rfl
    rw [outcome_of_invalid calls hv, outcome_of_invalid calls hAllow]
  | ok entry =>
    have hWarn : c.Valid ⟨.warn⟩ := ⟨entry, hv⟩
    rw [outcome_of_valid calls hWarn, outcome_of_valid calls (c.valid_allow_iff.mpr hWarn)]
    simp only [Call.valid_allow_iff]

theorem results_allow : results ⟨.allow⟩ calls = results ⟨.warn⟩ calls := by
  induction calls using List.reverseRecOn with
  | nil => rfl
  | append_singleton calls c ih => rw [results_concat, results_concat, ih, outcome_allow]

theorem tables_allow :
    (after ⟨.allow⟩ calls).tables = { (after ⟨.warn⟩ calls).tables with warnings := [] } := by
  induction calls using List.reverseRecOn with
  | nil => rfl
  | append_singleton calls c ih =>
    by_cases ha : outcome ⟨.warn⟩ calls c = .ok ()
    · obtain ⟨entry, hv⟩ := ((outcome_eq_ok_iff calls c).mp ha).1
      have hAllow : c.validate ⟨.allow⟩ = .ok entry.silenced := by
        rw [c.validate_allow, hv]
        rfl
      rw [after_of_accepted calls hv ha,
        after_of_accepted calls hAllow ((outcome_allow calls c).trans ha), ih]
      cases entry <;> rfl
    · rw [after_of_refused calls ha,
        after_of_refused calls (fun h => ha ((outcome_allow calls c).symm.trans h)), ih]

end Allow

section Deny

theorem warnings_deny : (after ⟨.deny⟩ calls).tables.warnings = [] := by
  rw [warnings_after]
  exact List.flatMap_eq_nil_iff.mpr fun c _ => c.warnings_deny

theorem resolves_warn_of_deny (name : ChildType)
    (h : (after ⟨.deny⟩ calls).tables.resolves name = true) :
    (after ⟨.warn⟩ calls).tables.resolves name = true := by
  obtain ⟨c, hm, hv, hn⟩ := (resolves_after calls name).mp h
  exact (resolves_after calls name).mpr ⟨c, hm, hv.warn_of_deny, hn⟩

variable {calls}

/-- After equal tables both levels judge a call alike, unless `warn` accepts it with a warning. -/
theorem outcome_deny_iff {c : Call}
    (ht : (after ⟨.deny⟩ calls).tables = (after ⟨.warn⟩ calls).tables)
    (hq : outcome ⟨.warn⟩ calls c = .ok () → c.warnings ⟨.warn⟩ = []) :
    outcome ⟨.deny⟩ calls c = .ok () ↔ outcome ⟨.warn⟩ calls c = .ok () := by
  rw [outcome_eq_ok_iff_resolves, ht]
  constructor
  · rintro ⟨hv, hFree⟩
    exact (outcome_eq_ok_iff_resolves calls c).mpr ⟨hv.warn_of_deny, hFree⟩
  · intro ha
    obtain ⟨⟨entry, hv⟩, hFree⟩ := (outcome_eq_ok_iff_resolves calls c).mp ha
    have hQuiet : entry.warnings = [] := (Call.warnings_of_validate hv).symm.trans (hq ha)
    exact ⟨⟨entry, (c.validate_deny_eq_ok_iff entry).mpr ⟨hv, hQuiet⟩⟩, hFree⟩

theorem after_deny_concat {c : Call}
    (ht : (after ⟨.deny⟩ calls).tables = (after ⟨.warn⟩ calls).tables)
    (hq : outcome ⟨.warn⟩ calls c = .ok () → c.warnings ⟨.warn⟩ = []) :
    (after ⟨.deny⟩ (calls ++ [c])).tables = (after ⟨.warn⟩ (calls ++ [c])).tables := by
  have hSame := outcome_deny_iff ht hq
  by_cases ha : outcome ⟨.deny⟩ calls c = .ok ()
  · obtain ⟨entry, hv⟩ := ((outcome_eq_ok_iff calls c).mp ha).1
    have hWarn := ((c.validate_deny_eq_ok_iff entry).mp hv).1
    rw [after_of_accepted calls hv ha, after_of_accepted calls hWarn (hSame.mp ha), ht]
  · rw [after_of_refused calls ha, after_of_refused calls (fun h => ha (hSame.mpr h)), ht]

/-- As long as `warn` accepts no call with a warning, `deny` accepts the same calls. -/
theorem deny_follows_quiet_warn
    (hq : ∀ c ∈ accepted ⟨.warn⟩ calls, c.warnings ⟨.warn⟩ = []) :
    verdicts ⟨.deny⟩ calls = verdicts ⟨.warn⟩ calls ∧
      (after ⟨.deny⟩ calls).tables = (after ⟨.warn⟩ calls).tables := by
  -- Equal tables carry the induction: what a builder says to the next call depends on nothing else.
  induction calls using List.reverseRecOn with
  | nil => exact ⟨rfl, rfl⟩
  | append_singleton calls c ih =>
    rw [accepted_concat] at hq
    obtain ⟨hVerdicts, hTables⟩ := ih fun c' hc' => hq c' (List.mem_append_left _ hc')
    have hQuiet : outcome ⟨.warn⟩ calls c = .ok () → c.warnings ⟨.warn⟩ = [] := by
      intro ha
      exact hq c (List.mem_append_right _ (by simp [ha]))
    refine ⟨?_, after_deny_concat hTables hQuiet⟩
    have hSame : (outcome ⟨.deny⟩ calls c).isOk = (outcome ⟨.warn⟩ calls c).isOk := by
      rw [Bool.eq_iff_iff, isOk_iff, isOk_iff]
      exact outcome_deny_iff hTables hQuiet
    rw [verdicts_concat, verdicts_concat, hVerdicts, hSame]

theorem quiet_of_warnings_eq_nil (h : (after ⟨.warn⟩ calls).tables.warnings = []) :
    ∀ c ∈ accepted ⟨.warn⟩ calls, c.warnings ⟨.warn⟩ = [] := by
  rw [warnings_after] at h
  exact List.flatMap_eq_nil_iff.mp h

theorem valid_of_verdicts {options : ValidationOptions}
    (h : ∀ verdict ∈ verdicts options calls, verdict = true) :
    ∀ c ∈ calls, c.Valid options := by
  intro c hc
  obtain ⟨i, hi⟩ := List.mem_iff_getElem?.mp hc
  have hResult : (results options calls)[i]? = some (outcome options (calls.take i) c) :=
    getElem?_results calls hi
  have hOk := h _ (List.mem_map_of_mem (List.mem_of_getElem? hResult))
  exact ((outcome_eq_ok_iff _ c).mp ((isOk_iff _).mp hOk)).1

end Deny

/-- What the lint level may and may not change in a run of calls. -/
structure LevelsAgree (calls : List Call) : Prop where
  results_allow : results ⟨.allow⟩ calls = results ⟨.warn⟩ calls
  tables_allow : (after ⟨.allow⟩ calls).tables =
    { (after ⟨.warn⟩ calls).tables with warnings := [] }
  tags_deny : ∀ tag, (after ⟨.deny⟩ calls).tables.contains tag = true →
    (after ⟨.warn⟩ calls).tables.contains tag = true
  warnings_deny : (after ⟨.deny⟩ calls).tables.warnings = []
  quiet_warn : (after ⟨.warn⟩ calls).tables.warnings = [] →
    verdicts ⟨.deny⟩ calls = verdicts ⟨.warn⟩ calls ∧
      (after ⟨.deny⟩ calls).tables = (after ⟨.warn⟩ calls).tables
  full_deny : (∀ verdict ∈ verdicts ⟨.deny⟩ calls, verdict = true) →
    (∀ verdict ∈ verdicts ⟨.warn⟩ calls, verdict = true) ∧
      (after ⟨.warn⟩ calls).tables.warnings = [] ∧
      (after ⟨.deny⟩ calls).tables = (after ⟨.warn⟩ calls).tables

/-- Lint levels differ only in what they say. The first part compares runs of calls, the second is
about single declarations: `deny` refuses where `warn` would warn, with the words of the first
warning, and whatever else is refused is refused alike at every level. -/
theorem lint_levels_differ_in_words (calls : List Call) :
    LevelsAgree calls ∧ ∀ d : ShapeDecl,
      (∀ s w ws, d.validate ⟨.warn⟩ = .ok (s, w :: ws) →
        d.validate ⟨.deny⟩ = .error (.untraversedChild w.tag w.field) ∧
          (SchemaError.untraversedChild w.tag w.field).message = w.message) ∧
      ∀ e, d.validate ⟨.warn⟩ = .error e →
        d.validate ⟨.allow⟩ = .error e ∧ d.validate ⟨.deny⟩ = .error e := by
  refine ⟨⟨results_allow calls, tables_allow calls, ?_, warnings_deny calls, ?_, ?_⟩, ?_⟩
  · intro tag h
    exact resolves_warn_of_deny calls (.shape tag) h
  · intro h
    exact deny_follows_quiet_warn (quiet_of_warnings_eq_nil h)
  · intro h
    have hValid := valid_of_verdicts h
    have hQuiet : ∀ c ∈ accepted ⟨.warn⟩ calls, c.warnings ⟨.warn⟩ = [] := by
      intro c hc
      exact (hValid c ((mem_accepted_iff calls c).mp hc).mem).quiet_of_deny
    obtain ⟨hVerdicts, hTables⟩ := deny_follows_quiet_warn hQuiet
    exact ⟨hVerdicts ▸ h, hTables ▸ warnings_deny calls, hTables⟩
  · intro d
    constructor
    · intro s w ws h
      exact ⟨by rw [d.validate_deny, h]; rfl, w.message_refusal⟩
    · intro e h
      exact ⟨by rw [d.validate_allow, h]; rfl, by rw [d.validate_deny, h]⟩

-- A refusal leaves the tag to the next call, so that the two levels accept different calls.
example :
    let hidden : ShapeDecl := { tag := "Pair", fields := [⟨"first", .child (.shape "Name")⟩] }
    verdicts ⟨.warn⟩ [.shape hidden, .shape pairDecl] = [true, false] ∧
      verdicts ⟨.deny⟩ [.shape hidden, .shape pairDecl] = [false, true] := by
  decide

end Builder

end TreeSchema
