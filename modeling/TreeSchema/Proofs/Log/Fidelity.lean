import TreeSchema.Proofs.Registry.Precedence
import TreeSchema.Proofs.Walk.Coverage

/-!
# The log tells what happened

What a builder reports and what its tables hold is settled at different points of a call. The two
agree all the same: the lines of a run of calls tell the warnings on record, and there is one line
for each entry. A walk reports a node once it has found its schema, after the visitor has seen it.
So the nodes reported are the nodes recorded, but for one whose tag is not registered, and with that
one the record ends.
-/

namespace TreeSchema

set_option autoImplicit false

def linesOf (level : LogLevel) (message : String) (log : List Event) : List LogLine :=
  (log.map Event.line).filter fun line => line.level = level ∧ line.message = message

theorem linesOf_append (level : LogLevel) (message : String) (log log' : List Event) :
    linesOf level message (log ++ log') =
      linesOf level message log ++ linesOf level message log' := by
  simp [linesOf]

/-- The log tells what the tables hold: the warnings in their words, each entry by a line of its
own, and nothing besides. -/
structure Mirrors (log : List Event) (t : Tables) : Prop where
  lints : (linesOf .warn "node shape lint" log).map (·.labels) =
    t.warnings.map fun w => [("warning", w.message)]
  shapes : (linesOf .debug "registered node shape" log).length = t.size
  groups : (linesOf .debug "registered variant group" log).length = t.groups.length
  total : log.length = t.warnings.length + t.size + t.groups.length

namespace Mirrors

theorem nil : Mirrors [] {} :=
  ⟨rfl, rfl, rfl, rfl⟩

theorem append {log log' : List Event} {t u : Tables} (ht : Mirrors log t) (hu : Mirrors log' u) :
    Mirrors (log ++ log') (t.plus u) where
  lints := by
    rw [linesOf_append, List.map_append, ht.lints, hu.lints, Tables.plus, List.map_append]
  shapes := by
    rw [linesOf_append, List.length_append, ht.shapes, hu.shapes]
    simp only [Tables.size, Tables.plus, List.length_append]
  groups := by
    rw [linesOf_append, List.length_append, ht.groups, hu.groups]
    simp only [Tables.plus, List.length_append]
  total := by
    rw [List.length_append, ht.total, hu.total]
    simp only [Tables.size, Tables.plus, List.length_append]
    omega

theorem shape (s : NodeSchema) (warnings : List SchemaWarning) :
    Mirrors (Entry.shape s warnings).events (.ofEntries [.shape s warnings]) := by
  constructor <;>
    simp [linesOf, Entry.events, Event.line, List.filter_map, Function.comp_def, Tables.ofEntries,
      Tables.size, Entry.schema?, Entry.group?, Entry.warnings]

theorem group (g : GroupSchema) : Mirrors (Entry.group g).events (.ofEntries [.group g]) := by
  constructor <;>
    simp [linesOf, Entry.events, Event.line, Tables.ofEntries, Tables.size, Entry.schema?,
      Entry.group?, Entry.warnings]

theorem insert {log : List Event} {t t' : Tables} {entry : Entry} (h : Mirrors log t)
    (hi : t.insert entry = .ok t') : Mirrors (log ++ entry.events) t' := by
  have hAdd : t' = t.plus (.ofEntries [entry]) := by
    rw [← Tables.add_eq_plus]
    rcases Tables.insert_cases hi with ⟨s, warnings, rfl, _, rfl⟩ | ⟨g, rfl, _, rfl⟩
    · rfl
    · rfl
  rw [hAdd]
  cases entry with
  | shape s warnings => exact h.append (shape s warnings)
  | group g => exact h.append (group g)

end Mirrors

namespace Builder

def log (options : ValidationOptions) (calls : List Call) : List Event :=
  ((empty options).submitEach calls).2.2

theorem submitEach_mirrors {b : Builder} {reported : List Event} (calls : List Call)
    (h : Mirrors reported b.tables) :
    Mirrors (reported ++ (b.submitEach calls).2.2) (b.submitEach calls).2.1.tables := by
  induction calls generalizing b reported with
  | nil => simpa [submitEach] using h
  | cons c calls ih =>
    rcases submit_cases b c with ⟨e, hs, _⟩ | ⟨entry, t, _, hi, hs⟩
    · simp only [submitEach, hs, List.nil_append]
      exact ih h
    · simp only [submitEach, hs]
      rw [← List.append_assoc]
      exact ih (b := { b with tables := t }) (h.insert hi)

theorem log_mirrors (options : ValidationOptions) (calls : List Call) :
    Mirrors (log options calls) (after options calls).tables :=
  submitEach_mirrors (b := empty options) calls .nil

theorem log_of_refused {b : Builder} {c : Call} (h : (b.submit c).result ≠ .ok ()) :
    (b.submit c).log = [] := by
  rcases submit_cases b c with ⟨e, hs, _⟩ | ⟨entry, t, _, _, hs⟩
  · rw [hs]
  · rw [hs] at h
    exact absurd rfl h

theorem finishLog_of_ok {b : Builder} {r : Registry} (h : b.finish = .ok r) :
    b.finishLog = [.registryFinished r.size r.groups.length r.warnings.length] := by
  have hGroups : r.groups.length = r.tables.groups.length := List.length_mergeSort _
  simp only [finishLog, h, hGroups]

theorem finishLog_of_error {b : Builder} {e : SchemaError} (h : b.finish = .error e) :
    b.finishLog = [] := by
  simp only [finishLog, h]

structure Reported (options : ValidationOptions) (calls : List Call) : Prop where
  mirrors : Mirrors (log options calls) (after options calls).tables
  refused : ∀ c, outcome options calls c ≠ .ok () → ((after options calls).submit c).log = []
  finished : ∀ r, (after options calls).finish = .ok r →
    ∃ line, (after options calls).finishLog.map Event.line = [line] ∧ line.level = .debug ∧
      line.message = "node registry finished" ∧
      line.labels = [("shapes", toString r.size), ("groups", toString r.groups.length),
        ("warnings", toString r.warnings.length)]
  unfinished : ∀ e, (after options calls).finish = .error e →
    (after options calls).finishLog = []

end Builder

namespace Look

def tags (looks : List Look) : List String :=
  (looks.filterMap visit?).map (·.2.tag)

theorem tags_append (looks looks' : List Look) :
    tags (looks ++ looks') = tags looks ++ tags looks' := by
  simp [tags]

end Look

namespace Walk

/-- A walk has opened the nodes that were recorded, in order. Where it fails at a tag that is not
registered, the last node is recorded and not opened. -/
inductive Traced : Outcome (Array Look) → Prop where
  | all {o : Outcome (Array Look)} : (∀ tag, o.result ≠ .error (.unknownNodeTag tag)) →
    o.opened.toList = Look.tags o.state.toList → Traced o
  | allButLast {o : Outcome (Array Look)} {looks : List Look} {place : Place} {n : Node} :
    o.result = .error (.unknownNodeTag n.tag) → o.state.toList = looks ++ [.node place n] →
    o.opened.toList = Look.tags looks → Traced o

theorem run_recorder_traced {r : Registry} (agenda : List Task) (looks : Array Look)
    (opened : Array String) (h : opened.toList = Look.tags looks.toList) :
    Traced (run recorder r agenda looks opened) := by
  fun_induction run recorder r agenda looks opened with
  | case1 looks opened => exact .all (by simp) h
  | case2 looks opened place n rest e looks' hn => cases hn
  | case3 looks opened place n rest looks' hn => cases hn
  | case4 looks opened place n rest looks' hn e hl =>
    cases hn
    obtain rfl := r.lookup_eq_error hl
    exact .allButLast rfl Array.toList_push h
  | case5 looks opened place n rest looks' hn s hl ih =>
    cases hn
    apply ih
    rw [Array.toList_push, Array.toList_push, Look.tags_append, h, Registry.tag_of_lookup hl]
    rfl
  | case6 looks opened place n s rest ih => exact ih h
  | case7 looks opened place n s key keys rest hf => exact .all (by simp) h
  | case8 looks opened place n s key keys rest value hf e looks' hField => cases hField
  | case9 looks opened place n s key keys rest value hf looks' hField => cases hField
  | case10 looks opened place n s key keys rest value hf looks' hField ih =>
    cases hField
    apply ih
    rw [Array.toList_push, Look.tags_append, h]
    exact (List.append_nil _).symm

theorem tree_recorder_traced (r : Registry) (root : Node) :
    Traced (tree recorder r root #[]) :=
  run_recorder_traced _ _ _ rfl

theorem linesOf_log {σ : Type} (o : Outcome σ) :
    (linesOf .trace "walk node" o.log).map (·.labels) =
      o.opened.toList.map fun tag => [("tag", tag)] := by
  simp [linesOf, Outcome.log, Event.line, Function.comp_def, List.filter_map]

/-- How the reports of a recording walk tell what it has recorded. -/
structure Reported (walk : Outcome (Array Look)) : Prop where
  all : (∀ tag, walk.result ≠ .error (.unknownNodeTag tag)) →
    (linesOf .trace "walk node" walk.log).map (·.labels) =
      (Look.tags walk.state.toList).map fun tag => [("tag", tag)]
  allButLast : ∀ tag, walk.result = .error (.unknownNodeTag tag) →
    ∃ earlier, Look.tags walk.state.toList = earlier ++ [tag] ∧
      (linesOf .trace "walk node" walk.log).map (·.labels) =
        earlier.map fun tag => [("tag", tag)]

theorem Traced.reported {walk : Outcome (Array Look)} (h : Traced walk) : Reported walk := by
  cases h with
  | all hResult hOpened =>
    constructor
    · intro _
      rw [linesOf_log, hOpened]
    · intro tag hTag
      exact absurd hTag (hResult tag)
  | @allButLast looks place n hResult hState hOpened =>
    constructor
    · intro hOther
      exact absurd hResult (hOther n.tag)
    · intro tag hTag
      rw [hResult] at hTag
      cases hTag
      refine ⟨Look.tags looks, ?_, ?_⟩
      · rw [hState, Look.tags_append]
        rfl
      · rw [linesOf_log, hOpened]

end Walk

/-- The events of a builder tell its tables, and those of a recording walk tell its record. -/
theorem log_tells_what_happened (options : ValidationOptions) (calls : List Call) :
    Builder.Reported options calls ∧
      ∀ (r : Registry) (root : Node), Walk.Reported (Walk.tree recorder r root #[]) := by
  constructor
  · refine ⟨Builder.log_mirrors options calls, ?_, ?_, ?_⟩
    · intro c hc
      exact Builder.log_of_refused hc
    · intro r hr
      rw [Builder.finishLog_of_ok hr]
      exact ⟨_, rfl, rfl, rfl, rfl⟩
    · intro e he
      exact Builder.finishLog_of_error he
  · intro r root
    exact (Walk.tree_recorder_traced r root).reported

end TreeSchema
