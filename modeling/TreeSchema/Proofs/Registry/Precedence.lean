import Mathlib.Data.List.Induction
import TreeSchema.Proofs.Registry.Population
import TreeSchema.Proofs.Schema.Group

/-!
# Which declaration of a name wins

A call asks for a name: a tag or a group name. The name goes to the first valid call that asks for
it; every later one is refused and changes nothing. So the tables after any sequence of calls are
read off the calls that were accepted, and these are read off the sequence itself.
-/

namespace TreeSchema

set_option autoImplicit false

/-- The refusal of a name that is taken. -/
def ChildType.duplicate : ChildType → SchemaError
  | .shape tag => .duplicateNodeTag tag
  | .group name => .duplicateGroupName name

theorem GroupDecl.name_of_validate {d : GroupDecl} {g : GroupSchema} (h : d.validate = .ok g) :
    g.name = d.name := by
  obtain ⟨_, _, rfl⟩ := (d.validate_eq_ok_iff g).mp h
  rfl

namespace Entry

def name : Entry → ChildType
  | .shape s _ => .shape s.tag
  | .group g => .group g.name

def schema? : Entry → Option NodeSchema
  | .shape s _ => some s
  | .group _ => none

def group? : Entry → Option GroupSchema
  | .shape _ _ => none
  | .group g => some g

def warnings : Entry → List SchemaWarning
  | .shape _ warnings => warnings
  | .group _ => []

end Entry

/-- Where a list has an element with some property, it has a first one. -/
theorem exists_first {α : Type} {P : α → Prop} {xs : List α} (h : ∃ x ∈ xs, P x) :
    ∃ before x after, xs = before ++ x :: after ∧ P x ∧ ∀ y ∈ before, ¬ P y := by
  classical
  have hFound : (xs.find? fun x => decide (P x)).isSome = true := by
    simpa only [List.find?_isSome, decide_eq_true_eq] using h
  obtain ⟨x, hx⟩ := Option.isSome_iff_exists.mp hFound
  obtain ⟨hP, before, after, hSplit, hBefore⟩ := List.find?_eq_some_iff_append.mp hx
  exact ⟨before, x, after, hSplit, of_decide_eq_true hP, fun y hy => by simpa using hBefore y hy⟩

namespace Call

/-- The name that a call asks for. A tag and a group name differ even when they are spelt alike. -/
def name : Call → ChildType
  | .shape d => .shape d.tag
  | .group g => .group g.name

def isShape : Call → Bool
  | .shape _ => true
  | .group _ => false

def validated? (options : ValidationOptions) (c : Call) : Option Entry :=
  (c.validate options).toOption

def warnings (options : ValidationOptions) (c : Call) : List SchemaWarning :=
  ((c.validated? options).map (·.warnings)).getD []

def Valid (options : ValidationOptions) (c : Call) : Prop :=
  ∃ entry, c.validate options = .ok entry

/-- The call `c` stands among `calls`, is valid, and asks for a name that no valid call before it
has asked for. -/
def FirstValid (options : ValidationOptions) (calls : List Call) (c : Call) : Prop :=
  ∃ earlier later, calls = earlier ++ c :: later ∧ c.Valid options ∧
    ∀ c' ∈ earlier, c'.Valid options → c'.name ≠ c.name

variable {options : ValidationOptions}

theorem validated?_eq_some_iff (c : Call) (entry : Entry) :
    c.validated? options = some entry ↔ c.validate options = .ok entry := by
  unfold validated?
  cases c.validate options <;> simp [Except.toOption]

theorem valid_iff_isSome (c : Call) : c.Valid options ↔ (c.validated? options).isSome = true := by
  simp only [Valid, Option.isSome_iff_exists, validated?_eq_some_iff]

instance (c : Call) : Decidable (c.Valid options) :=
  decidable_of_iff _ c.valid_iff_isSome.symm

theorem not_valid_of_error {c : Call} {e : SchemaError} (h : c.validate options = .error e) :
    ¬ c.Valid options := by
  rintro ⟨entry, hOk⟩
  rw [h] at hOk
  cases hOk

theorem validate_shape_eq_ok_iff (d : ShapeDecl) (entry : Entry) :
    (shape d).validate options = .ok entry ↔
      ∃ s warnings, d.validate options = .ok (s, warnings) ∧ entry = .shape s warnings := by
  cases hd : d.validate options with
  | error e => simp [validate, hd, Except.map]
  | ok out =>
    obtain ⟨s, warnings⟩ := out
    simp [validate, hd, Except.map, eq_comm]

theorem validate_group_eq_ok_iff (d : GroupDecl) (entry : Entry) :
    (group d).validate options = .ok entry ↔ ∃ g, d.validate = .ok g ∧ entry = .group g := by
  cases hd : d.validate with
  | error e => simp [validate, hd, Except.map]
  | ok out => simp [validate, hd, Except.map, eq_comm]

/-- A valid call enters what it asks for under the name that it asks for. -/
theorem name_of_validate {c : Call} {entry : Entry} (h : c.validate options = .ok entry) :
    entry.name = c.name := by
  cases c with
  | shape d =>
    obtain ⟨s, warnings, hd, rfl⟩ := (validate_shape_eq_ok_iff d entry).mp h
    obtain ⟨_, rfl, _⟩ := (d.validate_eq_ok_iff options s warnings).mp hd
    rfl
  | group d =>
    obtain ⟨g, hd, rfl⟩ := (validate_group_eq_ok_iff d entry).mp h
    simp only [Entry.name, name, GroupDecl.name_of_validate hd]

theorem FirstValid.valid {calls : List Call} {c : Call} (h : FirstValid options calls c) :
    c.Valid options := by
  obtain ⟨_, _, _, hv, _⟩ := h
  exact hv

theorem FirstValid.mem {calls : List Call} {c : Call} (h : FirstValid options calls c) :
    c ∈ calls := by
  obtain ⟨earlier, later, rfl, _⟩ := h
  simp

/-- Later calls cannot take a name away. -/
theorem FirstValid.append {calls : List Call} {c : Call} (h : FirstValid options calls c)
    (more : List Call) : FirstValid options (calls ++ more) c := by
  obtain ⟨earlier, later, rfl, hv, hFirst⟩ := h
  exact ⟨earlier, later ++ more, by simp, hv, hFirst⟩

theorem exists_firstValid {calls : List Call} {c : Call} (hm : c ∈ calls)
    (hv : c.Valid options) : ∃ first, FirstValid options calls first ∧ first.name = c.name := by
  obtain ⟨earlier, first, later, hSplit, ⟨hFirst, hName⟩, hEarlier⟩ :=
    exists_first (P := fun c' => c'.Valid options ∧ c'.name = c.name) ⟨c, hm, hv, rfl⟩
  refine ⟨first, ⟨earlier, later, hSplit, hFirst, ?_⟩, hName⟩
  intro c' hc' hv' hn
  exact hEarlier c' hc' ⟨hv', hn.trans hName⟩

end Call

namespace Tables

/-- Enters a declaration whose name is free. -/
def add (t : Tables) : Entry → Tables
  | .shape s warnings =>
    { t with shapes := t.shapes ++ [s], warnings := t.warnings ++ warnings }
  | .group g => { t with groups := t.groups ++ [g] }

/-- The tables that hold the given entries. -/
def ofEntries (entries : List Entry) : Tables where
  shapes := entries.filterMap (·.schema?)
  groups := entries.filterMap (·.group?)
  warnings := entries.flatMap (·.warnings)

/-- The entries of `t`, followed by those of `u`. -/
def plus (t u : Tables) : Tables where
  shapes := t.shapes ++ u.shapes
  groups := t.groups ++ u.groups
  warnings := t.warnings ++ u.warnings

theorem add_eq_plus (t : Tables) (entry : Entry) : t.add entry = t.plus (ofEntries [entry]) := by
  cases entry <;> simp [add, plus, ofEntries, Entry.schema?, Entry.group?, Entry.warnings]

theorem ofEntries_concat (entries : List Entry) (entry : Entry) :
    ofEntries (entries ++ [entry]) = (ofEntries entries).add entry := by
  cases entry <;> simp [ofEntries, add, Entry.schema?, Entry.group?, Entry.warnings]

theorem insert_eq (t : Tables) (entry : Entry) :
    t.insert entry =
      if t.resolves entry.name then .error entry.name.duplicate else .ok (t.add entry) := by
  cases entry <;> rfl

theorem resolves_add (t : Tables) (entry : Entry) (name : ChildType) :
    (t.add entry).resolves name = true ↔ t.resolves name = true ∨ entry.name = name := by
  cases entry <;> cases name <;>
    simp [add, resolves, Entry.name, contains, shape?, group?, List.find?_append]

/-- No two shapes share a tag, and no two groups share a name. -/
structure Distinct (t : Tables) : Prop where
  tags : (t.shapes.map (·.tag)).Nodup
  names : (t.groups.map (·.name)).Nodup

theorem Distinct.insert {t t' : Tables} {entry : Entry} (ht : t.Distinct)
    (hi : t.insert entry = .ok t') : t'.Distinct := by
  rcases insert_cases hi with ⟨s, warnings, rfl, hFresh, rfl⟩ | ⟨g, rfl, hFresh, rfl⟩
  · refine ⟨?_, ht.names⟩
    have hNew : ∀ s' ∈ t.shapes, s'.tag ≠ s.tag := by
      simpa [contains, shape?] using hFresh
    simpa [List.nodup_append, ht.tags] using hNew
  · refine ⟨ht.tags, ?_⟩
    have hNew : ∀ g' ∈ t.groups, g'.name ≠ g.name := by
      simpa [group?] using hFresh
    simpa [List.nodup_append, ht.names] using hNew

/-- In distinct tables a look-up finds a shape exactly when it is registered under the tag. -/
theorem Distinct.shape?_eq_some_iff {t : Tables} (ht : t.Distinct) (tag : String)
    (s : NodeSchema) : t.shape? tag = some s ↔ s ∈ t.shapes ∧ s.tag = tag := by
  constructor
  · intro h
    exact ⟨List.mem_of_find?_eq_some h, tag_of_shape? h⟩
  · rintro ⟨hs, rfl⟩
    exact find?_eq_some_of_nodup (·.tag) ht.tags hs

theorem Distinct.group?_eq_some_iff {t : Tables} (ht : t.Distinct) (name : String)
    (g : GroupSchema) : t.group? name = some g ↔ g ∈ t.groups ∧ g.name = name := by
  constructor
  · intro h
    exact ⟨List.mem_of_find?_eq_some h, name_of_group? h⟩
  · rintro ⟨hg, rfl⟩
    exact find?_eq_some_of_nodup (·.name) ht.names hg

theorem lookupGroup_eq_ok_iff (t : Tables) (name : String) (g : GroupSchema) :
    t.lookupGroup name = .ok g ↔ t.group? name = some g := by
  unfold lookupGroup
  cases t.group? name <;> simp

end Tables

namespace Builder

theorem submitEach_append (b : Builder) (xs ys : List Call) :
    b.submitEach (xs ++ ys) =
      ((b.submitEach xs).1 ++ ((b.submitEach xs).2.1.submitEach ys).1,
       ((b.submitEach xs).2.1.submitEach ys).2.1,
       (b.submitEach xs).2.2 ++ ((b.submitEach xs).2.1.submitEach ys).2.2) := by
  induction xs generalizing b with
  | nil => rfl
  | cons c xs ih =>
    simp only [List.cons_append, submitEach, ih, List.append_assoc]

theorem length_submitEach (b : Builder) (calls : List Call) :
    (b.submitEach calls).1.length = calls.length := by
  induction calls generalizing b with
  | nil => rfl
  | cons c calls ih => simp only [submitEach, List.length_cons, ih]

theorem submit_eq (b : Builder) (c : Call) :
    b.submit c =
      match c.validate b.options with
      | .error e => ⟨.error e, b, []⟩
      | .ok entry =>
        if b.tables.resolves c.name then ⟨.error c.name.duplicate, b, []⟩
        else ⟨.ok (), { b with tables := b.tables.add entry }, entry.events⟩ := by
  unfold submit
  cases hv : c.validate b.options with
  | error e => rfl
  | ok entry =>
    simp only [Tables.insert_eq, Call.name_of_validate hv]
    cases b.tables.resolves c.name <;> rfl

/-- The results of a sequence of calls on a fresh builder. -/
def results (options : ValidationOptions) (calls : List Call) : List (Except SchemaError Unit) :=
  ((empty options).submitEach calls).1

/-- The result of a call that follows earlier ones. -/
def outcome (options : ValidationOptions) (earlier : List Call) (c : Call) :
    Except SchemaError Unit :=
  ((after options earlier).submit c).result

/-- The calls that were accepted, in the order in which they were made. -/
def accepted (options : ValidationOptions) (calls : List Call) : List Call :=
  ((calls.zip (results options calls)).filter fun p => p.2 = .ok ()).map (·.1)

section Runs

variable {options : ValidationOptions} (calls : List Call)

theorem options_after : (after options calls).options = options :=
  (submitEach_keeps (P := fun _ => True) (fun _ _ _ => trivial) calls (empty options) rfl
    trivial).1

theorem after_distinct : (after options calls).tables.Distinct := by
  refine (submitEach_keeps (P := Tables.Distinct) ?_ calls (empty options) rfl ?_).2
  · intro t t' c entry ht _ hi
    exact ht.insert hi
  · exact ⟨List.nodup_nil, List.nodup_nil⟩

theorem after_concat (c : Call) :
    after options (calls ++ [c]) = ((after options calls).submit c).builder := by
  simp only [after, submitEach_append, submitEach]

theorem results_append (more : List Call) :
    results options (calls ++ more) =
      results options calls ++ ((after options calls).submitEach more).1 := by
  simp only [results, after, submitEach_append]

theorem eq_append_of_getElem? {calls : List Call} {i : Nat} {c : Call}
    (h : calls[i]? = some c) : calls = calls.take i ++ c :: calls.drop (i + 1) := by
  obtain ⟨hi, rfl⟩ := List.getElem?_eq_some_iff.mp h
  rw [List.getElem_cons_drop, List.take_append_drop]

/-- Each result in a run is the outcome of its call after those before it. -/
theorem getElem?_results {i : Nat} {c : Call} (h : calls[i]? = some c) :
    (results options calls)[i]? = some (outcome options (calls.take i) c) := by
  obtain ⟨hi, _⟩ := List.getElem?_eq_some_iff.mp h
  have hLength : (results options (calls.take i)).length = i := by
    rw [results, length_submitEach, List.length_take, Nat.min_eq_left (Nat.le_of_lt hi)]
  have hResults : results options calls = results options (calls.take i) ++
      ((after options (calls.take i)).submitEach (c :: calls.drop (i + 1))).1 := by
    rw [← results_append, ← eq_append_of_getElem? h]
  rw [hResults, List.getElem?_append_right (by omega), hLength, Nat.sub_self]
  rfl

theorem accepted_concat (c : Call) :
    accepted options (calls ++ [c]) =
      accepted options calls ++ if outcome options calls c = .ok () then [c] else [] := by
  have hLength : calls.length = (results options calls).length :=
    (length_submitEach (empty options) calls).symm
  unfold accepted
  rw [results_append, List.zip_append hLength, List.filter_append, List.map_append]
  congr 1
  by_cases hOk : outcome options calls c = .ok ()
  · have hr : ((after options calls).submit c).result = .ok () := hOk
    simp [submitEach, hOk, hr]
  · have hr : ¬ ((after options calls).submit c).result = .ok () := hOk
    simp [submitEach, hOk, hr]

theorem resolves_after (name : ChildType) :
    (after options calls).tables.resolves name = true ↔
      ∃ c ∈ calls, c.Valid options ∧ c.name = name := by
  induction calls using List.reverseRecOn with
  | nil => cases name <;> simp [after, submitEach, empty, Tables.resolves, Tables.contains,
      Tables.shape?, Tables.group?]
  | append_singleton calls c ih =>
    have hMem : (∃ c' ∈ calls ++ [c], c'.Valid options ∧ c'.name = name) ↔
        (after options calls).tables.resolves name = true ∨ c.Valid options ∧ c.name = name := by
      simp only [ih, List.mem_append, List.mem_singleton, or_and_right, exists_or,
        exists_eq_left]
    rw [hMem, after_concat, submit_eq, options_after]
    cases hv : c.validate options with
    | error e =>
      simp [Call.not_valid_of_error hv]
    | ok entry =>
      have hValid : c.Valid options := ⟨entry, hv⟩
      by_cases hTaken : (after options calls).tables.resolves c.name = true
      · -- The call is refused, and its name is on record already.
        simp only [hTaken, if_true, hValid, true_and]
        constructor
        · exact Or.inl
        · rintro (h | rfl)
          · exact h
          · exact hTaken
      · simp only [hTaken, if_false, Tables.resolves_add, Call.name_of_validate hv, hValid,
          true_and, Bool.false_eq_true]

theorem outcome_of_invalid {c : Call} {e : SchemaError} (hv : c.validate options = .error e) :
    outcome options calls c = .error e := by
  simp only [outcome, submit_eq, options_after, hv]

theorem outcome_of_valid {c : Call} (hv : c.Valid options) :
    outcome options calls c =
      if ∃ c' ∈ calls, c'.Valid options ∧ c'.name = c.name then .error c.name.duplicate
      else .ok () := by
  obtain ⟨entry, hv⟩ := hv
  simp only [outcome, submit_eq, options_after, hv, ← resolves_after]
  cases (after options calls).tables.resolves c.name <;> rfl

theorem outcome_eq_ok_iff (c : Call) :
    outcome options calls c = .ok () ↔
      c.Valid options ∧ ∀ c' ∈ calls, c'.Valid options → c'.name ≠ c.name := by
  cases hv : c.validate options with
  | error e =>
    simp [outcome_of_invalid calls hv, Call.not_valid_of_error hv]
  | ok entry =>
    have hValid : c.Valid options := ⟨entry, hv⟩
    simp [outcome_of_valid calls hValid, hValid]

/-- A refused call leaves the builder as it was. -/
theorem after_of_refused {c : Call} (hr : outcome options calls c ≠ .ok ()) :
    after options (calls ++ [c]) = after options calls := by
  rw [after_concat]
  rcases submit_cases (after options calls) c with ⟨e, hs, _⟩ | ⟨entry, t, _, _, hs⟩
  · rw [hs]
  · exact absurd (congrArg Reply.result hs) hr

theorem after_of_accepted {c : Call} {entry : Entry} (hv : c.validate options = .ok entry)
    (ha : outcome options calls c = .ok ()) :
    (after options (calls ++ [c])).tables = (after options calls).tables.add entry := by
  have hFree : ¬ (after options calls).tables.resolves c.name = true := by
    rw [resolves_after]
    rintro ⟨c', hm, hv', hn⟩
    exact ((outcome_eq_ok_iff calls c).mp ha).2 c' hm hv' hn
  simp only [after_concat, submit_eq, options_after, hv, hFree, Bool.false_eq_true, if_false]

theorem mem_accepted_iff (c : Call) :
    c ∈ accepted options calls ↔ Call.FirstValid options calls c := by
  have hSplits : c ∈ accepted options calls ↔
      ∃ earlier later, calls = earlier ++ c :: later ∧ outcome options earlier c = .ok () := by
    induction calls using List.reverseRecOn with
    | nil => simp [accepted]
    | append_singleton calls last ih =>
      rw [accepted_concat, List.mem_append, ih]
      constructor
      · rintro (⟨earlier, later, rfl, ha⟩ | hLast)
        · exact ⟨earlier, later ++ [last], by simp, ha⟩
        · by_cases ha : outcome options calls last = .ok ()
          · obtain rfl : c = last := by simpa [ha] using hLast
            exact ⟨calls, [], rfl, ha⟩
          · simp [ha] at hLast
      · rintro ⟨earlier, later, hSplit, ha⟩
        rcases List.eq_nil_or_concat later with rfl | ⟨later, last', rfl⟩
        · obtain ⟨rfl, hEq⟩ := List.append_inj' hSplit rfl
          obtain rfl : last = c := by simpa using hEq
          exact .inr (by simp [ha])
        · have hSplit' : calls ++ [last] = (earlier ++ c :: later) ++ [last'] := by
            simpa using hSplit
          obtain ⟨rfl, -⟩ := List.append_inj' hSplit' rfl
          exact .inl ⟨earlier, later, rfl, ha⟩
  simp only [hSplits, outcome_eq_ok_iff, Call.FirstValid]

theorem exists_accepted_iff (name : ChildType) :
    (∃ c ∈ accepted options calls, c.name = name) ↔
      ∃ c ∈ calls, c.Valid options ∧ c.name = name := by
  constructor
  · rintro ⟨c, hc, rfl⟩
    have hFirst := (mem_accepted_iff calls c).mp hc
    exact ⟨c, hFirst.mem, hFirst.valid, rfl⟩
  · rintro ⟨c, hm, hv, rfl⟩
    obtain ⟨first, hFirst, hn⟩ := Call.exists_firstValid hm hv
    exact ⟨first, (mem_accepted_iff calls first).mpr hFirst, hn⟩

/-- No two accepted calls asked for the same name. -/
theorem accepted_names_nodup : ((accepted options calls).map (·.name)).Nodup := by
  induction calls using List.reverseRecOn with
  | nil => simp [accepted]
  | append_singleton calls c ih =>
    rw [accepted_concat]
    by_cases ha : outcome options calls c = .ok ()
    · have hNew : ∀ c' ∈ accepted options calls, c'.name ≠ c.name := by
        intro c' hc'
        have hFirst := (mem_accepted_iff calls c').mp hc'
        exact ((outcome_eq_ok_iff calls c).mp ha).2 c' hFirst.mem hFirst.valid
      rw [if_pos ha, List.map_append, List.nodup_append]
      refine ⟨ih, by simp, ?_⟩
      simpa using hNew
    · rw [if_neg ha, List.append_nil]
      exact ih

/-- The tables hold what the accepted calls enter, in the order of these calls. -/
theorem tables_after :
    (after options calls).tables =
      .ofEntries ((accepted options calls).filterMap (·.validated? options)) := by
  induction calls using List.reverseRecOn with
  | nil => rfl
  | append_singleton calls c ih =>
    by_cases ha : outcome options calls c = .ok ()
    · obtain ⟨entry, hv⟩ := ((outcome_eq_ok_iff calls c).mp ha).1
      have hEntry : c.validated? options = some entry := (c.validated?_eq_some_iff entry).mpr hv
      rw [after_of_accepted calls hv ha, accepted_concat, if_pos ha, List.filterMap_append, ih,
        ← Tables.ofEntries_concat]
      simp [hEntry]
    · rw [after_of_refused calls ha, accepted_concat, if_neg ha, List.append_nil, ih]

theorem mem_shapes_after_iff (s : NodeSchema) :
    s ∈ (after options calls).tables.shapes ↔
      ∃ d warnings, Call.FirstValid options calls (.shape d) ∧
        d.validate options = .ok (s, warnings) := by
  simp only [tables_after, Tables.ofEntries, List.mem_filterMap, mem_accepted_iff,
    Call.validated?_eq_some_iff]
  constructor
  · rintro ⟨entry, ⟨c, hFirst, hv⟩, hs⟩
    cases c with
    | shape d =>
      obtain ⟨s', warnings, hd, rfl⟩ := (Call.validate_shape_eq_ok_iff d entry).mp hv
      obtain rfl : s' = s := by simpa [Entry.schema?] using hs
      exact ⟨d, warnings, hFirst, hd⟩
    | group d =>
      obtain ⟨g, _, rfl⟩ := (Call.validate_group_eq_ok_iff d entry).mp hv
      cases hs
  · rintro ⟨d, warnings, hFirst, hd⟩
    exact ⟨.shape s warnings, ⟨.shape d, hFirst,
      (Call.validate_shape_eq_ok_iff d _).mpr ⟨s, warnings, hd, rfl⟩⟩, rfl⟩

theorem mem_groups_after_iff (g : GroupSchema) :
    g ∈ (after options calls).tables.groups ↔
      ∃ d, Call.FirstValid options calls (.group d) ∧ d.validate = .ok g := by
  simp only [tables_after, Tables.ofEntries, List.mem_filterMap, mem_accepted_iff,
    Call.validated?_eq_some_iff]
  constructor
  · rintro ⟨entry, ⟨c, hFirst, hv⟩, hg⟩
    cases c with
    | shape d =>
      obtain ⟨s, warnings, _, rfl⟩ := (Call.validate_shape_eq_ok_iff d entry).mp hv
      cases hg
    | group d =>
      obtain ⟨g', hd, rfl⟩ := (Call.validate_group_eq_ok_iff d entry).mp hv
      obtain rfl : g' = g := by simpa [Entry.group?] using hg
      exact ⟨d, hFirst, hd⟩
  · rintro ⟨d, hFirst, hd⟩
    exact ⟨.group g, ⟨.group d, hFirst, (Call.validate_group_eq_ok_iff d _).mpr ⟨g, hd, rfl⟩⟩, rfl⟩

/-- A tag is looked up to the schema of its first valid declaration. -/
theorem lookup_after_eq_ok_iff (tag : String) (s : NodeSchema) :
    (after options calls).tables.lookup tag = .ok s ↔
      ∃ d warnings, Call.FirstValid options calls (.shape d) ∧ d.tag = tag ∧
        d.validate options = .ok (s, warnings) := by
  rw [Tables.lookup_eq_ok_iff, (after_distinct calls).shape?_eq_some_iff, mem_shapes_after_iff]
  constructor
  · rintro ⟨⟨d, warnings, hFirst, hd⟩, rfl⟩
    obtain ⟨_, rfl, _⟩ := (d.validate_eq_ok_iff options s warnings).mp hd
    exact ⟨d, warnings, hFirst, rfl, hd⟩
  · rintro ⟨d, warnings, hFirst, rfl, hd⟩
    obtain ⟨_, rfl, _⟩ := (d.validate_eq_ok_iff options s warnings).mp hd
    exact ⟨⟨d, warnings, hFirst, hd⟩, rfl⟩

theorem lookupGroup_after_eq_ok_iff (name : String) (g : GroupSchema) :
    (after options calls).tables.lookupGroup name = .ok g ↔
      ∃ d, Call.FirstValid options calls (.group d) ∧ d.name = name ∧ d.validate = .ok g := by
  rw [Tables.lookupGroup_eq_ok_iff, (after_distinct calls).group?_eq_some_iff,
    mem_groups_after_iff]
  constructor
  · rintro ⟨⟨d, hFirst, hd⟩, rfl⟩
    exact ⟨d, hFirst, (GroupDecl.name_of_validate hd).symm, hd⟩
  · rintro ⟨d, hFirst, rfl, hd⟩
    exact ⟨⟨d, hFirst, hd⟩, GroupDecl.name_of_validate hd⟩

theorem lookup_after_append {tag : String} {s : NodeSchema}
    (h : (after options calls).tables.lookup tag = .ok s) (more : List Call) :
    (after options (calls ++ more)).tables.lookup tag = .ok s := by
  obtain ⟨d, warnings, hFirst, ht, hd⟩ := (lookup_after_eq_ok_iff calls tag s).mp h
  exact (lookup_after_eq_ok_iff _ tag s).mpr ⟨d, warnings, hFirst.append more, ht, hd⟩

theorem lookupGroup_after_append {name : String} {g : GroupSchema}
    (h : (after options calls).tables.lookupGroup name = .ok g) (more : List Call) :
    (after options (calls ++ more)).tables.lookupGroup name = .ok g := by
  obtain ⟨d, hFirst, hn, hd⟩ := (lookupGroup_after_eq_ok_iff calls name g).mp h
  exact (lookupGroup_after_eq_ok_iff _ name g).mpr ⟨d, hFirst.append more, hn, hd⟩

theorem exists_lookup_after_iff (tag : String) :
    (∃ s, (after options calls).tables.lookup tag = .ok s) ↔
      ∃ d, .shape d ∈ calls ∧ d.tag = tag ∧ (Call.shape d).Valid options := by
  have hSome : (∃ s, (after options calls).tables.lookup tag = .ok s) ↔
      (after options calls).tables.resolves (.shape tag) = true := by
    simp only [Tables.lookup_eq_ok_iff, Tables.resolves, Tables.contains,
      Option.isSome_iff_exists]
  rw [hSome, resolves_after]
  constructor
  · rintro ⟨c, hm, hv, hn⟩
    cases c with
    | shape d => exact ⟨d, hm, by simpa [Call.name] using hn, hv⟩
    | group d => cases hn
  · rintro ⟨d, hm, rfl, hv⟩
    exact ⟨.shape d, hm, hv, rfl⟩

theorem size_after :
    (after options calls).tables.size = (accepted options calls).countP (·.isShape) := by
  rw [tables_after]
  simp only [Tables.size, Tables.ofEntries, List.length_filterMap_eq_countP,
    List.countP_filterMap]
  apply List.countP_congr
  intro c hc
  obtain ⟨entry, hv⟩ := ((mem_accepted_iff calls c).mp hc).valid
  have hName := Call.name_of_validate hv
  rw [(c.validated?_eq_some_iff entry).mpr hv]
  cases c <;> cases entry <;> simp_all [Call.name, Entry.name, Entry.schema?, Call.isShape]

theorem warnings_after :
    (after options calls).tables.warnings =
      (accepted options calls).flatMap (·.warnings options) := by
  rw [tables_after]
  generalize accepted options calls = cs
  induction cs with
  | nil => rfl
  | cons c cs ih =>
    simp only [Tables.ofEntries] at ih ⊢
    cases hc : c.validated? options <;> simp [Call.warnings, hc, ih]

/-- Which calls stand before a call matters only as far as they ask for the same name. -/
theorem outcome_congr {calls' : List Call} {c : Call}
    (h : ∀ c', c'.name = c.name → (c' ∈ calls ↔ c' ∈ calls')) :
    outcome options calls c = outcome options calls' c := by
  cases hv : c.validate options with
  | error e => rw [outcome_of_invalid calls hv, outcome_of_invalid calls' hv]
  | ok entry =>
    have hTaken : (∃ c' ∈ calls, c'.Valid options ∧ c'.name = c.name) ↔
        ∃ c' ∈ calls', c'.Valid options ∧ c'.name = c.name := by
      constructor
      · rintro ⟨c', hm, hv', hn⟩
        exact ⟨c', (h c' hn).mp hm, hv', hn⟩
      · rintro ⟨c', hm, hv', hn⟩
        exact ⟨c', (h c' hn).mpr hm, hv', hn⟩
    simp only [outcome_of_valid _ ⟨entry, hv⟩, hTaken]

end Runs

/-- How a store answers in which the first valid declaration of a name wins. The calls so far are
`calls`, and `c` is any call that may come next. -/
structure FirstValidWins (options : ValidationOptions) (calls : List Call) : Prop where
  results : ∀ (i : Nat) (c : Call), calls[i]? = some c →
    (results options calls)[i]? = some (outcome options (calls.take i) c)
  invalid : ∀ c e, c.validate options = .error e → outcome options calls c = .error e
  duplicate : ∀ c, c.Valid options → (outcome options calls c = .error c.name.duplicate ↔
    ∃ c' ∈ accepted options calls, c'.name = c.name)
  fresh : ∀ c, c.Valid options → (outcome options calls c = .ok () ↔
    ¬ ∃ c' ∈ accepted options calls, c'.name = c.name)
  refused : ∀ c, outcome options calls c ≠ .ok () →
    after options (calls ++ [c]) = after options calls
  registered : ∀ tag, (∃ s, (after options calls).tables.lookup tag = .ok s) ↔
    ∃ d, .shape d ∈ calls ∧ d.tag = tag ∧ (Call.shape d).Valid options
  lookup : ∀ tag s, (after options calls).tables.lookup tag = .ok s ↔
    ∃ d warnings, Call.FirstValid options calls (.shape d) ∧ d.tag = tag ∧
      d.validate options = .ok (s, warnings)
  tag : ∀ tag s, (after options calls).tables.lookup tag = .ok s → s.tag = tag
  stays : ∀ tag s more, (after options calls).tables.lookup tag = .ok s →
    (after options (calls ++ more)).tables.lookup tag = .ok s
  lookupGroup : ∀ name g, (after options calls).tables.lookupGroup name = .ok g ↔
    ∃ d, Call.FirstValid options calls (.group d) ∧ d.name = name ∧ d.validate = .ok g
  size : (after options calls).tables.size = (accepted options calls).countP (·.isShape)
  warnings : (after options calls).tables.warnings =
    (accepted options calls).flatMap (·.warnings options)
  /-- Tags and group names never meet: only calls of its own kind have a say in a call's result. -/
  apart : ∀ c, outcome options calls c =
    outcome options (calls.filter fun c' => c'.isShape == c.isShape) c

theorem first_valid_declaration_wins (options : ValidationOptions) (calls : List Call) :
    FirstValidWins options calls where
  results _ _ hc := getElem?_results calls hc
  invalid _ _ hv := outcome_of_invalid calls hv
  duplicate c hv := by
    rw [exists_accepted_iff, outcome_of_valid calls hv]
    split <;> simp [*]
  fresh c hv := by
    rw [exists_accepted_iff, outcome_of_valid calls hv]
    split <;> simp [*]
  refused _ hr := after_of_refused calls hr
  registered tag := exists_lookup_after_iff calls tag
  lookup tag s := lookup_after_eq_ok_iff calls tag s
  tag tag s hs := Tables.tag_of_shape? ((Tables.lookup_eq_ok_iff _ tag s).mp hs)
  stays tag s more hs := lookup_after_append calls hs more
  lookupGroup name g := lookupGroup_after_eq_ok_iff calls name g
  size := size_after calls
  warnings := warnings_after calls
  apart c := by
    apply outcome_congr
    intro c' hn
    have hKind : c'.isShape = c.isShape := by
      cases c <;> cases c' <;> simp_all [Call.name, Call.isShape]
    simp [hKind]

example : results .strict [.shape pairDecl, .shape { tag := "Pair" },
    .group { name := "Pair", members := ["Pair"] }] =
      [.ok (), .error (.duplicateNodeTag "Pair"), .ok ()] := by
  decide

end Builder

end TreeSchema
