import Mathlib.Logic.Function.Basic
import TreeSchema.Proofs.Registry.Precedence

/-!
# Clients that share a builder

Any number of clients work on one builder. A call takes two steps: it is validated, which reads
nothing that is shared, and later it is entered in one indivisible step. A look-up is one step.
Whatever the order of the steps, each request is answered as if the requests had been made one
after another, in the order in which they were completed.
-/

namespace TreeSchema

set_option autoImplicit false

inductive Request where
  | submit (call : Call)
  | lookup (tag : String)
deriving DecidableEq

def Request.call? : Request → Option Call
  | .submit call => some call
  | .lookup _ => none

inductive Answer where
  | submitted (result : Except SchemaError Unit)
  | found (result : Except SchemaError NodeSchema)
deriving DecidableEq

namespace ShapeDecl

theorem tag_of_mem_lintWarnings {d : ShapeDecl} {options : ValidationOptions} {w : SchemaWarning}
    (h : w ∈ d.lintWarnings options) : w.tag = d.tag := by
  unfold lintWarnings at h
  split at h
  · obtain ⟨field, _, rfl⟩ := List.mem_map.mp h
    rfl
  · cases h
  · cases h

theorem fields_of_lintWarnings (d : ShapeDecl) (options : ValidationOptions) :
    ((d.lintWarnings options).map (·.field)).Sublist (d.fields.map (·.name)) := by
  unfold lintWarnings
  split
  · have hFields : (d.untraversed.map (.untraversedChild d.tag)).map SchemaWarning.field =
        d.untraversed := by
      simp [SchemaWarning.field, Function.comp_def]
    rw [hFields]
    exact List.filter_sublist.map _
  · exact List.nil_sublist _
  · exact List.nil_sublist _

end ShapeDecl

namespace Call

variable {options : ValidationOptions}

theorem warnings_shape {d : ShapeDecl} (hv : (shape d).Valid options) :
    (shape d).warnings options = d.lintWarnings options := by
  obtain ⟨entry, hv⟩ := hv
  obtain ⟨s, warnings, hd, rfl⟩ := (validate_shape_eq_ok_iff d entry).mp hv
  obtain ⟨_, _, rfl⟩ := (d.validate_eq_ok_iff options s warnings).mp hd
  rw [Call.warnings, (validated?_eq_some_iff _ _).mpr hv]
  rfl

theorem name_of_mem_warnings {c : Call} {w : SchemaWarning} (h : w ∈ c.warnings options) :
    c.name = .shape w.tag := by
  cases hc : c.validated? options with
  | none => simp [Call.warnings, hc] at h
  | some entry =>
    have hv := (c.validated?_eq_some_iff entry).mp hc
    have hw : w ∈ entry.warnings := by simpa [Call.warnings, hc] using h
    cases c with
    | shape d =>
      obtain ⟨s, warnings, hd, rfl⟩ := (validate_shape_eq_ok_iff d entry).mp hv
      obtain ⟨_, _, rfl⟩ := (d.validate_eq_ok_iff options s warnings).mp hd
      rw [ShapeDecl.tag_of_mem_lintWarnings hw]
      rfl
    | group d =>
      obtain ⟨g, _, rfl⟩ := (validate_group_eq_ok_iff d entry).mp hv
      cases hw

end Call

namespace Builder

/-- The indivisible part of a call: what validation let pass is entered, unless its name is
taken. -/
def enter (b : Builder) (validation : Except SchemaError Entry) :
    Except SchemaError Unit × Builder :=
  match validation with
  | .error e => (.error e, b)
  | .ok entry =>
    match b.tables.insert entry with
    | .error e => (.error e, b)
    | .ok tables => (.ok (), { b with tables })

theorem enter_validate (b : Builder) (c : Call) :
    b.enter (c.validate b.options) = ((b.submit c).result, (b.submit c).builder) := by
  rcases submit_cases b c with ⟨e, hs, hv | ⟨entry, hv, hi⟩⟩ | ⟨entry, t, hv, hi, hs⟩
  · simp only [enter, hs, hv]
  · simp only [enter, hs, hv, hi]
  · simp only [enter, hs, hv, hi]

def answer (b : Builder) : Request → Answer × Builder
  | .submit c => (.submitted (b.submit c).result, (b.submit c).builder)
  | .lookup tag => (.found (b.tables.lookup tag), b)

theorem options_answer (b : Builder) (r : Request) : (b.answer r).2.options = b.options := by
  cases r with
  | lookup tag => rfl
  | submit c =>
    rcases submit_cases b c with ⟨e, hs, _⟩ | ⟨entry, t, _, _, hs⟩ <;> simp only [answer, hs]

def serve (b : Builder) : List Request → List Answer × Builder
  | [] => ([], b)
  | r :: rs => ((b.answer r).1 :: ((b.answer r).2.serve rs).1, ((b.answer r).2.serve rs).2)

theorem serve_append (b : Builder) (rs rs' : List Request) :
    b.serve (rs ++ rs') =
      ((b.serve rs).1 ++ ((b.serve rs).2.serve rs').1, ((b.serve rs).2.serve rs').2) := by
  induction rs generalizing b with
  | nil => rfl
  | cons r rs ih => simp only [List.cons_append, serve, ih]

theorem length_serve (b : Builder) (rs : List Request) : (b.serve rs).1.length = rs.length := by
  induction rs generalizing b with
  | nil => rfl
  | cons r rs ih => simp only [serve, List.length_cons, ih]

theorem serve_builder (b : Builder) (rs : List Request) :
    (b.serve rs).2 = (b.submitEach (rs.filterMap (·.call?))).2.1 := by
  induction rs generalizing b with
  | nil => rfl
  | cons r rs ih =>
    cases r with
    | submit c => simp only [serve, answer, ih, Request.call?, List.filterMap_cons, submitEach]
    | lookup tag => simp only [serve, answer, ih, Request.call?, List.filterMap_cons]

/-- The warnings of an accepted shape stand together, in the order of its fields. -/
theorem warnings_contiguous {options : ValidationOptions} {calls : List Call} {d : ShapeDecl}
    (h : .shape d ∈ accepted options calls) :
    ∃ before after,
      (Builder.after options calls).tables.warnings = before ++ d.lintWarnings options ++ after ∧
        ∀ w ∈ before ++ after, w.tag ≠ d.tag := by
  have hDistinct : ((accepted options calls).map (·.name)).Nodup := accepted_names_nodup calls
  have hWarnings : (Builder.after options calls).tables.warnings =
      (accepted options calls).flatMap (·.warnings options) := warnings_after calls
  have hValid := ((mem_accepted_iff calls _).mp h).valid
  obtain ⟨earlier, later, hSplit⟩ := List.append_of_mem h
  rw [hSplit, List.flatMap_append, List.flatMap_cons, Call.warnings_shape hValid,
    ← List.append_assoc] at hWarnings
  refine ⟨_, _, hWarnings, ?_⟩
  intro w hw hTag
  rw [← List.flatMap_append] at hw
  obtain ⟨c, hc, hwc⟩ := List.mem_flatMap.mp hw
  have hName : c.name = .shape d.tag := by rw [Call.name_of_mem_warnings hwc, hTag]
  rw [hSplit, List.map_append, List.map_cons, List.perm_middle.nodup_iff, ← List.map_append]
    at hDistinct
  have hNot := (List.nodup_cons.mp hDistinct).1
  exact hNot (List.mem_map.mpr ⟨c, hc, hName⟩)

end Builder

/-- If every step of `i` lowers what `i` has to do, and no step of another raises it, then a schedule
lowers it by the number of its steps. -/
theorem work_foldl {σ ι : Type} [DecidableEq ι] {step : σ → ι → σ} (work : σ → ι → Nat)
    (h : ∀ s i j, work (step s j) i ≤ work s i - [j].count i) (s : σ) (schedule : List ι) (i : ι) :
    work (schedule.foldl step s) i ≤ work s i - schedule.count i := by
  induction schedule generalizing s with
  | nil => simp
  | cons j schedule ih =>
    have hFirst := h s i j
    have hRest := ih (step s j)
    have hCount : (j :: schedule).count i = [j].count i + schedule.count i := by
      rw [← List.singleton_append, List.count_append]
    rw [List.foldl_cons]
    omega

/-- A client: the requests that it has not begun, and a call of which the validation is known but
which has not been entered. -/
structure Client where
  todo : List Request
  validated : Option (Call × Except SchemaError Entry) := none

namespace Client

def unfinished (client : Client) : List Request :=
  (client.validated.map fun v => Request.submit v.1).toList ++ client.todo

def Faithful (options : ValidationOptions) (client : Client) : Prop :=
  ∀ c validation, client.validated = some (c, validation) → validation = c.validate options

def work (client : Client) : Nat :=
  2 * client.todo.length + client.validated.toList.length

theorem unfinished_eq_nil_of_work (client : Client) (h : client.work = 0) :
    client.unfinished = [] := by
  obtain ⟨hTodo, hValidated⟩ : 2 * client.todo.length = 0 ∧ client.validated.toList.length = 0 :=
    Nat.add_eq_zero_iff.mp h
  have hNone : client.validated = none := by simpa using hValidated
  rw [unfinished, hNone, List.eq_nil_of_length_eq_zero (by omega : client.todo.length = 0)]
  rfl

theorem faithful_idle (options : ValidationOptions) (todo : List Request) :
    Faithful options { todo } := by
  intro c validation h
  cases h

end Client

structure Completion (ι : Type) where
  client : ι
  request : Request
  answer : Answer

namespace Completion

variable {ι : Type}

/-- A valid call for a name. -/
def Contends (options : ValidationOptions) (name : ChildType) (x : Completion ι) : Prop :=
  ∃ c, x.request = .submit c ∧ c.Valid options ∧ c.name = name

def Takes (name : ChildType) (x : Completion ι) : Prop :=
  ∃ c, x.request = .submit c ∧ c.name = name ∧ x.answer = .submitted (.ok ())

def calls (history : List (Completion ι)) : List Call :=
  history.filterMap (·.request.call?)

theorem mem_calls (history : List (Completion ι)) (c : Call) :
    c ∈ calls history ↔ ∃ x ∈ history, x.request = .submit c := by
  have hCall : ∀ r : Request, r.call? = some c ↔ r = .submit c := by
    intro r
    cases r <;> simp [Request.call?]
  simp only [calls, List.mem_filterMap, hCall]

theorem serve_requests (options : ValidationOptions) (history : List (Completion ι)) :
    ((Builder.empty options).serve (history.map (·.request))).2 =
      Builder.after options (calls history) := by
  rw [Builder.serve_builder, List.filterMap_map]
  rfl

end Completion

structure Session (ι : Type) where
  builder : Builder
  clients : ι → Client
  history : List (Completion ι)

namespace Session

open Completion

variable {ι : Type} [DecidableEq ι] {options : ValidationOptions} {programs : ι → List Request}

def start (options : ValidationOptions) (programs : ι → List Request) : Session ι where
  builder := .empty options
  clients i := { todo := programs i }
  history := []

/-- One step of one client. A client that has nothing left to do stays as it is. -/
def advance (s : Session ι) (i : ι) : Session ι :=
  match s.clients i with
  | ⟨rest, some (c, validation)⟩ =>
    { builder := (s.builder.enter validation).2
      clients := Function.update s.clients i ⟨rest, none⟩
      history := s.history ++ [⟨i, .submit c, .submitted (s.builder.enter validation).1⟩] }
  | ⟨.submit c :: rest, none⟩ =>
    { s with
      clients := Function.update s.clients i ⟨rest, some (c, c.validate s.builder.options)⟩ }
  | ⟨.lookup tag :: rest, none⟩ =>
    { s with
      clients := Function.update s.clients i ⟨rest, none⟩
      history := s.history ++ [⟨i, .lookup tag, .found (s.builder.tables.lookup tag)⟩] }
  | ⟨[], none⟩ => s

def run (s : Session ι) (schedule : List ι) : Session ι :=
  schedule.foldl advance s

def Finished (s : Session ι) : Prop :=
  ∀ i, (s.clients i).unfinished = []

def completedBy (s : Session ι) (i : ι) : List Request :=
  (s.history.filter fun x => x.client = i).map (·.request)

/-- What every step keeps. The completed requests have been answered as by serving them in turn,
and each client has its program behind it or before it, in the order of the program. -/
structure Serial (options : ValidationOptions) (programs : ι → List Request) (s : Session ι) :
    Prop where
  options_eq : s.builder.options = options
  faithful : ∀ i, (s.clients i).Faithful options
  served : (Builder.empty options).serve (s.history.map (·.request)) =
    (s.history.map (·.answer), s.builder)
  programs_eq : ∀ i, s.completedBy i ++ (s.clients i).unfinished = programs i

theorem serial_start : (start options programs).Serial options programs where
  options_eq := rfl
  faithful i := Client.faithful_idle options (programs i)
  served := rfl
  programs_eq _ := rfl

theorem Serial.complete {s : Session ι} (hs : s.Serial options programs) {i : ι} {r : Request}
    {rest : List Request} (hr : (s.clients i).unfinished = r :: rest) :
    Serial options programs
      { builder := (s.builder.answer r).2
        clients := Function.update s.clients i ⟨rest, none⟩
        history := s.history ++ [⟨i, r, (s.builder.answer r).1⟩] } where
  options_eq := (s.builder.options_answer r).trans hs.options_eq
  faithful := (Function.forall_update_iff s.clients fun _ => Client.Faithful options).mpr
    ⟨Client.faithful_idle options rest, fun j _ => hs.faithful j⟩
  served := by
    rw [List.map_append, List.map_append, Builder.serve_append, hs.served]
    rfl
  programs_eq := by
    intro j
    rw [← hs.programs_eq j]
    by_cases hj : j = i
    · subst hj
      rw [hr]
      simp [completedBy, Client.unfinished]
    · have hOther : ¬ i = j := fun h => hj h.symm
      simp [completedBy, hOther, Function.update_of_ne hj]

theorem Serial.advance {s : Session ι} (hs : s.Serial options programs) (i : ι) :
    (s.advance i).Serial options programs := by
  unfold Session.advance
  split
  · -- The call is entered now; its validation, however old, is still the right one.
    rename_i rest c validation hi
    have hv : validation = c.validate s.builder.options := by
      rw [hs.options_eq]
      exact hs.faithful i c validation (by rw [hi])
    have hr : (s.clients i).unfinished = .submit c :: rest := by
      rw [hi]
      rfl
    rw [hv, Builder.enter_validate]
    exact hs.complete hr
  · rename_i c rest hi
    refine ⟨hs.options_eq, ?_, hs.served, ?_⟩
    · refine (Function.forall_update_iff s.clients fun _ => Client.Faithful options).mpr
        ⟨?_, fun j _ => hs.faithful j⟩
      rw [hs.options_eq]
      rintro c' validation ⟨⟩
      rfl
    · intro j
      rw [← hs.programs_eq j]
      by_cases hj : j = i
      · subst hj
        simp [completedBy, hi, Client.unfinished]
      · simp [completedBy, Function.update_of_ne hj]
  · rename_i tag rest hi
    have hr : (s.clients i).unfinished = .lookup tag :: rest := by
      rw [hi]
      rfl
    exact hs.complete hr
  · exact hs

theorem serial_run (options : ValidationOptions) (programs : ι → List Request)
    (schedule : List ι) : ((start options programs).run schedule).Serial options programs := by
  induction schedule using List.reverseRecOn with
  | nil => exact serial_start
  | append_singleton schedule i ih =>
    rw [run, List.foldl_append]
    exact ih.advance i

theorem work_advance (s : Session ι) (i j : ι) :
    ((s.advance j).clients i).work ≤ (s.clients i).work - [j].count i := by
  by_cases hj : j = i
  · subst hj
    unfold advance
    split
    all_goals
      rename_i hi
      simp only [hi, Client.work, Function.update_self, List.count_singleton_self,
        Option.toList_none, Option.toList_some, List.length_cons, List.length_nil]
      omega
  · have hOther : ¬ i = j := fun h => hj h.symm
    unfold advance
    split <;> simp [Function.update_of_ne hOther, hj]

theorem work_run (s : Session ι) (schedule : List ι) (i : ι) :
    ((s.run schedule).clients i).work ≤ (s.clients i).work - schedule.count i :=
  work_foldl (fun s i => (s.clients i).work) work_advance s schedule i

theorem history_advance (s : Session ι) (i : ι) : s.history <+: (s.advance i).history := by
  unfold advance
  split
  · exact List.prefix_append _ _
  · exact List.prefix_refl _
  · exact List.prefix_append _ _
  · exact List.prefix_refl _

theorem history_run (s : Session ι) (schedule : List ι) :
    s.history <+: (s.run schedule).history := by
  induction schedule generalizing s with
  | nil => exact List.prefix_refl _
  | cons i schedule ih => exact (s.history_advance i).trans (ih (s.advance i))

theorem Serial.builder_eq {s : Session ι} (hs : s.Serial options programs) :
    s.builder = Builder.after options (calls s.history) := by
  rw [← serve_requests, hs.served]

theorem Serial.answer_eq {s : Session ι} (hs : s.Serial options programs)
    {before rest : List (Completion ι)} {x : Completion ι} (h : s.history = before ++ x :: rest) :
    x.answer = ((Builder.after options (calls before)).answer x.request).1 := by
  have hServed := congrArg Prod.fst hs.served
  simp only [h, List.map_append, List.map_cons, Builder.serve_append, Builder.serve,
    serve_requests] at hServed
  have hParts := List.append_inj hServed (by simp [Builder.length_serve])
  exact (List.cons.inj hParts.2).1.symm

theorem Serial.result_eq {s : Session ι} (hs : s.Serial options programs)
    {before rest : List (Completion ι)} {x : Completion ι} (h : s.history = before ++ x :: rest)
    {c : Call} (hx : x.request = .submit c) :
    x.answer = .submitted (Builder.outcome options (calls before) c) := by
  rw [hs.answer_eq h, hx]
  rfl

section Results

variable {s : Session ι} {before after : List (Completion ι)} {x : Completion ι}
  {name : ChildType}

theorem Serial.takes_iff (hs : s.Serial options programs) (h : s.history = before ++ x :: after) :
    x.Takes name ↔ x.Contends options name ∧ ∀ y ∈ before, ¬ y.Contends options name := by
  have hOutcome : ∀ c, x.request = .submit c → (x.answer = .submitted (.ok ()) ↔
      c.Valid options ∧ ∀ c' ∈ calls before, c'.Valid options → c'.name ≠ c.name) := by
    intro c hc
    rw [hs.result_eq h hc, Answer.submitted.injEq, Builder.outcome_eq_ok_iff]
  constructor
  · rintro ⟨c, hc, rfl, ha⟩
    obtain ⟨hv, hFree⟩ := (hOutcome c hc).mp ha
    refine ⟨⟨c, hc, hv, rfl⟩, ?_⟩
    rintro y hy ⟨c', hc', hv', hn⟩
    exact hFree c' ((mem_calls before c').mpr ⟨y, hy, hc'⟩) hv' hn
  · rintro ⟨⟨c, hc, hv, rfl⟩, hFirst⟩
    refine ⟨c, hc, rfl, (hOutcome c hc).mpr ⟨hv, ?_⟩⟩
    intro c' hc' hv' hn
    obtain ⟨y, hy, hr⟩ := (mem_calls before c').mp hc'
    exact hFirst y hy ⟨c', hr, hv', hn⟩

theorem Serial.answer_of_late (hs : s.Serial options programs)
    (h : s.history = before ++ x :: after) (hx : x.Contends options name)
    {y : Completion ι} (hy : y ∈ before) (hyc : y.Contends options name) :
    x.answer = .submitted (.error name.duplicate) := by
  obtain ⟨c, hc, hv, rfl⟩ := hx
  obtain ⟨c', hc', hv', hn⟩ := hyc
  have hTaken : ∃ c' ∈ calls before, c'.Valid options ∧ c'.name = c.name :=
    ⟨c', (mem_calls before c').mpr ⟨y, hy, hc'⟩, hv', hn⟩
  rw [hs.result_eq h hc, Builder.outcome_of_valid _ hv, if_pos hTaken]

/-- Of the valid calls for a name that are completed, one takes it and the others are refused. -/
theorem Serial.exists_winner (hs : s.Serial options programs)
    (h : ∃ x ∈ s.history, x.Contends options name) :
    ∃ before winner after, s.history = before ++ winner :: after ∧ winner.Takes name ∧
      ∀ x ∈ before ++ after, ¬ x.Takes name ∧
        (x.Contends options name → x.answer = .submitted (.error name.duplicate)) := by
  obtain ⟨before, winner, after, hSplit, hWinner, hFirst⟩ := exists_first h
  refine ⟨before, winner, after, hSplit, (hs.takes_iff hSplit).mpr ⟨hWinner, hFirst⟩, ?_⟩
  intro x hx
  -- Before the winner no call was valid; after it the name is gone.
  rcases List.mem_append.mp hx with hEarly | hLate
  · obtain ⟨pre, post, rfl⟩ := List.append_of_mem hEarly
    have hPlace : s.history = pre ++ x :: (post ++ winner :: after) := by simp [hSplit]
    have hNot := hFirst x hEarly
    exact ⟨fun hTakes => hNot ((hs.takes_iff hPlace).mp hTakes).1, fun hx => absurd hx hNot⟩
  · obtain ⟨pre, post, rfl⟩ := List.append_of_mem hLate
    have hPlace : s.history = (before ++ winner :: pre) ++ x :: post := by simp [hSplit]
    have hMem : winner ∈ before ++ winner :: pre := by simp
    constructor
    · intro hTakes
      exact ((hs.takes_iff hPlace).mp hTakes).2 winner hMem hWinner
    · intro hContends
      exact hs.answer_of_late hPlace hContends hMem hWinner

theorem Serial.mem_history_of_finished (hs : s.Serial options programs) (hf : s.Finished) {i : ι}
    {r : Request} (hr : r ∈ programs i) : ∃ x ∈ s.history, x.request = r := by
  rw [← hs.programs_eq i, hf i, List.append_nil, completedBy] at hr
  obtain ⟨x, hx, rfl⟩ := List.mem_map.mp hr
  exact ⟨x, List.mem_of_mem_filter hx, rfl⟩

theorem Serial.lookups_agree (hs : s.Serial options programs) :
    s.history.Pairwise fun x y => ∀ tag schema, x.request = .lookup tag →
      x.answer = .found (.ok schema) → y.request = .lookup tag → y.answer = x.answer := by
  rw [List.pairwise_iff_forall_sublist]
  intro x y hxy tag schema hx hFound hy
  obtain ⟨first, second, hSplit, hFirst, hSecond⟩ := List.cons_sublist_iff.mp hxy
  obtain ⟨before, mid, rfl⟩ := List.append_of_mem hFirst
  obtain ⟨mid', after, rfl⟩ := List.append_of_mem (List.singleton_sublist.mp hSecond)
  have hPlace : s.history = before ++ x :: (mid ++ mid' ++ y :: after) := by simp [hSplit]
  have hPlace' : s.history = (before ++ x :: (mid ++ mid')) ++ y :: after := by simp [hSplit]
  have hEarlier : (Builder.after options (calls before)).tables.lookup tag = .ok schema := by
    have hAnswer := hs.answer_eq hPlace
    rw [hFound, hx] at hAnswer
    exact (Answer.found.inj hAnswer).symm
  have hCalls : calls (before ++ x :: (mid ++ mid')) =
      calls before ++ calls (x :: (mid ++ mid')) := List.filterMap_append
  rw [hs.answer_eq hPlace', hy, hFound, hCalls]
  exact congrArg Answer.found (Builder.lookup_after_append _ hEarlier _)

theorem Serial.warnings_contiguous (hs : s.Serial options programs) {d : ShapeDecl}
    (hx : x ∈ s.history) (hd : x.request = .submit (.shape d))
    (ha : x.answer = .submitted (.ok ())) :
    ∃ schema warnings, d.validate options = .ok (schema, warnings) ∧
      (warnings.map (·.field)).Sublist (d.fields.map (·.name)) ∧
      ∃ before after, s.builder.tables.warnings = before ++ warnings ++ after ∧
        ∀ w ∈ before ++ after, w.tag ≠ d.tag := by
  obtain ⟨earlier, later, hSplit⟩ := List.append_of_mem hx
  rw [hs.result_eq hSplit hd, Answer.submitted.injEq] at ha
  obtain ⟨hv, hFree⟩ := (Builder.outcome_eq_ok_iff _ _).mp ha
  have hCalls : calls s.history = calls earlier ++ .shape d :: calls later := by
    simp [calls, hSplit, hd, Request.call?]
  have hAccepted : .shape d ∈ Builder.accepted options (calls s.history) :=
    (Builder.mem_accepted_iff _ _).mpr ⟨_, _, hCalls, hv, hFree⟩
  obtain ⟨entry, hv⟩ := hv
  obtain ⟨schema, warnings, hValidate, rfl⟩ := (Call.validate_shape_eq_ok_iff d entry).mp hv
  obtain ⟨_, _, rfl⟩ := (d.validate_eq_ok_iff options schema warnings).mp hValidate
  refine ⟨schema, _, hValidate, d.fields_of_lintWarnings options, ?_⟩
  rw [hs.builder_eq]
  exact Builder.warnings_contiguous hAccepted

end Results

/-- A session that cannot be told from one in which the completed requests were made one after
another, in the order of completion. -/
structure Linearized (options : ValidationOptions) (programs : ι → List Request)
    (s : Session ι) : Prop where
  served : (Builder.empty options).serve (s.history.map (·.request)) =
    (s.history.map (·.answer), s.builder)
  order : ∀ i, s.completedBy i ++ (s.clients i).unfinished = programs i
  winner : s.Finished → ∀ i c, .submit c ∈ programs i → c.Valid options →
    ∃ before winner after, s.history = before ++ winner :: after ∧ winner.Takes c.name ∧
      ∀ x ∈ before ++ after, ¬ x.Takes c.name ∧
        (x.Contends options c.name → x.answer = .submitted (.error c.name.duplicate))
  lookups : s.history.Pairwise fun x y => ∀ tag schema, x.request = .lookup tag →
    x.answer = .found (.ok schema) → y.request = .lookup tag → y.answer = x.answer
  warnings : ∀ x ∈ s.history, ∀ d, x.request = .submit (.shape d) →
    x.answer = .submitted (.ok ()) → ∃ schema warnings,
      d.validate options = .ok (schema, warnings) ∧
      (warnings.map (·.field)).Sublist (d.fields.map (·.name)) ∧
      ∃ before after, s.builder.tables.warnings = before ++ warnings ++ after ∧
        ∀ w ∈ before ++ after, w.tag ≠ d.tag

/-- Every interleaving of the clients' steps is linearized. A longer schedule only adds to what is
completed, and a client that takes two steps for each of its requests completes them all, whatever
the other clients do. -/
theorem every_schedule_is_linearized (options : ValidationOptions) (programs : ι → List Request)
    (schedule : List ι) :
    ((start options programs).run schedule).Linearized options programs ∧
      (∀ more, ((start options programs).run schedule).history <+:
        ((start options programs).run (schedule ++ more)).history) ∧
      ∀ i, 2 * (programs i).length ≤ schedule.count i →
        ((start options programs).run schedule).completedBy i = programs i := by
  have hs := serial_run options programs schedule
  refine ⟨?_, ?_, ?_⟩
  · refine ⟨hs.served, hs.programs_eq, ?_, hs.lookups_agree, ?_⟩
    · intro hf i c hc hv
      obtain ⟨x, hx, hr⟩ := hs.mem_history_of_finished hf hc
      exact hs.exists_winner ⟨x, hx, c, hr, hv, rfl⟩
    · intro x hx d hd ha
      exact hs.warnings_contiguous hx hd ha
  · intro more
    rw [run, run, List.foldl_append]
    exact history_run _ more
  · intro i hi
    have hWork := (start options programs).work_run schedule i
    have hStart : ((start options programs).clients i).work = 2 * (programs i).length := rfl
    have hIdle : (((start options programs).run schedule).clients i).work = 0 := by omega
    rw [← hs.programs_eq i, Client.unfinished_eq_nil_of_work _ hIdle, List.append_nil]

end Session

def rivals : Bool → List Request
  | true => [.submit (.shape pairDecl), .lookup "Pair"]
  | false => [.submit (.shape { tag := "Pair", fields := [⟨"first", .child (.shape "Name")⟩] }),
      .lookup "Pair"]

/-- Both clients validate before either enters, and the one that began later enters first. -/
def rivalry : List Bool :=
  [true, false, false, true, false, true]

theorem rivalry_settled :
    ((Session.start {} rivals).run rivalry).Finished ∧
      ((Session.start {} rivals).run rivalry).history.map (·.client) = [false, true, false, true] ∧
      ∃ before winner after,
        ((Session.start {} rivals).run rivalry).history = before ++ winner :: after ∧
        winner.Takes (.shape "Pair") ∧
        ∀ x ∈ before ++ after, ¬ x.Takes (.shape "Pair") ∧ (x.Contends {} (.shape "Pair") →
          x.answer = .submitted (.error (.duplicateNodeTag "Pair"))) := by
  have hFinished : ((Session.start {} rivals).run rivalry).Finished := by
    intro i
    cases i <;> decide
  have hLinearized := (Session.every_schedule_is_linearized {} rivals rivalry).1
  refine ⟨hFinished, by decide, ?_⟩
  exact hLinearized.winner hFinished true (.shape pairDecl) (by decide) (by decide)

end TreeSchema
