import TreeSchema.Proofs.Registry.Finishing
import TreeSchema.Proofs.Registry.Interleaving
import TreeSchema.Registry.Slot

/-!
# One registry for the whole process

Any number of callers install registries into one slot and ask for what is installed. A request
takes effect in one indivisible step; an installation that went through is reported in a later step,
and other callers may come in between. Whatever the order of the steps, the first installation to
take effect wins, it is reported at most once, and all that come later find its registry.
-/

namespace TreeSchema

set_option autoImplicit false

theorem first_unique {α : Type} {P : α → Prop} {before before' after after' : List α} {x x' : α}
    (h : before ++ x :: after = before' ++ x' :: after') (hx : P x) (hx' : P x')
    (hb : ∀ y ∈ before, ¬ P y) (hb' : ∀ y ∈ before', ¬ P y) :
    before = before' ∧ x = x' ∧ after = after' := by
  induction before generalizing before' with
  | nil =>
    cases before' with
    | nil => exact ⟨rfl, List.cons.inj h⟩
    | cons y before' =>
      obtain ⟨rfl, _⟩ := List.cons.inj h
      exact absurd hx (hb' x List.mem_cons_self)
  | cons y before ih =>
    cases before' with
    | nil =>
      obtain ⟨rfl, _⟩ := List.cons.inj h
      exact absurd hx' (hb y List.mem_cons_self)
    | cons y' before' =>
      obtain ⟨rfl, hRest⟩ := List.cons.inj h
      obtain ⟨rfl, hTail⟩ := ih hRest (fun z hz => hb z (List.mem_cons_of_mem y hz))
        (fun z hz => hb' z (List.mem_cons_of_mem y hz))
      exact ⟨rfl, hTail⟩

theorem Builder.answers_of_finish {options : ValidationOptions} {calls : List Call} {r : Registry}
    (h : (after options calls).finish = .ok r) : r.Answers (after options calls).tables := by
  obtain ⟨_, rfl⟩ := (finish_eq_ok_iff _ r).mp h
  exact Registry.answers_of_reorders ⟨.refl _, .refl _⟩ (after_distinct calls) rfl

namespace Slot

inductive Request where
  | install (registry : Registry)
  | get
deriving DecidableEq

inductive Answer where
  | installed (result : Except SchemaError Registry)
  | current (registry : Option Registry)
deriving DecidableEq

/-- What a request does in the step in which it takes effect: its answer, the slot afterwards, and
what its caller has yet to report. -/
def respond (s : Slot) : Request → Answer × Slot × List Event
  | .install r => (.installed (s.install r).result, (s.install r).slot, (s.install r).log)
  | .get => (.current s.installed, s, [])

/-- A caller: the requests that it has not begun, and what it has to report before it goes on. -/
structure Caller where
  todo : List Request
  unreported : List Event := []

def Caller.work (c : Caller) : Nat :=
  2 * c.todo.length + c.unreported.length

structure Exchange (ι : Type) where
  caller : ι
  request : Request
  answer : Answer

namespace Exchange

variable {ι : Type}

def FindsNothing (x : Exchange ι) : Prop :=
  x.request = .get ∧ x.answer = .current none

def Finds (r : Registry) (x : Exchange ι) : Prop :=
  match x.request with
  | .get => x.answer = .current (some r)
  | .install _ => x.answer = .installed (.error .alreadyInstalled)

end Exchange

/-- Callers at one slot, with the requests in the order in which they took effect, and with what
each caller has reported. -/
structure Traffic (ι : Type) where
  slot : Slot
  callers : ι → Caller
  history : List (Exchange ι)
  log : List (ι × Event)

namespace Traffic

section Outcomes

variable {ι : Type} {t : Traffic ι}

structure Vacant (t : Traffic ι) : Prop where
  slot : t.slot.installed = none
  history : ∀ x ∈ t.history, x.FindsNothing
  log : t.log = []
  idle : ∀ i, (t.callers i).unreported = []

/-- The installation of `r` by `winner` has taken effect. It has been reported, or `winner` is about
to. -/
structure Taken (t : Traffic ι) (before : List (Exchange ι)) (winner : ι) (r : Registry)
    (after : List (Exchange ι)) : Prop where
  slot : t.slot.installed = some r
  history : t.history = before ++ ⟨winner, .install r, .installed (.ok r)⟩ :: after
  before : ∀ x ∈ before, x.FindsNothing
  after : ∀ x ∈ after, x.Finds r
  log : t.log ++ (t.callers winner).unreported.map (winner, ·) =
    [(winner, .registryInstalled r.size)]
  idle : ∀ i, i ≠ winner → (t.callers i).unreported = []

theorem Taken.eq_first {before before' after after' : List (Exchange ι)}
    {winner : ι} {r r' : Registry} {first : Exchange ι} (ht : t.Taken before winner r after)
    (hSplit : t.history = before' ++ first :: after') (hBefore : ∀ x ∈ before', x.request = .get)
    (hFirst : first.request = .install r') :
    before' = before ∧ first = ⟨winner, .install r, .installed (.ok r)⟩ ∧ after' = after ∧
      r' = r := by
  obtain ⟨rfl, rfl, rfl⟩ := first_unique (P := fun x => x.request ≠ .get)
    (hSplit.symm.trans ht.history) (by simp [hFirst]) (by simp)
    (fun x hx hNot => hNot (hBefore x hx)) (fun x hx hNot => hNot (ht.before x hx).1)
  exact ⟨rfl, rfl, rfl, (Request.install.inj hFirst).symm⟩

/-- How a slot serves that is filled once: by the first request for an installation. -/
structure FilledOnce (t : Traffic ι) : Prop where
  vacant : (∀ x ∈ t.history, x.request = .get) →
    (∀ x ∈ t.history, x.answer = .current none) ∧ t.log = []
  filled : ∀ before first after r, t.history = before ++ first :: after →
    (∀ x ∈ before, x.request = .get) → first.request = .install r →
      (∀ x ∈ before, x.answer = .current none) ∧ first.answer = .installed (.ok r) ∧
      (∀ x ∈ after, x.request = .get → x.answer = .current (some r)) ∧
      (∀ options calls, (Builder.after options calls).finish = .ok r →
        r.Answers (Builder.after options calls).tables) ∧
      (∀ x ∈ after, ∀ r', x.request = .install r' →
        x.answer = .installed (.error .alreadyInstalled)) ∧
      t.log ++ (t.callers first.caller).unreported.map (first.caller, ·) =
        [(first.caller, .registryInstalled r.size)]
  reported : t.log.length ≤ 1

theorem Vacant.filledOnce (ht : t.Vacant) : t.FilledOnce where
  vacant _ := ⟨fun x hx => (ht.history x hx).2, ht.log⟩
  filled before first after r hSplit _ hFirst := by
    have hMem : first ∈ t.history := by simp [hSplit]
    rw [(ht.history first hMem).1] at hFirst
    cases hFirst
  reported := by simp [ht.log]

theorem Taken.filledOnce {before after : List (Exchange ι)} {winner : ι}
    {r : Registry} (ht : t.Taken before winner r after) : t.FilledOnce where
  vacant hGets := by
    have hGet := hGets ⟨winner, .install r, .installed (.ok r)⟩ (by simp [ht.history])
    cases hGet
  filled before' first after' r' hSplit hBefore hFirst := by
    obtain ⟨rfl, rfl, rfl, rfl⟩ := ht.eq_first hSplit hBefore hFirst
    refine ⟨fun x hx => (ht.before x hx).2, rfl, ?_, ?_, ?_, ht.log⟩
    · intro x hx hGet
      have hFinds := ht.after x hx
      rwa [Exchange.Finds, hGet] at hFinds
    · intro options calls
      exact Builder.answers_of_finish
    · intro x hx r' hInstall
      have hFinds := ht.after x hx
      rwa [Exchange.Finds, hInstall] at hFinds
  reported := by
    have hLength := congrArg List.length ht.log
    rw [List.length_append, List.length_singleton] at hLength
    omega

end Outcomes

variable {ι : Type} [DecidableEq ι]

def start (programs : ι → List Request) : Traffic ι where
  slot := {}
  callers i := { todo := programs i }
  history := []
  log := []

def report (t : Traffic ι) (i : ι) (todo : List Request) (event : Event) (events : List Event) :
    Traffic ι :=
  { t with
    callers := Function.update t.callers i ⟨todo, events⟩
    log := t.log ++ [(i, event)] }

def serve (t : Traffic ι) (i : ι) (request : Request) (rest : List Request) : Traffic ι :=
  { t with
    slot := (t.slot.respond request).2.1
    callers := Function.update t.callers i ⟨rest, (t.slot.respond request).2.2⟩
    history := t.history ++ [⟨i, request, (t.slot.respond request).1⟩] }

/-- One step of one caller. What it has to report comes before its next request. -/
def advance (t : Traffic ι) (i : ι) : Traffic ι :=
  match t.callers i with
  | ⟨todo, event :: events⟩ => t.report i todo event events
  | ⟨request :: rest, []⟩ => t.serve i request rest
  | ⟨[], []⟩ => t

def run (t : Traffic ι) (schedule : List ι) : Traffic ι :=
  schedule.foldl advance t

def servedTo (t : Traffic ι) (i : ι) : List Request :=
  (t.history.filter fun x => x.caller = i).map (·.request)

section Steps

variable {t : Traffic ι} {i winner : ι} {r : Registry} {before after : List (Exchange ι)}
  {request : Request} {rest todo : List Request} {event : Event} {events : List Event}

theorem Vacant.serve_get (ht : t.Vacant) : (t.serve i .get rest).Vacant where
  slot := ht.slot
  history := by
    intro x hx
    rcases List.mem_append.mp hx with hx | hx
    · exact ht.history x hx
    · rw [List.mem_singleton.mp hx]
      exact ⟨rfl, congrArg Answer.current ht.slot⟩
  log := ht.log
  idle := (Function.forall_update_iff t.callers fun _ c => c.unreported = []).mpr
    ⟨rfl, fun j _ => ht.idle j⟩

theorem Vacant.serve_install (ht : t.Vacant) :
    (t.serve i (.install r) rest).Taken t.history i r [] := by
  have hRespond : t.slot.respond (.install r) =
      (.installed (.ok r), ⟨some r⟩, [.registryInstalled r.size]) := by
    simp [respond, install, ht.slot]
  unfold serve
  rw [hRespond]
  refine ⟨rfl, rfl, ht.history, List.forall_mem_nil _, ?_, ?_⟩
  · simp [ht.log]
  · intro j hj
    simpa [Function.update_of_ne hj] using ht.idle j

theorem Taken.serve (ht : t.Taken before winner r after) (hi : (t.callers i).unreported = []) :
    (t.serve i request rest).Taken before winner r
      (after ++ [⟨i, request, (t.slot.respond request).1⟩]) := by
  have hRespond : (t.slot.respond request).2 = (t.slot, []) ∧
      (Exchange.mk i request (t.slot.respond request).1).Finds r := by
    cases request <;> simp [respond, install, ht.slot, Exchange.Finds]
  have hCallers : ∀ j, ((Function.update t.callers i ⟨rest, []⟩) j).unreported =
      (t.callers j).unreported := by
    intro j
    by_cases hj : j = i
    · subst hj
      simp [hi]
    · simp [Function.update_of_ne hj]
  unfold Traffic.serve
  rw [hRespond.1]
  refine ⟨ht.slot, ?_, ht.before, ?_, ?_, ?_⟩
  · simp [ht.history]
  · intro x hx
    rcases List.mem_append.mp hx with hx | hx
    · exact ht.after x hx
    · rw [List.mem_singleton.mp hx]
      exact hRespond.2
  · rw [hCallers]
    exact ht.log
  · intro j hj
    rw [hCallers]
    exact ht.idle j hj

theorem Taken.report (ht : t.Taken before winner r after)
    (hw : (t.callers winner).unreported = event :: events) :
    (t.report winner todo event events).Taken before winner r after where
  slot := ht.slot
  history := ht.history
  before := ht.before
  after := ht.after
  log := by
    rw [← ht.log, hw]
    simp [Traffic.report]
  idle := by
    intro j hj
    simpa [Traffic.report, Function.update_of_ne hj] using ht.idle j hj

end Steps

def Phase (t : Traffic ι) : Prop :=
  t.Vacant ∨ ∃ before winner r after, t.Taken before winner r after

theorem Phase.advance {t : Traffic ι} (ht : t.Phase) (i : ι) : (t.advance i).Phase := by
  unfold Traffic.advance
  split
  · -- Only the winner has something to report.
    rename_i todo event events hi
    have hUnreported : (t.callers i).unreported = event :: events := by rw [hi]
    rcases ht with ht | ⟨before, winner, r, after, ht⟩
    · rw [ht.idle i] at hUnreported
      cases hUnreported
    · by_cases hw : i = winner
      · subst hw
        exact .inr ⟨before, i, r, after, ht.report hUnreported⟩
      · rw [ht.idle i hw] at hUnreported
        cases hUnreported
  · rename_i request rest hi
    have hUnreported : (t.callers i).unreported = [] := by rw [hi]
    rcases ht with ht | ⟨before, winner, r, after, ht⟩
    · cases request with
      | get => exact .inl ht.serve_get
      | install r => exact .inr ⟨_, i, r, _, ht.serve_install⟩
    · exact .inr ⟨before, winner, r, _, ht.serve hUnreported⟩
  · exact ht

theorem phase_run (programs : ι → List Request) (schedule : List ι) :
    ((start programs).run schedule).Phase := by
  induction schedule using List.reverseRecOn with
  | nil => exact .inl ⟨rfl, List.forall_mem_nil _, rfl, fun _ => rfl⟩
  | append_singleton schedule i ih =>
    rw [run, List.foldl_append]
    exact ih.advance i

theorem servedTo_advance (t : Traffic ι) (i j : ι) :
    (t.advance j).servedTo i ++ ((t.advance j).callers i).todo =
      t.servedTo i ++ (t.callers i).todo := by
  unfold advance
  by_cases hj : i = j
  · subst hj
    split
    all_goals
      rename_i hi
      simp [servedTo, report, serve, hi]
  · have hOther : ¬ j = i := fun h => hj h.symm
    split <;> simp [servedTo, report, serve, Function.update_of_ne hj, hOther]

theorem servedTo_run (programs : ι → List Request) (schedule : List ι) (i : ι) :
    ((start programs).run schedule).servedTo i ++
      (((start programs).run schedule).callers i).todo = programs i := by
  induction schedule using List.reverseRecOn with
  | nil => rfl
  | append_singleton schedule j ih =>
    rw [run, List.foldl_append]
    exact (servedTo_advance _ i j).trans ih

theorem length_log_respond (s : Slot) (request : Request) :
    (s.respond request).2.2.length ≤ 1 := by
  cases request with
  | get => exact Nat.zero_le 1
  | install r => cases h : s.installed <;> simp [respond, install, h]

theorem work_advance (t : Traffic ι) (i j : ι) :
    ((t.advance j).callers i).work ≤ (t.callers i).work - [j].count i := by
  by_cases hj : j = i
  · subst hj
    unfold advance
    split
    · rename_i hi
      simp only [report, hi, Caller.work, Function.update_self, List.count_singleton_self,
        List.length_cons]
      omega
    · rename_i request rest hi
      have hOne := length_log_respond t.slot request
      simp only [serve, hi, Caller.work, Function.update_self, List.count_singleton_self,
        List.length_cons, List.length_nil]
      omega
    · rename_i hi
      simp [hi, Caller.work]
  · have hOther : ¬ i = j := fun h => hj h.symm
    unfold advance
    split <;> simp [report, serve, Function.update_of_ne hOther, hj]

theorem work_run (programs : ι → List Request) (schedule : List ι) (i : ι) :
    (((start programs).run schedule).callers i).work ≤
      2 * (programs i).length - schedule.count i :=
  work_foldl (fun t i => (t.callers i).work) work_advance (start programs) schedule i

end Traffic

/-- In every interleaving of the callers' steps the slot is filled once, by the first request for an
installation to take effect, and it hands out that registry from then on. Every caller's requests
take effect in their order, and two steps for each suffice. -/
theorem slot_is_filled_once {ι : Type} [DecidableEq ι] (programs : ι → List Request)
    (schedule : List ι) :
    let t := (Traffic.start programs).run schedule
    t.FilledOnce ∧ (∀ i, t.servedTo i ++ (t.callers i).todo = programs i) ∧
      ∀ i, 2 * (programs i).length ≤ schedule.count i →
        t.servedTo i = programs i ∧ (t.callers i).unreported = [] := by
  intro t
  have hServed : ∀ i, t.servedTo i ++ (t.callers i).todo = programs i :=
    Traffic.servedTo_run programs schedule
  refine ⟨?_, hServed, ?_⟩
  · rcases Traffic.phase_run programs schedule with ht | ⟨before, winner, r, after, ht⟩
    · exact ht.filledOnce
    · exact ht.filledOnce
  · intro i hi
    have hWork : (t.callers i).work ≤ 2 * (programs i).length - schedule.count i :=
      Traffic.work_run programs schedule i
    have hDone : 2 * (t.callers i).todo.length + (t.callers i).unreported.length = 0 := by
      unfold Caller.work at hWork
      omega
    have hTodo : (t.callers i).todo = [] := List.eq_nil_of_length_eq_zero (by omega)
    have hUnreported : (t.callers i).unreported = [] := List.eq_nil_of_length_eq_zero (by omega)
    exact ⟨by rw [← hServed i, hTodo, List.append_nil], hUnreported⟩

-- The winner has not reported yet, and the other caller already finds its registry.
example :
    let small : Registry := ⟨{}⟩
    let large : Registry := ⟨(Builder.after .strict [.shape { tag := "Name" }]).tables⟩
    let programs : Bool → List Request
      | true => [.get, .install small, .get]
      | false => [.install large]
    let t := (Traffic.start programs).run [true, false, true, true]
    t.history.map (·.answer) = [.current none, .installed (.ok large),
      .installed (.error .alreadyInstalled), .current (some large)] ∧ t.log = [] := by
  decide

end Slot

end TreeSchema
