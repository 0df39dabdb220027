import TreeSchema.Proofs.Walk.Itinerary

/-!
# What happens on a walk

An account tells what would happen if nothing could stop a walk: every look of the visitor with what
it decides, and every fault that the walk itself finds. It is a recursion over the tree that hands
the visitor's state on; past an error it goes on with what comes next. A walk makes exactly the looks
of its account up to the first error, and this error is its result.
-/

namespace TreeSchema

set_option autoImplicit false

section Relay

variable {α β γ σ : Type} (f : α → σ → List β × σ)

/-- Goes through a list and hands the state on from each element to the next. -/
def relay : List α → σ → List β × σ
  | [], state => ([], state)
  | x :: xs, state =>
    let first := f x state
    let rest := relay xs first.2
    (first.1 ++ rest.1, rest.2)

@[simp] theorem relay_nil (state : σ) : relay f [] state = ([], state) := rfl

theorem relay_cons (x : α) (xs : List α) (state : σ) :
    relay f (x :: xs) state =
      ((f x state).1 ++ (relay f xs (f x state).2).1, (relay f xs (f x state).2).2) := rfl

theorem relay_append (xs ys : List α) (state : σ) :
    relay f (xs ++ ys) state =
      ((relay f xs state).1 ++ (relay f ys (relay f xs state).2).1,
        (relay f ys (relay f xs state).2).2) := by
  induction xs generalizing state with
  | nil => rfl
  | cons x xs ih => simp only [List.cons_append, relay_cons, ih, List.append_assoc]

theorem relay_map (g : γ → α) (xs : List γ) (state : σ) :
    relay f (xs.map g) state = relay (fun x => f (g x)) xs state := by
  induction xs generalizing state with
  | nil => rfl
  | cons x xs ih => simp only [List.map_cons, relay_cons, ih]

theorem relay_attach (xs : List α) (state : σ) :
    relay (fun x : {x // x ∈ xs} => f x.1) xs.attach state = relay f xs state := by
  rw [← relay_map f Subtype.val, List.attach_map_subtype_val]

variable {f}

theorem filterMap_relay {p : β → Option γ} {g : α → List γ} {xs : List α}
    (h : ∀ x ∈ xs, ∀ state, (f x state).1.filterMap p = g x) (state : σ) :
    (relay f xs state).1.filterMap p = xs.flatMap g := by
  induction xs generalizing state with
  | nil => rfl
  | cons x xs ih =>
    rw [relay_cons, List.filterMap_append, List.flatMap_cons, h x List.mem_cons_self,
      ih fun y hy => h y (List.mem_cons_of_mem x hy)]

theorem exists_mem_relay {P : β → Prop} {Q : α → Prop} {xs : List α}
    (h : ∀ x ∈ xs, ∀ state, (∃ b ∈ (f x state).1, P b) ↔ Q x) (state : σ) :
    (∃ b ∈ (relay f xs state).1, P b) ↔ ∃ x ∈ xs, Q x := by
  induction xs generalizing state with
  | nil => simp
  | cons x xs ih =>
    have hFirst := h x List.mem_cons_self state
    have hRest := ih (fun y hy => h y (List.mem_cons_of_mem x hy)) (f x state).2
    simp only [relay_cons, List.mem_append, or_and_right, exists_or, hFirst, hRest,
      List.exists_mem_cons_iff]

end Relay

/-- A look of a visitor with what it decides, or a fault that a walk finds on its own. -/
inductive Happening where
  | call (look : Look) (action : Action)
  | fault (error : SchemaError)

namespace Happening

def error? : Happening → Option SchemaError
  | .call _ (.fail e) => some e
  | .call _ .descend | .call _ .skip => none
  | .fault e => some e

def call? : Happening → Option (Look × Action)
  | .call l action => some (l, action)
  | .fault _ => none

/-- Puts a happening before what follows it. -/
def before {σ : Type} (h : Happening) (rest : List Happening × σ) : List Happening × σ :=
  (h :: rest.1, rest.2)

@[simp] theorem before_fst {σ : Type} (h : Happening) (rest : List Happening × σ) :
    (h.before rest).1 = h :: rest.1 := rfl

@[simp] theorem before_snd {σ : Type} (h : Happening) (rest : List Happening × σ) :
    (h.before rest).2 = rest.2 := rfl

/-- What happens up to the first error, which is included. -/
def untilError : List Happening → List Happening
  | [] => []
  | h :: hs =>
    match h.error? with
    | some _ => [h]
    | none => h :: untilError hs

def ending (hs : List Happening) : Except SchemaError Unit :=
  match hs.findSome? error? with
  | some e => .error e
  | none => .ok ()

/-- The looks that are made before an error puts an end to it. -/
def calls (hs : List Happening) : List (Look × Action) :=
  (untilError hs).filterMap call?

variable {h : Happening} {hs : List Happening} {e : SchemaError}

theorem ending_of_error (he : h.error? = some e) : ending (h :: hs) = .error e := by
  simp [ending, he]

theorem ending_of_quiet (hq : h.error? = none) : ending (h :: hs) = ending hs := by
  simp [ending, hq]

theorem untilError_of_error (he : h.error? = some e) : untilError (h :: hs) = [h] := by
  simp [untilError, he]

theorem untilError_of_quiet (hq : h.error? = none) :
    untilError (h :: hs) = h :: untilError hs := by
  simp [untilError, hq]

theorem untilError_prefix (hs : List Happening) : untilError hs <+: hs := by
  induction hs with
  | nil => exact List.prefix_refl _
  | cons h hs ih =>
    cases he : h.error? with
    | some e =>
      rw [untilError_of_error he]
      exact ⟨hs, rfl⟩
    | none =>
      rw [untilError_of_quiet he]
      exact (List.prefix_cons_inj h).mpr ih

theorem quiet_append {earlier : List Happening} (hq : ∀ x ∈ earlier, x.error? = none)
    (hs : List Happening) :
    ending (earlier ++ hs) = ending hs ∧ untilError (earlier ++ hs) = earlier ++ untilError hs := by
  induction earlier with
  | nil => exact ⟨rfl, rfl⟩
  | cons x earlier ih =>
    have hx := hq x List.mem_cons_self
    obtain ⟨hEnding, hUntil⟩ := ih fun y hy => hq y (List.mem_cons_of_mem x hy)
    rw [List.cons_append, ending_of_quiet hx, untilError_of_quiet hx, hEnding, hUntil]
    exact ⟨rfl, rfl⟩

theorem of_quiet (hq : ∀ x ∈ hs, x.error? = none) : ending hs = .ok () ∧ untilError hs = hs := by
  have hNil := quiet_append hq []
  simpa [ending, untilError] using hNil

theorem of_first_error {earlier : List Happening} (hq : ∀ x ∈ earlier, x.error? = none)
    (he : h.error? = some e) (later : List Happening) :
    ending (earlier ++ h :: later) = .error e ∧
      untilError (earlier ++ h :: later) = earlier ++ [h] := by
  obtain ⟨hEnding, hUntil⟩ := quiet_append hq (h :: later)
  rw [hEnding, hUntil, ending_of_error he, untilError_of_error he]
  exact ⟨rfl, rfl⟩

/-- Either nothing is amiss, or there is a first error. -/
theorem quiet_or_first_error (hs : List Happening) :
    (∀ x ∈ hs, x.error? = none) ∨ ∃ earlier h later e, hs = earlier ++ h :: later ∧
      (∀ x ∈ earlier, x.error? = none) ∧ h.error? = some e := by
  cases hFirst : hs.findSome? error? with
  | none => exact .inl (List.findSome?_eq_none_iff.mp hFirst)
  | some e =>
    obtain ⟨earlier, h, later, hSplit, he, hq⟩ := List.findSome?_eq_some_iff.mp hFirst
    exact .inr ⟨earlier, h, later, e, hSplit, hq, he⟩

theorem ending_eq_ok_iff (hs : List Happening) :
    ending hs = .ok () ↔ ∀ x ∈ hs, x.error? = none := by
  constructor
  · intro hOk
    rcases quiet_or_first_error hs with hq | ⟨earlier, h, later, e, rfl, hq, he⟩
    · exact hq
    · rw [(of_first_error hq he later).1] at hOk
      cases hOk
  · exact fun hq => (of_quiet hq).1

theorem exists_error_of_ending (he : ending hs = .error e) : ∃ h ∈ hs, h.error? = some e := by
  rcases quiet_or_first_error hs with hq | ⟨earlier, h, later, e', rfl, hq, he'⟩
  · rw [(of_quiet hq).1] at he
    cases he
  · rw [(of_first_error hq he' later).1] at he
    cases he
    exact ⟨h, by simp, he'⟩

@[simp] theorem ending_fault : ending (.fault e :: hs) = .error e := rfl

@[simp] theorem ending_fail (l : Look) : ending (.call l (.fail e) :: hs) = .error e := rfl

@[simp] theorem ending_descend (l : Look) : ending (.call l .descend :: hs) = ending hs := rfl

@[simp] theorem ending_skip (l : Look) : ending (.call l .skip :: hs) = ending hs := rfl

@[simp] theorem calls_fault : calls (.fault e :: hs) = [] := rfl

@[simp] theorem calls_fail (l : Look) : calls (.call l (.fail e) :: hs) = [(l, .fail e)] := rfl

@[simp] theorem calls_descend (l : Look) :
    calls (.call l .descend :: hs) = (l, .descend) :: calls hs := rfl

@[simp] theorem calls_skip (l : Look) :
    calls (.call l .skip :: hs) = (l, .skip) :: calls hs := rfl

/-- A look that fails is the last one, and its error is the result. -/
theorem last_of_fail {earlier later : List (Look × Action)} {l : Look}
    (hc : calls hs = earlier ++ (l, .fail e) :: later) : later = [] ∧ ending hs = .error e := by
  induction hs generalizing earlier with
  | nil => simp [calls, untilError] at hc
  | cons h hs ih =>
    cases h with
    | fault e' => simp at hc
    | call l' action =>
      cases action with
      | fail e' =>
        rw [calls_fail, List.singleton_eq_append_iff] at hc
        rcases hc with ⟨rfl, hc⟩ | ⟨_, hc⟩
        · cases hc
          exact ⟨rfl, rfl⟩
        · cases hc
      | descend =>
        rw [calls_descend, List.cons_eq_append_iff] at hc
        rcases hc with ⟨rfl, hc⟩ | ⟨earlier, rfl, hc⟩
        · cases hc
        · exact ih hc
      | skip =>
        rw [calls_skip, List.cons_eq_append_iff] at hc
        rcases hc with ⟨rfl, hc⟩ | ⟨earlier, rfl, hc⟩
        · cases hc
        · exact ih hc

end Happening

namespace Walk

variable {σ : Type} (v : Visitor σ) (r : Registry)

/-- What happens in the subtree of the node `n` that stands at `place`, and the state of the visitor
after it. -/
def account (place : Place) (n : Node) (state : σ) : List Happening × σ :=
  match v.onNode place n state with
  | (.descend, state) =>
    match r.lookup n.tag with
    | .error e => ([.call (.node place n) .descend, .fault e], state)
    | .ok s =>
      Happening.before (.call (.node place n) .descend) <| relay (fun key state =>
        match _held : n.field? key with
        | none => ([.fault (.unknownFieldKey s.tag key .visitor)], state)
        | some value =>
          match v.onField place n key value state with
          | (.descend, state) =>
            Happening.before (.call (.field place n key value) .descend) <|
              relay (fun (c : {c // c ∈ value.children.zipIdx}) =>
                account (place.child key c.1.2) c.1.1) value.children.zipIdx.attach state
          | (action, state) => ([.call (.field place n key value) action], state))
        s.visitorKeys state
  | (action, state) => ([.call (.node place n) action], state)
termination_by n
decreasing_by exact Node.sizeOf_lt_of_field? _held (List.fst_mem_of_mem_zipIdx c.2)

def fieldAccount (place : Place) (n : Node) (s : NodeSchema) (key : String) (state : σ) :
    List Happening × σ :=
  match n.field? key with
  | none => ([.fault (.unknownFieldKey s.tag key .visitor)], state)
  | some value =>
    match v.onField place n key value state with
    | (.descend, state) =>
      Happening.before (.call (.field place n key value) .descend) <|
        relay (fun c => account v r (place.child key c.2) c.1) value.children.zipIdx state
    | (action, state) => ([.call (.field place n key value) action], state)

variable {v r} {place : Place} {n : Node} {s : NodeSchema} {key : String} {value : FieldValue Node}
  {state state' : σ} {action : Action} {e : SchemaError}

theorem account_of_no_descent (h : v.onNode place n state = (action, state'))
    (ha : action ≠ .descend) :
    account v r place n state = ([.call (.node place n) action], state') := by
  rw [account]
  simp only [h]

theorem account_unknown (h : v.onNode place n state = (.descend, state'))
    (hl : r.lookup n.tag = .error e) :
    account v r place n state = ([.call (.node place n) .descend, .fault e], state') := by
  rw [account]
  simp only [h, hl]

theorem account_open (h : v.onNode place n state = (.descend, state'))
    (hl : r.lookup n.tag = .ok s) :
    account v r place n state =
      Happening.before (.call (.node place n) .descend)
        (relay (fieldAccount v r place n s) s.visitorKeys state') := by
  rw [account]
  simp only [h, hl]
  congr 2
  funext key state
  unfold fieldAccount
  split
  · rename_i hf
    rw [hf]
  · rename_i value hf
    rw [hf]
    congr 1
    funext state
    rw [relay_attach fun c : Node × Nat => account v r (place.child key c.2) c.1]

theorem fieldAccount_missing (hf : n.field? key = none) :
    fieldAccount v r place n s key state =
      ([.fault (.unknownFieldKey s.tag key .visitor)], state) := by
  simp only [fieldAccount, hf]

theorem fieldAccount_of_no_descent (hf : n.field? key = some value)
    (h : v.onField place n key value state = (action, state')) (ha : action ≠ .descend) :
    fieldAccount v r place n s key state = ([.call (.field place n key value) action], state') := by
  simp only [fieldAccount, hf, h]

theorem fieldAccount_enter (hf : n.field? key = some value)
    (h : v.onField place n key value state = (.descend, state')) :
    fieldAccount v r place n s key state =
      Happening.before (.call (.field place n key value) .descend)
        (relay (fun c => account v r (place.child key c.2) c.1) value.children.zipIdx state') := by
  simp only [fieldAccount, hf, h]

variable (v r)

def Task.account : Task → σ → List Happening × σ
  | .node place n => Walk.account v r place n
  | .fields place n s keys => relay (fieldAccount v r place n s) keys

theorem relay_childTasks (place : Place) (key : String) (value : FieldValue Node) (state : σ) :
    relay (Task.account v r) (childTasks place key value) state =
      relay (fun c => Walk.account v r (place.child key c.2) c.1) value.children.zipIdx state := by
  rw [childTasks, relay_map]
  rfl

variable {v r}

/-- A walk makes the looks of its account up to the first error, and ends with this error. -/
theorem run_follows_account (agenda : List Task) (state : σ) (opened : Array String) :
    let hs := (relay (Task.account v r) agenda state).1
    (run v r agenda state opened).result = Happening.ending hs ∧
      (run v r agenda state opened).state =
        (Happening.calls hs).foldl (fun state c => v.note c.1 state) state := by
  fun_induction run v r agenda state opened with
  | case1 => exact ⟨rfl, rfl⟩
  | case2 state opened place n rest e state' hn =>
    simp [relay_cons, Task.account, account_of_no_descent hn, Visitor.note, hn]
  | case3 state opened place n rest state' hn ih =>
    simpa [relay_cons, Task.account, account_of_no_descent hn, Visitor.note, hn] using ih
  | case4 state opened place n rest state' hn e hl =>
    simp [relay_cons, Task.account, account_unknown hn hl, Visitor.note, hn]
  | case5 state opened place n rest state' hn s hl ih =>
    simpa [relay_cons, Task.account, account_open hn hl, Visitor.note, hn] using ih
  | case6 state opened place n s rest ih => simpa [relay_cons, Task.account] using ih
  | case7 state opened place n s key keys rest hf =>
    simp [relay_cons, Task.account, fieldAccount_missing hf]
  | case8 state opened place n s key keys rest value hf e state' hField =>
    simp [relay_cons, Task.account, fieldAccount_of_no_descent hf hField, Visitor.note, hField]
  | case9 state opened place n s key keys rest value hf state' hField ih =>
    simpa [relay_cons, Task.account, fieldAccount_of_no_descent hf hField, Visitor.note, hField]
      using ih
  | case10 state opened place n s key keys rest value hf state' hField ih =>
    simpa [relay_cons, relay_append, relay_childTasks, Task.account, fieldAccount_enter hf hField,
      Visitor.note, hField] using ih

theorem tree_follows_account (v : Visitor σ) (r : Registry) (root : Node) (state : σ) :
    let hs := (account v r .root root state).1
    (tree v r root state).result = Happening.ending hs ∧
      (tree v r root state).state =
        (Happening.calls hs).foldl (fun state c => v.note c.1 state) state := by
  have hRun := run_follows_account (v := v) (r := r) [.node .root root] state #[]
  simpa only [tree, relay_cons, relay_nil, Task.account, List.append_nil] using hRun

end Walk

end TreeSchema
