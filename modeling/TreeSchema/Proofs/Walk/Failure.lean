import TreeSchema.Proofs.Walk.Account
import TreeSchema.Proofs.Walk.Extension

/-!
# Errors stop a walk

To see which looks a visitor makes, let it keep a log. The log of a walk ends with the first error,
whether a look raised it or the walk found it between two looks, and the walk returns this error as it
is. So a recorder that gives up at some node has written down what the full recorder writes down up to
that node.
-/

namespace TreeSchema

set_option autoImplicit false

/-- The same visitor, with a log of its looks and of what it decides at each. -/
def Visitor.logged {σ : Type} (v : Visitor σ) : Visitor (σ × List (Look × Action)) where
  onNode place n state :=
    let (action, next) := v.onNode place n state.1
    (action, next, state.2 ++ [(.node place n, action)])
  onField place n key value state :=
    let (action, next) := v.onField place n key value state.1
    (action, next, state.2 ++ [(.field place n key value, action)])

section Logged

variable {σ : Type} {v : Visitor σ} {r : Registry} {place : Place} {n : Node} {key : String}
  {value : FieldValue Node} {state state' : σ} {action : Action}

theorem Visitor.logged_onNode (h : v.onNode place n state = (action, state'))
    (log : List (Look × Action)) :
    v.logged.onNode place n (state, log) = (action, state', log ++ [(.node place n, action)]) := by
  simp [logged, h]

theorem Visitor.logged_onField (h : v.onField place n key value state = (action, state'))
    (log : List (Look × Action)) :
    v.logged.onField place n key value (state, log) =
      (action, state', log ++ [(.field place n key value, action)]) := by
  simp [logged, h]

/-- Keeping a log does not change a walk, and the log has the looks of the account. -/
theorem Walk.run_logged (agenda : List Task) (state : σ) (opened : Array String)
    (log : List (Look × Action)) :
    let walk := run v r agenda state opened
    run v.logged r agenda (state, log) opened =
      ⟨walk.result,
       (walk.state, log ++ Happening.calls (relay (Task.account v r) agenda state).1),
       walk.opened⟩ := by
  fun_induction run v r agenda state opened generalizing log with
  | case1 => simp [Happening.calls, Happening.untilError]
  | case2 state opened place n rest e state' hn =>
    rw [run_node_fail v.logged r (v.logged_onNode hn log)]
    simp [relay_cons, Task.account, account_of_no_descent hn]
  | case3 state opened place n rest state' hn ih =>
    rw [run_node_skip v.logged r (v.logged_onNode hn log), ih]
    simp [relay_cons, Task.account, account_of_no_descent hn]
  | case4 state opened place n rest state' hn e hl =>
    rw [run_node_unknown v.logged r (v.logged_onNode hn log) hl]
    simp [relay_cons, Task.account, account_unknown hn hl]
  | case5 state opened place n rest state' hn s hl ih =>
    rw [run_node_open v.logged r (v.logged_onNode hn log) hl, ih]
    simp [relay_cons, Task.account, account_open hn hl]
  | case6 state opened place n s rest ih =>
    rw [run_fields_nil, ih]
    simp [relay_cons, Task.account]
  | case7 state opened place n s key keys rest hf =>
    rw [run_fields_missing v.logged r hf]
    simp [relay_cons, Task.account, fieldAccount_missing hf]
  | case8 state opened place n s key keys rest value hf e state' hField =>
    rw [run_fields_cons v.logged r hf, v.logged_onField hField]
    simp [relay_cons, Task.account, fieldAccount_of_no_descent hf hField]
  | case9 state opened place n s key keys rest value hf state' hField ih =>
    rw [run_fields_cons v.logged r hf, v.logged_onField hField]
    simp [relay_cons, Task.account, fieldAccount_of_no_descent hf hField, ih]
  | case10 state opened place n s key keys rest value hf state' hField ih =>
    rw [run_fields_cons v.logged r hf, v.logged_onField hField]
    simp [relay_cons, relay_append, relay_childTasks, Task.account, fieldAccount_enter hf hField,
      ih]

theorem Walk.tree_logged (v : Visitor σ) (r : Registry) (root : Node) (state : σ) :
    let walk := tree v r root state
    tree v.logged r root (state, []) =
      ⟨walk.result, (walk.state, Happening.calls (account v r .root root state).1),
       walk.opened⟩ := by
  have hRun := run_logged (v := v) (r := r) [.node .root root] state #[] []
  simpa only [tree, relay_cons, relay_nil, Task.account, List.append_nil, List.nil_append]
    using hRun

end Logged

def Look.visits (looks : List Look) : Nat :=
  (looks.filterMap visit?).length

namespace Look

@[simp] theorem visits_nil : visits [] = 0 := rfl

@[simp] theorem visits_node (place : Place) (n : Node) (looks : List Look) :
    visits (.node place n :: looks) = visits looks + 1 := rfl

@[simp] theorem visits_field (place : Place) (n : Node) (key : String) (value : FieldValue Node)
    (looks : List Look) : visits (.field place n key value :: looks) = visits looks := rfl

@[simp] theorem visits_append (looks more : List Look) :
    visits (looks ++ more) = visits looks + visits more := by
  simp [visits]

end Look

/-- Writes down every look, and gives up at the `k`-th node with an error of its own. -/
def recorderUpTo (k : Nat) (e : SchemaError) : Visitor (Array Look) where
  onNode place n looks :=
    let looks := looks.push (.node place n)
    (if Look.visits looks.toList = k then .fail e else .descend, looks)
  onField place owner name value looks := (.descend, looks.push (.field place owner name value))

section GivingUp

variable {r : Registry} {k : Nat} {e : SchemaError}

theorem recorderUpTo_fails {place : Place} {n : Node} {looks : Array Look}
    (h : Look.visits looks.toList + 1 = k) :
    (recorderUpTo k e).onNode place n looks = (.fail e, looks.push (.node place n)) := by
  simp [recorderUpTo, h]

theorem recorderUpTo_descends {place : Place} {n : Node} {looks : Array Look}
    (h : Look.visits looks.toList + 1 ≠ k) :
    (recorderUpTo k e).onNode place n looks = (.descend, looks.push (.node place n)) := by
  simp [recorderUpTo, h]

/-- How a walk with the recorder that gives up compares with the full one. -/
def Outcome.GivesUp (k : Nat) (e : SchemaError) (cut full : Outcome (Array Look)) : Prop :=
  (Look.visits full.state.toList < k ∧ cut = full) ∨
    ∃ earlier place n later, full.state.toList = earlier ++ .node place n :: later ∧
      Look.visits earlier + 1 = k ∧ cut.state.toList = earlier ++ [.node place n] ∧
      cut.result = .error e

theorem Walk.run_recorderUpTo (agenda : List Task) (looks : Array Look) (opened : Array String)
    (hk : Look.visits looks.toList < k) :
    (run (recorderUpTo k e) r agenda looks opened).GivesUp k e
      (run recorder r agenda looks opened) := by
  fun_induction run recorder r agenda looks opened with
  | case1 =>
    rw [run_nil]
    exact .inl ⟨hk, rfl⟩
  | case2 looks opened place n rest e' looks' hn => cases hn
  | case3 looks opened place n rest looks' hn => cases hn
  | case4 looks opened place n rest looks' hn e' hl =>
    cases hn
    by_cases hLast : Look.visits looks.toList + 1 = k
    · rw [run_node_fail _ r (recorderUpTo_fails hLast)]
      exact .inr ⟨looks.toList, place, n, [], by simp, hLast, by simp, rfl⟩
    · rw [run_node_unknown _ r (recorderUpTo_descends hLast) hl]
      refine .inl ⟨?_, rfl⟩
      simp only [Array.toList_push, Look.visits_append, Look.visits_node, Look.visits_nil]
      omega
  | case5 looks opened place n rest looks' hn s hl ih =>
    cases hn
    by_cases hLast : Look.visits looks.toList + 1 = k
    · rw [run_node_fail _ r (recorderUpTo_fails hLast)]
      obtain ⟨later, hLater⟩ := run_writes recorder_writes r (.fields place n s s.visitorKeys :: rest)
        (looks.push (.node place n)) (opened.push s.tag)
      exact .inr ⟨looks.toList, place, n, later, by simp [← hLater], hLast, by simp, rfl⟩
    · rw [run_node_open _ r (recorderUpTo_descends hLast) hl]
      apply ih
      simp only [Array.toList_push, Look.visits_append, Look.visits_node, Look.visits_nil]
      omega
  | case6 looks opened place n s rest ih =>
    rw [run_fields_nil]
    exact ih hk
  | case7 looks opened place n s key keys rest hf =>
    rw [run_fields_missing _ r hf]
    exact .inl ⟨hk, rfl⟩
  | case8 looks opened place n s key keys rest value hf e' looks' hField => cases hField
  | case9 looks opened place n s key keys rest value hf looks' hField => cases hField
  | case10 looks opened place n s key keys rest value hf looks' hField ih =>
    cases hField
    rw [run_fields_cons _ r hf]
    exact ih (by simpa using hk)

end GivingUp

/-- Whatever a visitor decides, its looks are those that happen up to the first error, and this error
is what the walk returns; without an error all of them are made and the walk succeeds. In particular
a look that fails is the last one. A recorder that gives up at the `k`-th node has written down the
full record up to that node, if there are so many, and otherwise all of it. -/
theorem errors_stop_the_walk {σ : Type} (v : Visitor σ) (r : Registry) (root : Node) (state : σ) :
    let walk := Walk.tree v r root state
    let logged := Walk.tree v.logged r root (state, [])
    let log := logged.state.2
    let happenings := (Walk.account v r .root root state).1
    logged = ⟨walk.result, (walk.state, log), walk.opened⟩ ∧
    ((∀ h ∈ happenings, h.error? = none) →
      walk.result = .ok () ∧ log = happenings.filterMap Happening.call?) ∧
    (∀ earlier h later e, happenings = earlier ++ h :: later →
      (∀ x ∈ earlier, x.error? = none) → h.error? = some e →
        walk.result = .error e ∧ log = (earlier ++ [h]).filterMap Happening.call?) ∧
    (∀ earlier look e later, log = earlier ++ (look, .fail e) :: later →
      later = [] ∧ walk.result = .error e) ∧
    ∀ k e, 1 ≤ k →
      let full := Walk.tree recorder r root #[]
      let cut := Walk.tree (recorderUpTo k e) r root #[]
      (Look.visits full.state.toList < k → cut = full) ∧
      (k ≤ Look.visits full.state.toList → ∃ earlier place n later,
        full.state.toList = earlier ++ .node place n :: later ∧ Look.visits earlier + 1 = k ∧
        cut.state.toList = earlier ++ [.node place n] ∧ cut.result = .error e) := by
  intro walk logged log happenings
  have hLogged : logged = ⟨walk.result, (walk.state, Happening.calls happenings), walk.opened⟩ :=
    Walk.tree_logged v r root state
  have hLog : log = Happening.calls happenings := congrArg (·.state.2) hLogged
  have hResult : walk.result = Happening.ending happenings :=
    (Walk.tree_follows_account v r root state).1
  refine ⟨?_, ?_, ?_, ?_, ?_⟩
  · rw [hLog]
    exact hLogged
  · intro hQuiet
    rw [hResult, hLog, Happening.calls, (Happening.of_quiet hQuiet).2]
    exact ⟨(Happening.of_quiet hQuiet).1, rfl⟩
  · intro earlier h later e hSplit hQuiet he
    rw [hResult, hLog, Happening.calls, hSplit, (Happening.of_first_error hQuiet he later).2]
    exact ⟨(Happening.of_first_error hQuiet he later).1, rfl⟩
  · intro earlier look e later hSplit
    rw [hResult]
    exact Happening.last_of_fail (hLog.symm.trans hSplit)
  · intro k e hk full cut
    have hCut : cut.GivesUp k e full := Walk.run_recorderUpTo _ _ _ hk
    constructor
    · intro hFew
      rcases hCut with ⟨_, hSame⟩ | ⟨earlier, place, n, later, hSplit, hCount, _⟩
      · exact hSame
      · rw [hSplit, Look.visits_append, Look.visits_node] at hFew
        omega
    · intro hMany
      rcases hCut with ⟨hFew, _⟩ | hAt
      · omega
      · exact hAt

end TreeSchema
