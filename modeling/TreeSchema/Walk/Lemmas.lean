import TreeSchema.Walk.Basic

/-!
# How an agenda is worked off

One equation for each kind of task and each answer of the visitor: what a task becomes, or what the
walk ends with.
-/

namespace TreeSchema

set_option autoImplicit false

namespace Walk

variable {σ : Type} (v : Visitor σ) (r : Registry)

@[simp] theorem run_nil (state : σ) (opened : Array String) :
    run v r [] state opened = ⟨.ok (), state, opened⟩ := by
  rw [run]

theorem run_node_fail {place : Place} {n : Node} {rest : List Task} {state state' : σ}
    {opened : Array String} {e : SchemaError}
    (h : v.onNode place n state = (.fail e, state')) :
    run v r (.node place n :: rest) state opened = ⟨.error e, state', opened⟩ := by
  rw [run]
  simp [h]

theorem run_node_skip {place : Place} {n : Node} {rest : List Task} {state state' : σ}
    {opened : Array String} (h : v.onNode place n state = (.skip, state')) :
    run v r (.node place n :: rest) state opened = run v r rest state' opened := by
  rw [run]
  simp [h]

theorem run_node_unknown {place : Place} {n : Node} {rest : List Task} {state state' : σ}
    {opened : Array String} {e : SchemaError}
    (h : v.onNode place n state = (.descend, state')) (hn : r.lookup n.tag = .error e) :
    run v r (.node place n :: rest) state opened = ⟨.error e, state', opened⟩ := by
  rw [run]
  simp only [h]
  split
  · rename_i e' he
    rw [hn] at he
    cases he
    rfl
  · rename_i s hs
    rw [hn] at hs
    cases hs

theorem run_node_open {place : Place} {n : Node} {rest : List Task} {state state' : σ}
    {opened : Array String} {s : NodeSchema}
    (h : v.onNode place n state = (.descend, state')) (hn : r.lookup n.tag = .ok s) :
    run v r (.node place n :: rest) state opened =
      run v r (.fields place n s s.visitorKeys :: rest) state' (opened.push s.tag) := by
  rw [run]
  simp only [h]
  split
  · rename_i e he
    rw [hn] at he
    cases he
  · rename_i s' hs
    rw [hn] at hs
    cases hs
    rfl

@[simp] theorem run_fields_nil (place : Place) (n : Node) (s : NodeSchema) (rest : List Task)
    (state : σ) (opened : Array String) :
    run v r (.fields place n s [] :: rest) state opened = run v r rest state opened := by
  rw [run]

theorem run_fields_missing {place : Place} {n : Node} {s : NodeSchema} {key : String}
    {keys : List String} {rest : List Task} {state : σ} {opened : Array String}
    (hf : n.field? key = none) :
    run v r (.fields place n s (key :: keys) :: rest) state opened =
      ⟨.error (.unknownFieldKey s.tag key .visitor), state, opened⟩ := by
  rw [run]
  split
  · rfl
  · rename_i value hv
    rw [hf] at hv
    cases hv

theorem run_fields_cons {place : Place} {n : Node} {s : NodeSchema} {key : String}
    {keys : List String} {rest : List Task} {state : σ} {opened : Array String}
    {value : FieldValue Node} (hf : n.field? key = some value) :
    run v r (.fields place n s (key :: keys) :: rest) state opened =
      match v.onField place n key value state with
      | (.fail e, state') => ⟨.error e, state', opened⟩
      | (.skip, state') => run v r (.fields place n s keys :: rest) state' opened
      | (.descend, state') =>
        run v r (childTasks place key value ++ .fields place n s keys :: rest) state' opened := by
  rw [run]
  split
  · rename_i hv
    rw [hf] at hv
    cases hv
  · rename_i value' hv
    rw [hf] at hv
    cases hv
    rfl

end Walk

end TreeSchema
