import TreeSchema.Proofs.Registry.References
import TreeSchema.Walk.Lemmas
import TreeSchema.Walk.Recorder

/-!
# The itinerary of a walk

An itinerary lists all that a walk would come by if it went on past every failure: the looks of the
visitor, and a stop wherever a tag is not registered or a visitor key is not answered. It is a plain
recursion over the tree, with no agenda and no state. A visitor that never steps over anything sees
the looks before the first stop, and its walk ends with what that stop reports.
-/

namespace TreeSchema

set_option autoImplicit false

inductive Moment where
  | look (look : Look)
  | stop (error : SchemaError)

namespace Moment

/-- The looks before the first stop. -/
def looks : List Moment → List Look
  | [] => []
  | .look l :: ms => l :: looks ms
  | .stop _ :: _ => []

def ending : List Moment → Except SchemaError Unit
  | [] => .ok ()
  | .look _ :: ms => ending ms
  | .stop e :: _ => .error e

@[simp] theorem looks_nil : looks [] = [] := rfl

@[simp] theorem looks_look (l : Look) (ms : List Moment) : looks (.look l :: ms) = l :: looks ms :=
  rfl

@[simp] theorem looks_stop (e : SchemaError) (ms : List Moment) : looks (.stop e :: ms) = [] := rfl

@[simp] theorem ending_nil : ending [] = .ok () := rfl

@[simp] theorem ending_look (l : Look) (ms : List Moment) : ending (.look l :: ms) = ending ms :=
  rfl

@[simp] theorem ending_stop (e : SchemaError) (ms : List Moment) :
    ending (.stop e :: ms) = .error e := rfl

theorem ending_eq_ok_iff (ms : List Moment) : ending ms = .ok () ↔ ∀ e, .stop e ∉ ms := by
  induction ms with
  | nil => simp
  | cons m ms ih =>
    cases m with
    | look l => simpa using ih
    | stop e =>
      simp only [ending_stop, reduceCtorEq, false_iff]
      exact fun h => h e List.mem_cons_self

theorem eq_map_looks {ms : List Moment} (h : ending ms = .ok ()) : ms = (looks ms).map .look := by
  induction ms with
  | nil => rfl
  | cons m ms ih =>
    cases m with
    | look l => simpa using ih h
    | stop e => cases h

theorem eq_map_looks_append {ms : List Moment} {e : SchemaError} (h : ending ms = .error e) :
    ∃ rest, ms = (looks ms).map .look ++ .stop e :: rest := by
  induction ms with
  | nil => cases h
  | cons m ms ih =>
    cases m with
    | look l =>
      obtain ⟨rest, hRest⟩ := ih h
      exact ⟨rest, by simpa using hRest⟩
    | stop e' =>
      cases h
      exact ⟨ms, rfl⟩

end Moment

theorem flatMap_attach_val {α β : Type} (xs : List α) (g : α → List β) :
    (xs.attach.flatMap fun x => g x.1) = xs.flatMap g := by
  rw [← List.flatMap_map, List.attach_map_subtype_val]

namespace Walk

/-- What a walk comes by in the subtree of the node `n` that stands at `place`. -/
def itinerary (r : Registry) (place : Place) (n : Node) : List Moment :=
  .look (.node place n) ::
    match r.lookup n.tag with
    | .error _ => [.stop (.unknownNodeTag n.tag)]
    | .ok s => s.visitorKeys.flatMap fun key =>
      match _held : n.field? key with
      | none => [.stop (.unknownFieldKey s.tag key .visitor)]
      | some value =>
        .look (.field place n key value) :: value.children.zipIdx.attach.flatMap fun c =>
          itinerary r (place.child key c.1.2) c.1.1
termination_by n
decreasing_by exact Node.sizeOf_lt_of_field? _held (List.fst_mem_of_mem_zipIdx c.2)

def fieldItinerary (r : Registry) (place : Place) (n : Node) (s : NodeSchema) (key : String) :
    List Moment :=
  match n.field? key with
  | none => [.stop (.unknownFieldKey s.tag key .visitor)]
  | some value =>
    .look (.field place n key value) :: value.children.zipIdx.flatMap fun c =>
      itinerary r (place.child key c.2) c.1

theorem itinerary_unknown {r : Registry} {n : Node} {e : SchemaError}
    (h : r.lookup n.tag = .error e) (place : Place) :
    itinerary r place n = [.look (.node place n), .stop e] := by
  rw [itinerary, h, r.lookup_eq_error h]

theorem itinerary_open {r : Registry} {n : Node} {s : NodeSchema} (h : r.lookup n.tag = .ok s)
    (place : Place) :
    itinerary r place n =
      .look (.node place n) :: s.visitorKeys.flatMap (fieldItinerary r place n s) := by
  rw [itinerary]
  simp only [h]
  congr 2
  funext key
  unfold fieldItinerary
  split
  · rename_i hf
    rw [hf]
  · rename_i value hf
    rw [hf]
    congr 1
    exact flatMap_attach_val value.children.zipIdx fun c => itinerary r (place.child key c.2) c.1

def Task.itinerary (r : Registry) : Task → List Moment
  | .node place n => Walk.itinerary r place n
  | .fields place n s keys => keys.flatMap (fieldItinerary r place n s)

@[simp] theorem childTasks_itinerary (r : Registry) (place : Place) (key : String)
    (value : FieldValue Node) :
    (childTasks place key value).flatMap (Task.itinerary r) =
      value.children.zipIdx.flatMap fun c => Walk.itinerary r (place.child key c.2) c.1 := by
  simp [childTasks, List.flatMap_map, Task.itinerary]

end Walk

namespace Visitor

variable {σ : Type}

def note (v : Visitor σ) : Look → σ → σ
  | .node place n, state => (v.onNode place n state).2
  | .field place n key value, state => (v.onField place n key value state).2

/-- A visitor that steps over nothing. It may stop a walk, but only at a node of an unregistered
tag, and with the complaint that the walk itself would have made there. -/
structure Thorough (v : Visitor σ) (r : Registry) : Prop where
  node : ∀ place n state, (v.onNode place n state).1 = .descend ∨
    ∃ e, r.lookup n.tag = .error e ∧ (v.onNode place n state).1 = .fail e
  field : ∀ place n key value state, (v.onField place n key value state).1 = .descend

namespace Thorough

variable {v : Visitor σ} {r : Registry} {place : Place} {n : Node} {state state' : σ}

theorem lookup_of_fail (hv : v.Thorough r) {e : SchemaError}
    (h : v.onNode place n state = (.fail e, state')) : r.lookup n.tag = .error e := by
  rcases hv.node place n state with hGo | ⟨e', hl, hStop⟩
  · rw [h] at hGo
    cases hGo
  · rw [h] at hStop
    cases hStop
    exact hl

theorem onNode_ne_skip (hv : v.Thorough r) : v.onNode place n state ≠ (.skip, state') := by
  intro h
  rcases hv.node place n state with hGo | ⟨e, _, hStop⟩
  · rw [h] at hGo
    cases hGo
  · rw [h] at hStop
    cases hStop

theorem action_of_onField (hv : v.Thorough r) {key : String} {value : FieldValue Node}
    {action : Action} (h : v.onField place n key value state = (action, state')) :
    action = .descend := by
  have hGo := hv.field place n key value state
  rwa [h] at hGo

end Thorough

end Visitor

theorem recorder_note (l : Look) (looks : Array Look) : recorder.note l looks = looks.push l := by
  cases l <;> rfl

theorem recorder_thorough (r : Registry) : recorder.Thorough r where
  node _ _ _ := .inl rfl
  field _ _ _ _ _ := rfl

namespace Walk

variable {σ : Type} {v : Visitor σ} {r : Registry}

/-- The tags of the nodes among some looks whose schema is found. -/
def openedTags (r : Registry) (looks : List Look) : List String :=
  looks.filterMap fun
    | .node _ n => if r.contains n.tag then some n.tag else none
    | .field .. => none

/-- A thorough visitor works an agenda off along its itinerary, up to the first stop. -/
theorem run_of_thorough (hv : v.Thorough r) (agenda : List Task) (state : σ)
    (opened : Array String) :
    run v r agenda state opened =
      ⟨Moment.ending (agenda.flatMap (Task.itinerary r)),
       (Moment.looks (agenda.flatMap (Task.itinerary r))).foldl (fun s l => v.note l s) state,
       opened ++ openedTags r (Moment.looks (agenda.flatMap (Task.itinerary r)))⟩ := by
  fun_induction run v r agenda state opened with
  | case1 => simp [openedTags]
  | case2 state opened place n rest e state' hn =>
    have hl := hv.lookup_of_fail hn
    simp [Task.itinerary, itinerary_unknown hl, Visitor.note, hn, openedTags,
      Registry.not_contains_of_lookup hl]
  | case3 state opened place n rest state' hn => exact absurd hn hv.onNode_ne_skip
  | case4 state opened place n rest state' hn e hl =>
    simp [Task.itinerary, itinerary_unknown hl, Visitor.note, hn, openedTags,
      Registry.not_contains_of_lookup hl]
  | case5 state opened place n rest state' hn s hl ih =>
    rw [ih]
    simp [Task.itinerary, itinerary_open hl, Visitor.note, hn, openedTags,
      Registry.contains_of_lookup hl, Registry.tag_of_lookup hl]
  | case6 state opened place n s rest ih => simpa [Task.itinerary] using ih
  | case7 state opened place n s key keys rest hf =>
    simp [Task.itinerary, fieldItinerary, hf, openedTags]
  | case8 state opened place n s key keys rest value hf e state' hField =>
    cases hv.action_of_onField hField
  | case9 state opened place n s key keys rest value hf state' hField =>
    cases hv.action_of_onField hField
  | case10 state opened place n s key keys rest value hf state' hField ih =>
    rw [ih]
    simp [Task.itinerary, fieldItinerary, hf, openedTags, Visitor.note, hField]

theorem tree_of_thorough (hv : v.Thorough r) (root : Node) (state : σ) :
    tree v r root state =
      ⟨Moment.ending (itinerary r .root root),
       (Moment.looks (itinerary r .root root)).foldl (fun s l => v.note l s) state,
       (openedTags r (Moment.looks (itinerary r .root root))).toArray⟩ := by
  rw [tree, run_of_thorough hv]
  simp [Task.itinerary]

theorem tree_recorder (r : Registry) (root : Node) :
    (tree recorder r root #[]).result = Moment.ending (itinerary r .root root) ∧
      (tree recorder r root #[]).state.toList = Moment.looks (itinerary r .root root) := by
  rw [tree_of_thorough (recorder_thorough r)]
  simp [recorder_note]

/-- A recording walk under a finished registry writes down its itinerary up to the first stop and
ends with what that stop reports. The itinerary goes through the visitor keys of each node, and
these stand in the order of the declared fields. -/
theorem recording_walk_follows_itinerary {options : ValidationOptions} {calls : List Call}
    {r : Registry} (hr : (Builder.after options calls).finish = .ok r) (root : Node) :
    (∀ tag s, r.lookup tag = .ok s →
      s.tag = tag ∧ s.visitorKeys = (s.fields.filter (·.visit)).map (·.name)) ∧
    let walk := tree recorder r root #[]
    let moments := itinerary r .root root
    (walk.result = .ok () ↔ ∀ e, .stop e ∉ moments) ∧
    (walk.result = .ok () → moments = walk.state.toList.map .look) ∧
    ∀ e, walk.result = .error e →
      ∃ rest, moments = walk.state.toList.map .look ++ .stop e :: rest := by
  obtain ⟨_, _, hValidated⟩ := Builder.tables_of_finish hr
  obtain ⟨hResult, hState⟩ := tree_recorder r root
  refine ⟨?_, ?_⟩
  · intro tag s hs
    exact ⟨Registry.tag_of_lookup hs,
      hValidated.visitorKeys_eq (Registry.mem_shapes_of_lookup hs)⟩
  · simp only [hResult, hState]
    exact ⟨Moment.ending_eq_ok_iff _, Moment.eq_map_looks, fun _ => Moment.eq_map_looks_append⟩

end Walk

/-- A registry of names and pairs: a pair holds one name, and possibly more of both. -/
def pairCalls : List Call :=
  [.shape { tag := "Name", fields := [⟨"text", .scalar⟩] }, .shape pairDecl,
   .group { name := "Any", members := ["Pair", "Name"] }]

def pairRegistry : Registry :=
  ⟨(Builder.after .strict pairCalls).tables⟩

theorem finish_pairCalls : (Builder.after .strict pairCalls).finish = .ok pairRegistry :=
  (Builder.finish_eq_ok_iff _ _).mpr ⟨by decide, rfl⟩

def nameNode (text : String) : Node :=
  ⟨.loose "Name", [("text", .scalar (.text text))]⟩

/-- A pair that does not answer for its last visitor key. -/
def brokenPair : Node :=
  ⟨.loose "Pair", [("first", .node (nameNode "a"))]⟩

theorem stop_mem_itinerary_brokenPair :
    .stop (.unknownFieldKey "Pair" "rest" .visitor) ∈
      Walk.itinerary pairRegistry .root brokenPair := by
  rw [Walk.itinerary_open (s := pairRegistry.tables.shapes[1]) rfl]
  apply List.mem_cons_of_mem
  refine List.mem_flatMap.mpr ⟨"rest", by decide, ?_⟩
  exact List.mem_singleton.mpr rfl

theorem recording_walk_of_brokenPair :
    (Builder.after .strict pairCalls).finish = .ok pairRegistry ∧
      (Walk.tree recorder pairRegistry brokenPair #[]).result ≠ .ok () := by
  refine ⟨finish_pairCalls, fun hOk => ?_⟩
  have hStops := (Walk.recording_walk_follows_itinerary finish_pairCalls brokenPair).2.1
  exact hStops.mp hOk _ stop_mem_itinerary_brokenPair

end TreeSchema
