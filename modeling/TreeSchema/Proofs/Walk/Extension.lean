import TreeSchema.Proofs.Registry.Precedence
import TreeSchema.Proofs.Walk.Collection

/-!
# Walks under a larger registry

A registry that comes of more calls answers as before wherever it answered before. So a walk that
succeeds under the smaller registry is the same under the larger one, and so is a walk that fails at
a field that is not answered for. Only where the smaller registry did not know a tag does the larger
one let the walk go on, and what was written down up to there is written down again.
-/

namespace TreeSchema

set_option autoImplicit false

/-- The registry `r'` answers as `r` does wherever `r` knows the tag. -/
def Registry.Extends (r' r : Registry) : Prop :=
  ∀ tag s, r.lookup tag = .ok s → r'.lookup tag = .ok s

namespace Visitor

variable {α : Type} {place : Place} {n : Node} {key : String} {value : FieldValue Node}
  {out out' : Array α} {action : Action}

/-- A visitor that only adds to what is written. -/
structure Writes (v : Visitor (Array α)) : Prop where
  node : ∀ place n out, out.toList <+: (v.onNode place n out).2.toList
  field : ∀ place n key value out, out.toList <+: (v.onField place n key value out).2.toList

theorem Writes.onNode {v : Visitor (Array α)} (hv : v.Writes)
    (h : v.onNode place n out = (action, out')) : out.toList <+: out'.toList := by
  have hNode := hv.node place n out
  rwa [h] at hNode

theorem Writes.onField {v : Visitor (Array α)} (hv : v.Writes)
    (h : v.onField place n key value out = (action, out')) : out.toList <+: out'.toList := by
  have hField := hv.field place n key value out
  rwa [h] at hField

/-- The visitor `v'` does what `v` does, except that `v` may stop at a tag where it does not. -/
structure Outlasts (v' v : Visitor (Array α)) : Prop where
  node : ∀ place n out, v'.onNode place n out = v.onNode place n out ∨
    ∃ tag, v.onNode place n out = (.fail (.unknownNodeTag tag), out)
  field : ∀ place n key value out,
    v'.onField place n key value out = v.onField place n key value out

theorem Outlasts.onNode {v v' : Visitor (Array α)} (hv : v'.Outlasts v)
    (h : v.onNode place n out = (action, out')) (ha : ∀ e, action ≠ .fail e) :
    v'.onNode place n out = (action, out') := by
  rcases hv.node place n out with hSame | ⟨tag, hStop⟩
  · exact hSame.trans h
  · rw [h] at hStop
    exact absurd (Prod.mk.inj hStop).1 (ha _)

end Visitor

/-- What a larger registry makes of a walk. Only a failure at an unregistered tag can change, and
what was written before it is written again. -/
structure Outcome.Continues {α : Type} (o' o : Outcome (Array α)) : Prop where
  ok : o.result = .ok () → o' = o
  missing : ∀ tag field table, o.result = .error (.unknownFieldKey tag field table) → o' = o
  changed : o' ≠ o → ∃ tag, o.result = .error (.unknownNodeTag tag)
  begun : o.state.toList <+: o'.state.toList

namespace Outcome.Continues

variable {α : Type} {o o' : Outcome (Array α)}

theorem refl (o : Outcome (Array α)) : o.Continues o where
  ok _ := rfl
  missing _ _ _ _ := rfl
  changed h := absurd rfl h
  begun := List.prefix_refl _

theorem of_unknown {tag : String} (h : o.result = .error (.unknownNodeTag tag))
    (hb : o.state.toList <+: o'.state.toList) : o'.Continues o where
  ok hOk := by
    rw [h] at hOk
    cases hOk
  missing _ _ _ hMissing := by
    rw [h] at hMissing
    cases hMissing
  changed _ := ⟨tag, h⟩
  begun := hb

end Outcome.Continues

namespace Walk

variable {α : Type} {v v' : Visitor (Array α)} {r r' : Registry}

theorem run_writes (hv : v.Writes) (r : Registry) (agenda : List Task) (out : Array α)
    (opened : Array String) : out.toList <+: (run v r agenda out opened).state.toList := by
  fun_induction run v r agenda out opened with
  | case1 => exact List.prefix_refl _
  | case2 out opened place n rest e out' hn => exact hv.onNode hn
  | case3 out opened place n rest out' hn ih => exact (hv.onNode hn).trans ih
  | case4 out opened place n rest out' hn e hl => exact hv.onNode hn
  | case5 out opened place n rest out' hn s hl ih => exact (hv.onNode hn).trans ih
  | case6 out opened place n s rest ih => exact ih
  | case7 => exact List.prefix_refl _
  | case8 out opened place n s key keys rest value hf e out' hLook => exact hv.onField hLook
  | case9 out opened place n s key keys rest value hf out' hLook ih =>
    exact (hv.onField hLook).trans ih
  | case10 out opened place n s key keys rest value hf out' hLook ih =>
    exact (hv.onField hLook).trans ih

theorem run_continues (hr : r'.Extends r) (hw : v'.Writes) (hv : v'.Outlasts v)
    (agenda : List Task) (out : Array α) (opened : Array String) :
    (run v' r' agenda out opened).Continues (run v r agenda out opened) := by
  -- The two walks take the same steps, with the same agenda. They part only where the smaller
  -- registry does not know a tag: there the walk of `v` is over, and that of `v'` can but add to
  -- what is written.
  fun_induction run v r agenda out opened with
  | case1 =>
    rw [run_nil]
    exact .refl _
  | case2 out opened place n rest e out' hn =>
    rcases hv.node place n out with hSame | ⟨tag, hStop⟩
    · rw [run_node_fail v' r' (hSame.trans hn)]
      exact .refl _
    · rw [hn] at hStop
      cases hStop
      exact .of_unknown rfl (run_writes hw r' _ _ _)
  | case3 out opened place n rest out' hn ih =>
    rw [run_node_skip v' r' (hv.onNode hn (by simp))]
    exact ih
  | case4 out opened place n rest out' hn e hl =>
    have hn' := hv.onNode hn (by simp)
    refine .of_unknown (congrArg Except.error (r.lookup_eq_error hl)) ?_
    cases hl' : r'.lookup n.tag with
    | error e' =>
      rewrite [run_node_unknown v' r' hn' hl']
      exact List.prefix_refl _
    | ok s =>
      rw [run_node_open v' r' hn' hl']
      exact run_writes hw r' _ _ _
  | case5 out opened place n rest out' hn s hl ih =>
    rw [run_node_open v' r' (hv.onNode hn (by simp)) (hr n.tag s hl)]
    exact ih
  | case6 out opened place n s rest ih =>
    rw [run_fields_nil]
    exact ih
  | case7 out opened place n s key keys rest hf =>
    rw [run_fields_missing v' r' hf]
    exact .refl _
  | case8 out opened place n s key keys rest value hf e out' hLook =>
    rw [run_fields_cons v' r' hf, hv.field, hLook]
    exact .refl _
  | case9 out opened place n s key keys rest value hf out' hLook ih =>
    rw [run_fields_cons v' r' hf, hv.field, hLook]
    exact ih
  | case10 out opened place n s key keys rest value hf out' hLook ih =>
    rw [run_fields_cons v' r' hf, hv.field, hLook]
    exact ih

end Walk

theorem recorder_writes : recorder.Writes where
  node _ _ out := by simp [recorder]
  field _ _ _ _ out := by simp [recorder]

theorem recorder_outlasts : recorder.Outlasts recorder where
  node _ _ _ := .inl rfl
  field _ _ _ _ _ := rfl

namespace BindingSite

theorem collector_writes (r : Registry) : (collector r).Writes where
  node place n out := by
    simp only [collector]
    cases ofNode r place n <;> simp
  field _ _ _ _ _ := List.prefix_refl _

theorem collector_outlasts {r r' : Registry} (hr : r'.Extends r) :
    (collector r').Outlasts (collector r) where
  node place n out := by
    cases hs : r.lookup n.tag with
    | error e =>
      exact .inr ⟨n.tag, by simp [collector, ofNode, hs, r.lookup_eq_error hs]⟩
    | ok s => exact .inl (by simp [collector, ofNode, hs, hr n.tag s hs])
  field _ _ _ _ _ := rfl

theorem collectInto_continues {r r' : Registry} (hr : r'.Extends r) (sites : Array BindingSite)
    (root : Node) : (collectInto r' sites root).Continues (collectInto r sites root) :=
  Walk.run_continues hr (collector_writes r') (collector_outlasts hr) _ _ _

theorem collect_eq_or_unknown {r r' : Registry} (hr : r'.Extends r) (root : Node) :
    collect r' root = collect r root ∨ ∃ tag, collect r root = .error (.unknownNodeTag tag) := by
  by_cases hSame : collectInto r' #[] root = collectInto r #[] root
  · exact .inl (by simp only [collect, hSame])
  · obtain ⟨tag, hTag⟩ := (collectInto_continues hr #[] root).changed hSame
    exact .inr ⟨tag, by simp only [collect, hTag]⟩

end BindingSite

theorem Builder.extends_of_finish {options : ValidationOptions} {calls more : List Call}
    {r r' : Registry} (hr : (after options calls).finish = .ok r)
    (hr' : (after options (calls ++ more)).finish = .ok r') : r'.Extends r := by
  obtain ⟨_, rfl⟩ := (finish_eq_ok_iff _ r).mp hr
  obtain ⟨_, rfl⟩ := (finish_eq_ok_iff _ r').mp hr'
  intro tag s hs
  exact lookup_after_append calls hs more

/-- A registry that comes of more calls is a conservative extension: it has the old shapes and
groups, and the recording walk and the collection of binding sites of any tree are as before, unless
they had failed at a tag that was not registered. Even then all that was seen before the failure is
seen again. -/
theorem larger_registry_is_conservative {options : ValidationOptions} {calls more : List Call}
    {r r' : Registry} (hr : (Builder.after options calls).finish = .ok r)
    (hr' : (Builder.after options (calls ++ more)).finish = .ok r') :
    (∀ tag s, r.lookup tag = .ok s → r'.lookup tag = .ok s) ∧
    (∀ name g, r.lookupGroup name = .ok g → r'.lookupGroup name = .ok g) ∧
    ∀ root,
      (Walk.tree recorder r' root #[]).Continues (Walk.tree recorder r root #[]) ∧
      (∀ sites, (BindingSite.collectInto r' sites root).Continues
        (BindingSite.collectInto r sites root)) ∧
      (∀ sites, BindingSite.collect r root = .ok sites →
        BindingSite.collect r' root = .ok sites) ∧
      ∀ e, BindingSite.collect r root = .error e → (∀ tag, e ≠ .unknownNodeTag tag) →
        BindingSite.collect r' root = .error e := by
  have hExtends := Builder.extends_of_finish hr hr'
  refine ⟨hExtends, ?_, ?_⟩
  · obtain ⟨_, rfl⟩ := (Builder.finish_eq_ok_iff _ r).mp hr
    obtain ⟨_, rfl⟩ := (Builder.finish_eq_ok_iff _ r').mp hr'
    intro name g hg
    exact Builder.lookupGroup_after_append calls hg more
  · intro root
    refine ⟨Walk.run_continues hExtends recorder_writes recorder_outlasts _ _ _,
      fun sites => BindingSite.collectInto_continues hExtends sites root, ?_, ?_⟩
    · intro sites hSites
      rcases BindingSite.collect_eq_or_unknown hExtends root with hSame | ⟨tag, hTag⟩
      · exact hSame.trans hSites
      · rw [hTag] at hSites
        cases hSites
    · intro e he hKnown
      rcases BindingSite.collect_eq_or_unknown hExtends root with hSame | ⟨tag, hTag⟩
      · exact hSame.trans he
      · rw [hTag] at he
        exact absurd (Except.error.inj he).symm (hKnown tag)

theorem Walk.itinerary_of_leaf {r : Registry} {n : Node} {s : NodeSchema}
    (hl : r.lookup n.tag = .ok s) (hk : s.visitorKeys = []) (place : Place) :
    itinerary r place n = [.look (.node place n)] := by
  rw [itinerary_open hl, hk]
  rfl

theorem Walk.itinerary_of_pair {r : Registry} {n : Node}
    (hl : r.lookup n.tag = .ok pairDecl.schema) (place : Place) :
    itinerary r place n = .look (.node place n) ::
      (fieldItinerary r place n pairDecl.schema "first" ++
        fieldItinerary r place n pairDecl.schema "rest") := by
  have hKeys : pairDecl.schema.visitorKeys = ["first", "rest"] := rfl
  rw [itinerary_open hl, hKeys]
  simp

/-- A shape that pairs may come to hold, and an attempt on a tag that is taken. -/
def numberCalls : List Call :=
  [.shape { tag := "Number", fields := [⟨"value", .scalar⟩] }, .shape { tag := "Pair" }]

def numberRegistry : Registry :=
  ⟨(Builder.after .strict (pairCalls ++ numberCalls)).tables⟩

theorem finish_numberCalls :
    (Builder.after .strict (pairCalls ++ numberCalls)).finish = .ok numberRegistry :=
  (Builder.finish_eq_ok_iff _ _).mpr ⟨by decide, rfl⟩

def numberNode : Node :=
  ⟨.loose "Number", []⟩

/-- A pair with a number, which only the larger registry knows. -/
def numberedPair : Node :=
  pairNode numberNode (.nodes [nameNode "b"])

theorem walk_of_numberedPair_continues :
    (Builder.after .strict pairCalls).finish = .ok pairRegistry ∧
      (Builder.after .strict (pairCalls ++ numberCalls)).finish = .ok numberRegistry ∧
      (Walk.tree recorder pairRegistry numberedPair #[]).result =
        .error (.unknownNodeTag "Number") ∧
      (Walk.tree recorder numberRegistry numberedPair #[]).result = .ok () ∧
      (Walk.tree recorder pairRegistry numberedPair #[]).state.toList <+:
        (Walk.tree recorder numberRegistry numberedPair #[]).state.toList ∧
      Walk.tree recorder numberRegistry brokenPair #[] =
        Walk.tree recorder pairRegistry brokenPair #[] := by
  have hConservative := (larger_registry_is_conservative finish_pairCalls finish_numberCalls).2.2
  have hBroken : (Walk.tree recorder pairRegistry brokenPair #[]).result =
      .error (.unknownFieldKey "Pair" "rest" .visitor) := by
    have hFirst : brokenPair.field? "first" = some (.node (nameNode "a")) := rfl
    have hRest : brokenPair.field? "rest" = none := rfl
    have hTag : pairDecl.schema.tag = "Pair" := rfl
    have hName := Walk.itinerary_of_leaf (r := pairRegistry) (n := nameNode "a") rfl rfl
    rw [(Walk.tree_recorder _ _).1, Walk.itinerary_of_pair rfl]
    simp [Walk.fieldItinerary, hFirst, hRest, FieldValue.children, hName, hTag]
  have hFirst : numberedPair.field? "first" = some (.node numberNode) := rfl
  have hRest : numberedPair.field? "rest" = some (.nodes [nameNode "b"]) := rfl
  refine ⟨finish_pairCalls, finish_numberCalls, ?_, ?_, ?_, ?_⟩
  · have hTag : numberNode.tag = "Number" := rfl
    have hNumber := Walk.itinerary_unknown (r := pairRegistry) (n := numberNode) rfl
    rw [(Walk.tree_recorder _ _).1, Walk.itinerary_of_pair rfl]
    simp [Walk.fieldItinerary, hFirst, FieldValue.children, hNumber, hTag]
  · have hName := Walk.itinerary_of_leaf (r := numberRegistry) (n := nameNode "b") rfl rfl
    have hNumber := Walk.itinerary_of_leaf (r := numberRegistry) (n := numberNode) rfl rfl
    rw [(Walk.tree_recorder _ _).1, Walk.itinerary_of_pair rfl]
    simp [Walk.fieldItinerary, hFirst, hRest, FieldValue.children, hName, hNumber]
  · exact (hConservative numberedPair).1.begun
  · exact (hConservative brokenPair).1.missing _ _ _ hBroken

end TreeSchema
