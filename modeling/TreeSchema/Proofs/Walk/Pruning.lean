import Mathlib.Data.List.Flatten
import TreeSchema.Proofs.Walk.Account
import TreeSchema.Proofs.Walk.Influence

/-!
# Pruned walks

A walk is pruned at nodes of some tags, which are seen but not opened, and at fields of some names,
which are seen but not entered. What it visits is what the full walk visits, less all that lies below
a pruned node or behind a skipped field. It can only fail at what remains: a pruned node need not have
a registered tag, but a node must answer for a skipped field.
-/

namespace TreeSchema

set_option autoImplicit false

/-- Writes down every look, but steps over nodes of some tags and over fields of some names. -/
def pruner (prune skip : String → Bool) : Visitor (Array Look) where
  onNode place n looks :=
    (if prune n.tag then .skip else .descend, looks.push (.node place n))
  onField place owner name value looks :=
    (if skip name then .skip else .descend, looks.push (.field place owner name value))

theorem pruner_nothing : pruner (fun _ => false) (fun _ => false) = recorder := rfl

namespace Place

/-- The way to `p` leads through `q` and on. -/
def Above (q p : Place) : Prop :=
  q.steps <:+ p.steps ∧ q.depth < p.depth

instance (q p : Place) : Decidable (q.Above p) :=
  inferInstanceAs (Decidable (_ ∧ _))

theorem not_above_root (q : Place) : ¬ q.Above .root := by
  rintro ⟨_, hDepth⟩
  exact Nat.not_lt_zero _ hDepth

theorem above_child_iff {q p : Place} {key : String} {i : Nat} :
    q.Above (p.child key i) ↔ q = p ∨ q.Above p := by
  simp only [Above, child_steps, List.suffix_cons_iff, depth_eq, List.length_cons]
  constructor
  · rintro ⟨hEq | hSuffix, hLength⟩
    · rw [hEq, List.length_cons] at hLength
      omega
    · by_cases hEq : q.steps = p.steps
      · exact .inl (Place.ext hEq)
      · refine .inr ⟨hSuffix, ?_⟩
        have hLe := hSuffix.length_le
        have hNe : q.steps.length ≠ p.steps.length := fun h => hEq (hSuffix.eq_of_length h)
        omega
  · rintro (rfl | ⟨hSuffix, hLength⟩)
    · exact ⟨.inr List.suffix_rfl, by omega⟩
    · exact ⟨.inr hSuffix, by omega⟩

end Place

theorem Node.exists_mem_preorder_iff {keys : Node → List String} {P : Place × Node → Prop}
    {place : Place} {n : Node} :
    (∃ o ∈ n.preorder keys place, P o) ↔ P (place, n) ∨
      ∃ key ∈ keys n, ∃ (i : Nat) (c : Node), (n.childrenAt key)[i]? = some c ∧
        ∃ o ∈ c.preorder keys (place.child key i), P o := by
  constructor
  · rintro ⟨⟨p, m⟩, hm, hP⟩
    rcases mem_preorder_iff.mp hm with ⟨rfl, rfl⟩ | ⟨key, hk, i, c, hc, hm⟩
    · exact .inl hP
    · exact .inr ⟨key, hk, i, c, hc, (p, m), hm, hP⟩
  · rintro (hP | ⟨key, hk, i, c, hc, ⟨p, m⟩, hm, hP⟩)
    · exact ⟨(place, n), mem_preorder_iff.mpr (.inl ⟨rfl, rfl⟩), hP⟩
    · exact ⟨(p, m), mem_preorder_iff.mpr (.inr ⟨key, hk, i, c, hc, hm⟩), hP⟩

theorem Node.preorder_sublist {keys keys' : Node → List String}
    (h : ∀ n, (keys' n).Sublist (keys n)) (place : Place) (n : Node) :
    (n.preorder keys' place).Sublist (n.preorder keys place) := by
  induction place, n using place_induction with
  | step place n ih =>
    rw [preorder_eq, preorder_eq]
    apply List.Sublist.cons_cons
    refine ((h n).flatMap _).trans (List.Sublist.flatMap_right _ ?_)
    intro key _
    apply List.Sublist.flatMap_right
    intro c hc
    exact ih key c.2 c.1 (List.mem_zipIdx_iff_getElem?.mp hc)

theorem eq_filter_of_sublist {α : Type} {p : α → Bool} {xs ys : List α} (h : xs.Sublist ys)
    (hn : ys.Nodup) (hm : ∀ y ∈ ys, y ∈ xs ↔ p y = true) : xs = ys.filter p := by
  induction h with
  | slnil => rfl
  | @cons xs ys y h ih =>
    obtain ⟨hy, hn⟩ := List.nodup_cons.mp hn
    have hOut : ¬ p y = true := fun hp => hy (h.subset ((hm y List.mem_cons_self).mpr hp))
    rw [List.filter_cons_of_neg hOut]
    exact ih hn fun x hx => hm x (List.mem_cons_of_mem y hx)
  | @cons_cons xs ys y h ih =>
    obtain ⟨hy, hn⟩ := List.nodup_cons.mp hn
    rw [List.filter_cons_of_pos ((hm y List.mem_cons_self).mp List.mem_cons_self)]
    congr 1
    apply ih hn
    intro x hx
    rw [← hm x (List.mem_cons_of_mem y hx), List.mem_cons]
    have hne : x ≠ y := fun hEq => hy (hEq ▸ hx)
    simp [hne]

/-- Whether a pruned walk leaves out an occurrence: it lies below a visited node that is pruned, or
behind a field that is skipped. -/
def leftOut (prune skip : String → Bool) (visited : List (Place × Node)) (o : Place × Node) : Bool :=
  (visited.any fun a => prune a.2.tag && decide (a.1.Above o.1)) ||
    o.1.steps.any fun step => skip step.field

namespace Registry

/-- Why a walk cannot get through with a node. -/
inductive Fault (r : Registry) (n : Node) : SchemaError → Prop where
  | unknown {e : SchemaError} : r.lookup n.tag = .error e → Fault r n e
  | missing {s : NodeSchema} {key : String} : r.lookup n.tag = .ok s → key ∈ s.visitorKeys →
      n.field? key = none → Fault r n (.unknownFieldKey s.tag key .visitor)

theorem fault_of_unknown {r : Registry} {n : Node} {e e' : SchemaError}
    (hl : r.lookup n.tag = .error e') : r.Fault n e ↔ e' = e := by
  constructor
  · rintro (h | h)
    · exact Except.error.inj (hl.symm.trans h)
    · rw [hl] at h
      cases h
  · rintro rfl
    exact .unknown hl

theorem fault_of_known {r : Registry} {n : Node} {s : NodeSchema} {e : SchemaError}
    (hl : r.lookup n.tag = .ok s) :
    r.Fault n e ↔ ∃ key ∈ s.visitorKeys, n.field? key = none ∧
      .unknownFieldKey s.tag key .visitor = e := by
  constructor
  · intro h
    cases h with
    | unknown h =>
      rw [hl] at h
      cases h
    | missing h hk hf =>
      rw [hl] at h
      cases h
      exact ⟨_, hk, hf, rfl⟩
  · rintro ⟨key, hk, hf, rfl⟩
    exact .missing hl hk hf

/-- The occurrence is reached along visitor keys, without a pruned node above it and without a
skipped field on the way. -/
structure Remains (r : Registry) (prune skip : String → Bool) (root : Node) (place : Place)
    (n : Node) : Prop where
  reached : r.Reaches root place n
  unpruned : ∀ p m, r.Reaches root p m → p.Above place → prune m.tag = false
  unskipped : ∀ step ∈ place.steps, skip step.field = false

theorem Reaches.unique {r : Registry} {root : Node} {place : Place} {m n : Node}
    (hm : r.Reaches root place m) (hn : r.Reaches root place n) : m = n := by
  induction hm generalizing n with
  | root =>
    generalize hp : Place.root = place at hn
    cases hn with
    | root => rfl
    | child => cases congrArg Place.steps hp
  | @child place m c s key i _ _ _ hc ih =>
    generalize hp : place.child key i = place' at hn
    cases hn with
    | root => cases congrArg Place.steps hp
    | child hn _ _ hd =>
      obtain ⟨rfl, rfl, rfl⟩ := Place.child_inj hp
      cases ih hn
      rw [Node.holdsAt_iff] at hc hd
      exact Option.some.inj (hc.symm.trans hd)

variable (r : Registry) (prune skip : String → Bool)

/-- The fields of a node that a pruned walk enters. -/
def remainingKeys (n : Node) : List String :=
  if prune n.tag then [] else (r.visitorKeys n.tag).filter fun key => !skip key

theorem mem_remainingKeys_iff {n : Node} {key : String} :
    key ∈ r.remainingKeys prune skip n ↔
      prune n.tag = false ∧ key ∈ r.visitorKeys n.tag ∧ skip key = false := by
  unfold remainingKeys
  cases prune n.tag <;> simp

theorem remainingKeys_sublist (n : Node) :
    (r.remainingKeys prune skip n).Sublist (r.visitorKeys n.tag) := by
  unfold remainingKeys
  split
  · exact List.nil_sublist _
  · exact List.filter_sublist

variable {r prune skip} {root : Node} {place : Place} {n : Node}

theorem Remains.atRoot : r.Remains prune skip root .root root where
  reached := .root
  unpruned p m _ hAbove := absurd hAbove p.not_above_root
  unskipped step hStep := by cases hStep

theorem Remains.child (h : r.Remains prune skip root place n) {key : String} {i : Nat} {c : Node}
    (hk : key ∈ r.remainingKeys prune skip n) (hc : (n.childrenAt key)[i]? = some c) :
    r.Remains prune skip root (place.child key i) c := by
  obtain ⟨hPrune, hVisited, hSkip⟩ := (mem_remainingKeys_iff r prune skip).mp hk
  obtain ⟨s, hs, hKey⟩ := exists_lookup_of_mem_visitorKeys hVisited
  refine ⟨h.reached.child hs hKey (Node.holdsAt_iff.mpr hc), ?_, ?_⟩
  · intro p m hm hAbove
    rcases Place.above_child_iff.mp hAbove with rfl | hAbove
    · rw [hm.unique h.reached]
      exact hPrune
    · exact h.unpruned p m hm hAbove
  · intro step hStep
    rcases List.mem_cons.mp hStep with rfl | hStep
    · exact hSkip
    · exact h.unskipped step hStep

theorem Remains.of_child {key : String} {i : Nat} {c : Node} (hn : r.Reaches root place n)
    (h : r.Remains prune skip root (place.child key i) c) :
    r.Remains prune skip root place n ∧ prune n.tag = false ∧ skip key = false := by
  refine ⟨⟨hn, ?_, ?_⟩, ?_, ?_⟩
  · intro p m hm hAbove
    exact h.unpruned p m hm (Place.above_child_iff.mpr (.inr hAbove))
  · intro step hStep
    exact h.unskipped step (List.mem_cons_of_mem _ hStep)
  · exact h.unpruned place n hn (Place.above_child_iff.mpr (.inl rfl))
  · exact h.unskipped ⟨key, i⟩ List.mem_cons_self

theorem Remains.of_mem_preorder (hn : r.Remains prune skip root place n) {p : Place} {m : Node}
    (hm : (p, m) ∈ n.preorder (r.remainingKeys prune skip) place) :
    r.Remains prune skip root p m := by
  induction place, n using Node.place_induction with
  | step place n ih =>
    rcases Node.mem_preorder_iff.mp hm with ⟨rfl, rfl⟩ | ⟨key, hk, i, c, hc, hm⟩
    · exact hn
    · exact ih key i c hc (hn.child hk hc) hm

theorem mem_preorder_iff_remains :
    (place, n) ∈ root.preorder (r.remainingKeys prune skip) .root ↔
      r.Remains prune skip root place n := by
  constructor
  · intro h
    exact .of_mem_preorder .atRoot h
  · intro h
    have hReached := h.reached
    induction hReached with
    | root => exact Node.mem_preorder_iff.mpr (.inl ⟨rfl, rfl⟩)
    | child hn hs hKey hc ih =>
      obtain ⟨hParent, hPrune, hSkip⟩ := h.of_child hn
      apply Node.child_mem_preorder (ih hParent) _ hc
      rw [mem_remainingKeys_iff, visitorKeys_of_lookup hs]
      exact ⟨hPrune, hKey, hSkip⟩

end Registry

def Happening.visit? : Happening → Option (Place × Node)
  | .call l _ => l.visit?
  | .fault _ => none

namespace Walk

variable {r : Registry} {prune skip : String → Bool} {place : Place} {n : Node} {looks : Array Look}

theorem pruner_onNode_skip (h : prune n.tag = true) :
    (pruner prune skip).onNode place n looks = (.skip, looks.push (.node place n)) := by
  simp [pruner, h]

theorem pruner_onNode_descend (h : prune n.tag = false) :
    (pruner prune skip).onNode place n looks = (.descend, looks.push (.node place n)) := by
  simp [pruner, h]

theorem pruner_onField_skip {key : String} {value : FieldValue Node} (h : skip key = true) :
    (pruner prune skip).onField place n key value looks =
      (.skip, looks.push (.field place n key value)) := by
  simp [pruner, h]

theorem pruner_onField_descend {key : String} {value : FieldValue Node} (h : skip key = false) :
    (pruner prune skip).onField place n key value looks =
      (.descend, looks.push (.field place n key value)) := by
  simp [pruner, h]

theorem visits_fieldAccount_pruner {s : NodeSchema} {key : String}
    (ih : ∀ i c, (n.childrenAt key)[i]? = some c → ∀ looks,
      (account (pruner prune skip) r (place.child key i) c looks).1.filterMap Happening.visit? =
        c.preorder (r.remainingKeys prune skip) (place.child key i)) (looks : Array Look) :
    (fieldAccount (pruner prune skip) r place n s key looks).1.filterMap Happening.visit? =
      if skip key then [] else (n.childrenAt key).zipIdx.flatMap fun c =>
        c.1.preorder (r.remainingKeys prune skip) (place.child key c.2) := by
  cases hf : n.field? key with
  | none =>
    rw [fieldAccount_missing hf]
    simp [Happening.visit?, Node.childrenAt, hf]
  | some value =>
    cases hSkip : skip key with
    | true =>
      rw [fieldAccount_of_no_descent hf (pruner_onField_skip hSkip) (by simp)]
      rfl
    | false =>
      have hChildren := Node.childrenAt_of_field? hf
      rw [fieldAccount_enter hf (pruner_onField_descend hSkip), Happening.before_fst, hChildren]
      simp only [List.filterMap_cons, Happening.visit?, Look.visit?]
      apply filterMap_relay
      rintro ⟨c, i⟩ hc looks
      apply ih i c
      rw [hChildren]
      exact List.mem_zipIdx_iff_getElem?.mp hc

/-- If nothing could stop it, a pruned walk would visit what remains, in pre-order. -/
theorem visits_account_pruner (place : Place) (n : Node) (looks : Array Look) :
    (account (pruner prune skip) r place n looks).1.filterMap Happening.visit? =
      n.preorder (r.remainingKeys prune skip) place := by
  induction place, n using Node.place_induction generalizing looks with
  | step place n ih =>
    rw [Node.preorder_eq, Registry.remainingKeys]
    cases hPrune : prune n.tag with
    | true =>
      rw [account_of_no_descent (pruner_onNode_skip hPrune) (by simp)]
      rfl
    | false =>
      cases hl : r.lookup n.tag with
      | error e =>
        rw [account_unknown (pruner_onNode_descend hPrune) hl, Registry.visitorKeys_of_unknown hl]
        rfl
      | ok s =>
        rw [account_open (pruner_onNode_descend hPrune) hl, Registry.visitorKeys_of_lookup hl,
          Happening.before_fst]
        simp only [List.filterMap_cons, Happening.visit?, Look.visit?]
        rw [filterMap_relay fun key _ => visits_fieldAccount_pruner (ih key),
          ← flatMap_filter_of_eq_nil (p := fun key => !skip key)]
        · congr 1
          apply List.flatMap_congr
          intro key hKey
          have hSkip : skip key = false := by simpa using (List.mem_filter.mp hKey).2
          simp only [hSkip, Bool.false_eq_true, if_false]
        · intro key _ hKept
          have hSkip : skip key = true := by simpa using hKept
          rw [if_pos hSkip]

theorem faults_fieldAccount_pruner {s : NodeSchema} {key : String} {e : SchemaError}
    {Q : Place → Node → Prop}
    (ih : ∀ i c, (n.childrenAt key)[i]? = some c → ∀ looks,
      (∃ h ∈ (account (pruner prune skip) r (place.child key i) c looks).1, h.error? = some e) ↔
        Q (place.child key i) c) (looks : Array Look) :
    (∃ h ∈ (fieldAccount (pruner prune skip) r place n s key looks).1, h.error? = some e) ↔
      (n.field? key = none ∧ .unknownFieldKey s.tag key .visitor = e) ∨
        (skip key = false ∧ ∃ i c, (n.childrenAt key)[i]? = some c ∧ Q (place.child key i) c) := by
  cases hf : n.field? key with
  | none =>
    rw [fieldAccount_missing hf]
    simp [Happening.error?, Node.childrenAt, hf]
  | some value =>
    cases hSkip : skip key with
    | true =>
      rw [fieldAccount_of_no_descent hf (pruner_onField_skip hSkip) (by simp)]
      simp [Happening.error?]
    | false =>
      have hChildren := Node.childrenAt_of_field? hf
      rw [hChildren] at ih ⊢
      have hBelow := exists_mem_relay (P := fun h : Happening => h.error? = some e)
        (fun (c : Node × Nat) hc => ih c.2 c.1 (List.mem_zipIdx_iff_getElem?.mp hc))
        (looks.push (.field place n key value))
      rw [fieldAccount_enter hf (pruner_onField_descend hSkip), Happening.before_fst,
        List.exists_mem_cons_iff, hBelow]
      simp only [Happening.error?, reduceCtorEq, false_and, false_or, true_and, Prod.exists,
        List.mem_zipIdx_iff_getElem?]
      exact exists_comm

/-- The errors of a pruned walk are the faults of the nodes that remain and are not pruned. -/
theorem faults_account_pruner {e : SchemaError} (place : Place) (n : Node) (looks : Array Look) :
    (∃ h ∈ (account (pruner prune skip) r place n looks).1, h.error? = some e) ↔
      ∃ o ∈ n.preorder (r.remainingKeys prune skip) place,
        prune o.2.tag = false ∧ r.Fault o.2 e := by
  induction place, n using Node.place_induction generalizing looks with
  | step place n ih =>
    rw [Node.exists_mem_preorder_iff]
    cases hPrune : prune n.tag with
    | true =>
      rw [account_of_no_descent (pruner_onNode_skip hPrune) (by simp)]
      simp [Happening.error?, Registry.remainingKeys, hPrune]
    | false =>
      cases hl : r.lookup n.tag with
      | error e' =>
        rw [account_unknown (pruner_onNode_descend hPrune) hl]
        simp [Happening.error?, Registry.fault_of_unknown hl, Registry.remainingKeys,
          Registry.visitorKeys_of_unknown hl]
      | ok s =>
        have hFields := exists_mem_relay (P := fun h : Happening => h.error? = some e)
          (fun key (_ : key ∈ s.visitorKeys) =>
            faults_fieldAccount_pruner (s := s) (Q := fun p c =>
              ∃ o ∈ c.preorder (r.remainingKeys prune skip) p, prune o.2.tag = false ∧
                r.Fault o.2 e) (ih key))
          (looks.push (.node place n))
        rw [account_open (pruner_onNode_descend hPrune) hl, Happening.before_fst,
          List.exists_mem_cons_iff, hFields]
        simp only [Happening.error?, reduceCtorEq, false_or, Registry.fault_of_known hl,
          Registry.mem_remainingKeys_iff, hPrune, Registry.visitorKeys_of_lookup hl, true_and,
          and_or_left, exists_or, and_assoc]

theorem pruner_note (l : Look) (looks : Array Look) :
    (pruner prune skip).note l looks = looks.push l := by
  cases l <;> rfl

theorem visits_calls (hs : List Happening) :
    ((Happening.calls hs).map (·.1)).filterMap Look.visit? =
      (Happening.untilError hs).filterMap Happening.visit? := by
  rw [Happening.calls, List.map_filterMap, List.filterMap_filterMap]
  apply List.filterMap_congr
  intro h _
  cases h <;> rfl

theorem tree_pruner (r : Registry) (prune skip : String → Bool) (root : Node) :
    let walk := tree (pruner prune skip) r root #[]
    let hs := (account (pruner prune skip) r .root root #[]).1
    walk.result = Happening.ending hs ∧ walk.state.toList.filterMap Look.visit? =
      (Happening.untilError hs).filterMap Happening.visit? := by
  intro walk hs
  obtain ⟨hResult, hState⟩ := tree_follows_account (pruner prune skip) r root #[]
  refine ⟨hResult, ?_⟩
  have hLooks : walk.state.toList = (Happening.calls hs).map (·.1) := by
    simp only [walk, hState, pruner_note]
    simp [hs]
  rw [hLooks, visits_calls]

end Walk

section Main

variable {r : Registry} {prune skip : String → Bool} {root : Node}

theorem Registry.remains_iff_not_leftOut {all : List (Place × Node)}
    (hAll : ∀ place n, (place, n) ∈ all ↔ r.Reaches root place n) {o : Place × Node}
    (ho : o ∈ all) :
    r.Remains prune skip root o.1 o.2 ↔ (!leftOut prune skip all o) = true := by
  simp only [leftOut, Bool.not_or, Bool.and_eq_true, Bool.not_eq_true', List.any_eq_false,
    Bool.and_eq_true, decide_eq_true_eq, not_and, Bool.not_eq_true]
  constructor
  · intro h
    refine ⟨?_, fun step hStep => h.unskipped step hStep⟩
    rintro ⟨p, m⟩ hm hPrune hAbove
    rw [h.unpruned p m ((hAll p m).mp hm) hAbove] at hPrune
    cases hPrune
  · rintro ⟨hAbove, hSteps⟩
    refine ⟨(hAll o.1 o.2).mp ho, ?_, hSteps⟩
    intro p m hm hp
    by_contra hPrune
    exact hAbove (p, m) ((hAll p m).mpr hm) (by simpa using hPrune) hp

namespace Walk

theorem fault_of_pruner {e : SchemaError}
    (he : (tree (pruner prune skip) r root #[]).result = .error e) :
    ∃ place n, r.Remains prune skip root place n ∧ prune n.tag = false ∧ r.Fault n e := by
  rw [(tree_pruner r prune skip root).1] at he
  have hFaults := (faults_account_pruner .root root #[]).mp (Happening.exists_error_of_ending he)
  obtain ⟨⟨place, n⟩, hn, hPrune, hFault⟩ := hFaults
  exact ⟨place, n, Registry.mem_preorder_iff_remains.mp hn, hPrune, hFault⟩

theorem pruner_fails {place : Place} {n : Node} {e : SchemaError}
    (hn : r.Remains prune skip root place n) (hp : prune n.tag = false) (hf : r.Fault n e) :
    (tree (pruner prune skip) r root #[]).result ≠ .ok () := by
  rw [(tree_pruner r prune skip root).1]
  intro hOk
  obtain ⟨h, hMem, hError⟩ := (faults_account_pruner .root root #[]).mpr
    ⟨(place, n), Registry.mem_preorder_iff_remains.mpr hn, hp, hf⟩
  rw [(Happening.ending_eq_ok_iff _).mp hOk h hMem] at hError
  cases hError

theorem visits_pruner (r : Registry) (prune skip : String → Bool) (root : Node) :
    let walk := tree (pruner prune skip) r root #[]
    let kept := walk.state.toList.filterMap Look.visit?
    kept <+: root.preorder (r.remainingKeys prune skip) .root ∧
      (walk.result = .ok () → kept = root.preorder (r.remainingKeys prune skip) .root) := by
  intro walk kept
  obtain ⟨hResult, hKept⟩ : walk.result = _ ∧ kept = _ := tree_pruner r prune skip root
  rw [← visits_account_pruner .root root #[]]
  constructor
  · rw [hKept]
    exact (Happening.untilError_prefix _).filterMap _
  · intro hOk
    have hQuiet := (Happening.ending_eq_ok_iff _).mp (hResult.symm.trans hOk)
    rw [hKept, (Happening.of_quiet hQuiet).2]

/-- A walk that succeeds has met no fault. -/
theorem no_fault (h : (tree recorder r root #[]).result = .ok ()) {place : Place} {n : Node}
    (hn : r.Reaches root place n) (e : SchemaError) : ¬ r.Fault n e := by
  intro hFault
  have hRemains : r.Remains (fun _ => false) (fun _ => false) root place n :=
    ⟨hn, fun _ _ _ _ => rfl, fun _ _ => rfl⟩
  have hFails := pruner_fails hRemains rfl hFault
  rw [pruner_nothing] at hFails
  exact hFails h

theorem pruner_succeeds (h : (tree recorder r root #[]).result = .ok ()) :
    (tree (pruner prune skip) r root #[]).result = .ok () := by
  cases hPruned : (tree (pruner prune skip) r root #[]).result with
  | ok _ => rfl
  | error e =>
    obtain ⟨place, n, hn, _, hFault⟩ := fault_of_pruner hPruned
    exact absurd hFault (no_fault h hn.reached e)

/-- What a pruned walk visits is what the full walk visits, less what is left out. -/
theorem visits_pruner_eq_filter {options : ValidationOptions} (hr : r.tables.Validated options)
    (h : (tree recorder r root #[]).result = .ok ()) :
    let all := (tree recorder r root #[]).state.toList.filterMap Look.visit?
    (tree (pruner prune skip) r root #[]).state.toList.filterMap Look.visit? =
      all.filter fun o => !leftOut prune skip all o := by
  intro all
  have hAll : all = root.preorder (fun n => r.visitorKeys n.tag) .root := visits_recorder h
  have hReached : ∀ place n, (place, n) ∈ all ↔ r.Reaches root place n := by
    intro place n
    rw [hAll]
    exact Registry.mem_preorder_iff_reaches
  have hDistinct : all.Nodup := by
    rw [hAll]
    refine (Node.preorder_places_distinct ?_ .root root).imp ?_
    · exact fun n => Registry.visitorKeys_nodup hr n.tag
    · exact fun hne hEq => hne (congrArg Prod.fst hEq)
  rw [(visits_pruner r prune skip root).2 (pruner_succeeds h)]
  refine eq_filter_of_sublist ?_ hDistinct ?_
  · rw [hAll]
    exact Node.preorder_sublist (r.remainingKeys_sublist prune skip) .root root
  · intro o ho
    exact Registry.mem_preorder_iff_remains.trans (Registry.remains_iff_not_leftOut hReached ho)

end Walk

/-- Of what the full walk visits, a pruned walk leaves out what lies below a pruned node or behind a
skipped field, and nothing else. Whether or not the full walk succeeds, the pruned one fails exactly
if a node that remains, and is not pruned itself, has a tag that is not registered or does not answer
for a visitor key; its error is then the fault of such a node, and it has visited the remaining nodes
in pre-order up to the failure. -/
theorem pruned_walk_visits_what_remains {options : ValidationOptions} {calls : List Call}
    (hr : (Builder.after options calls).finish = .ok r) (prune skip : String → Bool) (root : Node) :
    let full := Walk.tree recorder r root #[]
    let pruned := Walk.tree (pruner prune skip) r root #[]
    let all := full.state.toList.filterMap Look.visit?
    let kept := pruned.state.toList.filterMap Look.visit?
    let remaining := root.preorder (r.remainingKeys prune skip) .root
    (full.result = .ok () →
      pruned.result = .ok () ∧ kept = all.filter fun o => !leftOut prune skip all o) ∧
    ((∃ e, pruned.result = .error e) ↔ ∃ place n, r.Remains prune skip root place n ∧
      prune n.tag = false ∧ ∃ e, r.Fault n e) ∧
    (∀ e, pruned.result = .error e → ∃ place n, r.Remains prune skip root place n ∧
      prune n.tag = false ∧ r.Fault n e) ∧
    (∀ place n, (place, n) ∈ remaining ↔ r.Remains prune skip root place n) ∧
    kept <+: remaining ∧ (pruned.result = .ok () → kept = remaining) := by
  intro full pruned all kept remaining
  obtain ⟨_, _, hValidated⟩ := Builder.tables_of_finish hr
  obtain ⟨hPrefix, hWhole⟩ : kept <+: remaining ∧ (pruned.result = .ok () → kept = remaining) :=
    Walk.visits_pruner r prune skip root
  refine ⟨?_, ?_, ?_, ?_, hPrefix, hWhole⟩
  · intro hOk
    exact ⟨Walk.pruner_succeeds hOk, Walk.visits_pruner_eq_filter hValidated hOk⟩
  · constructor
    · rintro ⟨e, he⟩
      obtain ⟨place, n, hn, hPrune, hFault⟩ := Walk.fault_of_pruner he
      exact ⟨place, n, hn, hPrune, e, hFault⟩
    · rintro ⟨place, n, hn, hPrune, e, hFault⟩
      have hFails : pruned.result ≠ .ok () := Walk.pruner_fails hn hPrune hFault
      cases hResult : pruned.result with
      | ok _ => exact absurd hResult hFails
      | error e' => exact ⟨e', rfl⟩
  · intro e he
    exact Walk.fault_of_pruner he
  · intro place n
    exact Registry.mem_preorder_iff_remains

end Main

/-- A pair that does not answer for its field `rest` cannot be walked even if this field is to be
skipped. -/
theorem pruned_walk_of_brokenPair :
    (Builder.after .strict pairCalls).finish = .ok pairRegistry ∧
      ∃ e, (Walk.tree (pruner (fun _ => false) (· == "rest")) pairRegistry brokenPair
        #[]).result = .error e := by
  refine ⟨finish_pairCalls, ?_⟩
  have hFails := (pruned_walk_visits_what_remains finish_pairCalls (fun _ => false) (· == "rest")
    brokenPair).2.1
  apply hFails.mpr
  have hFault : pairRegistry.Fault brokenPair (.unknownFieldKey "Pair" "rest" .visitor) :=
    .missing (s := pairDecl.schema) rfl (by decide) rfl
  exact ⟨.root, brokenPair, .atRoot, rfl, _, hFault⟩

end TreeSchema
