import TreeSchema.Proofs.Registry.Finishing

/-!
# The order of population

Which names end up registered, and how many calls are accepted, does not depend on the order of the
calls. Which declaration a name goes to does, unless no two valid calls ask for one name: then the
tables of two orders differ only in how they enumerate their entries.
-/

namespace TreeSchema

set_option autoImplicit false

section Rivals

variable {options : ValidationOptions} {calls calls' : List Call}

/-- No two valid calls ask for the same name. -/
def Call.Unrivalled (options : ValidationOptions) (calls : List Call) : Prop :=
  (calls.filter fun c => c.Valid options).Pairwise (·.name ≠ ·.name)

instance (options : ValidationOptions) (calls : List Call) :
    Decidable (Call.Unrivalled options calls) :=
  inferInstanceAs (Decidable (List.Pairwise _ _))

theorem Call.Unrivalled.perm (h : Unrivalled options calls) (hp : calls'.Perm calls) :
    Unrivalled options calls' :=
  ((hp.filter _).pairwise_iff Ne.symm).mpr h

theorem Call.Unrivalled.name_ne {earlier later : List Call} {c : Call}
    (h : Unrivalled options (earlier ++ c :: later)) (hv : c.Valid options) :
    ∀ c' ∈ earlier, c'.Valid options → c'.name ≠ c.name := by
  intro c' hm hv'
  rw [Unrivalled, List.filter_append, List.pairwise_append] at h
  exact h.2.2 c' (by simp [hm, hv']) c (by simp [hv])

end Rivals

namespace Builder

variable {options : ValidationOptions} {calls calls' : List Call}

theorem registered_after_iff (options : ValidationOptions) (calls : List Call) (name : ChildType) :
    (after options calls).tables.Registered name ↔
      ∃ c ∈ calls, c.Valid options ∧ c.name = name := by
  rw [← Tables.resolves_iff, resolves_after]

/-- Every order of the calls accepts one call for each name that a valid call asks for. -/
theorem accepted_names_perm (options : ValidationOptions) (hp : calls'.Perm calls) :
    ((accepted options calls').map (·.name)).Perm ((accepted options calls).map (·.name)) := by
  apply (List.perm_ext_iff_of_nodup (accepted_names_nodup calls')
    (accepted_names_nodup calls)).mpr
  intro name
  simp only [List.mem_map, exists_accepted_iff, hp.mem_iff]

/-- A call without rivals is judged by its validation alone. -/
theorem outcome_of_unrivalled {earlier later : List Call} {c : Call}
    (h : Call.Unrivalled options (earlier ++ c :: later)) :
    outcome options earlier c = (c.validate options).map fun _ => () := by
  cases hv : c.validate options with
  | error e => exact outcome_of_invalid earlier hv
  | ok entry =>
    apply (outcome_eq_ok_iff earlier c).mpr
    exact ⟨⟨entry, hv⟩, h.name_ne ⟨entry, hv⟩⟩

theorem getElem?_results_of_unrivalled (h : Call.Unrivalled options calls) {i : Nat} {c : Call}
    (hc : calls[i]? = some c) :
    (results options calls)[i]? = some ((c.validate options).map fun _ => ()) := by
  rw [eq_append_of_getElem? hc] at h
  rw [getElem?_results calls hc, outcome_of_unrivalled h]

theorem accepted_of_unrivalled (h : Call.Unrivalled options calls) :
    accepted options calls = calls.filter fun c => c.Valid options := by
  induction calls using List.reverseRecOn with
  | nil => rfl
  | append_singleton calls c ih =>
    have hEarlier : Call.Unrivalled options calls := by
      rw [Call.Unrivalled, List.filter_append, List.pairwise_append] at h
      exact h.1
    have hOk : outcome options calls c = .ok () ↔ c.Valid options := by
      rw [outcome_eq_ok_iff]
      exact ⟨And.left, fun hv => ⟨hv, h.name_ne hv⟩⟩
    rw [accepted_concat, ih hEarlier, List.filter_append]
    congr 1
    by_cases hv : c.Valid options <;> simp [hOk, hv]

theorem tables_of_unrivalled (h : Call.Unrivalled options calls) (hp : calls'.Perm calls) :
    (after options calls').tables.Reorders (after options calls).tables ∧
      (after options calls').tables.warnings.Perm (after options calls).tables.warnings := by
  have hEntries : ((accepted options calls').filterMap (·.validated? options)).Perm
      ((accepted options calls).filterMap (·.validated? options)) := by
    rw [accepted_of_unrivalled h, accepted_of_unrivalled (h.perm hp)]
    exact (hp.filter _).filterMap _
  rw [tables_after, tables_after]
  exact ⟨⟨hEntries.filterMap _, hEntries.filterMap _⟩, hEntries.flatMap_right _⟩

/-- Finishing fails with one error, or it gives registries that answer and list alike. -/
def FinishAlike (b' b : Builder) : Prop :=
  (∃ e, b'.finish = .error e ∧ b.finish = .error e) ∨
    ∃ r' r, b'.finish = .ok r' ∧ b.finish = .ok r ∧ r'.tags = r.tags ∧ r'.groups = r.groups ∧
      (∀ tag, r'.lookup tag = r.lookup tag) ∧ ∀ name, r'.lookupGroup name = r.lookupGroup name

theorem finishAlike_of_reorders {b b' : Builder} (h : b'.tables.Reorders b.tables)
    (hb : b.tables.Distinct) : FinishAlike b' b := by
  have hSame := h.firstDangling?_eq hb
  unfold FinishAlike finish
  rw [hSame]
  cases b.tables.firstDangling? with
  | some e => exact .inl ⟨e, rfl, rfl⟩
  | none =>
    refine .inr ⟨⟨b'.tables⟩, ⟨b.tables⟩, rfl, rfl, ?_, ?_, h.lookup_eq hb, h.lookupGroup_eq hb⟩
    · exact congrArg (List.map (·.tag)) (h.sortedShapes_eq hb)
    · exact h.sortedGroups_eq hb

/-- Calls in two orders register the same names and accept as many calls, and what validation
refuses is refused alike. If no two valid calls ask for one name, then the two runs answer alike in
every respect but the order of the warnings. -/
theorem population_independent_of_order (options : ValidationOptions)
    (hp : calls'.Perm calls) :
    let b := after options calls
    let b' := after options calls'
    (∀ name, b'.tables.Registered name ↔ b.tables.Registered name) ∧
    (accepted options calls').length = (accepted options calls).length ∧
    (∀ (c : Call) (e : SchemaError), c.validate options = .error e →
      (∀ i : Nat, calls[i]? = some c → (results options calls)[i]? = some (.error e)) ∧
      ∀ i : Nat, calls'[i]? = some c → (results options calls')[i]? = some (.error e)) ∧
    (Call.Unrivalled options calls →
      (∀ (i j : Nat) (c : Call), calls[i]? = some c → calls'[j]? = some c →
        (results options calls)[i]? = (results options calls')[j]?) ∧
      (∀ tag, b'.tables.lookup tag = b.tables.lookup tag) ∧
      b'.tables.warnings.Perm b.tables.warnings ∧ FinishAlike b' b) := by
  intro b b'
  refine ⟨?_, ?_, ?_, ?_⟩
  · intro name
    simp only [b, b', registered_after_iff, hp.mem_iff]
  · have hNames := (accepted_names_perm options hp).length_eq
    simpa only [List.length_map] using hNames
  · intro c e hv
    constructor
    · intro i hc
      rw [getElem?_results calls hc, outcome_of_invalid _ hv]
    · intro i hc
      rw [getElem?_results calls' hc, outcome_of_invalid _ hv]
  · intro hUnrivalled
    have hDistinct : b.tables.Distinct := after_distinct calls
    obtain ⟨hTables, hWarnings⟩ := tables_of_unrivalled hUnrivalled hp
    refine ⟨?_, hTables.lookup_eq hDistinct, hWarnings, finishAlike_of_reorders hTables hDistinct⟩
    intro i j c hi hj
    rw [getElem?_results_of_unrivalled hUnrivalled hi,
      getElem?_results_of_unrivalled (hUnrivalled.perm hp) hj]

end Builder

theorem population_of_danglingCalls_reversed :
    Call.Unrivalled .strict danglingCalls ∧
      (Builder.accepted .strict danglingCalls.reverse).length =
        (Builder.accepted .strict danglingCalls).length ∧
      ∀ tag, (Builder.after .strict danglingCalls.reverse).tables.lookup tag =
        (Builder.after .strict danglingCalls).tables.lookup tag := by
  have hUnrivalled : Call.Unrivalled .strict danglingCalls := by decide
  obtain ⟨_, hLength, _, hSame⟩ := Builder.population_independent_of_order .strict
    (List.reverse_perm danglingCalls)
  exact ⟨hUnrivalled, hLength, (hSame hUnrivalled).2.1⟩

end TreeSchema
