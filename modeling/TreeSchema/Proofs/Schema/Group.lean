import Mathlib.Data.List.Nodup
import TreeSchema.Group

/-!
# Which groups are accepted

A group needs a member and may list none twice. Among several members that are listed again, the
refusal names the one whose second occurrence comes first; its first occurrence need not.
-/

namespace TreeSchema

set_option autoImplicit false

section Repetition

variable {α : Type}

/-- At this position stands an element that stands at an earlier position too. -/
def RepeatsAt (xs : List α) (i : Nat) (x : α) : Prop :=
  xs[i]? = some x ∧ ∃ j < i, xs[j]? = some x

theorem nodup_iff_not_repeatsAt (xs : List α) : xs.Nodup ↔ ∀ i x, ¬ RepeatsAt xs i x := by
  rw [List.nodup_iff_getElem?_ne_getElem?]
  constructor
  · rintro h i x ⟨hi, j, hj, hx⟩
    have hLt : i < xs.length := (List.getElem?_eq_some_iff.mp hi).1
    exact h j i hj hLt (hx.trans hi.symm)
  · intro h i j hij hj hEq
    have hx := List.getElem?_eq_getElem hj
    exact h j _ ⟨hx, i, hij, hEq.trans hx⟩

theorem repeatsAt_take {xs : List α} {i k : Nat} (hk : k < i) (x : α) :
    RepeatsAt (xs.take i) k x ↔ RepeatsAt xs k x := by
  have hTake : ∀ j ≤ k, (xs.take i)[j]? = xs[j]? := by
    intro j hj
    exact List.getElem?_take_of_lt (by omega)
  unfold RepeatsAt
  rw [hTake k (Nat.le_refl k)]
  apply and_congr Iff.rfl
  apply exists_congr
  intro j
  apply and_congr_right
  intro hj
  rw [hTake j (Nat.le_of_lt hj)]

theorem nodup_take_iff (xs : List α) (i : Nat) :
    (xs.take i).Nodup ↔ ∀ k x, RepeatsAt xs k x → i ≤ k := by
  rw [nodup_iff_not_repeatsAt]
  constructor
  · intro h k x hk
    by_contra hLt
    exact h k x ((repeatsAt_take (by omega) x).mpr hk)
  · intro h k x hk
    have hLt : k < (xs.take i).length := (List.getElem?_eq_some_iff.mp hk.1).1
    rw [List.length_take] at hLt
    have hLe := h k x ((repeatsAt_take (by omega) x).mp hk)
    omega

/-- The search for a repetition finds the element at the first position that repeats. -/
theorem firstRepeat?_eq_some_iff_repeatsAt [DecidableEq α] (xs : List α) (x : α) :
    firstRepeat? xs = some x ↔
      ∃ i, RepeatsAt xs i x ∧ ∀ k y, RepeatsAt xs k y → i ≤ k := by
  rw [firstRepeat?_eq_some_iff]
  constructor
  · rintro ⟨earlier, later, rfl, hDistinct, hm⟩
    obtain ⟨j, hj⟩ := List.mem_iff_getElem?.mp hm
    have hLt : j < earlier.length := (List.getElem?_eq_some_iff.mp hj).1
    refine ⟨earlier.length, ⟨by simp, j, hLt, ?_⟩, ?_⟩
    · rw [List.getElem?_append_left hLt]
      exact hj
    · apply (nodup_take_iff _ _).mp
      rw [List.take_left]
      exact hDistinct
  · rintro ⟨i, ⟨hi, j, hj, hx⟩, hFirst⟩
    obtain ⟨hLt, hGet⟩ := List.getElem?_eq_some_iff.mp hi
    refine ⟨xs.take i, xs.drop (i + 1), ?_, ?_, ?_⟩
    · rw [← hGet, ← List.drop_eq_getElem_cons hLt, List.take_append_drop]
    · exact (nodup_take_iff xs i).mpr hFirst
    · apply List.mem_of_getElem? (i := j)
      rw [List.getElem?_take_of_lt hj]
      exact hx

end Repetition

theorem GroupSchema.contains_iff (g : GroupSchema) (tag : String) :
    g.contains tag = true ↔ tag ∈ g.members := by
  simp [contains]

namespace GroupDecl

theorem validate_eq_ok_iff (g : GroupDecl) (s : GroupSchema) :
    g.validate = .ok s ↔
      g.members ≠ [] ∧ g.members.Nodup ∧ s = { name := g.name, members := g.members } := by
  rw [← firstRepeat?_eq_none_iff]
  unfold validate
  by_cases hEmpty : g.members = []
  · simp [hEmpty]
  · cases firstRepeat? g.members <;> simp [hEmpty, eq_comm]

theorem validate_eq_error_iff (g : GroupDecl) (e : SchemaError) :
    g.validate = .error e ↔
      g.members = [] ∧ e = .emptyVariantGroup g.name ∨
      ∃ member, firstRepeat? g.members = some member ∧
        e = .duplicateGroupMember g.name member := by
  unfold validate
  by_cases hEmpty : g.members = []
  · simp [hEmpty, firstRepeat?, firstRepeatAfter?, eq_comm]
  · cases firstRepeat? g.members <;> simp [hEmpty, eq_comm]

/-- A group is accepted exactly if it has members and lists none twice, and it is kept as declared.
Otherwise it is refused for having none, or for the member at the first position that repeats. -/
theorem validate_accepts_distinct_members (g : GroupDecl) :
    ((∃ s, g.validate = .ok s) ↔ g.members ≠ [] ∧ g.members.Nodup) ∧
    (∀ s, g.validate = .ok s → s.name = g.name ∧ s.members = g.members ∧
      ∀ tag, s.contains tag = true ↔ tag ∈ g.members) ∧
    (∀ e, g.validate = .error e ↔
      g.members = [] ∧ e = .emptyVariantGroup g.name ∨
      ∃ i member, RepeatsAt g.members i member ∧
        (∀ k other, RepeatsAt g.members k other → i ≤ k) ∧
        e = .duplicateGroupMember g.name member) := by
  refine ⟨?_, ?_, ?_⟩
  · simp only [validate_eq_ok_iff]
    constructor
    · rintro ⟨_, hMembers, hDistinct, _⟩
      exact ⟨hMembers, hDistinct⟩
    · rintro ⟨hMembers, hDistinct⟩
      exact ⟨_, hMembers, hDistinct, rfl⟩
  · intro s h
    obtain ⟨_, _, rfl⟩ := (validate_eq_ok_iff g s).mp h
    exact ⟨rfl, rfl, GroupSchema.contains_iff _⟩
  · intro e
    rw [validate_eq_error_iff]
    apply or_congr Iff.rfl
    simp only [firstRepeat?_eq_some_iff_repeatsAt]
    constructor
    · rintro ⟨member, ⟨i, hi, hFirst⟩, he⟩
      exact ⟨i, member, hi, hFirst, he⟩
    · rintro ⟨i, member, hi, hFirst, he⟩
      exact ⟨member, ⟨i, hi, hFirst⟩, he⟩

-- "Leaf" stands first, but "Twig" is the first to stand a second time.
example : (GroupDecl.mk "Any" ["Leaf", "Twig", "Twig", "Leaf"]).validate =
    .error (.duplicateGroupMember "Any" "Twig") := by
  decide

end GroupDecl

end TreeSchema
