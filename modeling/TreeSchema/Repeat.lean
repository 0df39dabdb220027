/-!
# The first repetition in a list

Declarations are refused at the first name that has stood before. Of several repeated names this is
the one whose second occurrence comes first.
-/

namespace TreeSchema

set_option autoImplicit false

/-- The first element of `xs` that is among `seen` or has stood earlier in `xs`. -/
def firstRepeatAfter? {α : Type} [DecidableEq α] (seen : List α) : List α → Option α
  | [] => none
  | x :: xs => if x ∈ seen then some x else firstRepeatAfter? (x :: seen) xs

def firstRepeat? {α : Type} [DecidableEq α] (xs : List α) : Option α :=
  firstRepeatAfter? [] xs

variable {α : Type} [DecidableEq α]

theorem firstRepeatAfter?_eq_none_iff (seen xs : List α) :
    firstRepeatAfter? seen xs = none ↔ xs.Nodup ∧ ∀ x ∈ xs, x ∉ seen := by
  induction xs generalizing seen with
  | nil => simp [firstRepeatAfter?]
  | cons x xs ih =>
    by_cases hx : x ∈ seen
    · simp [firstRepeatAfter?, hx]
    · simp only [firstRepeatAfter?, if_neg hx, ih, List.nodup_cons, List.mem_cons, not_or]
      constructor
      · rintro ⟨hn, h⟩
        refine ⟨⟨fun hm => (h x hm).1 rfl, hn⟩, ?_⟩
        rintro y (rfl | hy)
        · exact hx
        · exact (h y hy).2
      · rintro ⟨⟨hm, hn⟩, h⟩
        exact ⟨hn, fun y hy => ⟨fun e => hm (e ▸ hy), h y (Or.inr hy)⟩⟩

theorem firstRepeat?_eq_none_iff (xs : List α) : firstRepeat? xs = none ↔ xs.Nodup := by
  simp [firstRepeat?, firstRepeatAfter?_eq_none_iff]

theorem firstRepeatAfter?_eq_some_iff (seen xs : List α) (x : α) :
    firstRepeatAfter? seen xs = some x ↔ ∃ earlier later, xs = earlier ++ x :: later ∧
      firstRepeatAfter? seen earlier = none ∧ x ∈ earlier ++ seen := by
  induction xs generalizing seen with
  | nil => simp [firstRepeatAfter?]
  | cons y xs ih =>
    simp only [List.cons_eq_append_iff]
    by_cases hy : y ∈ seen
    · simp only [firstRepeatAfter?, if_pos hy, Option.some.injEq]
      constructor
      · rintro rfl
        exact ⟨[], xs, .inl ⟨rfl, rfl⟩, rfl, hy⟩
      · rintro ⟨_, later, ⟨rfl, hSplit⟩ | ⟨earlier, rfl, _⟩, hNone, _⟩
        · exact (List.cons.inj hSplit).1.symm
        · simp [firstRepeatAfter?, hy] at hNone
    · simp only [firstRepeatAfter?, if_neg hy, ih]
      constructor
      · rintro ⟨earlier, later, rfl, hNone, hx⟩
        refine ⟨y :: earlier, later, .inr ⟨earlier, rfl, rfl⟩, ?_, ?_⟩
        · simpa only [firstRepeatAfter?, if_neg hy] using hNone
        · exact List.perm_middle.mem_iff.mp hx
      · rintro ⟨_, later, ⟨rfl, hSplit⟩ | ⟨earlier, rfl, rfl⟩, hNone, hx⟩
        · obtain ⟨rfl, _⟩ := List.cons.inj hSplit
          exact absurd hx hy
        · refine ⟨earlier, later, rfl, ?_, List.perm_middle.mem_iff.mpr hx⟩
          simpa only [firstRepeatAfter?, if_neg hy] using hNone

/-- The first repetition is an element that stands already among those before it, while these are
distinct. -/
theorem firstRepeat?_eq_some_iff (xs : List α) (x : α) :
    firstRepeat? xs = some x ↔
      ∃ earlier later, xs = earlier ++ x :: later ∧ earlier.Nodup ∧ x ∈ earlier := by
  simp [firstRepeat?, firstRepeatAfter?_eq_some_iff, firstRepeatAfter?_eq_none_iff]

end TreeSchema
