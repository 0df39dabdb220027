/-!
# Places in a tree

An occurrence of a node in a tree is named by the way from the root to it: which field, and which of
the field's nodes, at each step.
-/

namespace TreeSchema

set_option autoImplicit false

/-- One step down: a field, and the position among the nodes that it holds. -/
structure Step where
  field : String
  index : Nat
deriving DecidableEq

structure Place where
  /-- The steps, the last one first. -/
  steps : List Step
  depth : Nat
  depth_eq : depth = steps.length

namespace Place

def root : Place where
  steps := []
  depth := 0
  depth_eq := rfl

def child (p : Place) (field : String) (index : Nat) : Place where
  steps := ⟨field, index⟩ :: p.steps
  depth := p.depth + 1
  depth_eq := by rw [p.depth_eq, List.length_cons]

@[ext] theorem ext {p q : Place} (h : p.steps = q.steps) : p = q := by
  cases p with
  | mk steps depth hp =>
    cases q with
    | mk steps' depth' hq =>
      simp only at h
      subst h
      simp [hp, hq]

instance : DecidableEq Place := fun p q =>
  decidable_of_iff (p.steps = q.steps) ⟨Place.ext, fun h => by rw [h]⟩

@[simp] theorem root_steps : root.steps = [] := rfl

@[simp] theorem child_steps (p : Place) (field : String) (index : Nat) :
    (p.child field index).steps = ⟨field, index⟩ :: p.steps := rfl

end Place

end TreeSchema
