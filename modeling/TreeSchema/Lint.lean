import TreeSchema.Text.Inspect

/-!
# Lint levels

A child field that no walk enters is legal but suspicious. The lint level says what validation does
about it.
-/

namespace TreeSchema

set_option autoImplicit false

inductive LintLevel where
  | allow
  | warn
  | deny
deriving DecidableEq

instance : Inspect LintLevel where
  inspect
    | .allow => "Allow"
    | .warn => "Warn"
    | .deny => "Deny"

structure ValidationOptions where
  untraversedChild : LintLevel := .warn
deriving DecidableEq

namespace ValidationOptions

/-- Settings that refuse what the default settings warn about. -/
def strict : ValidationOptions where
  untraversedChild := .deny

instance : Inspect ValidationOptions where
  inspect o := Text.record "ValidationOptions" [("untraversed_child", inspect o.untraversedChild)]

end ValidationOptions

end TreeSchema
