import TreeSchema.Registry.Builder

/-!
# The process-wide registry

A slot that takes a finished registry once and keeps it.
-/

namespace TreeSchema

set_option autoImplicit false

structure Slot where
  installed : Option Registry := none
deriving DecidableEq

structure Installation where
  result : Except SchemaError Registry
  slot : Slot
  log : List Event

namespace Slot

/-- Installs a registry into an empty slot. A filled slot refuses and stays as it is. -/
def install (s : Slot) (r : Registry) : Installation :=
  match s.installed with
  | some _ => ⟨.error .alreadyInstalled, s, []⟩
  | none => ⟨.ok r, ⟨some r⟩, [.registryInstalled r.size]⟩

end Slot

end TreeSchema
