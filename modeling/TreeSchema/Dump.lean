/-!
# Dumps for tooling

A schema can be written out for other tools as a small document of labelled values.
-/

namespace TreeSchema

set_option autoImplicit false

inductive Dump where
  | null
  | flag (value : Bool)
  | text (value : String)
  | list (items : List Dump)
  | record (fields : List (String × Dump))

namespace Dump

/-- A named value around another one, written as a record with a single field. -/
def applied (name : String) (inner : Dump) : Dump :=
  .record [(name, inner)]

def texts (values : List String) : Dump :=
  .list (values.map .text)

end Dump

end TreeSchema
