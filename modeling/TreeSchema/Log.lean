import TreeSchema.Error

/-!
# What is logged

Operations report what they did as events. An event becomes a log line with a level, a message,
labelled texts, and the spans of work in which it happened, outermost first.
-/

namespace TreeSchema

set_option autoImplicit false

inductive LogLevel where
  | trace
  | debug
  | warn
deriving DecidableEq

inductive LogSource where
  | registry
  | walker
  | installation
deriving DecidableEq

structure Span where
  name : String
  labels : List (String × String) := []
deriving DecidableEq

structure LogLine where
  level : LogLevel
  source : LogSource
  message : String
  spans : List Span
  labels : List (String × String)
deriving DecidableEq

/-- Places a line inside an outer span. -/
def LogLine.within (span : Span) (line : LogLine) : LogLine :=
  { line with spans := span :: line.spans }

inductive Event where
  | shapeLint (tag : String) (warning : SchemaWarning)
  | shapeRegistered (tag : String)
  | groupRegistered (name : String) (members : Nat)
  | registryFinished (shapes groups warnings : Nat)
  /-- A walk opened a node whose schema it found. -/
  | nodeOpened (tag : String)
  | registryInstalled (shapes : Nat)
deriving DecidableEq

def Event.line : Event → LogLine
  | .shapeLint tag warning =>
    { level := .warn, source := .registry, message := "node shape lint",
      spans := [⟨"register", [("tag", tag)]⟩], labels := [("warning", warning.message)] }
  | .shapeRegistered tag =>
    { level := .debug, source := .registry, message := "registered node shape",
      spans := [⟨"register", [("tag", tag)]⟩], labels := [] }
  | .groupRegistered name members =>
    { level := .debug, source := .registry, message := "registered variant group",
      spans := [⟨"register_group", [("group", name)]⟩],
      labels := [("members", toString members)] }
  | .registryFinished shapes groups warnings =>
    { level := .debug, source := .registry, message := "node registry finished",
      spans := [⟨"finish", []⟩],
      labels := [("shapes", toString shapes), ("groups", toString groups),
        ("warnings", toString warnings)] }
  | .nodeOpened tag =>
    { level := .trace, source := .walker, message := "walk node", spans := [],
      labels := [("tag", tag)] }
  | .registryInstalled shapes =>
    { level := .debug, source := .installation, message := "installed process-wide node registry",
      spans := [], labels := [("shapes", toString shapes)] }

end TreeSchema
