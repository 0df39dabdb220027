import TreeSchema.Walk.Basic

/-!
# Visitors that write down what they see

The tag recorder watches nodes, the field recorder fields, and the recorder both, with all that it
is shown. The survey adds counts, the greatest depth, and a choice of what to step over and where to
stop.
-/

namespace TreeSchema

set_option autoImplicit false

def passive : Visitor Unit := {}

def tagRecorder : Visitor (Array String) where
  onNode _ n tags := (.descend, tags.push n.tag)

def fieldRecorder : Visitor (Array String) where
  onField _ owner name _ seen := (.descend, seen.push (owner.tag ++ "." ++ name))

/-- One look of a visitor, with all that it is shown. -/
inductive Look where
  | node (place : Place) (node : Node)
  | field (place : Place) (owner : Node) (name : String) (value : FieldValue Node)

def recorder : Visitor (Array Look) where
  onNode place n looks := (.descend, looks.push (.node place n))
  onField place owner name value looks := (.descend, looks.push (.field place owner name value))

inductive Sight where
  | node (tag : String)
  /-- A field: the tag of its owner, its name, the variant of its contents, and the number of nodes
  in it. -/
  | field (owner name variant : String) (count : Nat)
deriving DecidableEq

structure Findings where
  sights : Array Sight := #[]
  nodes : Nat := 0
  fields : Nat := 0
  /-- The greatest number of nodes on the way from the root to a node that was descended into. -/
  maxDepth : Nat := 0

structure SurveyPlan where
  /-- Nodes of these tags are seen but not entered. -/
  prune : List String := []
  /-- Fields of these names are seen but not entered. -/
  skip : List String := []
  abortAt : Option String := none

def survey (plan : SurveyPlan) : Visitor Findings where
  onNode place n found :=
    let found := { found with
      nodes := found.nodes + 1
      sights := found.sights.push (.node n.tag) }
    if plan.abortAt = some n.tag then (.fail (.unexpectedNodeTag "(nothing)" n.tag), found)
    else if plan.prune.contains n.tag then (.skip, found)
    else (.descend, { found with maxDepth := max found.maxDepth (place.depth + 1) })
  onField _ owner name value found :=
    let found := { found with
      fields := found.fields + 1
      sights := found.sights.push
        (.field owner.tag name value.variant value.children.length) }
    (if plan.skip.contains name then .skip else .descend, found)

end TreeSchema
