import TreeSchema.Binding
import TreeSchema.Modules.Catalog
import TreeSchema.Node.Text
import TreeSchema.Registry.Slot
import TreeSchema.Specimen.Nested
import TreeSchema.Walk.Lemmas
import TreeSchema.Walk.Recorder
import TreeSchema.Proofs.Registry.Population
import TreeSchema.Proofs.Registry.References
import TreeSchema.Proofs.Walk.Itinerary
import TreeSchema.Proofs.Walk.Typing
import TreeSchema.Proofs.Walk.Coverage
import TreeSchema.Proofs.Walk.Reach
import TreeSchema.Proofs.Walk.Collection
import TreeSchema.Proofs.Walk.Influence
import TreeSchema.Proofs.Modules.Piece
import TreeSchema.Proofs.Modules.Hosting
import TreeSchema.Proofs.Modules.ImportSites
import TreeSchema.Proofs.Registry.Finishing
import TreeSchema.Proofs.Registry.OrderIndependence
import TreeSchema.Proofs.Registry.Interleaving
import TreeSchema.Proofs.Schema.KeyOrder
import TreeSchema.Proofs.Schema.Violation
import TreeSchema.Proofs.Registry.LintLevels
import TreeSchema.Proofs.Registry.Installation
import TreeSchema.Proofs.Walk.Extension
import TreeSchema.Proofs.Walk.Account
import TreeSchema.Proofs.Walk.Failure
import TreeSchema.Proofs.Walk.Pruning
import TreeSchema.Proofs.Walk.Sites
import TreeSchema.Proofs.Shape.Agreement
import TreeSchema.Proofs.Shape.Families
import TreeSchema.Proofs.Modules.Admission
import TreeSchema.Proofs.Log.Fidelity
import TreeSchema.Proofs.Modules.ExportedNames
import TreeSchema.Proofs.Schema.Index
import TreeSchema.Proofs.Schema.Dump
import TreeSchema.Proofs.Schema.Marking
