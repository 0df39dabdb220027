import Mathlib.Data.List.Flatten
import TreeSchema.Proofs.Modules.Hosting

/-!
# The names that an export declaration passes on

An export declaration knows these names itself, by a match on its specifiers. A reader of nodes
finds them again without knowing any of the shapes: through the field `specifiers`, the field
`exported` of each node in it, and a cast. A walk under the catalog comes by the same identifiers in
the same order, among others, and ends at the source.
-/

namespace TreeSchema

set_option autoImplicit false

/-- The child in a field that holds a single one. -/
def Node.single? (n : Node) (field : String) : Option Node :=
  match n.field? field with
  | some (.node c) => some c
  | _ => none

namespace Modules

/-- The name of the identifier that a node was made from. -/
def identifierName? (n : Node) : Option String :=
  (Shape.cast n).toOption.map fun (i : Identifier) => i.name

/-- The nodes in the field `exported` of some specifiers, with their places in the declaration. -/
def exportedOccurrences (specifiers : List Node) : List (Place × Node) :=
  specifiers.zipIdx.filterMap fun s =>
    (s.1.single? "exported").map fun c =>
      ((Place.root.child "specifiers" s.2).child "exported" 0, c)

theorem identifierName?_toNode (i : Identifier) : identifierName? (toNode i) = some i.name := by
  simp [identifierName?, Shape.cast, Except.toOption]

theorem AnyExportExternalSpecifier.single?_toNode (s : AnyExportExternalSpecifier) :
    (toNode s).single? "exported" = some (toNode s.exported) := by
  cases s <;> rfl

theorem exportedOccurrences_map_toNode (specifiers : List AnyExportExternalSpecifier) :
    exportedOccurrences (specifiers.map toNode) = specifiers.zipIdx.map fun s =>
      ((Place.root.child "specifiers" s.2).child "exported" 0, toNode s.1.exported) := by
  rw [exportedOccurrences, List.zipIdx_map, List.filterMap_map]
  apply List.filterMap_eq_map_iff_forall_eq_some.mpr
  intro s _
  simp [AnyExportExternalSpecifier.single?_toNode]

theorem names_exportedOccurrences (specifiers : List AnyExportExternalSpecifier) :
    (exportedOccurrences (specifiers.map toNode)).map (fun o => identifierName? o.2) =
      specifiers.map fun s => some s.exported.name := by
  calc (exportedOccurrences (specifiers.map toNode)).map (fun o => identifierName? o.2)
      = specifiers.zipIdx.map fun s => some s.1.exported.name := by
        rw [exportedOccurrences_map_toNode, List.map_map]
        apply List.map_congr_left
        intro s _
        exact identifierName?_toNode s.1.exported
    _ = (specifiers.zipIdx.map Prod.fst).map fun s => some s.exported.name := by
        rw [List.map_map]
        rfl
    _ = specifiers.map fun s => some s.exported.name := by
        rw [List.zipIdx_map_fst]

namespace Piece

theorem mem_preorder_of_field {p c : Piece} {f : String × List Piece} {i : Nat}
    (hf : f ∈ p.fields) (hc : f.2[i]? = some c) (place : Place) :
    (place.child f.1 i, c) ∈ p.preorder place := by
  rw [preorder_eq]
  apply List.mem_cons_of_mem
  apply List.mem_flatMap.mpr
  refine ⟨f, hf, List.mem_flatMap.mpr ⟨(c, i), List.mem_zipIdx_iff_getElem?.mpr hc, ?_⟩⟩
  rw [preorder_eq]
  exact List.mem_cons_self

theorem exported_mem_preorder (s : AnyExportExternalSpecifier) (place : Place) :
    (place.child "exported" 0, identifier s.exported) ∈ (ofExportSpecifier s).preorder place := by
  have hField : ("exported", [identifier s.exported]) ∈ (ofExportSpecifier s).fields := by
    cases s <;> simp [ofExportSpecifier, fields, AnyExportExternalSpecifier.exported]
  exact mem_preorder_of_field hField rfl place

theorem preorder_stringLiteral (s : StringLiteral) (place : Place) :
    (stringLiteral s).preorder place = [(place, stringLiteral s)] := by
  rw [preorder_eq]
  rfl

theorem preorder_exportDeclaration (d : ExportExternalDeclaration) :
    (exportDeclaration d).preorder .root =
      (Place.root, exportDeclaration d) ::
        ((d.specifiers.getD []).zipIdx.flatMap fun s =>
          (ofExportSpecifier s.1).preorder (Place.root.child "specifiers" s.2)) ++
        [(Place.root.child "source" 0, stringLiteral d.source)] := by
  rw [preorder_eq]
  simp [fields, List.zipIdx_map, List.flatMap_map, preorder_stringLiteral]

theorem exported_sublist_preorder (d : ExportExternalDeclaration) :
    ((d.specifiers.getD []).zipIdx.map fun s =>
      ((Place.root.child "specifiers" s.2).child "exported" 0, identifier s.1.exported)).Sublist
      ((exportDeclaration d).preorder .root) := by
  rw [preorder_exportDeclaration, List.map_eq_flatMap]
  apply List.Sublist.trans _ (List.sublist_append_left _ _)
  apply List.Sublist.cons
  apply List.Sublist.flatMap_right
  intro s _
  exact List.singleton_sublist.mpr (exported_mem_preorder s.1 _)

end Piece

/-- The names that a declaration passes on are those of the identifiers that its nodes lead to, in
the same order. A walk under the catalog visits each of these occurrences, in this order, and visits
the source last. -/
theorem exportedNames_found_on_walk (d : ExportExternalDeclaration) :
    ∃ own value, catalog = .ok own ∧ (toNode d).field? "specifiers" = some value ∧
      let walk := Walk.tree recorder own (toNode d) #[]
      let visited := walk.state.toList.filterMap Look.visit?
      let occurrences := exportedOccurrences value.children
      walk.result = .ok () ∧
      value.children.map (fun s => (s.single? "exported").bind identifierName?) =
        d.exportedNames.map some ∧
      occurrences.map (fun o => identifierName? o.2) = d.exportedNames.map some ∧
      occurrences.Sublist visited ∧
      d.exportedNames.Sublist (visited.filterMap fun o => identifierName? o.2) ∧
      visited.getLast? = some (Place.root.child "source" 0, toNode d.source) := by
  obtain ⟨own, hOwn, hHosts⟩ := exists_catalog
  refine ⟨own, Content.toValue d.specifiers, hOwn, rfl, ?_⟩
  intro walk visited occurrences
  obtain ⟨hOk, hVisited⟩ : walk.result = .ok () ∧ visited = _ :=
    (Piece.exportDeclaration d).walk_node hHosts
  have hChildren := Piece.children_toValue_optional d.specifiers
  have hNames : occurrences.map (fun o => identifierName? o.2) = d.exportedNames.map some := by
    simp only [occurrences, hChildren, names_exportedOccurrences,
      ExportExternalDeclaration.exportedNames, List.map_map, Function.comp_def]
  have hSublist : occurrences.Sublist visited := by
    have hPieces := (Piece.exported_sublist_preorder d).map fun o => (o.1, o.2.node)
    rw [← hVisited, List.map_map] at hPieces
    simp only [occurrences, hChildren, exportedOccurrences_map_toNode]
    exact hPieces
  refine ⟨hOk, ?_, hNames, hSublist, ?_, ?_⟩
  · simp only [hChildren, ExportExternalDeclaration.exportedNames, List.map_map, Function.comp_def,
      AnyExportExternalSpecifier.single?_toNode, Option.bind_some, identifierName?_toNode]
  · have hFound : occurrences.filterMap (fun o => identifierName? o.2) = d.exportedNames := by
      calc occurrences.filterMap (fun o => identifierName? o.2)
          = (occurrences.map fun o => identifierName? o.2).filterMap id := by
            rw [List.filterMap_map, Function.id_comp]
        _ = (d.exportedNames.map some).filterMap id := by rw [hNames]
        _ = d.exportedNames := by simp
    rw [← hFound]
    exact hSublist.filterMap _
  · rw [hVisited, Piece.preorder_exportDeclaration, List.map_append, List.map_singleton,
      List.getLast?_concat]
    rfl

end Modules

end TreeSchema
