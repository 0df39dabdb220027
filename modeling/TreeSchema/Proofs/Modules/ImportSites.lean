import TreeSchema.Proofs.Modules.Hosting

/-!
# The names that a program binds

In module syntax only import specifiers bind names, one each. What the collection finds in a program
through nodes, schemas and visitor keys is therefore what can be read off the program itself: go
through its import declarations, and through the specifiers of each.
-/

namespace TreeSchema.Modules

set_option autoImplicit false

def AnyImportSpecifier.shapeTag : AnyImportSpecifier → String
  | .default _ => "ImportDefaultSpecifier"
  | .whole _ => "ImportNamespaceSpecifier"
  | .single _ => "ImportSpecifier"

/-- The import specifiers of a declaration that stands at `place`, in order, with their places. -/
def ImportDeclaration.imports (place : Place) (d : ImportDeclaration) :
    List (Place × AnyImportSpecifier) :=
  (d.specifiers.getD []).zipIdx.map fun s => (place.child "specifiers" s.2, s.1)

/-- The import specifiers of a program, in the order of the source, with their places. -/
def Program.imports (p : Program) : List (Place × AnyImportSpecifier) :=
  p.body.zipIdx.flatMap fun s =>
    match s.1 with
    | .imports d => d.imports (Place.root.child "body" s.2)
    | .exports _ => []

def importSite (place : Place) (s : AnyImportSpecifier) : BindingSite where
  owner := toNode s
  place := place
  field := "local"
  kind := .imported
  index := 0
  node := toNode s.localName

namespace Piece

/-- The binding sites of a piece and of all pieces below it. -/
def bindings (place : Place) (p : Piece) : List BindingSite :=
  (p.preorder place).flatMap fun o => o.2.sites o.1

theorem bindings_eq (place : Place) (p : Piece) :
    p.bindings place = p.sites place ++ p.fields.flatMap fun f =>
      f.2.zipIdx.flatMap fun c => c.1.bindings (place.child f.1 c.2) := by
  rw [bindings, preorder_eq, List.flatMap_cons, List.flatMap_assoc]
  congr 1
  apply List.flatMap_congr
  intro f _
  rw [List.flatMap_assoc]
  rfl

theorem bindings_of_leaf {p : Piece} (h : p.height = 0) (place : Place) :
    p.bindings place = [] := by
  rw [bindings_eq]
  cases p with
  | identifier => rfl
  | bindingIdentifier => rfl
  | stringLiteral => rfl
  | _ => simp [height] at h

theorem bindings_eq_sites {p : Piece}
    (h : ∀ f ∈ p.fields, ∀ c ∈ f.2, ∀ place, c.bindings place = []) (place : Place) :
    p.bindings place = p.sites place := by
  have hBelow : (p.fields.flatMap fun f =>
      f.2.zipIdx.flatMap fun c => c.1.bindings (place.child f.1 c.2)) = [] := by
    apply List.flatMap_eq_nil_iff.mpr
    intro f hf
    apply List.flatMap_eq_nil_iff.mpr
    intro c hc
    exact h f hf c.1 (List.fst_mem_of_mem_zipIdx hc) _
  rw [bindings_eq, hBelow, List.append_nil]

theorem bindings_of_height_eq_one {p : Piece} (h : p.height = 1) (place : Place) :
    p.bindings place = p.sites place := by
  apply bindings_eq_sites
  intro f hf c hc
  have hLower := height_lt_of_mem f hf c hc
  apply bindings_of_leaf
  omega

theorem bindings_ofExportSpecifier (s : AnyExportExternalSpecifier) (place : Place) :
    (ofExportSpecifier s).bindings place = [] := by
  rw [bindings_of_height_eq_one (height_ofExportSpecifier s)]
  cases s <;> rfl

theorem bindings_ofImportSpecifier (s : AnyImportSpecifier) (place : Place) :
    (ofImportSpecifier s).bindings place = [importSite place s] := by
  rw [bindings_of_height_eq_one (height_ofImportSpecifier s)]
  cases s <;> rfl

theorem bindings_exportDeclaration (d : ExportExternalDeclaration) (place : Place) :
    (exportDeclaration d).bindings place = [] := by
  rw [bindings_eq_sites]
  · rfl
  · have hSource : ∀ place, (stringLiteral d.source).bindings place = [] := bindings_of_leaf rfl
    simp [fields, bindings_ofExportSpecifier, hSource]

theorem flatMap_bindings_map {α : Type} (g : α → Piece) (xs : List α) (placeAt : Nat → Place) :
    ((xs.map g).zipIdx.flatMap fun c => c.1.bindings (placeAt c.2)) =
      xs.zipIdx.flatMap fun c => (g c.1).bindings (placeAt c.2) := by
  rw [List.zipIdx_map, List.flatMap_map]
  rfl

theorem bindings_importDeclaration (d : ImportDeclaration) (place : Place) :
    (importDeclaration d).bindings place = (d.imports place).map fun o => importSite o.1 o.2 := by
  have hOwn : (importDeclaration d).sites place = [] := rfl
  have hSource : (stringLiteral d.source).bindings (place.child "source" 0) = [] :=
    bindings_of_leaf rfl _
  rw [bindings_eq, hOwn, ImportDeclaration.imports, List.map_map, List.map_eq_flatMap]
  simp [fields, flatMap_bindings_map, bindings_ofImportSpecifier, hSource]

theorem bindings_program (p : Program) :
    (program p).bindings .root = p.imports.map fun o => importSite o.1 o.2 := by
  have hOwn : (program p).sites .root = [] := rfl
  rw [bindings_eq, hOwn, Program.imports, List.map_flatMap]
  simp only [fields, List.flatMap_cons, List.flatMap_nil, flatMap_bindings_map, List.zipIdx_nil,
    List.nil_append, List.append_nil]
  apply List.flatMap_congr
  rintro ⟨statement, i⟩ _
  cases statement with
  | imports d => exact bindings_importDeclaration d _
  | exports d => exact bindings_exportDeclaration d _

end Piece

theorem Program.exists_of_mem_imports {p : Program} {place : Place} {s : AnyImportSpecifier}
    (h : (place, s) ∈ p.imports) : ∃ (i j : Nat) (d : ImportDeclaration),
      p.body[i]? = some (.imports d) ∧ (d.specifiers.getD [])[j]? = some s ∧
        place = (Place.root.child "body" i).child "specifiers" j := by
  obtain ⟨⟨statement, i⟩, hStatement, h⟩ := List.mem_flatMap.mp h
  have hAt := List.mem_zipIdx_iff_getElem?.mp hStatement
  cases statement with
  | exports d => cases h
  | imports d =>
    obtain ⟨⟨s', j⟩, hs, hEq⟩ := List.mem_map.mp h
    obtain ⟨rfl, rfl⟩ := Prod.mk.inj hEq
    exact ⟨i, j, d, hAt, List.mem_zipIdx_iff_getElem?.mp hs, rfl⟩

theorem cast_localName (s : AnyImportSpecifier) :
    Shape.cast (toNode s.localName) = .ok s.localName := by
  simp [Shape.cast]

/-- Under the catalog, the binding sites of a program are those of its import specifiers in the order
of the source. Each is read back as the name that its specifier binds, and none stands in an export
statement. -/
theorem program_binds_what_it_imports (p : Program) :
    ∃ own sites, catalog = .ok own ∧ BindingSite.collect own (toNode p) = .ok sites ∧
      sites = p.imports.map (fun o => importSite o.1 o.2) ∧
      sites.map (·.owner.tag) = p.imports.map (·.2.shapeTag) ∧
      sites.map (fun site => Shape.cast site.node) = p.imports.map (fun o => .ok o.2.localName) ∧
      ∀ site ∈ sites, ∀ (i : Nat) d, p.body[i]? = some (.exports d) →
        ⟨"body", i⟩ ∉ site.place.steps := by
  obtain ⟨own, hOwn, hHosts⟩ := exists_catalog
  have hCollect : BindingSite.collect own (toNode p) = .ok ((Piece.program p).bindings .root) :=
    Piece.collect_node hHosts (.program p)
  rw [Piece.bindings_program] at hCollect
  refine ⟨own, _, hOwn, hCollect, rfl, ?_, ?_, ?_⟩
  · rw [List.map_map]
    apply List.map_congr_left
    rintro ⟨place, s⟩ _
    cases s <;> rfl
  · rw [List.map_map]
    apply List.map_congr_left
    intro o _
    exact cast_localName o.2
  · -- The place of a site leads through an import statement, and no statement is both.
    intro site hSite i d hExport hStep
    obtain ⟨⟨place, s⟩, hs, rfl⟩ := List.mem_map.mp hSite
    obtain ⟨k, j, d', hImport, _, rfl⟩ := Program.exists_of_mem_imports hs
    have hSame : i = k := by
      simpa [importSite] using hStep
    rw [hSame, hImport] at hExport
    cases hExport

end TreeSchema.Modules
