import TreeSchema.Proofs.Modules.Piece
import TreeSchema.Proofs.Shape.Agreement
import TreeSchema.Specimen.Nested

/-!
# The families of shapes

Module syntax and the specimens are two families of shapes. For each of them the fields of the
structures are listed with what they hold, and the declarations and the nodes agree with that list.
-/

namespace TreeSchema

set_option autoImplicit false

namespace Modules

namespace Piece

def shaped : Piece → Shaped
  | .identifier a => ⟨a⟩
  | .bindingIdentifier a => ⟨a⟩
  | .stringLiteral a => ⟨a⟩
  | .exportSpecifier a => ⟨a⟩
  | .exportNamespace a => ⟨a⟩
  | .exportDefault a => ⟨a⟩
  | .exportDeclaration a => ⟨a⟩
  | .importSpecifier a => ⟨a⟩
  | .importDefault a => ⟨a⟩
  | .importNamespace a => ⟨a⟩
  | .importDeclaration a => ⟨a⟩
  | .program a => ⟨a⟩

/-- The fields as in `fields`, with what is not set kept apart from what is empty. -/
def holdings : Piece → List (String × Holding Piece)
  | .identifier a => [("name", .scalar (.text a.name))]
  | .bindingIdentifier a => [("name", .scalar (.text a.name))]
  | .stringLiteral a => [("value", .scalar (.text a.value))]
  | .exportSpecifier s =>
    [("local", .child (.identifier s.localName)), ("exported", .child (.identifier s.exported)),
     ("export_kind", .scalar (.choice (s.exportKind.map ExportKind.name)))]
  | .exportNamespace s => [("exported", .child (.identifier s.exported))]
  | .exportDefault s => [("exported", .child (.identifier s.exported))]
  | .exportDeclaration d =>
    [("specifiers", .optionalSequence (d.specifiers.map fun ss => ss.map ofExportSpecifier)),
     ("source", .child (.stringLiteral d.source)),
     ("export_kind", .scalar (.choice (d.exportKind.map ExportKind.name)))]
  | .importSpecifier s =>
    [("imported", .child (.identifier s.imported)),
     ("local", .child (.bindingIdentifier s.localName)),
     ("import_kind", .scalar (.choice (s.importKind.map ImportKind.name)))]
  | .importDefault s => [("local", .child (.bindingIdentifier s.localName))]
  | .importNamespace s => [("local", .child (.bindingIdentifier s.localName))]
  | .importDeclaration d =>
    [("specifiers", .optionalSequence (d.specifiers.map fun ss => ss.map ofImportSpecifier)),
     ("source", .child (.stringLiteral d.source)),
     ("import_kind", .scalar (.choice (d.importKind.map ImportKind.name)))]
  | .program p =>
    [("body", .sequence (p.body.map ofStatement)), ("filename", .scalar (.text p.filename))]

theorem node_shaped (p : Piece) : p.shaped.node = p.node := by
  cases p <;> rfl

theorem names_holdings (p : Piece) : p.holdings.map (·.1) = p.fields.map (·.1) := by
  cases p <;> rfl

end Piece

def family : Family Piece where
  shaped := Piece.shaped
  holdings := Piece.holdings
  groups := [Group.decl AnyExportExternalSpecifier, Group.decl AnyImportSpecifier,
    Group.decl AnyModuleStatement]

namespace family

theorem embeds_identifier : family.Embeds Piece.identifier :=
  .of_shape fun _ => rfl

theorem embeds_bindingIdentifier : family.Embeds Piece.bindingIdentifier :=
  .of_shape fun _ => rfl

theorem embeds_stringLiteral : family.Embeds Piece.stringLiteral :=
  .of_shape fun _ => rfl

theorem embeds_exportSpecifier : family.Embeds Piece.ofExportSpecifier :=
  .of_group (fun s => (Piece.node_shaped _).trans (Piece.node_ofExportSpecifier s))
    (by simp [family])

theorem embeds_importSpecifier : family.Embeds Piece.ofImportSpecifier :=
  .of_group (fun s => (Piece.node_shaped _).trans (Piece.node_ofImportSpecifier s))
    (by simp [family])

theorem embeds_statement : family.Embeds Piece.ofStatement :=
  .of_group (fun s => (Piece.node_shaped _).trans (Piece.node_ofStatement s)) (by simp [family])

theorem names_nodup (p : Piece) : ((family.holdings p).map (·.1)).Nodup := by
  show (p.holdings.map (·.1)).Nodup
  rw [p.names_holdings]
  exact p.names_nodup

theorem laidOut (p : Piece) : family.LaidOut p := by
  cases p with
  | identifier a => exact .cons ⟨rfl, .scalar _⟩ .nil
  | bindingIdentifier a => exact .cons ⟨rfl, .scalar _⟩ .nil
  | stringLiteral a => exact .cons ⟨rfl, .scalar _⟩ .nil
  | exportSpecifier s =>
    exact .cons ⟨rfl, embeds_identifier.child s.localName⟩ <|
      .cons ⟨rfl, embeds_identifier.child s.exported⟩ <| .cons ⟨rfl, .scalar _⟩ .nil
  | exportNamespace s => exact .cons ⟨rfl, embeds_identifier.child s.exported⟩ .nil
  | exportDefault s => exact .cons ⟨rfl, embeds_identifier.child s.exported⟩ .nil
  | exportDeclaration d =>
    exact .cons ⟨rfl, embeds_exportSpecifier.optionalSequence d.specifiers⟩ <|
      .cons ⟨rfl, embeds_stringLiteral.child d.source⟩ <| .cons ⟨rfl, .scalar _⟩ .nil
  | importSpecifier s =>
    exact .cons ⟨rfl, embeds_identifier.child s.imported⟩ <|
      .cons ⟨rfl, embeds_bindingIdentifier.child s.localName⟩ <| .cons ⟨rfl, .scalar _⟩ .nil
  | importDefault s => exact .cons ⟨rfl, embeds_bindingIdentifier.child s.localName⟩ .nil
  | importNamespace s => exact .cons ⟨rfl, embeds_bindingIdentifier.child s.localName⟩ .nil
  | importDeclaration d =>
    exact .cons ⟨rfl, embeds_importSpecifier.optionalSequence d.specifiers⟩ <|
      .cons ⟨rfl, embeds_stringLiteral.child d.source⟩ <| .cons ⟨rfl, .scalar _⟩ .nil
  | program p =>
    exact .cons ⟨rfl, embeds_statement.sequence p.body⟩ <| .cons ⟨rfl, .scalar _⟩ .nil

end family

end Modules

namespace Specimen

/-- A value of any specimen shape. -/
inductive Sample where
  | blank (value : Blank)
  | label (value : Label)
  | number (value : Number)
  | textLiteral (value : TextLiteral)
  | declarator (value : Declarator)
  | param (value : Param)
  | scope (value : Scope)
  | rebound (value : Rebound)
  | revisit (value : Revisit)
  | visitScalar (value : VisitScalar)
  | bindScalar (value : BindScalar)
  | chain (value : Chain)
  | func (value : Func)

namespace Sample

def shaped : Sample → Shaped
  | .blank a => ⟨a⟩
  | .label a => ⟨a⟩
  | .number a => ⟨a⟩
  | .textLiteral a => ⟨a⟩
  | .declarator a => ⟨a⟩
  | .param a => ⟨a⟩
  | .scope a => ⟨a⟩
  | .rebound a => ⟨a⟩
  | .revisit a => ⟨a⟩
  | .visitScalar a => ⟨a⟩
  | .bindScalar a => ⟨a⟩
  | .chain a => ⟨a⟩
  | .func a => ⟨a⟩

def ofLiteral : Literal → Sample
  | .text l => .textLiteral l
  | .number l => .number l

def holdings : Sample → List (String × Holding Sample)
  | .blank _ => []
  | .label a => [("name", .scalar (.text a.name))]
  | .number a => [("value", .scalar (.number a.value.toNat))]
  | .textLiteral a => [("value", .scalar (.text a.value)), ("raw", .scalar (.flag a.raw))]
  | .declarator d =>
    [("id", .child (.label d.id)), ("init", .optionalChild (d.init.map ofLiteral)),
     ("decorators", .sequence (d.decorators.map textLiteral)),
     ("extra", .optionalSequence (d.extra.map fun ls => ls.map label)),
     ("origin", .optionalChild (d.origin.map textLiteral)),
     ("definite", .scalar (.flag d.definite))]
  | .param p => [("id", .child (.label p.id))]
  | .scope s =>
    [("param", .optionalChild (s.param.map label)), ("alias", .child (.label s.aliasName)),
     ("classes", .sequence (s.classes.map label)),
     ("types", .optionalSequence (s.types.map fun ls => ls.map label)),
     ("depth", .scalar (.number s.depth.toNat))]
  | .rebound a => [("id", .child (.label a.id))]
  | .revisit a => [("id", .child (.label a.id))]
  | .visitScalar a => [("flag", .scalar (.flag a.flag))]
  | .bindScalar a => [("flag", .scalar (.flag a.flag))]
  | .chain c => [("next", .optionalChild (c.next.map chain))]
  | .func f =>
    [("id", .optionalChild (f.id.map label)), ("params", .sequence (f.params.map param)),
     ("hoisted", .optionalSequence (f.hoisted.map fun ls => ls.map label)),
     ("body", .sequence (f.body.map func))]

end Sample

def family : Family Sample where
  shaped := Sample.shaped
  holdings := Sample.holdings
  groups := [Group.decl Literal, Group.decl Solo]

namespace family

theorem embeds_label : family.Embeds Sample.label :=
  .of_shape fun _ => rfl

theorem embeds_textLiteral : family.Embeds Sample.textLiteral :=
  .of_shape fun _ => rfl

theorem embeds_literal : family.Embeds Sample.ofLiteral :=
  .of_group (fun l => by cases l <;> rfl) (by simp [family])

theorem embeds_param : family.Embeds Sample.param :=
  .of_shape fun _ => rfl

theorem embeds_chain : family.Embeds Sample.chain :=
  .of_shape fun _ => rfl

theorem embeds_func : family.Embeds Sample.func :=
  .of_shape fun _ => rfl

theorem names_nodup (x : Sample) : ((family.holdings x).map (·.1)).Nodup := by
  show (x.holdings.map (·.1)).Nodup
  cases x <;> simp [Sample.holdings]

theorem laidOut (x : Sample) : family.LaidOut x := by
  cases x with
  | blank a => exact .nil
  | label a => exact .cons ⟨rfl, .scalar _⟩ .nil
  | number a => exact .cons ⟨rfl, .scalar _⟩ .nil
  | textLiteral a => exact .cons ⟨rfl, .scalar _⟩ <| .cons ⟨rfl, .scalar _⟩ .nil
  | declarator d =>
    exact .cons ⟨rfl, embeds_label.child d.id⟩ <|
      .cons ⟨rfl, embeds_literal.optionalChild d.init⟩ <|
      .cons ⟨rfl, embeds_textLiteral.sequence d.decorators⟩ <|
      .cons ⟨rfl, embeds_label.optionalSequence d.extra⟩ <|
      .cons ⟨rfl, embeds_textLiteral.optionalChild d.origin⟩ <| .cons ⟨rfl, .scalar _⟩ .nil
  | param p => exact .cons ⟨rfl, embeds_label.child p.id⟩ .nil
  | scope s =>
    exact .cons ⟨rfl, embeds_label.optionalChild s.param⟩ <|
      .cons ⟨rfl, embeds_label.child s.aliasName⟩ <|
      .cons ⟨rfl, embeds_label.sequence s.classes⟩ <|
      .cons ⟨rfl, embeds_label.optionalSequence s.types⟩ <| .cons ⟨rfl, .scalar _⟩ .nil
  | rebound a => exact .cons ⟨rfl, embeds_label.child a.id⟩ .nil
  | revisit a => exact .cons ⟨rfl, embeds_label.child a.id⟩ .nil
  | visitScalar a => exact .cons ⟨rfl, .scalar _⟩ .nil
  | bindScalar a => exact .cons ⟨rfl, .scalar _⟩ .nil
  | chain c => exact .cons ⟨rfl, embeds_chain.optionalChild c.next⟩ .nil
  | func f =>
    exact .cons ⟨rfl, embeds_label.optionalChild f.id⟩ <|
      .cons ⟨rfl, embeds_param.sequence f.params⟩ <|
      .cons ⟨rfl, embeds_label.optionalSequence f.hoisted⟩ <|
      .cons ⟨rfl, embeds_func.sequence f.body⟩ .nil

end family

end Specimen

/-- In both families the node of every value agrees with its declaration and its structure, and so do
in turn the nodes of the values that it holds. -/
theorem nodes_agree_with_declarations :
    (∀ p, Modules.family.Agrees p) ∧ ∀ x, Specimen.family.Agrees x :=
  ⟨Family.agrees_of_laidOut Modules.family.names_nodup Modules.family.laidOut,
    Family.agrees_of_laidOut Specimen.family.names_nodup Specimen.family.laidOut⟩

end TreeSchema
