import TreeSchema.Modules.Program
import TreeSchema.Registry.Builder

/-!
# The catalog of module syntax

All shapes and groups of module syntax, registered into a host's builder or finished on their own.
-/

namespace TreeSchema.Modules

set_option autoImplicit false

/-- The registrations of module syntax, each after those that it refers to. -/
def registrations : List Call :=
  [Shape.call Identifier,
   Shape.call BindingIdentifier,
   Shape.call StringLiteral,
   Shape.call ExportExternalSpecifier,
   Shape.call ExportNamespaceSpecifier,
   Shape.call ExportDefaultSpecifier,
   Group.call AnyExportExternalSpecifier,
   Shape.call ExportExternalDeclaration,
   Shape.call ImportSpecifier,
   Shape.call ImportDefaultSpecifier,
   Shape.call ImportNamespaceSpecifier,
   Group.call AnyImportSpecifier,
   Shape.call ImportDeclaration,
   Group.call AnyModuleStatement,
   Shape.call Program]

/-- Registers module syntax with a builder, up to the first name that is taken. -/
def registerAll (b : Builder) : Reply :=
  b.submitAll registrations

def catalog : Except SchemaError Registry :=
  let reply := registerAll {}
  match reply.result with
  | .error e => .error e
  | .ok () => reply.builder.finish

def catalogLog : List LogLine :=
  let reply := registerAll {}
  let events :=
    match reply.result with
    | .error _ => reply.log
    | .ok () => reply.log ++ reply.builder.finishLog
  events.map fun e => e.line.within ⟨"catalog", []⟩

end TreeSchema.Modules
