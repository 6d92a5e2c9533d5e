import QueryHover.Schema.Declaration
import QueryHover.Schema.Prelude
import QueryHover.Schema.Validation

/-
  Loading a schema.

  The declarations of a text are put together with the
  prelude, checked, and completed: every use of a directive
  gets to know its definition, roots that nothing names are
  taken from the types with the usual names, and the query
  root answers for the schema itself.

  Key definitions include:
    * `Schema.assemble`
    * `Schema.load`
-/

namespace QueryHover

namespace Schema

open Validation (Check fail require checkUses)

------------------------------------------------------------
-- Types and Directives
------------------------------------------------------------

/- Add a type under a new name. -/
def addType
    (s : Schema)
    (t : TypeDefinition) : Except SchemaError Schema := do
  require (s.type? t.name).isNone t.location
    (.redeclaredType t.name)
  pure { s with types := s.types ++ [t] }

/- A type with the parts of an extension added. -/
def extendType
    (t extension : TypeDefinition) : TypeDefinition :=
  { t with
    directives := t.directives ++ extension.directives
    interfaces := t.interfaces ++ extension.interfaces
    fields := t.fields ++ extension.fields
    values := t.values ++ extension.values
    members := t.members ++ extension.members }

/- Replace the type with a name. -/
def mapType
    (s : Schema)
    (name : String)
    (f : TypeDefinition → TypeDefinition) : Schema :=
  { s with
    types :=
      s.types.map fun t => if t.name = name then f t else t }

/- Add an extension, to a new type if it has no base. -/
def addExtension
    (s : Schema)
    (extension : TypeDefinition) :
    Except SchemaError Schema := do
  match s.type? extension.name with
  | none => pure { s with types := s.types ++ [extension] }
  | some base =>
      require (base.kind = extension.kind)
        extension.location
        (.mismatchedExtension extension.name base.kind
          extension.kind)
      pure
        (s.mapType extension.name
          (extendType · extension))

/- Directives that a schema may define anew. -/
def redefinable : List String :=
  [ "include", "skip", "deprecated", "specifiedBy", "defer",
    "oneOf" ]

/- Add a directive; a later one may replace a built-in one. -/
def addDirective
    (s : Schema)
    (d : DirectiveDefinition) :
    Except SchemaError Schema := do
  require
    ((s.directive? d.name).isNone ||
      redefinable.contains d.name)
    d.location (.redeclaredDirective d.name)
  let others := s.directives.filter fun e => e.name ≠ d.name
  pure { s with directives := others ++ [d] }

------------------------------------------------------------
-- Roots
------------------------------------------------------------

/- Set the root type of one operation. -/
def addRoot
    (s : Schema)
    (entry : RootEntry) : Except SchemaError Schema := do
  require (s.type? entry.type).isSome entry.location
    (.missingRoot entry.operation entry.type)
  pure (s.withRoot entry.operation entry.type)

/- Set the roots that a declaration names. -/
def addRoots
    (s : Schema)
    (declaration : RootDeclaration) :
    Except SchemaError Schema := do
  let s ← declaration.entries.foldlM addRoot s
  checkUses s .schema none declaration.directives
  pure s

/- The usual names of the roots. -/
def usualRoots : List (Operation × String) :=
  [ (.query, "Query"), (.mutation, "Mutation"),
    (.subscription, "Subscription") ]

/- Take a root that nothing names from its usual name. -/
def addUsualRoot
    (s : Schema)
    (root : Operation × String) : Schema :=
  if (s.rootName? root.1).isNone &&
      (s.type? root.2).isSome then
    s.withRoot root.1 root.2
  else
    s

------------------------------------------------------------
-- Completion
------------------------------------------------------------

/- Let a use of a directive know what is declared for it. -/
def attachUse
    (s : Schema)
    (use : DirectiveUse) : DirectiveUse :=
  { use with
    declared :=
      (s.directive? use.name).map fun d =>
        d.arguments.map fun a =>
          { name := a.name, value := a.defaultValue } }

def attachArgument
    (s : Schema)
    (a : ArgumentDefinition) : ArgumentDefinition :=
  { a with directives := a.directives.map s.attachUse }

def attachField
    (s : Schema)
    (f : FieldDefinition) : FieldDefinition :=
  { f with
    arguments := f.arguments.map s.attachArgument
    directives := f.directives.map s.attachUse }

def attachValue
    (s : Schema)
    (v : EnumValueDefinition) : EnumValueDefinition :=
  { v with directives := v.directives.map s.attachUse }

def attachType
    (s : Schema)
    (t : TypeDefinition) : TypeDefinition :=
  { t with
    directives := t.directives.map s.attachUse
    fields := t.fields.map s.attachField
    values := t.values.map s.attachValue }

def attachDirective
    (s : Schema)
    (d : DirectiveDefinition) : DirectiveDefinition :=
  { d with arguments := d.arguments.map s.attachArgument }

/- Let all uses of directives know what is declared. -/
def attach
    (s : Schema) : Schema :=
  { s with
    types := s.types.map s.attachType
    directives := s.directives.map s.attachDirective }

/- Let the query root answer for the schema itself. -/
def addIntrospection
    (s : Schema) : Schema :=
  match s.query with
  | none => s
  | some name =>
      s.mapType name fun t =>
        { t with
          fields :=
            t.fields ++
              [Prelude.schemaField, Prelude.typeField] }

------------------------------------------------------------
-- Loading
------------------------------------------------------------

/- What every schema starts from. -/
def initial : Schema :=
  { types := Prelude.types
    directives := Prelude.directives }

/- The schema that declarations make up with the prelude. -/
def assemble
    (declarations : List Declaration) :
    Except SchemaError Schema := do
  let types := declarations.filterMap fun
    | .typeDefinition t => some t
    | _ => none
  let extensions := declarations.filterMap fun
    | .typeExtension t => some t
    | _ => none
  let directives := declarations.filterMap fun
    | .directiveDefinition d => some d
    | _ => none
  let roots := declarations.filterMap fun
    | .rootDefinition r => some r
    | _ => none
  let rootExtensions := declarations.filterMap fun
    | .rootExtension r => some r
    | _ => none
  let s ← types.foldlM addType initial
  let s ← extensions.foldlM addExtension s
  let s ← directives.foldlM addDirective s
  match roots with
  | _ :: second :: _ => fail second.location .severalSchemas
  | _ => pure ()
  let s ← roots.foldlM addRoots s
  let s ← rootExtensions.foldlM addRoots s
  Validation.checkSchema s
  let s :=
    if roots.isEmpty then
      usualRoots.foldl addUsualRoot s
    else
      s
  pure s.attach.addIntrospection

/- The schema of a named text. -/
def load
    (file : String)
    (text : List Char) : Except LoadError Schema :=
  match Declaration.parse file text with
  | .error e => .error (.grammar e)
  | .ok declarations =>
      match assemble declarations with
      | .error e => .error (.schema e)
      | .ok schema => .ok schema

end Schema

end QueryHover
