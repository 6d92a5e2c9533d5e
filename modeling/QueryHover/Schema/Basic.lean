import QueryHover.Grammar.Value
import QueryHover.Node.Basic

/-
  Schemas.

  A schema is a set of named types and directives, with a
  root type for each kind of operation. Everything in it is
  looked up by name; where a name occurs twice the first
  entry counts.

  Key definitions include:
    * `FieldDefinition`
    * `TypeDefinition`
    * `DirectiveDefinition`
    * `Schema`
    * `Schema.type?`
    * `Schema.root?`
-/

namespace QueryHover

------------------------------------------------------------
-- Kinds of Types
------------------------------------------------------------

/- The six kinds of types. -/
inductive TypeKind where
  | scalar
  | object
  | interface
  | union
  | enum
  | inputObject
deriving DecidableEq, Repr, Inhabited

namespace TypeKind

/- How a kind is printed. -/
def label :
    TypeKind → String
  | scalar => "SCALAR"
  | object => "OBJECT"
  | interface => "INTERFACE"
  | union => "UNION"
  | enum => "ENUM"
  | inputObject => "INPUT_OBJECT"

/- Types that fields are selected from. -/
def isComposite :
    TypeKind → Bool
  | object | interface | union => true
  | scalar | enum | inputObject => false

/- Types of values that are passed in. -/
def isInput :
    TypeKind → Bool
  | scalar | enum | inputObject => true
  | object | interface | union => false

end TypeKind

/- The places where a directive may be applied. -/
inductive DirectiveLocation where
  | query
  | mutation
  | subscription
  | field
  | fragmentDefinition
  | fragmentSpread
  | inlineFragment
  | variableDefinition
  | schema
  | scalar
  | object
  | fieldDefinition
  | argumentDefinition
  | interface
  | union
  | enum
  | enumValue
  | inputObject
  | inputFieldDefinition
deriving DecidableEq, Repr, Inhabited

namespace DirectiveLocation

/- All places. -/
def all : List DirectiveLocation :=
  [ query, mutation, subscription, field,
    fragmentDefinition, fragmentSpread, inlineFragment,
    variableDefinition, schema, scalar, object,
    fieldDefinition, argumentDefinition, interface, union,
    enum, enumValue, inputObject, inputFieldDefinition ]

/- How a place is written. -/
def label :
    DirectiveLocation → String
  | query => "QUERY"
  | mutation => "MUTATION"
  | subscription => "SUBSCRIPTION"
  | field => "FIELD"
  | fragmentDefinition => "FRAGMENT_DEFINITION"
  | fragmentSpread => "FRAGMENT_SPREAD"
  | inlineFragment => "INLINE_FRAGMENT"
  | variableDefinition => "VARIABLE_DEFINITION"
  | schema => "SCHEMA"
  | scalar => "SCALAR"
  | object => "OBJECT"
  | fieldDefinition => "FIELD_DEFINITION"
  | argumentDefinition => "ARGUMENT_DEFINITION"
  | interface => "INTERFACE"
  | union => "UNION"
  | enum => "ENUM"
  | enumValue => "ENUM_VALUE"
  | inputObject => "INPUT_OBJECT"
  | inputFieldDefinition => "INPUT_FIELD_DEFINITION"

/- The place written as the given word. -/
def ofLabel?
    (text : String) : Option DirectiveLocation :=
  all.find? fun place => place.label = text

/- The place of directives applied to a kind of type. -/
def ofKind :
    TypeKind → DirectiveLocation
  | .scalar => scalar
  | .object => object
  | .interface => interface
  | .union => union
  | .enum => enum
  | .inputObject => inputObject

end DirectiveLocation

------------------------------------------------------------
-- Definitions
------------------------------------------------------------

/- An argument of a field or of a directive. -/
structure ArgumentDefinition where
  name : String
  description : String := ""
  type : TypeRef
  defaultValue : Option Literal := none
  directives : List DirectiveUse := []
  location : Location := {}
  typeLocation : Location := {}
deriving DecidableEq, Repr, Inhabited

/- A field of an object, an interface or an input object. -/
structure FieldDefinition where
  name : String
  description : String := ""
  arguments : List ArgumentDefinition := []
  type : TypeRef
  defaultValue : Option Literal := none
  directives : List DirectiveUse := []
  location : Location := {}
  typeLocation : Location := {}
deriving DecidableEq, Repr, Inhabited

/- A value of an enum. -/
structure EnumValueDefinition where
  name : String
  description : String := ""
  directives : List DirectiveUse := []
  location : Location := {}
deriving DecidableEq, Repr, Inhabited

/-
  A named type. Objects, interfaces and input objects have
  fields, enums values and unions members; built-in types
  belong to every schema.
-/
structure TypeDefinition where
  kind : TypeKind
  name : String
  description : String := ""
  directives : List DirectiveUse := []
  interfaces : List String := []
  fields : List FieldDefinition := []
  values : List EnumValueDefinition := []
  members : List String := []
  isBuiltIn : Bool := false
  location : Location := {}
deriving DecidableEq, Repr, Inhabited

/- A directive and where it may be applied. -/
structure DirectiveDefinition where
  name : String
  description : String := ""
  arguments : List ArgumentDefinition := []
  places : List DirectiveLocation := []
  location : Location := {}
deriving DecidableEq, Repr, Inhabited

/- The argument with a name. -/
def argumentNamed?
    (arguments : List ArgumentDefinition)
    (name : String) : Option ArgumentDefinition :=
  arguments.find? fun a => a.name = name

namespace FieldDefinition

/- The field's argument with a name. -/
def argument?
    (f : FieldDefinition)
    (name : String) : Option ArgumentDefinition :=
  argumentNamed? f.arguments name

end FieldDefinition

namespace DirectiveDefinition

/- The directive's argument with a name. -/
def argument?
    (d : DirectiveDefinition)
    (name : String) : Option ArgumentDefinition :=
  argumentNamed? d.arguments name

end DirectiveDefinition

namespace TypeDefinition

/- The type's field with a name. -/
def field?
    (t : TypeDefinition)
    (name : String) : Option FieldDefinition :=
  t.fields.find? fun f => f.name = name

/- The enum's value with a name. -/
def value?
    (t : TypeDefinition)
    (name : String) : Option EnumValueDefinition :=
  t.values.find? fun v => v.name = name

end TypeDefinition

------------------------------------------------------------
-- Schemas
------------------------------------------------------------

/- Named types and directives, and the names of the roots. -/
structure Schema where
  types : List TypeDefinition := []
  directives : List DirectiveDefinition := []
  query : Option String := none
  mutation : Option String := none
  subscription : Option String := none
deriving DecidableEq, Repr, Inhabited

namespace Schema

/- The type with a name. -/
def type?
    (s : Schema)
    (name : String) : Option TypeDefinition :=
  s.types.find? fun t => t.name = name

/- The directive with a name. -/
def directive?
    (s : Schema)
    (name : String) : Option DirectiveDefinition :=
  s.directives.find? fun d => d.name = name

/- The name of the root type of an operation. -/
def rootName?
    (s : Schema) :
    Operation → Option String
  | .query => s.query
  | .mutation => s.mutation
  | .subscription => s.subscription

/- The root type of an operation. -/
def root?
    (s : Schema)
    (op : Operation) : Option TypeDefinition :=
  (s.rootName? op).bind s.type?

/- The schema with a root type. -/
def withRoot
    (s : Schema)
    (op : Operation)
    (name : String) : Schema :=
  match op with
  | .query => { s with query := some name }
  | .mutation => { s with mutation := some name }
  | .subscription => { s with subscription := some name }

end Schema

end QueryHover
