import QueryHover.Schema.Basic

/-
  The prelude: the types and directives that belong to every
  schema.

  Key definitions include:
    * `Prelude.types`
    * `Prelude.directives`
    * `Prelude.schemaField`
    * `Prelude.typeField`
-/

namespace QueryHover

namespace Prelude

------------------------------------------------------------
-- Parts of the Prelude
------------------------------------------------------------

/- A place in the text of the prelude. -/
def place
    (line column : Int) : Location :=
  { file := "prelude.graphql", line, column }

/- A built-in scalar. -/
def scalar
    (line column : Int)
    (name description : String) : TypeDefinition :=
  { kind := .scalar
    name, description
    isBuiltIn := true
    location := place line column }

/- A built-in object type. -/
def object
    (line column : Int)
    (name description : String)
    (fields : List FieldDefinition) : TypeDefinition :=
  { kind := .object
    name, description, fields
    isBuiltIn := true
    location := place line column }

/- A built-in enum. -/
def enum
    (line column : Int)
    (name description : String)
    (values : List EnumValueDefinition) :
    TypeDefinition :=
  { kind := .enum
    name, description, values
    isBuiltIn := true
    location := place line column }

/- A field of a built-in type. -/
def field
    (line column : Int)
    (name : String)
    (type : TypeRef)
    (description : String := "")
    (arguments : List ArgumentDefinition := []) :
    FieldDefinition :=
  { name, type, description, arguments
    location := place line column }

/- An argument of a built-in field or directive. -/
def argument
    (line column : Int)
    (name : String)
    (type : TypeRef)
    (description : String := "")
    (defaultValue : Option Literal := none) :
    ArgumentDefinition :=
  { name, type, description, defaultValue
    location := place line column }

/- A value of a built-in enum. -/
def value
    (line column : Int)
    (name description : String) : EnumValueDefinition :=
  { name, description, location := place line column }

/- Whether deprecated elements are listed too. -/
def includeDeprecated
    (line column : Int) : ArgumentDefinition :=
  argument line column "includeDeprecated"
    (.named "Boolean" false) "" (some (.scalar "false"))

------------------------------------------------------------
-- Types
------------------------------------------------------------

/- Whole numbers. -/
def intType : TypeDefinition :=
  scalar 4 8 "Int"
    ("The `Int` scalar type represents non-fractional " ++
     "signed whole numeric values. Int can represent " ++
     "values between -(2^31) and 2^31 - 1.")

/- Fractional numbers. -/
def floatType : TypeDefinition :=
  scalar 7 8 "Float"
    ("The `Float` scalar type represents signed " ++
     "double-precision fractional values as specified by " ++
     "[IEEE " ++
     "754](http://en.wikipedia.org/wiki/IEEE_floating_point).")

/- Texts. -/
def stringType : TypeDefinition :=
  scalar 10 8 "String"
    ("The `String`scalar type represents textual data, " ++
     "represented as UTF-8 character sequences. The " ++
     "String type is most often used by GraphQL to " ++
     "represent free-form human-readable text.")

/- Truth values. -/
def booleanType : TypeDefinition :=
  scalar 13 8 "Boolean"
    ("The `Boolean` scalar type represents `true` or " ++
     "`false`.")

/- Identifiers. -/
def idType : TypeDefinition :=
  scalar 16 8 "ID"
    ("The `ID` scalar type represents a unique " ++
     "identifier, often used to refetch an object or as " ++
     "key for a cache. The ID type appears in a JSON " ++
     "response as a String; however, it is not intended " ++
     "to be human-readable. When expected as an input " ++
     "type, any string (such as \"4\") or integer (such " ++
     "as 4) input value will be accepted as an ID.")

/- Schemas themselves. -/
def schemaType : TypeDefinition :=
  object 64 6 "__Schema"
    ("A GraphQL Schema defines the capabilities of a " ++
     "GraphQL server. It exposes all available types and " ++
     "directives on the server, as well as the entry " ++
     "points for query, mutation, and subscription " ++
     "operations.")
    [ field 65 3 "description"
        (.named "String" false),
      field 67 6 "types"
        (.list (.named "__Type" true) true)
        "A list of all types supported by this server.",
      field 70 6 "queryType"
        (.named "__Type" true)
        ("The type that query operations will be rooted " ++
         "at."),
      field 75 (-89) "mutationType"
        (.named "__Type" false)
        ("If this server supports mutation, the type that " ++
         "mutation operations will be rooted at."),
      field 80 (-96) "subscriptionType"
        (.named "__Type" false)
        ("If this server support subscription, the type " ++
         "that subscription operations will be rooted at."),
      field 83 6 "directives"
        (.list (.named "__Directive" true) true)
        ("A list of all directives supported by this " ++
         "server.") ]

/- Types of a schema. -/
def typeType : TypeDefinition :=
  object 92 6 "__Type"
    ("The fundamental unit of any GraphQL Schema is the " ++
     "type. There are many kinds of types in GraphQL as " ++
     "represented by the `__TypeKind` enum.\n\nDepending " ++
     "on the kind of a type, certain fields describe " ++
     "information about that type. Scalar types provide " ++
     "no information beyond a name, description and " ++
     "optional `specifiedByURL`, while Enum types provide " ++
     "their values. Object and Interface types provide " ++
     "the fields they describe. Abstract types, Union and " ++
     "Interface, provide the Object types possible at " ++
     "runtime. List and NonNull types compose other types.")
    [ field 93 3 "kind"
        (.named "__TypeKind" true),
      field 94 3 "name"
        (.named "String" false),
      field 95 3 "description"
        (.named "String" false),
      field 96 3 "specifiedByURL"
        (.named "String" false),
      field 97 3 "fields"
        (.list (.named "__Field" true) false)
        ""
        [includeDeprecated 97 10],
      field 98 3 "interfaces"
        (.list (.named "__Type" true) false),
      field 99 3 "possibleTypes"
        (.list (.named "__Type" true) false),
      field 100 3 "enumValues"
        (.list (.named "__EnumValue" true) false)
        ""
        [includeDeprecated 100 14],
      field 101 3 "inputFields"
        (.list (.named "__InputValue" true) false)
        ""
        [includeDeprecated 101 15],
      field 102 3 "ofType"
        (.named "__Type" false),
      field 103 3 "isOneOf"
        (.named "Boolean" false) ]

/- Kinds of types. -/
def typeKindType : TypeDefinition :=
  enum 107 6 "__TypeKind"
    ("An enum describing what kind of type a given " ++
     "`__Type` is.")
    [ value 108 6 "SCALAR"
        "Indicates this type is a scalar.",
      value 113 (-80) "OBJECT"
        ("Indicates this type is an object. `fields` and " ++
         "`interfaces` are valid fields."),
      value 118 (-101) "INTERFACE"
        ("Indicates this type is an interface. `fields`, " ++
         "`interfaces`, and `possibleTypes` are valid " ++
         "fields."),
      value 121 6 "UNION"
        ("Indicates this type is a union. `possibleTypes` " ++
         "is a valid field."),
      value 124 6 "ENUM"
        ("Indicates this type is an enum. `enumValues` is " ++
         "a valid field."),
      value 129 (-74) "INPUT_OBJECT"
        ("Indicates this type is an input object. " ++
         "`inputFields` is a valid field."),
      value 132 6 "LIST"
        ("Indicates this type is a list. `ofType` is a " ++
         "valid field."),
      value 135 6 "NON_NULL"
        ("Indicates this type is a non-null. `ofType` is " ++
         "a valid field.") ]

/- Fields of a type. -/
def fieldType : TypeDefinition :=
  object 142 6 "__Field"
    ("Object and Interface types are described by a list " ++
     "of Fields, each of which has a name, potentially a " ++
     "list of arguments, and a return type.")
    [ field 143 3 "name"
        (.named "String" true),
      field 144 3 "description"
        (.named "String" false),
      field 145 3 "args"
        (.list (.named "__InputValue" true) true)
        ""
        [includeDeprecated 145 8],
      field 146 3 "type"
        (.named "__Type" true),
      field 147 3 "isDeprecated"
        (.named "Boolean" true),
      field 148 3 "deprecationReason"
        (.named "String" false) ]

/- Arguments and input fields. -/
def inputValueType : TypeDefinition :=
  object 154 6 "__InputValue"
    ("Arguments provided to Fields or Directives and the " ++
     "input fields of an InputObject are represented as " ++
     "Input Values which describe their type and " ++
     "optionally a default value.")
    [ field 155 3 "name"
        (.named "String" true),
      field 156 3 "description"
        (.named "String" false),
      field 157 3 "type"
        (.named "__Type" true),
      field 161 (-82) "defaultValue"
        (.named "String" false)
        ("A GraphQL-formatted string representing the " ++
         "default value for this input value."),
      field 163 3 "isDeprecated"
        (.named "Boolean" true),
      field 164 3 "deprecationReason"
        (.named "String" false) ]

/- Values of an enum. -/
def enumValueType : TypeDefinition :=
  object 170 6 "__EnumValue"
    ("One possible value for a given Enum. Enum values " ++
     "are unique values, not a placeholder for a string " ++
     "or numeric value. However an Enum value is returned " ++
     "in a JSON response as a string.")
    [ field 171 3 "name"
        (.named "String" true),
      field 172 3 "description"
        (.named "String" false),
      field 173 3 "isDeprecated"
        (.named "Boolean" true),
      field 174 3 "deprecationReason"
        (.named "String" false) ]

/- Directives of a schema. -/
def directiveType : TypeDefinition :=
  object 182 6 "__Directive"
    ("A Directive provides a way to describe alternate " ++
     "runtime execution and type validation behavior in a " ++
     "GraphQL document.\n\nIn some cases, you need to " ++
     "provide options to alter GraphQL's execution " ++
     "behavior in ways field arguments will not suffice, " ++
     "such as conditionally including or skipping a " ++
     "field. Directives provide this by describing " ++
     "additional information to the executor.")
    [ field 183 3 "name"
        (.named "String" true),
      field 184 3 "description"
        (.named "String" false),
      field 185 3 "isRepeatable"
        (.named "Boolean" true),
      field 186 3 "locations"
        (.list (.named "__DirectiveLocation" true) true),
      field 187 3 "args"
        (.list (.named "__InputValue" true) true)
        ""
        [includeDeprecated 187 8] ]

/- Places of directives. -/
def directiveLocationType : TypeDefinition :=
  enum 193 6 "__DirectiveLocation"
    ("A Directive can be adjacent to many parts of the " ++
     "GraphQL language, a __DirectiveLocation describes " ++
     "one such possible adjacencies.")
    [ value 194 6 "QUERY"
        "Location adjacent to a query operation.",
      value 197 6 "MUTATION"
        "Location adjacent to a mutation operation.",
      value 200 6 "SUBSCRIPTION"
        "Location adjacent to a subscription operation.",
      value 203 6 "FIELD"
        "Location adjacent to a field.",
      value 206 6 "FRAGMENT_DEFINITION"
        "Location adjacent to a fragment definition.",
      value 209 6 "FRAGMENT_SPREAD"
        "Location adjacent to a fragment spread.",
      value 212 6 "INLINE_FRAGMENT"
        "Location adjacent to an inline fragment.",
      value 215 6 "VARIABLE_DEFINITION"
        "Location adjacent to a variable definition.",
      value 218 6 "SCHEMA"
        "Location adjacent to a schema definition.",
      value 221 6 "SCALAR"
        "Location adjacent to a scalar definition.",
      value 224 6 "OBJECT"
        "Location adjacent to an object type definition.",
      value 227 6 "FIELD_DEFINITION"
        "Location adjacent to a field definition.",
      value 230 6 "ARGUMENT_DEFINITION"
        "Location adjacent to an argument definition.",
      value 233 6 "INTERFACE"
        "Location adjacent to an interface definition.",
      value 236 6 "UNION"
        "Location adjacent to a union definition.",
      value 239 6 "ENUM"
        "Location adjacent to an enum definition.",
      value 242 6 "ENUM_VALUE"
        "Location adjacent to an enum value definition.",
      value 245 6 "INPUT_OBJECT"
        ("Location adjacent to an input object type " ++
         "definition."),
      value 248 6 "INPUT_FIELD_DEFINITION"
        ("Location adjacent to an input object field " ++
         "definition.") ]

/- All built-in types. -/
def types : List TypeDefinition :=
  [ intType, floatType, stringType, booleanType, idType,
    schemaType, typeType, typeKindType, fieldType,
    inputValueType, enumValueType, directiveType,
    directiveLocationType ]

------------------------------------------------------------
-- Directives
------------------------------------------------------------

/- Deliver a fragment later. -/
def deferDirective : DirectiveDefinition :=
  { name := "defer"
    description :=
      ("Directs the executor to defer this fragment when " ++
       "the `if` argument is true or undefined.")
    arguments :=
      [ argument 20 4 "if" (.named "Boolean" false)
          "Deferred when true or undefined."
          (some (.scalar "true")),
        argument 22 4 "label" (.named "String" false)
          "Unique name" ]
    places :=
      [ .fragmentSpread, .inlineFragment ]
    location := place 19 12 }

/- Include a selection on a condition. -/
def includeDirective : DirectiveDefinition :=
  { name := "include"
    description :=
      ("Directs the executor to include this field or " ++
       "fragment only when the `if` argument is true.")
    arguments :=
      [ argument 30 6 "if" (.named "Boolean" true)
          "Included when true." ]
    places :=
      [ .field, .fragmentSpread, .inlineFragment ]
    location := place 29 12 }

/- Skip a selection on a condition. -/
def skipDirective : DirectiveDefinition :=
  { name := "skip"
    description :=
      ("Directs the executor to skip this field or " ++
       "fragment when the `if` argument is true.")
    arguments :=
      [ argument 38 6 "if" (.named "Boolean" true)
          "Skipped when true." ]
    places :=
      [ .field, .fragmentSpread, .inlineFragment ]
    location := place 37 12 }

/- Mark an element as outdated. -/
def deprecatedDirective : DirectiveDefinition :=
  { name := "deprecated"
    description :=
      ("Marks an element of a GraphQL schema as no longer " ++
       "supported.")
    arguments :=
      [ argument 46 (-214) "reason" (.named "String" false)
          ("Explains why this element was deprecated, " ++
           "usually also including a suggestion for how " ++
           "to access supported similar data. Formatted " ++
           "using the Markdown syntax, as specified by " ++
           "[CommonMark](https://commonmark.org/).")
          (some (.scalar "No longer supported")) ]
    places :=
      [ .fieldDefinition, .argumentDefinition,
        .inputFieldDefinition, .enumValue ]
    location := place 43 12 }

/- Name the specification of a scalar. -/
def specifiedByDirective : DirectiveDefinition :=
  { name := "specifiedBy"
    description :=
      ("Exposes a URL that specifies the behavior of this " ++
       "scalar.")
    arguments :=
      [ argument 52 6 "url" (.named "String" true)
          ("The URL that specifies the behavior of this " ++
           "scalar.") ]
    places :=
      [ .scalar ]
    location := place 51 12 }

/- Take exactly one of several input fields. -/
def oneOfDirective : DirectiveDefinition :=
  { name := "oneOf"
    description :=
      ("Indicates exactly one field must be supplied and " ++
       "this field must not be `null`.")
    places :=
      [ .inputObject ]
    location := place 59 12 }

/- All built-in directives. -/
def directives : List DirectiveDefinition :=
  [ deferDirective, includeDirective, skipDirective,
    deprecatedDirective, specifiedByDirective,
    oneOfDirective ]

------------------------------------------------------------
-- Fields of the Query Root
------------------------------------------------------------

/- The field that answers for the schema itself. -/
def schemaField : FieldDefinition :=
  { name := "__schema", type := .named "__Schema" true }

/- The field that answers for one type of the schema. -/
def typeField : FieldDefinition :=
  { name := "__type"
    type := .named "__Type" false
    arguments :=
      [{ name := "name", type := .named "String" true }] }

end Prelude

end QueryHover
