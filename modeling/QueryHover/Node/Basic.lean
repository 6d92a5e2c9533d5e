/-
  Nodes of a query document.

  A document is a tree of nodes. Each node knows the part of
  the text it covers and, where it has a name, the part its
  name was read from.

  Key definitions include:
    * `Span`
    * `Operation`
    * `Node.Kind`
    * `Node`
    * `Node.target`
    * `Node.childOfKind?`
-/

namespace QueryHover

------------------------------------------------------------
-- Spans
------------------------------------------------------------

/- The offsets from `start` up to, not including, `stop`. -/
structure Span where
  start : Int := 0
  stop : Int := 0
deriving DecidableEq, Repr, Inhabited

namespace Span

/- The offset lies in the span. -/
def Contains
    (span : Span)
    (offset : Int) : Prop :=
  span.start ≤ offset ∧ offset < span.stop

instance
    (span : Span)
    (offset : Int) :
    Decidable (span.Contains offset) := by
  unfold Contains
  infer_instance

/-
  The number of characters covered, as a signed number of 64
  bits.
-/
def length
    (span : Span) : Int :=
  (span.stop - span.start).bmod UInt64.size

end Span

------------------------------------------------------------
-- Operations
------------------------------------------------------------

/- The three kinds of operations. -/
inductive Operation where
  | query
  | mutation
  | subscription
deriving DecidableEq, Repr, Inhabited

namespace Operation

/- The word that starts an operation. -/
def keyword :
    Operation → String
  | query => "query"
  | mutation => "mutation"
  | subscription => "subscription"

/- The operation a word starts. -/
def ofKeyword?
    (word : String) : Option Operation :=
  if word = "query" then some query
  else if word = "mutation" then some mutation
  else if word = "subscription" then some subscription
  else none

end Operation

------------------------------------------------------------
-- Kinds of Nodes
------------------------------------------------------------

/-
  The kinds of nodes. A node that was not read from a text
  may carry a number that names no kind.
-/
inductive Node.Kind where
  | document
  | operationDefinition
  | fragmentDefinition
  | variableDefinition
  | variableUse
  | namedType
  | listType
  | nonNullType
  | selectionSet
  | field
  | argument
  | directive
  | fragmentSpread
  | inlineFragment
  | intValue
  | floatValue
  | stringValue
  | booleanValue
  | nullValue
  | enumValue
  | listValue
  | objectValue
  | objectField
  | unknown (number : Int)
deriving DecidableEq, Repr, Inhabited

namespace Node.Kind

/- The kinds in the order of their numbers. -/
def all : List Node.Kind :=
  [ document, operationDefinition, fragmentDefinition,
    variableDefinition, variableUse, namedType, listType,
    nonNullType, selectionSet, field, argument, directive,
    fragmentSpread, inlineFragment, intValue, floatValue,
    stringValue, booleanValue, nullValue, enumValue,
    listValue, objectValue, objectField ]

/- How a kind is printed. -/
def label :
    Node.Kind → String
  | document => "Document"
  | operationDefinition => "OperationDefinition"
  | fragmentDefinition => "FragmentDefinition"
  | variableDefinition => "VariableDefinition"
  | variableUse => "Variable"
  | namedType => "NamedType"
  | listType => "ListType"
  | nonNullType => "NonNullType"
  | selectionSet => "SelectionSet"
  | field => "Field"
  | argument => "Argument"
  | directive => "Directive"
  | fragmentSpread => "FragmentSpread"
  | inlineFragment => "InlineFragment"
  | intValue => "IntValue"
  | floatValue => "FloatValue"
  | stringValue => "StringValue"
  | booleanValue => "BooleanValue"
  | nullValue => "NullValue"
  | enumValue => "EnumValue"
  | listValue => "ListValue"
  | objectValue => "ObjectValue"
  | objectField => "ObjectField"
  | unknown _ => "Unknown"

/- The kind with the given number. -/
def ofNumber
    (number : Int) : Node.Kind :=
  if 0 ≤ number then
    all.getD number.toNat (unknown number)
  else
    unknown number

/- The kind printed as the given label. -/
def ofLabel?
    (text : String) : Option Node.Kind :=
  all.find? fun kind => kind.label = text

end Node.Kind

------------------------------------------------------------
-- Nodes
------------------------------------------------------------

/-
  One element of a document.

  The name is that of a field, argument, directive,
  fragment, type or enum value, a variable's name without
  the dollar sign, or the text of a scalar value; it is
  empty for nodes without a name, and so is their name
  span. Only aliased fields have an alias, and only
  operations have an operation.
-/
structure Node where
  kind : Node.Kind
  span : Span := {}
  name : String := ""
  nameSpan : Span := {}
  aliasName : String := ""
  operation : Option Operation := none
  children : List Node := []
deriving Inhabited, Repr

namespace Node

/- The part of the text to mark for a node. -/
def target
    (n : Node) : Span :=
  if 0 < n.nameSpan.length then
    n.nameSpan
  else
    n.span

/- The first child of a kind. -/
def childOfKind?
    (n : Node)
    (kind : Node.Kind) : Option Node :=
  n.children.find? fun c => c.kind = kind

/- The first child of a kind with a name. -/
def childNamed?
    (n : Node)
    (kind : Node.Kind)
    (name : String) : Option Node :=
  n.children.find? fun c =>
    c.kind = kind && c.name = name

/- The declaration of a variable in a definition. -/
def variableNamed?
    (n : Node)
    (name : String) : Option Node :=
  n.childNamed? .variableDefinition name

/- The fragment of a document with the given name. -/
def fragmentNamed?
    (n : Node)
    (name : String) : Option Node :=
  n.childNamed? .fragmentDefinition name

/- How a node is printed in a chain. -/
def label
    (n : Node) : String :=
  if n.name = "" then
    n.kind.label
  else
    n.kind.label ++ "(" ++ n.name ++ ")"

end Node

end QueryHover
