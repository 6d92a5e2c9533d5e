import QueryHover.Hover.Entity
import QueryHover.Node.Chain
import QueryHover.TypeRef

/-
  Contexts: what the typing rules of a schema know at a node.

  A context is carried down a chain. Entering a definition
  starts it anew; entering a field, an argument or a value
  narrows it. A name that the schema does not know leaves
  its place in the context empty.

  Key definitions include:
    * `Context`
    * `Context.enter`
    * `Context.along`
    * `Context.entity?`
    * `annotate?`
-/

namespace QueryHover

/-
  What is known at a node: the enclosing document and
  definition, the type whose fields are selected, the field,
  directive and argument entered last, and what is known of
  the value being written.
-/
structure Context where
  document : Option Node := none
  definition : Option Node := none
  composite : Option TypeDefinition := none
  parent : Option TypeDefinition := none
  field : Option FieldDefinition := none
  directive : Option DirectiveDefinition := none
  argument : Option ArgumentDefinition := none
  argumentDirective : Option DirectiveDefinition := none
  inputType : Option TypeRef := none
  inputParent : Option TypeDefinition := none
  inputField : Option FieldDefinition := none
  enumType : Option TypeDefinition := none
  enumValue : Option EnumValueDefinition := none
  namedType : Option TypeDefinition := none
  variableType : Option TypeRef := none

/- The field that every composite type answers to. -/
def typenameField : FieldDefinition :=
  { name := "__typename"
    description :=
      "The name of the current Object type at runtime."
    type := .named "String" true }

namespace Schema

/- The composite type with a name. -/
def composite?
    (s : Schema)
    (name : String) : Option TypeDefinition :=
  (s.type? name).filter fun t => t.kind.isComposite

/- The type under the wrappers of a reference. -/
def typeOf?
    (s : Schema)
    (type : Option TypeRef) : Option TypeDefinition :=
  type.bind fun t => s.type? t.baseName

end Schema

namespace Context

------------------------------------------------------------
-- Entering a Node
------------------------------------------------------------

/- Forget what is known of a value. -/
def clearInput
    (c : Context) : Context :=
  { c with
    argument := none
    argumentDirective := none
    inputType := none
    inputParent := none
    inputField := none
    enumType := none
    enumValue := none
    namedType := none
    variableType := none }

/- The field with a name in the current composite type. -/
def lookupField?
    (c : Context)
    (name : String) : Option FieldDefinition :=
  match c.composite with
  | none => none
  | some t =>
      if name = typenameField.name then
        some typenameField
      else
        t.field? name

variable (schema : Schema)

/- Enter an operation or fragment definition. -/
def enterDefinition
    (n : Node)
    (composite : Option TypeDefinition)
    (c : Context) : Context :=
  { document := c.document
    definition := some n
    composite := composite }

/- Enter a field. -/
def enterField
    (n : Node)
    (c : Context) : Context :=
  let cleared := { c.clearInput with directive := none }
  match c.lookupField? n.name with
  | none =>
      { cleared with
        field := none, parent := none, composite := none }
  | some f =>
      { cleared with
        field := some f
        parent := c.composite
        composite := schema.composite? f.type.baseName }

/- Enter an argument of a directive or of a field. -/
def enterArgument
    (parent : Option Node)
    (n : Node)
    (c : Context) : Context :=
  let ofDirective :=
    parent.any fun p => p.kind = .directive
  let argument :=
    if ofDirective then
      c.directive.bind fun d => d.argument? n.name
    else
      c.field.bind fun f => f.argument? n.name
  { c.clearInput with
    argument := argument
    argumentDirective :=
      if ofDirective then c.directive else none
    inputType := argument.map ArgumentDefinition.type }

/- Enter a field of an object value. -/
def enterObjectField
    (n : Node)
    (c : Context) : Context :=
  let inputParent :=
    (schema.typeOf? c.inputType).filter fun t =>
      t.kind = .inputObject
  let inputField :=
    inputParent.bind fun t => t.field? n.name
  { c with
    inputParent := inputParent
    inputField := inputField
    inputType := inputField.map FieldDefinition.type }

/- Enter an enum value. -/
def enterEnumValue
    (n : Node)
    (c : Context) : Context :=
  let enumType :=
    (schema.typeOf? c.inputType).filter fun t =>
      t.kind = .enum
  { c with
    enumType := enumType
    enumValue := enumType.bind fun t => t.value? n.name }

/- The context at a node, from that at its parent. -/
def enter
    (parent : Option Node)
    (n : Node)
    (c : Context) : Context :=
  match n.kind with
  | .document => { document := some n }
  | .operationDefinition =>
      c.enterDefinition n
        (schema.root? (n.operation.getD .query))
  | .fragmentDefinition =>
      c.enterDefinition n
        ((n.childOfKind? .namedType).bind fun condition =>
          schema.composite? condition.name)
  | .inlineFragment =>
      if n.name = "" then
        c
      else
        { c with composite := schema.composite? n.name }
  | .field => c.enterField schema n
  | .directive =>
      { c.clearInput with
        directive := schema.directive? n.name }
  | .argument => c.enterArgument parent n
  | .variableDefinition =>
      { c.clearInput with
        variableType := n.typeRef?
        inputType := n.typeRef? }
  | .variableUse =>
      { c with
        variableType :=
          (c.definition.bind fun d =>
            d.variableNamed? n.name).bind Node.typeRef? }
  | .namedType =>
      { c with namedType := schema.type? n.name }
  | .listValue =>
      { c with inputType := c.inputType.bind TypeRef.element? }
  | .objectField => c.enterObjectField schema n
  | .enumValue => c.enterEnumValue schema n
  | _ => c

/- The context after entering nodes one below the other. -/
def alongFrom
    (parent : Option Node) :
    Context → Chain → Context
  | c, [] => c
  | c, n :: chain =>
      alongFrom (some n) (c.enter schema parent n) chain

/- The context at the end of a chain. -/
def along
    (chain : Chain) : Context :=
  alongFrom schema none {} chain

------------------------------------------------------------
-- The Entity at a Node
------------------------------------------------------------

/-
  A type, described through the enclosing field when it is
  exactly what that field yields.
-/
def typeEntity
    (c : Context)
    (t : TypeDefinition) : Entity :=
  match c.field with
  | some f =>
      if f.type.baseName = t.name then
        .type (some t) c.parent (some f)
      else
        .type (some t) none none
  | none => .type (some t) none none

/- The type condition of the fragment that is spread. -/
def spreadEntity?
    (c : Context)
    (name : String) : Option Entity := do
  let document ← c.document
  let fragment ← document.fragmentNamed? name
  let condition ← fragment.childOfKind? .namedType
  let t ← schema.type? condition.name
  pure (.type (some t) none none)

/- The most specific element that the context knows. -/
def nearest?
    (c : Context) : Option Entity :=
  if c.enumValue.isSome then
    some (.enumValue c.enumType c.enumValue)
  else if c.inputField.isSome then
    some (.field c.inputParent c.inputField)
  else if c.argument.isSome then
    if c.argumentDirective.isSome then
      some
        (.argument none none c.argumentDirective c.argument)
    else
      some (.argument c.parent c.field none c.argument)
  else if c.directive.isSome then
    some (.directive c.directive)
  else if c.field.isSome then
    some (.field c.parent c.field)
  else
    match c.namedType with
    | some t => some (c.typeEntity t)
    | none =>
        if c.variableType.isSome then
          some (.variableType c.variableType)
        else
          none

/-
  The entity of a leaf. Variables, type names and fragment
  spreads describe themselves where they can; everything
  else takes the most specific element known.
-/
def entity?
    (c : Context)
    (leaf : Node) : Option Entity :=
  match leaf.kind with
  | .variableUse =>
      if c.variableType.isSome then
        some (.variableType c.variableType)
      else
        c.nearest?
  | .namedType =>
      match c.namedType with
      | some t => some (c.typeEntity t)
      | none => c.nearest?
  | .fragmentSpread => c.spreadEntity? schema leaf.name
  | _ => c.nearest?

end Context

/-
  The entity that the leaf of a chain stands for. A name
  that does not resolve is passed over in favour of the
  nearest ancestor that does.
-/
def annotate?
    (schema : Option Schema)
    (chain : Chain) : Option Entity := do
  let schema ← schema
  let leaf ← chain.leaf?
  (Context.along schema chain).entity? schema leaf

end QueryHover
