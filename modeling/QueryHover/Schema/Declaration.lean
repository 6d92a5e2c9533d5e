import QueryHover.Schema.Basic

/-
  Declarations: the grammar of schema documents.

  A schema document is a list of declarations, each of which
  defines or extends a type, defines a directive, or names
  the roots. A definition is reported at the token after its
  keyword, a directive at its name, and a member at its
  description or, without one, at its name.

  Key definitions include:
    * `Declaration`
    * `Declaration.parse`
-/

namespace QueryHover

------------------------------------------------------------
-- Declarations
------------------------------------------------------------

/- The root type named for an operation. -/
structure RootEntry where
  operation : Operation
  type : String
  location : Location
deriving DecidableEq, Repr

/- The root types named by a schema definition. -/
structure RootDeclaration where
  directives : List DirectiveUse
  entries : List RootEntry
  location : Location
deriving DecidableEq, Repr

/- One declaration of a schema document. -/
inductive Declaration where
  | typeDefinition (definition : TypeDefinition)
  | typeExtension (definition : TypeDefinition)
  | directiveDefinition (definition : DirectiveDefinition)
  | rootDefinition (definition : RootDeclaration)
  | rootExtension (definition : RootDeclaration)
deriving DecidableEq, Repr

namespace Declaration

open QueryHover.Parser
open Grammar (typeRef value directives)

------------------------------------------------------------
-- Members
------------------------------------------------------------

/- A description, empty if there is none. -/
def description : Parser String := do
  let t ← peek
  if t.kind = .string || t.kind = .blockString then
    return (← next).value
  else
    pure ""

/- Where the next token is reported. -/
def here : Parser Location := do
  place (← peek)

/- An argument, as far as it looks like an input field. -/
def argument : Parser ArgumentDefinition := do
  let location ← here
  let description ← description
  let name ← Parser.name
  let _ ← expect .colon
  let (typeLocation, type) ← typeRef
  let defaultValue ←
    if ← skip .equals then
      pure (some (← value true))
    else
      pure none
  let directives ← directives true
  pure
    { name, description, type, defaultValue, directives
      location, typeLocation }

/- Arguments in parentheses. -/
def arguments : Parser (List ArgumentDefinition) :=
  nonEmptyList .parenL .parenR argument

/- A field of an object or interface. -/
def field : Parser FieldDefinition := do
  let location ← here
  let description ← description
  let name ← Parser.name
  let arguments ← arguments
  let _ ← expect .colon
  let (typeLocation, type) ← typeRef
  let directives ← directives true
  pure
    { name, description, arguments, type, directives
      location, typeLocation }

/- Fields in braces. -/
def fields : Parser (List FieldDefinition) :=
  nonEmptyList .braceL .braceR field

/- A field of an input object. -/
def inputField : Parser FieldDefinition := do
  let a ← argument
  pure
    { name := a.name
      description := a.description
      type := a.type
      defaultValue := a.defaultValue
      directives := a.directives
      location := a.location
      typeLocation := a.typeLocation }

/- Input fields in braces. -/
def inputFields : Parser (List FieldDefinition) :=
  nonEmptyList .braceL .braceR inputField

/- A value of an enum. -/
def enumValue : Parser EnumValueDefinition := do
  let location ← here
  let description ← description
  let name ← Parser.name
  let directives ← directives true
  pure { name, description, directives, location }

/- Enum values in braces. -/
def enumValues : Parser (List EnumValueDefinition) :=
  nonEmptyList .braceL .braceR enumValue

/- The members of a union. -/
def members : Parser (List String) := do
  if ← skip .equals then
    separated .pipe Parser.name
  else
    pure []

/- The interfaces a type implements. -/
def interfaces : Parser (List String) := do
  if (← peek).value = "implements" then
    let _ ← next
    separated .ampersand Parser.name
  else
    pure []

------------------------------------------------------------
-- Types
------------------------------------------------------------

/-
  The part of a type definition after its keyword. An
  extension takes no interfaces for an interface, and its
  directives on an input object may use variables.
-/
def typeBody
    (asExtension : Bool) :
    TypeKind → Parser TypeDefinition
  | .scalar => do
      let location ← here
      let name ← Parser.name
      let directives ← directives true
      pure { kind := .scalar, name, directives, location }
  | .object => do
      let location ← here
      let name ← Parser.name
      let interfaces ← interfaces
      let directives ← directives true
      let fields ← fields
      pure
        { kind := .object, name, interfaces, directives
          fields, location }
  | .interface => do
      let location ← here
      let name ← Parser.name
      let interfaces ←
        if asExtension then pure [] else interfaces
      let directives ← directives true
      let fields ← fields
      pure
        { kind := .interface, name, interfaces, directives
          fields, location }
  | .union => do
      let location ← here
      let name ← Parser.name
      let directives ← directives true
      let members ← members
      pure
        { kind := .union, name, directives, members
          location }
  | .enum => do
      let location ← here
      let name ← Parser.name
      let directives ← directives true
      let values ← enumValues
      pure
        { kind := .enum, name, directives, values, location }
  | .inputObject => do
      let location ← here
      let name ← Parser.name
      let directives ← directives (!asExtension)
      let fields ← inputFields
      pure
        { kind := .inputObject, name, directives, fields
          location }

/- The kind of type a keyword defines. -/
def kindOfKeyword?
    (text : String) : Option TypeKind :=
  [ ("scalar", .scalar), ("type", .object),
    ("interface", .interface), ("union", .union),
    ("enum", .enum), ("input", .inputObject) ].lookup text

/- Whether an extension adds anything to its base. -/
def addsSomething
    (t : TypeDefinition) : Bool :=
  !(t.directives.isEmpty && t.interfaces.isEmpty &&
    t.fields.isEmpty && t.values.isEmpty &&
    t.members.isEmpty)

------------------------------------------------------------
-- Roots and Directives
------------------------------------------------------------

/- The root type of one operation. -/
def rootEntry : Parser RootEntry := do
  let t ← take
  match Operation.ofKeyword? t.value with
  | some operation =>
      let location ← place t
      let _ ← expect .colon
      let type ← Parser.name
      pure { operation, type, location }
  | none => refuse .unexpected t

/- The part of a root declaration after its keyword. -/
def rootBody : Parser RootDeclaration := do
  let location ← here
  let directives ← directives true
  let entries ← nonEmptyList .braceL .braceR rootEntry
  pure { directives, entries, location }

/- A place where a directive may be applied. -/
def directivePlace : Parser DirectiveLocation := do
  let t ← expect .name
  match DirectiveLocation.ofLabel? t.value with
  | some place => pure place
  | none => refuse .unexpected t

/- The part of a directive definition after its keyword. -/
def directiveBody : Parser DirectiveDefinition := do
  let _ ← expect .atSign
  let location ← here
  let name ← Parser.name
  let arguments ← arguments
  if (← peek).isWord "repeatable" then
    let _ ← next
  word "on"
  let places ← separated .pipe directivePlace
  pure { name, arguments, places, location }

------------------------------------------------------------
-- Documents
------------------------------------------------------------

/- An extension, after the word that announces it. -/
def extensionBody : Parser Declaration := do
  let t ← peek
  if t.value = "schema" then
    word "schema"
    let roots ← rootBody
    if roots.directives.isEmpty && roots.entries.isEmpty then
      unexpected
    else
      pure (.rootExtension roots)
  else
    match kindOfKeyword? t.value with
    | some kind =>
        word t.value
        let type ← typeBody true kind
        if addsSomething type then
          pure (.typeExtension type)
        else
          unexpected
    | none => refuse .unexpected t

/-
  One declaration. An extension must not have a description
  that says anything; what is refused is the description, or
  the last comment after it.
-/
def declaration : Parser Declaration := do
  let first ← peek
  let description ← description
  let t ← peek
  if t.kind ≠ .name then
    refuse .unexpected t
  else if t.value = "schema" then
    let _ ← next
    return .rootDefinition (← rootBody)
  else if t.value = "directive" then
    let _ ← next
    let definition ← directiveBody
    pure
      (.directiveDefinition { definition with description })
  else if t.value = "extend" then
    if description ≠ "" then
      let comment := (← get).commentBetween? first t
      refuse .unexpected (comment.getD first)
    else
      let _ ← next
      extensionBody
  else
    match kindOfKeyword? t.value with
    | some kind =>
        let _ ← next
        let definition ← typeBody false kind
        pure
          (.typeDefinition { definition with description })
    | none => refuse .unexpected t

/- The declarations of a schema document. -/
def document : Parser (List Declaration) :=
  TokenStream.readWhile (fun t => t.kind ≠ .eof) declaration

/- The declarations of a named text. -/
def parse
    (file : String)
    (text : List Char) :
    Except SyntaxError (List Declaration) :=
  document.run' (TokenStream.ofText file text)

end Declaration

end QueryHover
