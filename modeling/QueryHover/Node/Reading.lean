import QueryHover.Grammar.Executable
import QueryHover.Node.Basic
import QueryHover.Token.Stream

/-
  Reading a tree from a stream of tokens.

  The reading follows the grammar and records where every
  node starts and ends. It refuses nothing: on a stream that
  is no document it still yields a tree, and stops.

  A node ends where the last token read for it ends. Nesting
  is bounded by the number of tokens left.

  A text is a document when the grammar admits its tokens;
  its tree is then read from the same tokens.

  Key definitions include:
    * `Node.Reading`
    * `Node.Reading.value`
    * `Node.Reading.selectionSet`
    * `Node.Reading.document`
    * `Document.parse`
-/

namespace QueryHover

/- A reader of nodes. -/
abbrev Node.Reading (α : Type) :=
  StateM TokenStream α

namespace Node.Reading

open TokenStream (peek next skip readWhile)

------------------------------------------------------------
-- Parts of Nodes
------------------------------------------------------------

/- Where the next token starts. -/
def start : Reading Nat :=
  return (← peek).start

/- A token's value and the part of the text it covers. -/
def name : Reading (String × Span) := do
  let t ← next
  pure (t.value, ⟨t.start, t.stop⟩)

/- Let a node end with the last token read. -/
def close
    (start : Nat)
    (n : Node) : Reading Node := do
  let s ← get
  pure { n with span := ⟨start, max start s.readTo⟩ }

/- Read items up to the token that closes their list. -/
def itemsUntil
    {α : Type}
    (close : Token.Kind)
    (item : Reading α) : Reading (List α) := do
  let items ←
    readWhile
      (fun t => t.kind ≠ close && t.kind ≠ .eof) item
  let _ ← next
  pure items

------------------------------------------------------------
-- Variables and Types
------------------------------------------------------------

/- A variable; its name covers the dollar sign too. -/
def variableUse : Reading Node := do
  let start ← start
  let _ ← next
  let (name, _) ← name
  let n ← close start { kind := .variableUse, name }
  pure { n with nameSpan := n.span }

/- The name of a type. -/
def namedType : Reading Node := do
  let start ← start
  let (name, nameSpan) ← name
  close start { kind := .namedType, name, nameSpan }

/- A type marked non-null if the mark follows. -/
def marked
    (start : Nat)
    (type : Node) : Reading Node := do
  if ← skip .bang then
    close start
      { kind := .nonNullType
        name := type.name
        nameSpan := type.nameSpan
        children := [type] }
  else
    pure type

/- A type reference nested up to a depth. -/
def typeRefWithin :
    Nat → Reading Node
  | 0 => do
      let start ← start
      marked start (← namedType)
  | depth + 1 => do
      let start ← start
      if ← skip .bracketL then
        let element ← typeRefWithin depth
        let _ ← next
        let type ←
          close start
            { kind := .listType, children := [element] }
        marked start type
      else
        marked start (← namedType)

/- A type reference. -/
def typeRef : Reading Node := do
  typeRefWithin (← get).ahead.length

------------------------------------------------------------
-- Values
------------------------------------------------------------

/- The kind of value that a single token stands for. -/
def scalarKind
    (t : Token) : Node.Kind :=
  match t.kind with
  | .int => .intValue
  | .float => .floatValue
  | .string | .blockString => .stringValue
  | _ =>
      if t.value = "true" || t.value = "false" then
        .booleanValue
      else if t.value = "null" then
        .nullValue
      else
        .enumValue

/- A value that is a single token. -/
def scalarValue : Reading Node := do
  let start ← start
  let kind := scalarKind (← peek)
  let (name, nameSpan) ← name
  close start { kind, name, nameSpan }

/- A name, a colon and a value. -/
def namedValue
    (kind : Node.Kind)
    (value : Reading Node) : Reading Node := do
  let start ← start
  let (name, nameSpan) ← name
  let _ ← skip .colon
  let value ← value
  close start
    { kind, name, nameSpan, children := [value] }

/- A value nested up to a depth. -/
def valueWithin :
    Nat → Reading Node
  | 0 => scalarValue
  | depth + 1 => do
      let start ← start
      match (← peek).kind with
      | .bracketL =>
          let _ ← next
          let children ←
            itemsUntil .bracketR (valueWithin depth)
          close start { kind := .listValue, children }
      | .braceL =>
          let _ ← next
          let children ←
            itemsUntil .braceR
              (namedValue .objectField (valueWithin depth))
          close start { kind := .objectValue, children }
      | .dollar => variableUse
      | _ => scalarValue

/- A value. -/
def value : Reading Node := do
  valueWithin (← get).ahead.length

------------------------------------------------------------
-- Arguments and Directives
------------------------------------------------------------

/- Arguments in parentheses. -/
def arguments : Reading (List Node) := do
  if ← skip .parenL then
    itemsUntil .parenR (namedValue .argument value)
  else
    pure []

/- One directive. -/
def directive : Reading Node := do
  let start ← start
  let _ ← next
  let (name, nameSpan) ← name
  let children ← arguments
  close start
    { kind := .directive, name, nameSpan, children }

/- The directives applied to what stands before them. -/
def directives : Reading (List Node) :=
  readWhile (fun t => t.kind = .atSign) directive

/- The default of a variable, if it has one. -/
def initial : Reading (List Node) := do
  if ← skip .equals then
    pure [← value]
  else
    pure []

/- The declaration of one variable. -/
def variableDefinition : Reading Node := do
  let start ← start
  let declared ← variableUse
  let _ ← skip .colon
  let type ← typeRef
  let initial ← initial
  let directives ← directives
  close start
    { kind := .variableDefinition
      name := declared.name
      nameSpan := declared.nameSpan
      children := declared :: type :: initial ++ directives }

/- Variable declarations in parentheses. -/
def variableDefinitions : Reading (List Node) := do
  if ← skip .parenL then
    itemsUntil .parenR variableDefinition
  else
    pure []

------------------------------------------------------------
-- Selections
------------------------------------------------------------

/- The name of a field, after its alias if it has one. -/
def fieldName : Reading (String × String × Span) := do
  let (first, firstSpan) ← name
  if ← skip .colon then
    let (name, nameSpan) ← name
    pure (first, name, nameSpan)
  else
    pure ("", first, firstSpan)

/- A field, given how to read what is nested in it. -/
def field
    (nested : Reading (Option Node)) : Reading Node := do
  let start ← start
  let (aliasName, name, nameSpan) ← fieldName
  let arguments ← arguments
  let directives ← directives
  let selections ← nested
  close start
    { kind := .field
      name, nameSpan, aliasName
      children :=
        arguments ++ directives ++ selections.toList }

/- The spread of a named fragment. -/
def fragmentSpread
    (start : Nat) : Reading Node := do
  let (name, nameSpan) ← name
  let children ← directives
  close start
    { kind := .fragmentSpread, name, nameSpan, children }

/- The type condition of a fragment, if it has one. -/
def condition : Reading (Option Node) := do
  if (← peek).value = "on" then
    let _ ← next
    pure (some (← namedType))
  else
    pure none

/- An inline fragment. -/
def inlineFragment
    (start : Nat)
    (nested : Reading (Option Node)) : Reading Node := do
  let condition ← condition
  let directives ← directives
  let selections ← nested
  close start
    { kind := .inlineFragment
      name := (condition.map Node.name).getD ""
      nameSpan := (condition.map Node.nameSpan).getD {}
      children :=
        condition.toList ++ directives ++
          selections.toList }

/- One selection. -/
def selection
    (nested : Reading (Option Node)) : Reading Node := do
  if (← peek).kind = .spread then
    let start ← start
    let _ ← next
    let t ← peek
    if t.kind = .name && t.value ≠ "on" then
      fragmentSpread start
    else
      inlineFragment start nested
  else
    field nested

/- Selections in braces, if there are any, up to a depth. -/
def selectionSetWithin :
    Nat → Reading (Option Node)
  | 0 => pure none
  | depth + 1 => do
      let start ← start
      if ← skip .braceL then
        let children ←
          itemsUntil .braceR
            (selection (selectionSetWithin depth))
        let n ← close start { kind := .selectionSet, children }
        pure (some n)
      else
        pure none

/- Selections in braces, if there are any. -/
def selectionSet : Reading (Option Node) := do
  selectionSetWithin (← get).ahead.length

------------------------------------------------------------
-- Definitions
------------------------------------------------------------

/- The name of an operation, if it has one. -/
def operationName : Reading String := do
  if (← peek).kind = .name then
    pure (← next).value
  else
    pure ""

/- An operation; without a keyword it is a query. -/
def operationDefinition : Reading Node := do
  let start ← start
  if (← peek).kind = .name then
    let keyword ← next
    let name ← operationName
    let declared ← variableDefinitions
    let directives ← directives
    let selections ← selectionSet
    close start
      { kind := .operationDefinition
        name
        operation :=
          (Operation.ofKeyword? keyword.value).getD .query
        children :=
          declared ++ directives ++ selections.toList }
  else
    let selections ← selectionSet
    close start
      { kind := .operationDefinition
        operation := some .query
        children := selections.toList }

/- A fragment definition. -/
def fragmentDefinition : Reading Node := do
  let start ← start
  let _ ← next
  let (name, nameSpan) ← name
  let declared ← variableDefinitions
  let _ ← next
  let condition ← namedType
  let directives ← directives
  let selections ← selectionSet
  close start
    { kind := .fragmentDefinition
      name, nameSpan
      children :=
        declared ++ condition :: directives ++
          selections.toList }

/- One definition of a document. -/
def definition : Reading Node := do
  if (← peek).isWord "fragment" then
    fragmentDefinition
  else
    operationDefinition

/- The definitions of a document. -/
def definitions : Reading (List Node) :=
  readWhile (fun t => t.kind ≠ .eof) definition

/- The tree of a text of the given length. -/
def document
    (length : Nat)
    (s : TokenStream) : Node :=
  { kind := .document
    span := ⟨0, length⟩
    children := (definitions.run s).1 }

end Node.Reading

------------------------------------------------------------
-- Documents
------------------------------------------------------------

namespace Document

/- The tree of a text, or why the text is no document. -/
def parse
    (text : List Char) : Except SyntaxError Node := do
  let tokens := TokenStream.ofText "input" text
  Grammar.check tokens
  pure (Node.Reading.document text.length tokens)

end Document

end QueryHover
