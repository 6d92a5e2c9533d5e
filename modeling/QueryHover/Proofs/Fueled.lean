import QueryHover.Proofs.Accesses

/-
  A reading of nodes on fuel.

  The reading of a tree bounds how deep nodes nest, and leaves
  any list at an item that takes no token, so it ends whatever
  it does. Here it is stated without either. It goes on for as
  long as the tokens tell it to, and finds each token by its
  index in a list. Nesting and going round cost fuel, and
  there is no result when the fuel is used up: a reading that
  never ends has no result, whatever the fuel. Only the list
  of definitions stops by itself, at a round that takes
  nothing.

  A trail is kept of the indices looked at and of the rounds
  of every list.

  Key definitions include:
    * `Node.Trail`
    * `Node.Fueled`
    * `Node.Fueled.repeated`
    * `Node.Fueled.value`
    * `Node.Fueled.selectionSet`
    * `Node.Fueled.document`
-/

namespace QueryHover

------------------------------------------------------------
-- Trails
------------------------------------------------------------

namespace Node

/- The lists that a document is read in. -/
inductive Loop where
  | definitions
  | variableDefinitions
  | arguments
  | directives
  | selections
  | listItems
  | objectFields
deriving DecidableEq, Repr

/- The index before one item of a list, and after it. -/
structure Round where
  loop : Loop
  before : Nat
  after : Nat
deriving DecidableEq, Repr

/- At least one token was taken. -/
def Round.Takes
    (r : Round) : Prop :=
  r.before < r.after

/-
  A place in a list of tokens, with the indices at which a
  token was looked at or read, and with the rounds so far,
  each in the order of time.
-/
structure Trail extends Checked.Cursor where
  visits : List Nat := []
  rounds : List Round := []

namespace Trail

/- A trail that has not begun. -/
def ofTokens
    (tokens : List Token) : Trail :=
  { tokens, read := 0 }

/- All indices so far, up to the one that is reached. -/
def course
    (trail : Trail) : List Nat :=
  trail.visits ++ [trail.read]

/- The rounds of one list. -/
def roundsOf
    (trail : Trail)
    (loop : Loop) : List Round :=
  trail.rounds.filter fun r => r.loop = loop

/- Go to a place and note where the trail came from. -/
def visit
    (trail : Trail)
    (place : Checked.Cursor) : Trail :=
  { trail with
    toCursor := place
    visits := trail.visits ++ [trail.read] }

/- Note a round that ends here. -/
def conclude
    (trail : Trail)
    (loop : Loop)
    (before : Nat) : Trail :=
  { trail with
    rounds := trail.rounds ++ [⟨loop, before, trail.read⟩] }

end Trail

/-
  A reader of nodes that may end in a mishap, or run out of
  fuel; it then has no result.
-/
abbrev Fueled (α : Type) :=
  StateT Trail (ExceptT Mishap Option) α

namespace Fueled

variable {α : Type}

------------------------------------------------------------
-- Tokens and Rounds
------------------------------------------------------------

/- The fuel is used up. -/
def usedUp : Fueled α :=
  fun _ => none

/- An access to the tokens. -/
def access
    (x : Checked α) : Fueled α :=
  fun trail => some (x.map fun a => (a, trail))

/- Look at the next token. -/
def peek : Fueled Token := do
  let trail ← get
  let t ← access trail.peek
  set (trail.visit trail.toCursor)
  pure t

/- Read the next token. -/
def next : Fueled Token := do
  let trail ← get
  let t ← access trail.peek
  let after ← access trail.next
  set (trail.visit after)
  pure t

/- Read the next token if it has the given kind. -/
def skip
    (kind : Token.Kind) : Fueled Bool := do
  if (← peek).kind = kind then
    let _ ← next
    pure true
  else
    pure false

/- Where the next token starts. -/
def start : Fueled Nat :=
  return (← peek).start

/- A token's value and the part of the text it covers. -/
def name : Fueled (String × Span) := do
  let t ← next
  pure (t.value, ⟨t.start, t.stop⟩)

/- Let a node end with the last token read. -/
def close
    (start : Nat)
    (n : Node) : Fueled Node := do
  let readTo ← access (← get).readTo
  pure { n with span := ⟨start, max start readTo⟩ }

/- Read an item and note the round. -/
def inRound
    (loop : Loop)
    (item : Fueled α) : Fueled α := do
  let before := (← get).read
  let a ← item
  modify fun trail => trail.conclude loop before
  pure a

/- Read items for as long as the next token starts one. -/
def repeated
    (loop : Loop)
    (starts : Token → Bool)
    (item : Fueled α) :
    Nat → Fueled (List α)
  | 0 => usedUp
  | fuel + 1 => do
      if starts (← peek) then
        let a ← inRound loop item
        let as ← repeated loop starts item fuel
        pure (a :: as)
      else
        pure []

/- Read items and the token that closes their list. -/
def itemsUntil
    (loop : Loop)
    (close : Token.Kind)
    (item : Fueled α)
    (fuel : Nat) : Fueled (List α) := do
  let items ←
    repeated loop
      (fun t => t.kind ≠ close && t.kind ≠ .eof) item fuel
  let _ ← next
  pure items

------------------------------------------------------------
-- Variables and Types
------------------------------------------------------------

/- A variable; its name covers the dollar sign too. -/
def variableUse : Fueled Node := do
  let start ← start
  let _ ← next
  let (name, _) ← name
  let n ← close start { kind := .variableUse, name }
  pure { n with nameSpan := n.span }

/- The name of a type. -/
def namedType : Fueled Node := do
  let start ← start
  let (name, nameSpan) ← name
  close start { kind := .namedType, name, nameSpan }

/- A type marked non-null if the mark follows. -/
def marked
    (start : Nat)
    (type : Node) : Fueled Node := do
  if ← skip .bang then
    close start
      { kind := .nonNullType
        name := type.name
        nameSpan := type.nameSpan
        children := [type] }
  else
    pure type

/- A type reference. -/
def typeRef :
    Nat → Fueled Node
  | 0 => usedUp
  | fuel + 1 => do
      let start ← start
      if ← skip .bracketL then
        let element ← typeRef fuel
        let _ ← next
        let type ←
          close start
            { kind := .listType, children := [element] }
        marked start type
      else
        marked start (← namedType)

------------------------------------------------------------
-- Values
------------------------------------------------------------

/- A value that is a single token. -/
def scalarValue : Fueled Node := do
  let start ← start
  let kind := Reading.scalarKind (← peek)
  let (name, nameSpan) ← name
  close start { kind, name, nameSpan }

/- A name, a colon and a value. -/
def namedValue
    (kind : Node.Kind)
    (value : Fueled Node) : Fueled Node := do
  let start ← start
  let (name, nameSpan) ← name
  let _ ← skip .colon
  let value ← value
  close start
    { kind, name, nameSpan, children := [value] }

/- A value. -/
def value :
    Nat → Fueled Node
  | 0 => usedUp
  | fuel + 1 => do
      let start ← start
      match (← peek).kind with
      | .bracketL =>
          let _ ← next
          let children ←
            itemsUntil .listItems .bracketR (value fuel) fuel
          close start { kind := .listValue, children }
      | .braceL =>
          let _ ← next
          let children ←
            itemsUntil .objectFields .braceR
              (namedValue .objectField (value fuel)) fuel
          close start { kind := .objectValue, children }
      | .dollar => variableUse
      | _ => scalarValue

------------------------------------------------------------
-- Arguments and Directives
------------------------------------------------------------

/- Arguments in parentheses. -/
def arguments
    (fuel : Nat) : Fueled (List Node) := do
  if ← skip .parenL then
    itemsUntil .arguments .parenR
      (namedValue .argument (value fuel)) fuel
  else
    pure []

/- One directive. -/
def directive
    (fuel : Nat) : Fueled Node := do
  let start ← start
  let _ ← next
  let (name, nameSpan) ← name
  let children ← arguments fuel
  close start
    { kind := .directive, name, nameSpan, children }

/- The directives applied to what stands before them. -/
def directives
    (fuel : Nat) : Fueled (List Node) :=
  repeated .directives (fun t => t.kind = .atSign)
    (directive fuel) fuel

/- The default of a variable, if it has one. -/
def initial
    (fuel : Nat) : Fueled (List Node) := do
  if ← skip .equals then
    pure [← value fuel]
  else
    pure []

/- The declaration of one variable. -/
def variableDefinition
    (fuel : Nat) : Fueled Node := do
  let start ← start
  let declared ← variableUse
  let _ ← skip .colon
  let type ← typeRef fuel
  let initial ← initial fuel
  let directives ← directives fuel
  close start
    { kind := .variableDefinition
      name := declared.name
      nameSpan := declared.nameSpan
      children := declared :: type :: initial ++ directives }

/- Variable declarations in parentheses. -/
def variableDefinitions
    (fuel : Nat) : Fueled (List Node) := do
  if ← skip .parenL then
    itemsUntil .variableDefinitions .parenR
      (variableDefinition fuel) fuel
  else
    pure []

------------------------------------------------------------
-- Selections
------------------------------------------------------------

/- The name of a field, after its alias if it has one. -/
def fieldName : Fueled (String × String × Span) := do
  let (first, firstSpan) ← name
  if ← skip .colon then
    let (name, nameSpan) ← name
    pure (first, name, nameSpan)
  else
    pure ("", first, firstSpan)

/- A field, given how to read what is nested in it. -/
def field
    (fuel : Nat)
    (nested : Fueled (Option Node)) : Fueled Node := do
  let start ← start
  let (aliasName, name, nameSpan) ← fieldName
  let arguments ← arguments fuel
  let directives ← directives fuel
  let selections ← nested
  close start
    { kind := .field
      name, nameSpan, aliasName
      children :=
        arguments ++ directives ++ selections.toList }

/- The spread of a named fragment. -/
def fragmentSpread
    (fuel start : Nat) : Fueled Node := do
  let (name, nameSpan) ← name
  let children ← directives fuel
  close start
    { kind := .fragmentSpread, name, nameSpan, children }

/- The type condition of a fragment, if it has one. -/
def condition : Fueled (Option Node) := do
  if (← peek).value = "on" then
    let _ ← next
    pure (some (← namedType))
  else
    pure none

/- An inline fragment. -/
def inlineFragment
    (fuel start : Nat)
    (nested : Fueled (Option Node)) : Fueled Node := do
  let condition ← condition
  let directives ← directives fuel
  let selections ← nested
  close start
    { kind := .inlineFragment
      name := (condition.map Node.name).getD ""
      nameSpan := (condition.map Node.nameSpan).getD {}
      children :=
        condition.toList ++ directives ++
          selections.toList }

/- One selection. -/
def selection
    (fuel : Nat)
    (nested : Fueled (Option Node)) : Fueled Node := do
  if (← peek).kind = .spread then
    let start ← start
    let _ ← next
    let t ← peek
    if t.kind = .name && t.value ≠ "on" then
      fragmentSpread fuel start
    else
      inlineFragment fuel start nested
  else
    field fuel nested

/- Selections in braces, if there are any. -/
def selectionSet :
    Nat → Fueled (Option Node)
  | 0 => usedUp
  | fuel + 1 => do
      let start ← start
      if ← skip .braceL then
        let children ←
          itemsUntil .selections .braceR
            (selection fuel (selectionSet fuel)) fuel
        let n ← close start { kind := .selectionSet, children }
        pure (some n)
      else
        pure none

------------------------------------------------------------
-- Definitions
------------------------------------------------------------

/- The name of an operation, if it has one. -/
def operationName : Fueled String := do
  if (← peek).kind = .name then
    pure (← next).value
  else
    pure ""

/- An operation; without a keyword it is a query. -/
def operationDefinition
    (fuel : Nat) : Fueled Node := do
  let start ← start
  if (← peek).kind = .name then
    let keyword ← next
    let name ← operationName
    let declared ← variableDefinitions fuel
    let directives ← directives fuel
    let selections ← selectionSet fuel
    close start
      { kind := .operationDefinition
        name
        operation :=
          (Operation.ofKeyword? keyword.value).getD .query
        children :=
          declared ++ directives ++ selections.toList }
  else
    let selections ← selectionSet fuel
    close start
      { kind := .operationDefinition
        operation := some .query
        children := selections.toList }

/- A fragment definition. -/
def fragmentDefinition
    (fuel : Nat) : Fueled Node := do
  let start ← start
  let _ ← next
  let (name, nameSpan) ← name
  let declared ← variableDefinitions fuel
  let _ ← next
  let condition ← namedType
  let directives ← directives fuel
  let selections ← selectionSet fuel
  close start
    { kind := .fragmentDefinition
      name, nameSpan
      children :=
        declared ++ condition :: directives ++
          selections.toList }

/- One definition of a document. -/
def definition
    (fuel : Nat) : Fueled Node := do
  if (← peek).isWord "fragment" then
    fragmentDefinition fuel
  else
    operationDefinition fuel

/-
  The definitions of a document. A definition that takes no
  token is the last one.
-/
def definitions :
    Nat → Fueled (List Node)
  | 0 => usedUp
  | fuel + 1 => do
      if (← peek).kind ≠ .eof then
        let before := (← get).read
        let n ← inRound .definitions (definition (fuel + 1))
        if (← get).read = before then
          pure [n]
        else
          let ns ← definitions fuel
          pure (n :: ns)
      else
        pure []

/- The tree of a text of the given length. -/
def document
    (fuel length : Nat) : Fueled Node := do
  let children ← definitions fuel
  pure { kind := .document, span := ⟨0, length⟩, children }

end Fueled

end Node

end QueryHover
