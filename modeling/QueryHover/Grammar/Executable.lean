import QueryHover.Grammar.Value
import QueryHover.Node.Basic

/-
  The grammar of query documents.

  A document is checked token by token; the first token that
  has no place in it is refused. The check builds nothing:
  the tree of an admitted document is read separately.

  Key definitions include:
    * `Grammar.selectionSet`
    * `Grammar.definition`
    * `Grammar.document`
-/

namespace QueryHover

namespace Grammar

open QueryHover.Parser

------------------------------------------------------------
-- Variables
------------------------------------------------------------

/- The default of a variable, if it has one. -/
def initial : Parser Unit := do
  if ← skip .equals then
    let _ ← value true

/- The declaration of one variable. -/
def variableDefinition : Parser Unit := do
  let _ ← expect .dollar
  let _ ← expect .name
  let _ ← expect .colon
  let _ ← typeRef
  initial
  let _ ← directives false

/- Variable declarations in parentheses. -/
def variableDefinitions : Parser Unit := do
  let _ ← nonEmptyList .parenL .parenR variableDefinition

------------------------------------------------------------
-- Selections
------------------------------------------------------------

/- The name of a field, after its alias if it has one. -/
def fieldName : Parser Unit := do
  let _ ← expect .name
  if ← skip .colon then
    let _ ← expect .name

/- A field, given how to read what is nested in it. -/
def field
    (nested : Parser Unit) : Parser Unit := do
  fieldName
  let _ ← arguments false
  let _ ← directives false
  if (← peek).kind = .braceL then
    nested

/-
  The type condition of a fragment, if it has one. It may be
  introduced by any token of the value `on`.
-/
def condition : Parser Unit := do
  if (← peek).value = "on" then
    let _ ← next
    let _ ← expect .name

/-
  A fragment. A name other than `on` spreads the fragment of
  that name; anything else starts an inline fragment.
-/
def fragment
    (nested : Parser Unit) : Parser Unit := do
  let _ ← expect .spread
  let t ← peek
  if t.kind = .name && t.value ≠ "on" then
    let _ ← next
    let _ ← directives false
  else
    condition
    let _ ← directives false
    nested

/- One selection. -/
def selection
    (nested : Parser Unit) : Parser Unit := do
  if (← peek).kind = .spread then
    fragment nested
  else
    field nested

/- Selections in braces, nested up to a depth. -/
def selectionSetWithin :
    Nat → Parser Unit
  | 0 => do
      let t ← peek
      refuse (.expectedKind .braceL) t
  | depth + 1 => do
      let t ← peek
      if t.kind = .braceL then
        let _ ←
          nonEmptyList .braceL .braceR
            (selection (selectionSetWithin depth))
      else
        refuse (.expectedKind .braceL) t

/- Selections in braces. -/
def selectionSet : Parser Unit := do
  selectionSetWithin (← get).ahead.length

------------------------------------------------------------
-- Definitions
------------------------------------------------------------

/- The name of an operation, if it has one. -/
def operationName : Parser Unit := do
  if (← peek).kind = .name then
    let _ ← next

/- An operation that starts with its keyword. -/
def operationDefinition : Parser Unit := do
  let _ ← next
  operationName
  variableDefinitions
  let _ ← directives false
  selectionSet

/- The name of a fragment. -/
def fragmentName : Parser Unit := do
  if (← peek).value = "on" then
    unexpected
  else
    let _ ← expect .name

/- A fragment definition. -/
def fragmentDefinition : Parser Unit := do
  word "fragment"
  fragmentName
  variableDefinitions
  word "on"
  let _ ← expect .name
  let _ ← directives false
  selectionSet

/- One definition of a document. -/
def definition : Parser Unit := do
  let t ← peek
  match t.kind with
  | .braceL => selectionSet
  | .name =>
      if (Operation.ofKeyword? t.value).isSome then
        operationDefinition
      else if t.value = "fragment" then
        fragmentDefinition
      else
        unexpected
  | _ => unexpected

/- A whole document. -/
def document : Parser Unit := do
  let _ ←
    TokenStream.readWhile (fun t => t.kind ≠ .eof) definition

/- Whether a stream holds a document, or why it does not. -/
def check
    (s : TokenStream) : Except SyntaxError Unit :=
  document.run' s

end Grammar

end QueryHover
