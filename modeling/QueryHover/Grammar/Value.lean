import QueryHover.Grammar.Parser
import QueryHover.TypeRef

/-
  Types, values and directives: the part of the grammar that
  query documents and schemas share.

  Nesting is bounded by the number of tokens left, which no
  text can exceed.

  Key definitions include:
    * `Literal`
    * `DirectiveUse`
    * `Grammar.typeRef`
    * `Grammar.value`
    * `Grammar.arguments`
    * `Grammar.directives`
-/

namespace QueryHover

------------------------------------------------------------
-- What is Read
------------------------------------------------------------

/- A value as written; lists and objects are not kept. -/
inductive Literal where
  | null
  | scalar (text : String)
  | compound
deriving DecidableEq, Repr, Inhabited

namespace Literal

/- The text of a value, empty for lists and objects. -/
def text :
    Literal → String
  | null => "null"
  | scalar text => text
  | compound => ""

end Literal

/- A named value: an argument, or a default. -/
structure NamedValue where
  name : String
  value : Option Literal := none
  location : Location := {}
deriving DecidableEq, Repr, Inhabited

/-
  A directive as it is applied. Once its definition is
  known, `declared` holds that definition's arguments with
  their defaults.
-/
structure DirectiveUse where
  name : String
  arguments : List NamedValue := []
  declared : Option (List NamedValue) := none
  location : Location := {}
deriving DecidableEq, Repr, Inhabited

namespace Grammar

open QueryHover.Parser

------------------------------------------------------------
-- Types
------------------------------------------------------------

/- A type reference that is a name. -/
def namedTypeRef : Parser (Location × TypeRef) := do
  let location ← place (← peek)
  let name ← Parser.name
  let nonNull ← skip .bang
  pure (location, .named name nonNull)

/- A type reference nested up to a depth. -/
def typeRefWithin :
    Nat → Parser (Location × TypeRef)
  | 0 => namedTypeRef
  | depth + 1 => do
      if ← skip .bracketL then
        let location ← place (← peek)
        let (_, element) ← typeRefWithin depth
        let _ ← expect .bracketR
        let nonNull ← skip .bang
        pure (location, .list element nonNull)
      else
        namedTypeRef

/-
  A type reference and where it is reported: at its name, or
  right after the bracket that opens a list.
-/
def typeRef : Parser (Location × TypeRef) := do
  typeRefWithin (← get).ahead.length

------------------------------------------------------------
-- Values
------------------------------------------------------------

/- A value that is a single token. -/
def scalarValue : Parser Literal := do
  let t ← peek
  match t.kind with
  | .int | .float | .string | .blockString =>
      let _ ← next
      pure (.scalar t.value)
  | .name =>
      let _ ← next
      if t.value = "null" then
        pure .null
      else
        pure (.scalar t.value)
  | _ => refuse .unexpected t

/-
  A value nested up to a depth. A constant value contains no
  variables.
-/
def valueWithin
    (constant : Bool) :
    Nat → Parser Literal
  | 0 => scalarValue
  | depth + 1 => do
      match (← peek).kind with
      | .bracketL =>
          let _ ←
            list .bracketL .bracketR
              (valueWithin constant depth)
          pure .compound
      | .braceL =>
          let _ ← list .braceL .braceR do
            let _ ← Parser.name
            let _ ← expect .colon
            valueWithin constant depth
          pure .compound
      | .dollar =>
          if constant then
            unexpected
          else
            let _ ← next
            pure (.scalar (← Parser.name))
      | _ => scalarValue

/- A value. -/
def value
    (constant : Bool) : Parser Literal := do
  valueWithin constant (← get).ahead.length

------------------------------------------------------------
-- Arguments and Directives
------------------------------------------------------------

/- A named value. -/
def argument
    (constant : Bool) : Parser NamedValue := do
  let location ← place (← peek)
  let name ← Parser.name
  let _ ← expect .colon
  let value ← value constant
  pure { name, value, location }

/- Arguments in parentheses. -/
def arguments
    (constant : Bool) : Parser (List NamedValue) :=
  nonEmptyList .parenL .parenR (argument constant)

/- One directive. -/
def directive
    (constant : Bool) : Parser DirectiveUse := do
  let _ ← next
  let location ← place (← peek)
  let name ← Parser.name
  let arguments ← arguments constant
  pure { name, arguments, location }

/- The directives applied to what stands before them. -/
def directives
    (constant : Bool) : Parser (List DirectiveUse) :=
  TokenStream.readWhile
    (fun t => t.kind = .atSign) (directive constant)

end Grammar

end QueryHover
