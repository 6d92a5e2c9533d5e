import QueryHover.Grammar.SyntaxError
import QueryHover.Token.Stream

/-
  Parsers over a stream of tokens.

  A parser reads tokens from a stream or fails at the first
  token that it cannot admit.

  Key definitions include:
    * `Parser`
    * `Parser.expect`
    * `Parser.nonEmptyList`
    * `Parser.list`
-/

namespace QueryHover

/- A reader of tokens that may refuse one. -/
abbrev Parser (α : Type) :=
  StateT TokenStream (Except SyntaxError) α

namespace Parser

variable {α : Type}

------------------------------------------------------------
-- Single Tokens
------------------------------------------------------------

/- The token to be read next. -/
def peek : Parser Token :=
  TokenStream.peek

/- Read the next token. -/
def next : Parser Token :=
  TokenStream.next

/- Read the next token if it has the given kind. -/
def skip
    (kind : Token.Kind) : Parser Bool :=
  TokenStream.skip kind

/- Where a token is reported. -/
def place
    (t : Token) : Parser Location :=
  return t.location (← get).file

/- Refuse a token. -/
def refuse
    (cause : SyntaxError.Cause)
    (t : Token) : Parser α := do
  throw
    { cause := cause, found := t, file := (← get).file }

/- Refuse the next token. -/
def unexpected : Parser α := do
  refuse .unexpected (← peek)

/-
  Take the next token whatever it is. Only here is it said
  what is wrong at a place where no token can be read.
-/
def take : Parser Token := do
  let t ← next
  match t.kind, (← get).fault with
  | .invalid, some fault => refuse (.unreadable fault) t
  | _, _ => pure t

/- Read a token of the given kind. -/
def expect
    (kind : Token.Kind) : Parser Token := do
  let t ← peek
  if t.kind = kind then
    next
  else
    refuse (.expectedKind kind) t

/- Read a name. -/
def name : Parser String :=
  return (← expect .name).value

/- Read a name that spells the given word. -/
def word
    (text : String) : Parser Unit := do
  let t ← peek
  if t.isWord text then
    let _ ← next
  else
    refuse (.expectedWord text) t

------------------------------------------------------------
-- Lists
------------------------------------------------------------

/- Read items up to the token that closes their list. -/
def itemsUntil
    (close : Token.Kind)
    (item : Parser α) : Parser (List α) := do
  let items ←
    TokenStream.readWhile (fun t => t.kind ≠ close) item
  let _ ← next
  pure items

/-
  Read a list between two brackets, or nothing if the next
  token does not open it.
-/
def list
    (opening close : Token.Kind)
    (item : Parser α) : Parser (List α) := do
  if ← skip opening then
    itemsUntil close item
  else
    pure []

/- A list that must have items if it is there. -/
def nonEmptyList
    (opening close : Token.Kind)
    (item : Parser α) : Parser (List α) := do
  if ← skip opening then
    let t ← peek
    if t.kind = close then
      refuse .emptyList t
    else
      itemsUntil close item
  else
    pure []

/-
  Read one item or more, with a separator between them and
  perhaps one in front.
-/
def separated
    (separator : Token.Kind)
    (item : Parser α) : Parser (List α) := do
  let _ ← skip separator
  let first ← item
  let others ←
    TokenStream.readWhile
      (fun t => t.kind = separator)
      (do let _ ← next; item)
  pure (first :: others)

end Parser

end QueryHover
