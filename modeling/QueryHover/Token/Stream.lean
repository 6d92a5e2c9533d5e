import QueryHover.Token.Scanner

/-
  Streams of tokens.

  A stream is what a reader of tokens has before it: the
  tokens not yet read, the mark that follows the last one,
  and where the last token read ended. Reading past the last
  token yields that mark again and again. Comments are not
  read, but the stream keeps them.

  Key definitions include:
    * `TokenStream`
    * `TokenStream.ofText`
    * `TokenStream.peek`
    * `TokenStream.next`
    * `TokenStream.readWhile`
-/

namespace QueryHover

/- The tokens of a named text that are still to be read. -/
structure TokenStream where
  file : String := "input"
  ahead : List Token
  last : Token
  fault : Option Fault := none
  comments : List Token := []
  readTo : Nat := 0
deriving Repr

namespace TokenStream

/- All tokens of a text. -/
def ofText
    (file : String)
    (text : List Char) : TokenStream :=
  let scan := Scanner.run {} text
  { file := file
    ahead := scan.tokens.filter fun t => t.kind ≠ .comment
    last := scan.last
    fault := scan.fault
    comments :=
      scan.tokens.filter fun t => t.kind = .comment }

/- The token to be read next. -/
def head
    (s : TokenStream) : Token :=
  s.ahead.headD s.last

/- The stream after the token to be read next. -/
def tail
    (s : TokenStream) : TokenStream :=
  match s.ahead with
  | [] => s
  | t :: ts => { s with ahead := ts, readTo := t.stop }

/- The last comment between two tokens. -/
def commentBetween?
    (s : TokenStream)
    (before after : Token) : Option Token :=
  (s.comments.filter fun t =>
    before.stop ≤ t.start && t.stop ≤ after.start).getLast?

------------------------------------------------------------
-- Reading
------------------------------------------------------------

variable {m : Type → Type} [Monad m]

/- Look at the next token. -/
def peek : StateT TokenStream m Token :=
  fun s => pure (s.head, s)

/- Read the next token. -/
def next : StateT TokenStream m Token :=
  fun s => pure (s.head, s.tail)

/- Read the next token if it has the given kind. -/
def skip
    (kind : Token.Kind) :
    StateT TokenStream m Bool := do
  if (← peek).kind = kind then
    let _ ← next
    pure true
  else
    pure false

/-
  Read items as long as the next token starts one. The
  reading ends at the first item that takes no token.
-/
def readWhile
    {α : Type}
    (starts : Token → Bool)
    (item : StateT TokenStream m α)
    (s : TokenStream) : m (List α × TokenStream) :=
  if starts s.head then do
    let (a, s') ← item s
    if _h : s'.ahead.length < s.ahead.length then
      let (as, s'') ← readWhile starts item s'
      pure (a :: as, s'')
    else
      pure ([a], s')
  else
    pure ([], s)
termination_by s.ahead.length

end TokenStream

end QueryHover
