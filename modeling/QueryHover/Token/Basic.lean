import QueryHover.Text.Position
import QueryHover.Text.Quoted

/-
  Tokens of a GraphQL text.

  Key definitions include:
    * `Token.Kind`
    * `Token`
    * `Token.describe`
-/

namespace QueryHover

------------------------------------------------------------
-- Kinds of Tokens
------------------------------------------------------------

/-
  The kinds of tokens. `invalid` marks where no token can be
  read, `eof` the end of the text. Comments mean nothing to a
  reader of tokens.
-/
inductive Token.Kind where
  | invalid
  | eof
  | bang
  | dollar
  | ampersand
  | parenL
  | parenR
  | spread
  | colon
  | equals
  | atSign
  | bracketL
  | bracketR
  | braceL
  | braceR
  | pipe
  | name
  | int
  | float
  | string
  | blockString
  | comment
deriving DecidableEq, Repr, Inhabited

namespace Token.Kind

/- How a kind is named in error messages. -/
def label :
    Token.Kind → String
  | invalid => "<Invalid>"
  | eof => "<EOF>"
  | bang => "!"
  | dollar => "$"
  | ampersand => "&"
  | parenL => "("
  | parenR => ")"
  | spread => "..."
  | colon => ":"
  | equals => "="
  | atSign => "@"
  | bracketL => "["
  | bracketR => "]"
  | braceL => "\x7b"
  | braceR => "\x7d"
  | pipe => "|"
  | name => "Name"
  | int => "Int"
  | float => "Float"
  | string => "String"
  | blockString => "BlockString"
  | comment => "Comment"

end Token.Kind

------------------------------------------------------------
-- Tokens
------------------------------------------------------------

/-
  A token covers the characters from `start` up to `stop`.
  Punctuators have no value; a string has the text it
  denotes, a comment its own text.
-/
structure Token where
  kind : Token.Kind
  value : String := ""
  start : Nat
  stop : Nat
  line : Nat
  column : Int
deriving DecidableEq, Repr, Inhabited

namespace Token

/- How a token is named in error messages. -/
def describe
    (t : Token) : String :=
  if t.value = "" then
    t.kind.label
  else
    t.kind.label ++ " " ++ Text.quote t.value

/- Where a token of a named text is reported. -/
def location
    (t : Token)
    (file : String) : Location :=
  ⟨file, t.line, t.column⟩

/- A name token that spells the given word. -/
def isWord
    (t : Token)
    (word : String) : Bool :=
  t.kind = .name && t.value = word

end Token

end QueryHover
