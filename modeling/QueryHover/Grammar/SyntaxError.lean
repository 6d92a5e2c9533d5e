import QueryHover.Token.Basic
import QueryHover.Token.Fault

/-
  Errors of the grammar.

  An error tells what was wrong with one token, and where
  that token stands.

  Key definitions include:
    * `SyntaxError.Cause`
    * `SyntaxError`
    * `SyntaxError.message`
-/

namespace QueryHover

/- What is wrong with the token found. -/
inductive SyntaxError.Cause where
  | expectedKind (kind : Token.Kind)
  | expectedWord (word : String)
  | unexpected
  | emptyList
  | unreadable (fault : Fault)
deriving DecidableEq, Repr

/- A token that the grammar does not admit in its place. -/
structure SyntaxError where
  cause : SyntaxError.Cause
  found : Token
  file : String
deriving DecidableEq, Repr

namespace SyntaxError

/- The wording of an error. -/
def message
    (e : SyntaxError) : String :=
  match e.cause with
  | .expectedKind kind =>
      "Expected " ++ kind.label ++ ", found " ++
        e.found.kind.label
  | .expectedWord word =>
      "Expected " ++ Text.quote word ++ ", found " ++
        e.found.describe
  | .unexpected => "Unexpected " ++ e.found.describe
  | .emptyList =>
      "expected at least one definition, found " ++
        e.found.kind.label
  | .unreadable fault => fault.message

/- Where an error is reported. -/
def location
    (e : SyntaxError) : Location :=
  e.found.location e.file

end SyntaxError

end QueryHover
