import QueryHover.Terminal.Style

/-
  Snippets of a source text.

  A snippet shows one line of a text after its number, and
  below it carets under the characters that are meant.

  Key definitions include:
    * `Severity`
    * `Snippet.render`
    * `Snippet.location`
    * `Snippet.help`
-/

namespace QueryHover

/- Whether a snippet reports a fault or just points. -/
inductive Severity where
  | error
  | info
deriving DecidableEq, Repr

namespace Snippet

/- The style of line numbers and rules. -/
def gutter : Style := ⟨"38;5;243"⟩

/- The style of the word that heads a hint. -/
def hint : Style := ⟨"38;5;39"⟩

/- The style of the carets and their message. -/
def mark :
    Severity → Style
  | .error => ⟨"38;5;196"⟩
  | .info => ⟨"38;5;39"⟩

/- A number of equal characters. -/
def repeated
    (n : Nat)
    (c : Char) : String :=
  String.ofList (List.replicate n c)

/-
  A source line with its number, and carets from a column
  on. There is always at least one caret, and no column
  before the first.
-/
def render
    (color : Bool)
    (severity : Severity)
    (source : String)
    (line column length : Int)
    (message : String) : String :=
  let number := toString line
  let bar := gutter.render color "|"
  let style := mark severity
  let carets := repeated (max length 1).toNat '^'
  let note :=
    if message = "" then
      ""
    else
      " " ++ style.render color message
  gutter.render color number ++ " " ++ bar ++ " " ++ source ++
    "\n" ++
    repeated number.length ' ' ++ " " ++ bar ++ " " ++
    repeated (max column 1 - 1).toNat ' ' ++
    style.render color carets ++ note

/- Where a snippet comes from. -/
def location
    (color : Bool)
    (source : String)
    (line column : Int) : String :=
  gutter.render color "-->" ++ " " ++ source ++ ":" ++
    toString line ++ ":" ++ toString column

/- A hint below a snippet. -/
def help
    (color : Bool)
    (message : String) : String :=
  "  = " ++ hint.render color "help:" ++ " " ++ message

end Snippet

end QueryHover
