import QueryHover.Grammar.SyntaxError
import QueryHover.Terminal.Snippet
import QueryHover.Text.Bytes

/-
  How the refusal of a query is reported.

  A refusal with a location is shown with the line it is
  about. A shell that escapes the exclamation mark is a
  common cause; the report then says how to avoid it.

  Key definitions include:
    * `Refusal`
    * `Refusal.report`
    * `escapedBangHint?`
-/

namespace QueryHover

/- Why a query could not be read. -/
inductive Refusal where
  | plain (message : String)
  | located (message : String) (places : List (Int × Int))
deriving DecidableEq, Repr

namespace Refusal

/- The refusal of a document by the grammar. -/
def ofSyntaxError
    (e : SyntaxError) : Refusal :=
  let place := e.location
  .located e.message [(place.line, place.column)]

/- A refusal in one line. -/
def describe :
    Refusal → String
  | plain message => message
  | located message [] => "input: " ++ message
  | located message ((line, column) :: _) =>
      Location.describe ⟨"input", line, column⟩ message

end Refusal

------------------------------------------------------------
-- Escaped Exclamation Marks
------------------------------------------------------------

/- What to do about an exclamation mark that was escaped. -/
def escapedBangHelp : String :=
  "it looks like zsh escaped `!` as `\\!`. " ++
    "Try using a heredoc instead:\n" ++
    "       cat <<'EOF' | gqlhover hover -l 0 -c 8\n" ++
    "       query \x7b ... \x7d\n" ++
    "       EOF"

/-
  The hint for a fault at a backslash before an exclamation
  mark. The column counts the bytes of the line, and only
  standard input comes from a shell.
-/
def escapedBangHint?
    (source : String)
    (text : List Char)
    (line column : Int) : Option String :=
  if source = "stdin" ∧ 1 ≤ line ∧ 1 ≤ column then
    let lines := Text.lines text
    match lines[line.toNat - 1]? with
    | none => none
    | some shown =>
        let rest := (Text.bytes shown).drop (column.toNat - 1)
        match rest with
        | 0x5c :: 0x21 :: _ => some escapedBangHelp
        | _ => none
  else
    none

------------------------------------------------------------
-- Reports
------------------------------------------------------------

namespace Refusal

/- The snippet of the line that a refusal is about. -/
def snippet
    (color : Bool)
    (text : List Char)
    (message : String)
    (line column : Int) : String :=
  let shown :=
    if 1 ≤ line then
      (Text.lines text)[line.toNat - 1]?
    else
      none
  match shown with
  | none => ""
  | some shown =>
      let source := String.ofList (Text.withoutReturn shown)
      Snippet.render color .error source line column 1
          message ++ "\n"

/- The report of a refusal. -/
def report
    (color : Bool)
    (source : String)
    (text : List Char) :
    Refusal → String
  | located message ((line, column) :: _) =>
      let hint :=
        match escapedBangHint? source text line column with
        | none => ""
        | some help => Snippet.help color help ++ "\n"
      "✗ Query does not parse:\n" ++
        Snippet.location color source line column ++ "\n" ++
        snippet color text message line column ++ hint
  | refusal => "✗ " ++ refusal.describe ++ "\n"

end Refusal

end QueryHover
