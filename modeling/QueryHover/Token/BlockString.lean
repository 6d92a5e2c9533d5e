import QueryHover.Text.Position

/-
  The text that a block string denotes.

  The indentation that all lines with content share is
  removed from every line but the first, and blank lines
  are dropped from both ends.

  Key definitions include:
    * `BlockString.indentation`
    * `BlockString.denote`
-/

namespace QueryHover

namespace BlockString

/- Spaces and tabs make up indentation. -/
def isIndent
    (c : Char) : Bool :=
  c = ' ' || c = '\t'

/- A line without content. -/
def isBlank
    (line : List Char) : Bool :=
  line.all isIndent

/- The length of a line's indentation. -/
def indentation
    (line : List Char) : Nat :=
  (line.takeWhile isIndent).length

/- The least indentation of the lines with content. -/
def commonIndentation
    (lines : List (List Char)) : Nat :=
  let indents :=
    (lines.filter (fun l => !isBlank l)).map indentation
  indents.min?.getD 0

/- Remove indentation from every line but the first. -/
def dedent
    (n : Nat) :
    List (List Char) → List (List Char)
  | [] => []
  | l :: ls => l :: ls.map (List.drop n)

/- Drop blank lines from both ends. -/
def trim
    (lines : List (List Char)) : List (List Char) :=
  let front := lines.dropWhile isBlank
  (front.reverse.dropWhile isBlank).reverse

/- The denoted text of what stands between the quotes. -/
def denote
    (raw : List Char) : List Char :=
  let lines := Text.lines raw
  let dedented := dedent (commonIndentation lines) lines
  ['\n'].intercalate (trim dedented)

end BlockString

end QueryHover
