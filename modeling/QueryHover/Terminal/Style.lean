import QueryHover.Terminal.Glyph
import QueryHover.Text.Position

/-
  Styled text.

  A style wraps every line of a text in the codes that turn
  it on and off again. A text of several lines becomes a
  block: all its lines are padded to the same width.

  Key definitions include:
    * `Style`
    * `Style.render`
-/

namespace QueryHover

/- The parameters of the code that turns a style on. -/
structure Style where
  codes : String
deriving DecidableEq, Repr

namespace Style

/- Tabs become four spaces. -/
def expandTabs
    (text : List Char) : List Char :=
  text.flatMap fun c =>
    if c = '\t' then List.replicate 4 ' ' else [c]

/- A carriage return and a newline become a newline. -/
def joinLineEnds :
    List Char → List Char
  | [] => []
  | '\r' :: '\n' :: rest => '\n' :: joinLineEnds rest
  | c :: rest => c :: joinLineEnds rest

/- The lines of a text as a terminal shows them. -/
def displayLines
    (text : List Char) : List (List Char) :=
  Text.lines (joinLineEnds (expandTabs text))

/- The number of cells a line takes. -/
def lineWidth
    (line : List Char) : Nat :=
  Glyph.lineWidth (Text.bytes line)

/- The spaces that a line lacks to a width. -/
def padding
    (width : Nat)
    (line : List Char) : List Char :=
  List.replicate (width - lineWidth line) ' '

/- The width of the widest of some lines. -/
def widest
    (lines : List (List Char)) : Nat :=
  (lines.map lineWidth).max?.getD 0

/- One line with the codes around it. -/
def paint
    (style : Style)
    (color : Bool)
    (line : List Char) : List Char :=
  if color then
    "\x1b[".toList ++ style.codes.toList ++ ['m'] ++ line ++
      "\x1b[0m".toList
  else
    line

/- A text in a style, with or without color. -/
def render
    (style : Style)
    (color : Bool)
    (text : String) : String :=
  let lines := displayLines text.toList
  let shown :=
    match lines with
    | [line] => [style.paint color line]
    | _ =>
        let width := widest lines
        lines.map fun line =>
          style.paint color line ++ padding width line
  String.ofList (['\n'].intercalate shown)

end Style

end QueryHover
