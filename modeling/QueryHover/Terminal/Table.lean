import QueryHover.Terminal.Fill
import QueryHover.Terminal.Style
import QueryHover.Terminal.Wrap

/-
  Tables with a border.

  A table has a fixed total width. Columns that leave space
  are widened, columns that take too much are narrowed and
  their cells wrapped. Every cell has one blank cell on its
  right.

  Key definitions include:
    * `Table`
    * `Table.columnWidths`
    * `Table.render`
-/

namespace QueryHover

/- The cells of a table, row by row below its headers. -/
structure Table where
  headers : List String
  rows : List (List String)
  width : Nat := 120

namespace Table

------------------------------------------------------------
-- Column Widths
------------------------------------------------------------

/- The index of the first largest entry of a list. -/
def firstMax? :
    List Nat → Option Nat
  | [] => none
  | n :: ns =>
      match ns.max? with
      | some m =>
          if m ≤ n then
            some 0
          else
            (firstMax? ns).map (· + 1)
      | none => some 0

/- The index of the first smallest entry of a list. -/
def firstMin? :
    List Nat → Option Nat
  | [] => none
  | n :: ns =>
      match ns.min? with
      | some m =>
          if n ≤ m then
            some 0
          else
            (firstMin? ns).map (· + 1)
      | none => some 0

/- Take one cell from a column. -/
def narrow
    (widths : List Nat)
    (column : Nat) : List Nat :=
  widths.modify column (· - 1)

/- Give one cell to a column. -/
def widen
    (widths : List Nat)
    (column : Nat) : List Nat :=
  widths.modify column (· + 1)

/- Give cells to the narrowest columns. -/
def grow :
    Nat → List Nat → List Nat
  | 0, widths => widths
  | missing + 1, widths =>
      match firstMin? widths with
      | some column => grow missing (widen widths column)
      | none => widths

/-
  Take cells from the widest column as long as it is at
  least as wide as the limit; also how many are still to be
  taken.
-/
def shrinkWide
    (limit : Nat) :
    Nat → List Nat → Nat × List Nat
  | 0, widths => (0, widths)
  | excess + 1, widths =>
      match firstMax? widths with
      | some column =>
          if limit ≤ widths.getD column 0 then
            shrinkWide limit excess (narrow widths column)
          else
            (excess + 1, widths)
      | none => (excess + 1, widths)

/-
  Take cells from the column that stands out most from its
  usual width, until that is the first column or none.
-/
def shrinkUneven
    (usual : List Nat) :
    Nat → List Nat → Nat × List Nat
  | 0, widths => (0, widths)
  | excess + 1, widths =>
      let surplus := List.zipWith (· - ·) widths usual
      match firstMax? surplus with
      | some (column + 1) =>
          if 0 < surplus.getD (column + 1) 0 then
            shrinkUneven usual excess
              (narrow widths (column + 1))
          else
            (excess + 1, widths)
      | _ => (excess + 1, widths)

/- Take cells from the widest column. -/
def shrinkAny :
    Nat → List Nat → List Nat
  | 0, widths => widths
  | excess + 1, widths =>
      match firstMax? widths with
      | some column =>
          shrinkAny excess (narrow widths column)
      | none => widths

/- The middle of some numbers, or of the middle two. -/
def median
    (ns : List Nat) : Nat :=
  let sorted := ns.mergeSort (· ≤ ·)
  let half := sorted.length / 2
  if sorted.isEmpty then
    0
  else if sorted.length % 2 = 0 then
    (sorted.getD (half - 1) 0 + sorted.getD half 0) / 2
  else
    sorted.getD half 0

/- The display width of the widest line of a cell. -/
def cellWidth
    (cell : String) : Nat :=
  Style.widest (Text.lines cell.toList)

/- The cells of a column. -/
def column
    (rows : List (List String))
    (index : Nat) : List String :=
  rows.map fun row => row.getD index ""

/- The cells that the border takes from every row. -/
def borderWidth
    (t : Table) : Nat :=
  t.headers.length + 1

/- The widths of the columns. -/
def columnWidths
    (t : Table) : List Nat :=
  let indices := List.range t.headers.length
  let natural := indices.map fun i =>
    let cells := column (t.headers :: t.rows) i
    (cells.map cellWidth).max?.getD 0 + 1
  let total := natural.foldr (· + ·) 0
  let full := total + t.borderWidth
  if total ≤ t.width then
    grow (t.width - full) natural
  else
    let usual := indices.map fun i =>
      median ((column t.rows i).map cellWidth)
    let (excess, widths) :=
      shrinkWide (t.width / 2) (full - t.width) natural
    let (excess, widths) := shrinkUneven usual excess widths
    shrinkAny excess widths

------------------------------------------------------------
-- Rows
------------------------------------------------------------

/- The lines that a cell is given in its column. -/
def cellHeight
    (width : Nat)
    (cell : String) : Nat :=
  if width ≤ 1 then
    1
  else
    let lines := Text.lines (Style.joinLineEnds cell.toList)
    let heights := lines.map fun line =>
      Fill.linesOf (width - 1) (Text.bytes line)
    heights.foldr (· + ·) 0

/- The lines of a cell in a column of the given width. -/
def cellLines
    (width : Nat)
    (cell : String) : List (List UInt8) :=
  let text :=
    Style.joinLineEnds (Style.expandTabs cell.toList)
  let wrapped := wrap (width - 1) (Text.bytes text)
  (Text.splitBytes 0x0a wrapped).map fun line =>
    line ++ [0x20]

/- A line with the spaces that it lacks to a width. -/
def padTo
    (width : Nat)
    (line : List UInt8) : List UInt8 :=
  line ++
    List.replicate (width - Glyph.lineWidth line) 0x20

/-
  Lines that are padded to the widest of them, and to no less
  than a width.
-/
def padded
    (least : Nat)
    (lines : List (List UInt8)) : List (List UInt8) :=
  let width := (lines.map Glyph.lineWidth).max?.getD 0
  lines.map (padTo (max least width))

/-
  A cell as a block of the given width and height. Lines
  that do not fit are left out.
-/
def block
    (height width : Nat)
    (cell : String) : List (List UInt8) :=
  let lines := cellLines width cell
  let filled :=
    lines ++ List.replicate (height - lines.length) []
  let cut :=
    (padded width filled).map (Glyph.truncate width)
  padded 0 (cut.take height)

/- The bytes of a part of the border. -/
def border
    (c : Char) : List UInt8 :=
  Text.bytes [c]

/- The lines of a row of the given height. -/
def rowLines
    (height : Nat)
    (widths : List Nat)
    (row : List String) : List (List UInt8) :=
  let blocks := List.zipWith (block height) widths row
  (List.range height).map fun i =>
    let parts := blocks.map fun lines => lines.getD i []
    border '│' ++ (border '│').intercalate parts ++
      border '│'

/- The lines of a row, as high as its highest cell. -/
def fullRow
    (widths : List Nat)
    (row : List String) : List (List UInt8) :=
  let heights := List.zipWith cellHeight widths row
  rowLines (heights.max?.getD 1) widths row

/- A horizontal line of the border. -/
def rule
    (widths : List Nat)
    (left middle right : Char) : List UInt8 :=
  let parts := widths.map fun w => List.replicate w '─'
  Text.bytes
    ([left] ++ [middle].intercalate parts ++ [right])

/- The text of a table. -/
def render
    (t : Table) : String :=
  let widths := t.columnWidths
  let lines :=
    [rule widths '╭' '┬' '╮'] ++
    rowLines 1 widths t.headers ++
    [rule widths '├' '┼' '┤'] ++
    t.rows.flatMap (fullRow widths) ++
    [rule widths '╰' '┴' '╯']
  let shown := (padded 0 lines).map (Glyph.truncate t.width)
  String.ofList (Text.ofBytes ([0x0a].intercalate shown))

end Table

end QueryHover
