import QueryHover.Terminal.Glyph

/-
  The number of lines that a text fills at a width.

  Words are kept together where they fit, and a line may
  break at spaces and after hyphens. Only widths are kept.
  The number decides how high the row of a table is, before
  its cells are wrapped; it differs from the number of
  wrapped lines in how it counts control characters and
  spaces other than the plain one.

  Key definitions include:
    * `Fill`
    * `Fill.step`
    * `Fill.linesOf`
-/

namespace QueryHover

/-
  A count in progress: the lines begun, the cells used on the
  last one, the cells of the pending spaces and of the
  pending word, and whether there is a pending word.
-/
structure Fill where
  lines : Nat := 1
  column : Nat := 0
  spaces : Nat := 0
  word : Nat := 0
  hasWord : Bool := false
deriving DecidableEq, Repr

namespace Fill

/- Use cells for the pending spaces. -/
def putSpaces
    (f : Fill) : Fill :=
  { f with column := f.column + f.spaces, spaces := 0 }

/- Use cells for the pending spaces and word. -/
def putWord
    (f : Fill) : Fill :=
  if f.hasWord then
    { f with
      column := f.column + f.spaces + f.word
      spaces := 0
      word := 0
      hasWord := false }
  else
    f

/- Begin a line and drop the pending spaces. -/
def breakLine
    (f : Fill) : Fill :=
  { f with lines := f.lines + 1, column := 0, spaces := 0 }

/- Begin a line if what is pending does not fit. -/
def fit
    (limit : Nat)
    (f : Fill) : Fill :=
  if limit < f.column + f.word + f.spaces then
    f.breakLine
  else
    f

/- Add cells to the pending word. -/
def grow
    (f : Fill)
    (cells : Nat) : Fill :=
  { f with word := f.word + cells, hasWord := true }

/- The single bytes between words. -/
def isSpace
    (b : UInt8) : Bool :=
  b = 0x20 || (0x09 ≤ b && b ≤ 0x0d) || b = 0x85

/- The characters beyond the plain ones between words. -/
def isWideSpace
    (c : Char) : Bool :=
  let ranges : CodeRanges :=
    [ (0x85, 0x85), (0x1680, 0x1680), (0x2000, 0x200a),
      (0x2028, 0x2029), (0x202f, 0x202f), (0x205f, 0x205f),
      (0x3000, 0x3000) ]
  ranges.cover c

/- Take a space of a number of cells. -/
def addSpace
    (f : Fill)
    (cells : Nat) : Fill :=
  let f := f.putWord
  { f with spaces := f.spaces + cells }

/- Take a hyphen, after which a line may break. -/
def addHyphen
    (limit : Nat)
    (f : Fill) : Fill :=
  let f := f.putSpaces
  if limit ≤ f.column + f.word then
    f.grow 1
  else
    let f := f.putWord
    { f with column := f.column + 1 }

/- Take a single byte, whatever it shows. -/
def addByte
    (limit : Nat)
    (f : Fill)
    (b : UInt8) : Fill :=
  if isSpace b then
    f.addSpace 1
  else if b = 0x2d then
    f.addHyphen limit
  else
    let f := if f.column = limit then f.breakLine else f
    let f := if limit ≤ f.word then f.putWord else f
    let f := f.grow 1
    let f := if f.word = limit then f.putWord else f
    f.fit limit

/- Take a cluster. -/
def addCluster
    (limit : Nat)
    (f : Fill)
    (bytes : List UInt8) : Fill :=
  let chars := Text.ofBytes bytes
  let cells := Text.clusterWidth chars
  if chars.head?.any isWideSpace then
    f.addSpace cells
  else
    let f := if limit < f.word + cells then f.putWord else f
    (f.grow cells).fit limit

/- Take one glyph. -/
def step
    (limit : Nat)
    (f : Fill) :
    Glyph → Fill
  | .shown b => f.addByte limit b
  | .control b => f.addByte limit b
  | .hidden _ => f.grow 0
  | .cluster bytes => f.addCluster limit bytes

/- The number of lines that a line of text fills. -/
def linesOf
    (limit : Nat)
    (line : List UInt8) : Nat :=
  ((Glyph.ofLine line).foldl (step limit) {}).lines

end Fill

end QueryHover
