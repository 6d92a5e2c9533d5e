import QueryHover.Terminal.Piece

/-
  Wrapping text to a width.

  Words are kept together where they fit. A line breaks at
  the last space that fits, and the spaces at the break are
  dropped; it may also break after a hyphen, and inside a
  word that is wider than a line. The pen and the link are
  put down at the end of a line and taken up again on the
  next one.

  Key definitions include:
    * `Wrap`
    * `Wrap.step`
    * `wrap`
-/

namespace QueryHover

/-
  A wrapping in progress: what has been written, last byte
  first, the cells written on the current line, the spaces
  and the word not yet written, and the pen and the link as
  they are after what has been read and after what has been
  written.
-/
structure Wrap where
  written : List UInt8 := []
  column : Nat := 0
  spaces : List UInt8 := []
  word : List UInt8 := []
  wordWidth : Nat := 0
  pen : Pen := {}
  writtenPen : Pen := {}
  link : Link := {}
  writtenLink : Link := {}

namespace Wrap

------------------------------------------------------------
-- Writing
------------------------------------------------------------

/- Write a text. -/
def put
    (w : Wrap)
    (text : List UInt8) : Wrap :=
  { w with written := text.reverse ++ w.written }

/- Write the pending spaces. -/
def putSpaces
    (w : Wrap) : Wrap :=
  { w with
    written := w.spaces ++ w.written
    column := w.column + w.spaces.length
    spaces := [] }

/- Write the pending spaces and word, if there is a word. -/
def putWord
    (w : Wrap) : Wrap :=
  if w.word.isEmpty then
    w
  else
    let w := w.putSpaces
    { w with
      written := w.word ++ w.written
      column := w.column + w.wordWidth
      word := []
      wordWidth := 0
      writtenPen := w.pen
      writtenLink := w.link }

/- The text that puts the pen down. -/
def penDown
    (w : Wrap) : List UInt8 :=
  if w.writtenPen.isPlain then
    []
  else
    Text.bytes "\x1b[m".toList

/- The text that takes the pen up again. -/
def penUp
    (w : Wrap) : List UInt8 :=
  if w.writtenPen.isPlain then
    []
  else
    Text.bytes w.writtenPen.sequence.toList

/- The text that ends the link. -/
def linkDown
    (w : Wrap) : List UInt8 :=
  if w.writtenLink.isNone then
    []
  else
    Link.sequence {}

/- The text that starts the link again. -/
def linkUp
    (w : Wrap) : List UInt8 :=
  if w.writtenLink.isNone then
    []
  else
    w.writtenLink.sequence

/- Break the line and drop the pending spaces. -/
def breakLine
    (w : Wrap) : Wrap :=
  { w.put
      (w.penDown ++ w.linkDown ++ 0x0a ::
        (w.linkUp ++ w.penUp)) with
    column := 0
    spaces := [] }

/- Settle the pending spaces at the end of a line. -/
def endLine
    (limit : Nat)
    (w : Wrap) : Wrap :=
  let w :=
    if w.wordWidth = 0 then
      if limit < w.column + w.spaces.length then
        { w with column := 0, spaces := [] }
      else
        { w with
          written := w.spaces ++ w.written, spaces := [] }
    else
      w
  w.putWord

------------------------------------------------------------
-- Reading
------------------------------------------------------------

/- Add a piece without width to the pending word. -/
def attach
    (w : Wrap)
    (p : Piece) : Wrap :=
  { w with word := p.bytes.reverse ++ w.word }

/- Add a piece to the pending word. -/
def addToWord
    (limit : Nat)
    (w : Wrap)
    (p : Piece) : Wrap :=
  let w :=
    if limit < w.wordWidth + p.width then w.putWord else w
  let w :=
    { w.attach p with wordWidth := w.wordWidth + p.width }
  if limit < w.column + w.wordWidth + w.spaces.length then
    w.breakLine
  else
    w

/- Take a hyphen, after which a line may break. -/
def addHyphen
    (limit : Nat)
    (w : Wrap)
    (p : Piece) : Wrap :=
  let w := w.putSpaces
  if w.column + w.wordWidth + p.width ≤ limit then
    let w := w.putWord.put p.bytes
    { w with column := w.column + p.width }
  else
    w.addToWord limit p

/- Do what an escape sequence says. -/
def obey
    (w : Wrap) :
    Piece.Effect → Wrap
  | .none => w
  | .pen parameters =>
      { w with pen := w.pen.apply parameters }
  | .link link => { w with link := link }

/- Take a space into those that are pending. -/
def addSpace
    (w : Wrap)
    (b : UInt8) : Wrap :=
  let w := w.putWord
  { w with spaces := b :: w.spaces }

/- Take one piece. -/
def step
    (limit : Nat)
    (w : Wrap)
    (p : Piece) : Wrap :=
  match p with
  | .shown b =>
      if b = 0x20 && w.pen.hidesSpaces then
        w.addSpace b
      else if b = 0x2d then
        w.addHyphen limit p
      else
        w.addToWord limit p
  | .control b =>
      if b = 0x0a then
        (w.endLine limit).breakLine
      else if b = 0x09 then
        w.addSpace b
      else
        w.attach p
  | .cluster _ =>
      if p.width = 0 then
        w.attach p
      else
        w.addToWord limit p
  | .sequence _ effect => (w.obey effect).attach p

/- The text that has been wrapped, once all is read. -/
def finish
    (limit : Nat)
    (w : Wrap) : List UInt8 :=
  let w := w.endLine limit
  (w.put (w.linkDown ++ w.penDown)).written.reverse

end Wrap

/- A text with lines no wider than the limit. -/
def wrap
    (limit : Nat)
    (text : List UInt8) : List UInt8 :=
  if limit = 0 then
    text
  else
    ((Piece.ofText text).foldl (Wrap.step limit) {}).finish
      limit

end QueryHover
