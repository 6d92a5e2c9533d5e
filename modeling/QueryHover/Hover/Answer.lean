import QueryHover.Hover.Context
import QueryHover.Node.Reading
import QueryHover.Text.Position

/-
  Answers to a hover.

  An answer holds every step from a position in a text to
  the content shown for it.

  Key definitions include:
    * `Answer`
    * `Answer.resolve`
    * `Answer.target?`
    * `Answer.range?`
-/

namespace QueryHover

/- All that was found for a position in a text. -/
structure Answer where
  text : List Char
  offset : Nat
  chain : Chain
  entity : Option Entity
  content : String

/- A part of a text by line and character. -/
structure Range where
  start : Position
  stop : Position
deriving DecidableEq, Repr

/- The nearest number that fits into 32 bits. -/
def clampWord
    (n : Int) : Int :=
  max 0 (min n (UInt32.size - 1))

/- A position whose components fit into 32 bits. -/
def Position.clamped
    (p : Position) : Position :=
  ⟨clampWord p.line, clampWord p.character⟩

namespace Answer

/- The answer for an offset of a document. -/
def ofTree
    (schema : Option Schema)
    (text : List Char)
    (root : Node)
    (offset : Nat) : Answer :=
  let chain := Chain.resolve root offset
  let entity := annotate? schema chain
  { text, offset, chain, entity
    content := Entity.content entity }

/- The answer for a position, unless the text is refused. -/
def resolve
    (schema : Option Schema)
    (text : List Char)
    (p : Position) : Except SyntaxError Answer := do
  let root ← Document.parse text
  pure (ofTree schema text root (p.offsetIn text))

/- The part of the text that the content is about. -/
def target?
    (a : Answer) : Option Span :=
  if a.content = "" then
    none
  else
    a.chain.leaf?.map Node.target

/- The range of the target. -/
def range?
    (a : Answer) : Option Range :=
  a.target?.map fun span =>
    { start := (Position.ofOffset a.text span.start).clamped
      stop := (Position.ofOffset a.text span.stop).clamped }

end Answer

end QueryHover
