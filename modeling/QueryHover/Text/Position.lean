/-
  Lines, positions and locations of a text.

  Only the newline character ends a line here; a carriage
  return before it stays part of the line and is taken off
  when a line is shown.

  A position is a zero-based line and character; an offset
  counts characters from the start of the text. Both count
  code points. Every position has an offset and every
  offset a position: what lies outside the text is moved to
  its nearest edge.

  A location is where an error is reported: a file and a
  line and column counted from 1. A column may be zero or
  negative; see the scanner's rule for block strings.

  Key definitions include:
    * `Text.lines`
    * `Text.withoutReturn`
    * `Position`
    * `Position.offsetIn`
    * `Position.ofOffset`
    * `Location`
-/

namespace QueryHover

------------------------------------------------------------
-- Lines
------------------------------------------------------------

namespace Text

/-
  Split a text at every newline. There is always at least
  one line.
-/
def lines :
    List Char → List (List Char)
  | [] => [[]]
  | c :: cs =>
      if c = '\n' then
        [] :: lines cs
      else
        match lines cs with
        | [] => [[c]]
        | l :: ls => (c :: l) :: ls

/- A line without the carriage return that may end it. -/
def withoutReturn
    (line : List Char) : List Char :=
  if line.getLast? = some '\r' then
    line.dropLast
  else
    line

end Text

------------------------------------------------------------
-- Positions
------------------------------------------------------------

/- A zero-based line and character. -/
structure Position where
  line : Int
  character : Int
deriving DecidableEq, Repr, Inhabited

namespace Position

/- Neither component lies before the text. -/
def IsNonNegative
    (p : Position) : Prop :=
  0 ≤ p.line ∧ 0 ≤ p.character

instance
    (p : Position) :
    Decidable p.IsNonNegative := by
  unfold IsNonNegative
  infer_instance

------------------------------------------------------------
-- Offset of a Position
------------------------------------------------------------

/-
  The offset of a character on a numbered line. A character
  past the end of its line is moved to that end, a line past
  the last one to the end of the text.
-/
def offsetInLines :
    List (List Char) → Nat → Nat → Nat
  | [], _, _ => 0
  | l :: _, 0, character => min character l.length
  | l :: ls, line + 1, character =>
      if ls.isEmpty then
        l.length
      else
        l.length + 1 + offsetInLines ls line character

/- The offset of a position; negative components count as 0. -/
def offsetIn
    (text : List Char)
    (p : Position) : Nat :=
  offsetInLines
    (Text.lines text) p.line.toNat p.character.toNat

------------------------------------------------------------
-- Position of an Offset
------------------------------------------------------------

/- The position right after a character read at `p`. -/
def advance
    (p : Position)
    (c : Char) : Position :=
  if c = '\n' then
    ⟨p.line + 1, 0⟩
  else
    ⟨p.line, p.character + 1⟩

/-
  The position reached by reading the text up to an offset,
  clamped to the text.
-/
def ofOffset
    (text : List Char)
    (offset : Int) : Position :=
  (text.take offset.toNat).foldl advance ⟨0, 0⟩

end Position

------------------------------------------------------------
-- Locations
------------------------------------------------------------

/- A line and column of a named text, counted from 1. -/
structure Location where
  file : String := ""
  line : Int := 0
  column : Int := 0
deriving DecidableEq, Repr, Inhabited

namespace Location

/- A message headed by its location. -/
def describe
    (location : Location)
    (message : String) : String :=
  let line := toString location.line
  let column := toString location.column
  s!"{location.file}:{line}:{column}: {message}"

end Location

end QueryHover
