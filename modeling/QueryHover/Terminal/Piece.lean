import QueryHover.Terminal.Glyph
import QueryHover.Terminal.Pen

/-
  Pieces: a text cut at its escape sequences.

  A piece is a plain character, a control byte, a cluster or
  a whole escape sequence. Of the sequences, those that
  change the pen or set a link are told apart.

  Key definitions include:
    * `Link`
    * `Piece.Effect`
    * `Piece`
    * `Piece.ofText`
-/

namespace QueryHover

/-
  The target of a link, and parameters that go with it. Both
  may end within a character.
-/
structure Link where
  parameters : List UInt8 := []
  target : List UInt8 := []
deriving DecidableEq, Repr

/- What an escape sequence does. -/
inductive Piece.Effect where
  | none
  | pen (parameters : List Parameter)
  | link (link : Link)
deriving DecidableEq, Repr

/- Bytes that are wrapped together. -/
inductive Piece where
  | shown (b : UInt8)
  | control (b : UInt8)
  | cluster (bytes : List UInt8)
  | sequence (bytes : List UInt8) (effect : Piece.Effect)
deriving DecidableEq, Repr

namespace Link

/- Whether there is no link. -/
def isNone
    (l : Link) : Bool :=
  l = {}

/- The escape sequence that sets a link. -/
def sequence
    (l : Link) : List UInt8 :=
  Text.bytes "\x1b]8;".toList ++ l.parameters ++ [0x3b] ++
    l.target ++ [EscapeMode.bell]

/- The number of the command that sets a link. -/
def command : UInt64 := 8

/- The link that the text of a command sets. -/
def ofCommand?
    (text : List UInt8) : Option Link :=
  let digits := text.takeWhile Parameter.isDigit
  let number :=
    digits.foldl Parameter.addDigit Parameter.missing
  match Text.splitBytes 0x3b text with
  | [_, parameters, target] =>
      if number = command then
        some ⟨parameters, target⟩
      else
        none
  | _ => none

end Link

namespace Piece

------------------------------------------------------------
-- Escape Sequences
------------------------------------------------------------

/-
  The text of a sequence and what ends it. Only the text of a
  command is ended by a bell.
-/
def readText
    (isCommand : Bool) :
    List UInt8 → List UInt8 × List UInt8
  | [] => ([], [])
  | b :: text =>
      if b = EscapeMode.terminator then
        ([], [b])
      else if isCommand && b = EscapeMode.bell then
        ([], [b])
      else if EscapeMode.cancels b then
        ([], [])
      else if b = EscapeMode.escapeByte then
        if text.head? = some 0x5c then
          ([], [b, 0x5c])
        else
          ([], [])
      else
        let (read, ending) := readText isCommand text
        (b :: read, ending)

/- Signs in front of the parameters. -/
def isMark
    (b : UInt8) : Bool :=
  0x3c ≤ b && b ≤ 0x3f

/- The bytes between two parameters. -/
def isSeparator
    (b : UInt8) : Bool :=
  b = 0x3a || b = 0x3b

/- The byte that ends a sequence. -/
def isFinal
    (b : UInt8) : Bool :=
  0x40 ≤ b && b ≤ 0x7e

/-
  The bytes of the parameters that a text starts with, given
  room for some more. Without room the next byte is taken
  whatever it is, and ends the parameters.
-/
def readNumbers :
    Nat → List UInt8 → List UInt8
  | _, [] => []
  | 0, b :: _ => [b]
  | room + 1, b :: text =>
      if Parameter.isDigit b then
        b :: readNumbers (room + 1) text
      else if isSeparator b then
        b :: readNumbers room text
      else
        []

/-
  The parameters, intermediate bytes and final byte of a
  sequence, and what it does to the pen. A sequence that is
  broken off ends before the byte that breaks it.
-/
def readParameters
    (text : List UInt8) : List UInt8 × Option Effect :=
  let marks := text.takeWhile isMark
  let text := text.dropWhile isMark
  let numbers := readNumbers Parameter.limit text
  let text := text.drop numbers.length
  let between := text.takeWhile EscapeMode.isIntermediate
  let text := text.dropWhile EscapeMode.isIntermediate
  let read := marks ++ numbers ++ between
  match text with
  | [] => (read, none)
  | b :: _ =>
      if isFinal b then
        let setsPen :=
          b = 0x6d && marks.isEmpty && between.isEmpty
        (read ++ [b],
          some
            (if setsPen then
              .pen (Parameter.ofText numbers)
            else
              .none))
      else
        (read, none)

/-
  The rest of a sequence that has been opened, and what it
  does. One that was not opened right after its escape does
  nothing; its text is not ended by a bell, and a device
  sequence then has none.
-/
def readOpened
    (isDirect : Bool)
    (m : EscapeMode)
    (text : List UInt8) : List UInt8 × Effect :=
  match m with
  | .control =>
      let (read, effect) := readParameters text
      (read, if isDirect then effect.getD .none else .none)
  | .device =>
      let (read, effect) := readParameters text
      if isDirect && effect.isSome then
        let (data, ending) :=
          readText false (text.drop read.length)
        (read ++ data ++ ending, .none)
      else
        (read, .none)
  | .commandText =>
      let (data, ending) := readText isDirect text
      let effect :=
        match Link.ofCommand? data with
        | some link => if isDirect then .link link else .none
        | none => .none
      (data ++ ending, effect)
  | .messageText =>
      let (data, ending) := readText false text
      (data ++ ending, .none)
  | _ => ([], .none)

/-
  The bytes of the escape sequence before a text, the escape
  left out, and what it does.
-/
def readSequence
    (text : List UInt8) : List UInt8 × Effect :=
  let between := text.takeWhile EscapeMode.isIntermediate
  match text.dropWhile EscapeMode.isIntermediate with
  | [] => (between, .none)
  | b :: text =>
      if 0x30 ≤ b && b ≤ 0x7e then
        let (read, effect) :=
          readOpened between.isEmpty (EscapeMode.opened b)
            text
        (between ++ b :: read, effect)
      else
        (between, .none)

------------------------------------------------------------
-- Pieces
------------------------------------------------------------

/- The bytes of a piece. -/
def bytes :
    Piece → List UInt8
  | shown b => [b]
  | control b => [b]
  | cluster bytes => bytes
  | sequence bytes _ => bytes

/- The number of cells a piece takes. -/
def width :
    Piece → Nat
  | shown _ => 1
  | control _ => 0
  | cluster bytes => Text.clusterWidth (Text.ofBytes bytes)
  | sequence _ _ => 0

/- The piece that starts with a byte before a text. -/
def first
    (b : UInt8)
    (text : List UInt8) : Piece :=
  if b = EscapeMode.escapeByte then
    let (read, effect) := readSequence text
    .sequence (b :: read) effect
  else
    match EscapeMode.openedAlone? b with
    | some m =>
        let (read, effect) := readOpened true m text
        .sequence (b :: read) effect
    | none =>
        if EscapeMode.isPlain b then
          if EscapeMode.isControl b then
            .control b
          else
            .shown b
        else if b < 0xc0 then
          .control b
        else
          .cluster (Cluster.first b text)

/-
  The pieces of a text, after the bytes that belong to a
  piece already read.
-/
def read :
    Nat → List UInt8 → List Piece
  | _, [] => []
  | n + 1, _ :: text => read n text
  | 0, b :: text =>
      let p := first b text
      p :: read (p.bytes.length - 1) text

/- The pieces of a text. -/
def ofText
    (text : List UInt8) : List Piece :=
  read 0 text

end Piece

end QueryHover
