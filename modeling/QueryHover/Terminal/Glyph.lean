import QueryHover.Text.Width

/-
  Glyphs: what a terminal makes of the bytes of a line.

  Escape sequences are obeyed and not shown, control bytes
  take no cell, and all else is shown. Plain characters stand
  for themselves; from any other character on a whole cluster
  is shown at once. A terminal reads bytes, and a byte that
  ends the text of a sequence may stand inside a character,
  so that the rest of the character is read by itself.

  Key definitions include:
    * `EscapeMode`
    * `Glyph`
    * `Glyph.lineWidth`
    * `Glyph.truncate`
-/

namespace QueryHover

------------------------------------------------------------
-- Escape Sequences
------------------------------------------------------------

/-
  How far an escape sequence has been read. Control
  sequences and device sequences have parameters and then
  intermediate bytes; device sequences, commands and messages
  carry a text.
-/
inductive EscapeMode where
  | ground
  | escape
  | escapeIntermediate
  | control
  | controlParameter
  | controlIntermediate
  | device
  | deviceParameter
  | deviceIntermediate
  | deviceText
  | commandText
  | messageText
deriving DecidableEq, Repr

/- What becomes of a byte. -/
inductive EscapeMode.Role where
  | shown
  | executed
  | hidden
deriving DecidableEq, Repr

namespace EscapeMode

/- The byte that starts an escape sequence. -/
def escapeByte : UInt8 := 0x1b

/- The byte that ends the text of a command. -/
def bell : UInt8 := 0x07

/- The byte beyond the plain ones that ends a text. -/
def terminator : UInt8 := 0x9c

/- The bytes that call off an escape sequence. -/
def cancels
    (b : UInt8) : Bool :=
  b = 0x18 || b = 0x1a

/- Bytes between the start and the end of a sequence. -/
def isIntermediate
    (b : UInt8) : Bool :=
  0x20 ≤ b && b ≤ 0x2f

/- Bytes of parameters. -/
def isParameter
    (b : UInt8) : Bool :=
  0x30 ≤ b && b ≤ 0x3f

/- Control bytes among the plain ones. -/
def isControl
    (b : UInt8) : Bool :=
  b < 0x20 || b = 0x7f

/- Bytes of plain characters and plain control bytes. -/
def isPlain
    (b : UInt8) : Bool :=
  b < 0x80

/- The first bytes of characters that are not plain. -/
def startsChar
    (b : UInt8) : Bool :=
  0xc2 ≤ b && b ≤ 0xf4

/- The mode after the byte that follows an escape. -/
def opened
    (b : UInt8) : EscapeMode :=
  match Char.ofUInt8 b with
  | '[' => control
  | 'P' => device
  | ']' => commandText
  | 'X' | '^' | '_' => messageText
  | _ => ground

/- The bytes that open a sequence without an escape. -/
def openedAlone? :
    UInt8 → Option EscapeMode
  | 0x90 => some device
  | 0x98 | 0x9e | 0x9f => some messageText
  | 0x9b => some control
  | 0x9d => some commandText
  | _ => none

/- Where a sequence goes on after a byte of its own. -/
def next
    (m : EscapeMode)
    (b : UInt8) : EscapeMode :=
  match m with
  | ground => ground
  | escape =>
      if isIntermediate b then
        escapeIntermediate
      else
        opened b
  | escapeIntermediate =>
      if isIntermediate b then escapeIntermediate else ground
  | control | controlParameter =>
      if isIntermediate b then
        controlIntermediate
      else if isParameter b then
        controlParameter
      else
        ground
  | controlIntermediate =>
      if isIntermediate b then controlIntermediate else ground
  | device | deviceParameter =>
      if isIntermediate b then
        deviceIntermediate
      else if isParameter b then
        deviceParameter
      else
        deviceText
  | deviceIntermediate =>
      if isIntermediate b then
        deviceIntermediate
      else
        deviceText
  | deviceText => deviceText
  | commandText => commandText
  | messageText => messageText

/- Whether a mode reads the text of a sequence. -/
def isText
    (m : EscapeMode) : Bool :=
  m = deviceText || m = commandText || m = messageText

/- Whether bytes that are not plain belong to the text. -/
def takesAll
    (m : EscapeMode) : Bool :=
  m = deviceText || m = commandText

/- Whether control bytes in a mode are passed over. -/
def dropsControls
    (m : EscapeMode) : Bool :=
  m = device || m = deviceParameter || m = deviceIntermediate

/- The control bytes that start a device's text. -/
def startsDeviceText
    (b : UInt8) : Bool :=
  b = escapeByte || (0x08 ≤ b && b ≤ 0x0d)

/- Read a plain byte of the text of a sequence. -/
def stepText
    (m : EscapeMode)
    (b : UInt8) : EscapeMode :=
  if b = escapeByte then
    escape
  else if cancels b || (m = commandText && b = bell) then
    ground
  else
    m

/- Read a control byte outside such a text. -/
def stepControl
    (m : EscapeMode)
    (b : UInt8) : Role × EscapeMode :=
  if cancels b then
    (.executed, ground)
  else if m = device && startsDeviceText b then
    (.hidden, deviceText)
  else if b = escapeByte then
    (.hidden, escape)
  else if m = ground then
    (.executed, ground)
  else if m.dropsControls || b = 0x7f then
    (.hidden, m)
  else
    (.executed, m)

/-
  Read a byte that is not plain and starts no character.
  The lower ones are control bytes, the others nothing at
  all; both call off a sequence.
-/
def stepBeyond
    (m : EscapeMode)
    (b : UInt8) : Role × EscapeMode :=
  if m.isText && b = terminator then
    (.hidden, ground)
  else if m.takesAll then
    (.hidden, m)
  else
    match openedAlone? b with
    | some m => (.hidden, m)
    | none =>
        if b < 0xa0 then
          (.executed, ground)
        else
          (.hidden, ground)

/- Read a byte. -/
def step
    (m : EscapeMode)
    (b : UInt8) : Role × EscapeMode :=
  if !isPlain b then
    m.stepBeyond b
  else if m.isText then
    (.hidden, m.stepText b)
  else if isControl b then
    m.stepControl b
  else if m = ground then
    (.shown, ground)
  else
    (.hidden, m.next b)

end EscapeMode

------------------------------------------------------------
-- Glyphs
------------------------------------------------------------

/- Bytes that a terminal takes together. -/
inductive Glyph where
  | shown (b : UInt8)
  | control (b : UInt8)
  | hidden (b : UInt8)
  | cluster (bytes : List UInt8)
deriving DecidableEq, Repr

namespace Glyph

/- The bytes of a glyph. -/
def bytes :
    Glyph → List UInt8
  | shown b => [b]
  | control b => [b]
  | hidden b => [b]
  | cluster bytes => bytes

/- The number of cells a glyph takes. -/
def width :
    Glyph → Nat
  | shown _ => 1
  | control _ => 0
  | hidden _ => 0
  | cluster bytes => Text.clusterWidth (Text.ofBytes bytes)

/-
  The glyph that starts with a byte before others, and the
  mode after it.
-/
def first
    (m : EscapeMode)
    (b : UInt8)
    (rest : List UInt8) : Glyph × EscapeMode :=
  if EscapeMode.startsChar b && !m.takesAll then
    (.cluster (Cluster.first b rest), .ground)
  else
    match m.step b with
    | (.shown, m) => (.shown b, m)
    | (.executed, m) => (.control b, m)
    | (.hidden, m) => (.hidden b, m)

/-
  The glyphs of a line in a mode, after the bytes that belong
  to a glyph already read.
-/
def read :
    Nat → EscapeMode → List UInt8 → List Glyph
  | _, _, [] => []
  | n + 1, m, _ :: line => read n m line
  | 0, m, b :: line =>
      let (g, m) := first m b line
      g :: read (g.bytes.length - 1) m line

/- The glyphs of a line. -/
def ofLine
    (line : List UInt8) : List Glyph :=
  read 0 .ground line

/- The number of cells a line takes. -/
def lineWidth
    (line : List UInt8) : Nat :=
  ((ofLine line).map width).foldr (· + ·) 0

------------------------------------------------------------
-- Cutting
------------------------------------------------------------

/-
  The escape sequences of a line from a mode on, after the
  bytes of a glyph already read. What is left out does not
  change the mode.
-/
def sequences :
    Nat → EscapeMode → List UInt8 → List UInt8
  | _, _, [] => []
  | n + 1, m, _ :: line => sequences n m line
  | 0, m, b :: line =>
      match first m b line with
      | (.hidden b, m) => b :: sequences 0 m line
      | (g, _) => sequences (g.bytes.length - 1) m line

/-
  The bytes of a line that fit into a number of cells, after
  the bytes of a glyph already read. Escape sequences are
  kept beyond that.
-/
def cut :
    Nat → EscapeMode → Nat → List UInt8 → List UInt8
  | _, _, _, [] => []
  | n + 1, m, room, _ :: line => cut n m room line
  | 0, m, room, b :: line =>
      let (g, next) := first m b line
      let size := g.bytes.length - 1
      if g.width ≤ room then
        g.bytes ++ cut size next (room - g.width) line
      else
        sequences size m line

/- Cut a line to a width. -/
def truncate
    (room : Nat)
    (line : List UInt8) : List UInt8 :=
  cut 0 .ground room line

end Glyph

end QueryHover
