/-
  The bytes of a text.

  Bytes that come from cutting a text need not be those of a
  text again: each byte that is part of no character is read
  as the replacement character.

  Key definitions include:
    * `Text.bytes`
    * `Text.firstChar?`
    * `Text.ofBytes`
    * `Text.charFrom`
    * `Text.splitBytes`
    * `Text.leadByte`
    * `Text.takeBytes`
-/

namespace QueryHover

namespace Text

/- The bytes of a character. -/
def charBytes
    (c : Char) : List UInt8 :=
  (String.ofList [c]).toUTF8.toList

/- The bytes of a text. -/
def bytes
    (text : List Char) : List UInt8 :=
  text.flatMap charBytes

/- The character that some bytes start with. -/
def firstChar?
    (bytes : List UInt8) : Option Char :=
  (bytes.take 4).toByteArray.utf8DecodeChar? 0

/- The character that stands for bytes of none. -/
def replacement : Char := '\uFFFD'

/-
  The characters of some bytes, after the bytes of a
  character already read.
-/
def readBytes :
    Nat → List UInt8 → List Char
  | _, [] => []
  | n + 1, _ :: bytes => readBytes n bytes
  | 0, b :: bytes =>
      match firstChar? (b :: bytes) with
      | some c => c :: readBytes (c.utf8Size - 1) bytes
      | none => replacement :: readBytes 0 bytes

/- The text of some bytes. -/
def ofBytes
    (bytes : List UInt8) : List Char :=
  readBytes 0 bytes

/- The bytes that follow the first one in a character. -/
def continues
    (b : UInt8) : Bool :=
  0x80 ≤ b && b < 0xc0

/- How many bytes follow the first one in its character. -/
def following
    (b : UInt8) : Nat :=
  if b < 0xc2 then
    0
  else if b < 0xe0 then
    1
  else if b < 0xf0 then
    2
  else
    3

/-
  The character that starts with a byte before others, and
  how many of these belong to it. A character that is cut
  short is a replacement character.
-/
def charFrom
    (b : UInt8)
    (bytes : List UInt8) : Char × Nat :=
  match firstChar? (b :: bytes) with
  | some c => (c, c.utf8Size - 1)
  | none =>
      let rest := bytes.take (following b)
      (replacement, (rest.takeWhile continues).length)

/-
  Cut bytes at every separator. There is always at least one
  part.
-/
def splitBytes
    (separator : UInt8) :
    List UInt8 → List (List UInt8)
  | [] => [[]]
  | b :: bytes =>
      if b = separator then
        [] :: splitBytes separator bytes
      else
        match splitBytes separator bytes with
        | [] => [[b]]
        | part :: parts => (b :: part) :: parts

/- The character numbered by the first byte of another. -/
def leadByte
    (c : Char) : Char :=
  match charBytes c with
  | [] => c
  | b :: _ => Char.ofNat b.toNat

/-
  The first bytes of a text. Each byte of a character that is
  cut shows as the replacement character.
-/
def takeBytes :
    Nat → List Char → List Char
  | _, [] => []
  | n, c :: text =>
      let size := (charBytes c).length
      if size ≤ n then
        c :: takeBytes (n - size) text
      else
        List.replicate n replacement

end Text

end QueryHover
