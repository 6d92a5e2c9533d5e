import QueryHover.Json.Basic
import QueryHover.Token.Scanner

/-
  Reading JSON values.

  A text is read from its front; what is left is returned
  with the value. Every step of the reading takes a
  character, so the length of the text bounds its depth.

  Key definitions include:
    * `Json.readString?`
    * `Json.readValue?`
    * `Json.parse?`
-/

namespace QueryHover

namespace Json

/- Characters between the parts of a value. -/
def isSpace
    (c : Char) : Bool :=
  c = ' ' || c = '\t' || c = '\n' || c = '\r'

/- The text from its next visible character on. -/
def skipSpace
    (text : List Char) : List Char :=
  text.dropWhile isSpace

------------------------------------------------------------
-- Strings
------------------------------------------------------------

/- The number of four hexadecimal digits. -/
def code?
    (a b c d : Char) : Option Nat := do
  let a ← Scanner.hexDigit? a
  let b ← Scanner.hexDigit? b
  let c ← Scanner.hexDigit? c
  let d ← Scanner.hexDigit? d
  pure (((16 * a + b) * 16 + c) * 16 + d)

/-
  The rest of a string after its opening quote. Two codes
  that form a surrogate pair stand for one character.
-/
def readString? :
    List Char → Option (List Char × List Char)
  | [] => none
  | '"' :: rest => some ([], rest)
  | '\\' :: 'u' :: a :: b :: c :: d ::
      '\\' :: 'u' :: e :: f :: g :: h :: rest => do
      let high ← code? a b c d
      let low ← code? e f g h
      if 0xD800 ≤ high && high ≤ 0xDBFF &&
          0xDC00 ≤ low && low ≤ 0xDFFF then
        let (tail, rest) ← readString? rest
        let pair :=
          0x10000 + (high - 0xD800) * 0x400 + (low - 0xDC00)
        pure (Char.ofNat pair :: tail, rest)
      else
        let (tail, rest) ←
          readString? ('\\' :: 'u' :: e :: f :: g :: h :: rest)
        pure (Scanner.unescapeCode [d, c, b, a] :: tail, rest)
  | '\\' :: 'u' :: a :: b :: c :: d :: rest => do
      let _ ← code? a b c d
      let (tail, rest) ← readString? rest
      pure (Scanner.unescapeCode [d, c, b, a] :: tail, rest)
  | '\\' :: c :: rest => do
      let character ← Scanner.unescape? c
      let (tail, rest) ← readString? rest
      pure (character :: tail, rest)
  | c :: rest =>
      if c.toNat < 0x20 || c = '\\' then
        none
      else do
        let (tail, rest) ← readString? rest
        pure (c :: tail, rest)

------------------------------------------------------------
-- Numbers
------------------------------------------------------------

/- The characters of a number literal, as far as it goes. -/
def readNumber
    (part : Scanner.NumberPart) :
    List Char → Option (List Char × List Char)
  | [] => part.kind?.map fun _ => ([], [])
  | c :: rest =>
      match part.next? c with
      | some after => do
          let (tail, rest) ← readNumber after rest
          pure (c :: tail, rest)
      | none => part.kind?.map fun _ => ([], c :: rest)

/- A number literal from its first character. -/
def readNumber? :
    List Char → Option (List Char × List Char)
  | '-' :: rest => do
      let (tail, rest) ← readNumber .sign rest
      pure ('-' :: tail, rest)
  | text => readNumber .sign text

------------------------------------------------------------
-- Values
------------------------------------------------------------

/- Take a word off the front of a text. -/
def readWord? :
    List Char → List Char → Option (List Char)
  | [], text => some text
  | w :: ws, c :: text =>
      if w = c then readWord? ws text else none
  | _ :: _, [] => none

mutual

/- A value at the front of a text. -/
def readValue? :
    Nat → List Char → Option (Json × List Char)
  | 0, _ => none
  | bound + 1, text =>
      match skipSpace text with
      | '"' :: rest => do
          let (s, rest) ← readString? rest
          pure (string (String.ofList s), rest)
      | '[' :: rest =>
          match skipSpace rest with
          | ']' :: rest => some (array [], rest)
          | rest => do
              let (items, rest) ← readItems? bound rest
              pure (array items, rest)
      | '\x7b' :: rest =>
          match skipSpace rest with
          | '\x7d' :: rest => some (object [], rest)
          | rest => do
              let (members, rest) ← readMembers? bound rest
              pure (object members, rest)
      | 't' :: rest => do
          let rest ← readWord? "rue".toList rest
          pure (bool true, rest)
      | 'f' :: rest => do
          let rest ← readWord? "alse".toList rest
          pure (bool false, rest)
      | 'n' :: rest => do
          let rest ← readWord? "ull".toList rest
          pure (null, rest)
      | rest => do
          let (digits, rest) ← readNumber? rest
          pure (number (String.ofList digits), rest)

/- The items of an array up to its closing bracket. -/
def readItems? :
    Nat → List Char → Option (List Json × List Char)
  | 0, _ => none
  | bound + 1, text => do
      let (item, rest) ← readValue? bound text
      match skipSpace rest with
      | ',' :: rest =>
          let (items, rest) ← readItems? bound rest
          pure (item :: items, rest)
      | ']' :: rest => pure ([item], rest)
      | _ => none

/- The members of an object up to its closing brace. -/
def readMembers? :
    Nat → List Char →
      Option (List (String × Json) × List Char)
  | 0, _ => none
  | bound + 1, text =>
      match skipSpace text with
      | '"' :: rest => do
          let (key, rest) ← readString? rest
          match skipSpace rest with
          | ':' :: rest =>
              let (value, rest) ← readValue? bound rest
              let member := (String.ofList key, value)
              match skipSpace rest with
              | ',' :: rest =>
                  let (members, rest) ←
                    readMembers? bound rest
                  pure (member :: members, rest)
              | '\x7d' :: rest => pure ([member], rest)
              | _ => none
          | _ => none
      | _ => none

end

/- The value that a whole text stands for. -/
def parse?
    (text : List Char) : Option Json := do
  let (value, rest) ←
    readValue? (2 * text.length + 2) text
  if (skipSpace rest).isEmpty then
    pure value
  else
    none

end Json

end QueryHover
