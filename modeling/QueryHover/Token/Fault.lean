import QueryHover.Text.Bytes

/-
  Faults: why no token can be read at some place.

  Key definitions include:
    * `Fault`
    * `Fault.message`
-/

namespace QueryHover

/-
  What stands where no token can be read. The text after a
  backslash is kept as far as it is known.
-/
inductive Fault where
  | control (c : Char)
  | singleQuote
  | unexpected (c : Char)
  | digitAfterZero (c : Char)
  | missingDigit (found : Option Char)
  | controlInString (c : Char)
  | unterminatedString
  | cutEscape
  | unknownEscape (c : Char)
  | badCode (written : List Char)
deriving DecidableEq, Repr

namespace Fault

/- The fault of a character that starts no token. -/
def ofChar
    (c : Char) : Fault :=
  if c.toNat < 0x20 then
    control c
  else if c = '\'' then
    singleQuote
  else
    unexpected c

/- A fault, given the text after the place it was found. -/
def before
    (text : List Char) :
    Fault → Fault
  | badCode written => badCode (written ++ text)
  | fault => fault

/- A character between double quotes, by its first byte. -/
def quoted
    (c : Char) : String :=
  String.ofList ['"', Text.leadByte c, '"']

/- The number of a control character, in four digits. -/
def number
    (c : Char) : String :=
  let digits := toString c.toNat
  String.ofList (List.replicate (4 - digits.length) '0') ++
    digits

/- The wording of a fault. -/
def message :
    Fault → String
  | control c =>
      "Cannot contain the invalid character \"\\u" ++
        number c ++ "\""
  | singleQuote =>
      "Unexpected single quote character ('), " ++
        "did you mean to use a double quote (\")?"
  | unexpected c =>
      "Cannot parse the unexpected character " ++
        quoted c ++ "."
  | digitAfterZero c =>
      "Invalid number, unexpected digit after 0: " ++
        quoted c ++ "."
  | missingDigit found =>
      "Invalid number, expected digit but got: " ++
        (found.map quoted).getD "<EOF>" ++ "."
  | controlInString c =>
      "Invalid character within String: \"\\u" ++
        number c ++ "\"."
  | unterminatedString => "Unterminated string."
  | cutEscape => "Invalid character escape sequence."
  | unknownEscape c =>
      "Invalid character escape sequence: \\" ++
        String.ofList [Text.leadByte c] ++ "."
  | badCode written =>
      "Invalid character escape sequence: \\" ++
        String.ofList (Text.takeBytes 5 written) ++ "."

end Fault

end QueryHover
