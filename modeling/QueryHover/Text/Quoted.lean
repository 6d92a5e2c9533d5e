import QueryHover.Text.Printable

/-
  Quoted texts.

  A quoted text stands between two delimiters. The
  delimiter and the backslash are escaped inside it, and so
  is every character that is not printable: by a short
  escape where there is one, else by its code in
  hexadecimal.

  Key definitions include:
    * `Text.escape`
    * `Text.quote`
    * `Text.quoteChar`
-/

namespace QueryHover

namespace Text

/- The digits of a number in base 16, padded with zeros. -/
def hexadecimal
    (width : Nat)
    (n : Nat) : List Char :=
  let digits := Nat.toDigits 16 n
  List.replicate (width - digits.length) '0' ++ digits

/- The letter of a short escape. -/
def shortEscape? :
    Nat → Option Char
  | 0x07 => some 'a'
  | 0x08 => some 'b'
  | 0x09 => some 't'
  | 0x0a => some 'n'
  | 0x0b => some 'v'
  | 0x0c => some 'f'
  | 0x0d => some 'r'
  | _ => none

/- One character of a quoted text. -/
def escape
    (delimiter : Char)
    (c : Char) : List Char :=
  if c = delimiter || c = '\\' then
    ['\\', c]
  else if isPrintable c then
    [c]
  else
    match shortEscape? c.toNat with
    | some letter => ['\\', letter]
    | none =>
        if c.toNat < 0x80 then
          '\\' :: 'x' :: hexadecimal 2 c.toNat
        else if c.toNat < 0x10000 then
          '\\' :: 'u' :: hexadecimal 4 c.toNat
        else
          '\\' :: 'U' :: hexadecimal 8 c.toNat

/- A text between double quotes. -/
def quote
    (s : String) : String :=
  let body := s.toList.flatMap (escape '"')
  String.ofList (['"'] ++ body ++ ['"'])

/- A character between single quotes. -/
def quoteChar
    (c : Char) : String :=
  let mark := Char.ofNat 0x27
  String.ofList ([mark] ++ escape mark c ++ [mark])

end Text

end QueryHover
