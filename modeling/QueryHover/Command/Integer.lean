/-
  Integers on the command line.

  An integer may carry a sign, a base (`0x`, `0o`, `0b`, or a
  leading zero for base eight) and underscores between its
  digits. It must fit into 64 bits.

  Key definitions include:
    * `Integer.parse`
-/

namespace QueryHover

namespace Integer

/- Why a text is no integer. -/
inductive Error where
  | malformed
  | outOfRange
deriving DecidableEq, Repr

/- The wording of an error. -/
def Error.message :
    Error → String
  | malformed => "invalid syntax"
  | outOfRange => "value out of range"

/- The value of a digit in any base. -/
def digit?
    (c : Char) : Option Nat :=
  if c.isDigit then
    some (c.toNat - '0'.toNat)
  else if c.isAlpha then
    some (c.toLower.toNat - 'a'.toNat + 10)
  else
    none

/- The base a text announces, and its digits. -/
def baseAndDigits :
    List Char → Nat × List Char
  | ['0'] => (8, [])
  | '0' :: c :: d :: rest =>
      if c.toLower = 'b' then (2, d :: rest)
      else if c.toLower = 'o' then (8, d :: rest)
      else if c.toLower = 'x' then (16, d :: rest)
      else (8, c :: d :: rest)
  | '0' :: rest => (8, rest)
  | text => (10, text)

/-
  The number that digits stand for, passing over
  underscores. The first fault counts, be it a bad digit or
  a number that grows too large.
-/
def readDigits
    (base : Nat) :
    Nat → List Char → Except Error Nat
  | n, [] => .ok n
  | n, c :: rest =>
      if c = '_' then
        readDigits base n rest
      else
        match digit? c with
        | none => .error .malformed
        | some d =>
            if base ≤ d then
              .error .malformed
            else if UInt64.size ≤ n * base + d then
              .error .outOfRange
            else
              readDigits base (n * base + d) rest

/-
  Whether every underscore stands after a digit or a base
  and before a digit.
-/
def underscoresFit
    (hexadecimal : Bool) :
    Bool → List Char → Bool
  | _, [] => true
  | afterDigit, '_' :: rest =>
      afterDigit &&
        match rest with
        | [] => false
        | c :: _ =>
            (c.isDigit || hexadecimal && (digit? c).isSome) &&
              underscoresFit hexadecimal false rest
  | _, c :: rest =>
      let isDigit :=
        c.isDigit || hexadecimal && (digit? c).isSome
      underscoresFit hexadecimal isDigit rest

/- Whether the underscores of a text are in their places. -/
def underscoresOk :
    List Char → Bool
  | '0' :: c :: rest =>
      if c.toLower = 'x' then
        underscoresFit true true rest
      else if c.toLower = 'b' || c.toLower = 'o' then
        underscoresFit false true rest
      else
        underscoresFit false false ('0' :: c :: rest)
  | text => underscoresFit false false text

/- A number without a sign. -/
def parseUnsigned
    (text : List Char) : Except Error Nat := do
  if text.isEmpty then
    .error .malformed
  else
    let (base, digits) := baseAndDigits text
    let n ← readDigits base 0 digits
    if text.contains '_' && !underscoresOk text then
      .error .malformed
    else
      pure n

/- The integer that a text stands for. -/
def parse
    (text : String) : Except Error Int := do
  let (negative, unsigned) :=
    match text.toList with
    | '-' :: rest => (true, rest)
    | '+' :: rest => (false, rest)
    | rest => (false, rest)
  let n ← parseUnsigned unsigned
  if negative then
    if n ≤ UInt64.size / 2 then pure (-n)
    else .error .outOfRange
  else
    if n < UInt64.size / 2 then pure n
    else .error .outOfRange

end Integer

end QueryHover
