/-
  Pens: how a terminal writes.

  A pen has attributes and colors. A control sequence
  changes it by a list of numbered parameters, and a pen can
  be written as such a sequence again.

  Key definitions include:
    * `Color`
    * `Underline`
    * `Pen`
    * `Parameter`
    * `Pen.apply`
    * `Pen.sequence`
-/

namespace QueryHover

------------------------------------------------------------
-- Colors and Attributes
------------------------------------------------------------

/-
  A color: one of the eight basic ones, perhaps bright, one
  of a palette, or one mixed of red, green and blue.
-/
inductive Color where
  | basic (index : Nat)
  | bright (index : Nat)
  | palette (index : Nat)
  | mixed (red green blue : Nat)
deriving DecidableEq, Repr

/- The ways to underline. -/
inductive Underline where
  | single
  | double
  | curly
  | dotted
  | dashed
deriving DecidableEq, Repr

/- The attributes that are on or off. -/
inductive Attribute where
  | bold
  | faint
  | italic
  | slowBlink
  | rapidBlink
  | reverse
  | conceal
  | strike
deriving DecidableEq, Repr

namespace Attribute

/- The parameter that turns an attribute on. -/
def code :
    Attribute → Nat
  | bold => 1
  | faint => 2
  | italic => 3
  | slowBlink => 5
  | rapidBlink => 6
  | reverse => 7
  | conceal => 8
  | strike => 9

/- The parameter that turns an attribute off. -/
def offCode :
    Attribute → Nat
  | bold => 22
  | faint => 22
  | italic => 23
  | slowBlink => 25
  | rapidBlink => 25
  | reverse => 27
  | conceal => 28
  | strike => 29

/- All attributes, in the order of their parameters. -/
def all : List Attribute :=
  [ bold, faint, italic, slowBlink, rapidBlink, reverse,
    conceal, strike ]

end Attribute

/- How a terminal writes. -/
structure Pen where
  attributes : List Attribute := []
  underline : Option Underline := none
  foreground : Option Color := none
  background : Option Color := none
  underlineColor : Option Color := none
deriving DecidableEq, Repr

/-
  A number in a control sequence, and whether it is followed
  by a part of the same parameter.
-/
structure Parameter where
  value : Nat
  hasMore : Bool
deriving DecidableEq, Repr

namespace Parameter

/-
  The word that holds a number before its first digit. Words
  have 64 bits, and a number that reaches this one starts
  again.
-/
def missing : UInt64 := 0x7fffffff

/- The bits above the number, which say that it has more. -/
def moreBits : UInt64 := 0xffffffff80000000

/- The most parameters that are kept. -/
def limit : Nat := 32

/- A word after one more digit. -/
def addDigit
    (word : UInt64)
    (digit : UInt8) : UInt64 :=
  let start := if word = missing then 0 else word
  10 * start + (digit - 0x30).toUInt64

/- The parameter in a word; a missing number is zero. -/
def ofWord
    (word : UInt64) : Parameter :=
  let number := word &&& missing
  { value := if number = missing then 0 else number.toNat
    hasMore := word &&& moreBits ≠ 0 }

/- Whether a byte is a digit. -/
def isDigit
    (b : UInt8) : Bool :=
  0x30 ≤ b && b ≤ 0x39

/- The words in a text, after the digits of one. -/
def words
    (word : UInt64) :
    List UInt8 → List UInt64
  | [] => [word]
  | b :: text =>
      if b = 0x3b then
        word :: words missing text
      else if b = 0x3a then
        (word ||| moreBits) :: words missing text
      else
        words (addDigit word b) text

/-
  The parameters in a text. The last of them is lost where
  there are too many.
-/
def ofText
    (text : List UInt8) : List Parameter :=
  let read := words missing text
  let kept :=
    if read = [missing] then
      []
    else if read.length < limit then
      read
    else
      read.dropLast.take limit
  kept.map ofWord

end Parameter

namespace Pen

------------------------------------------------------------
-- Changing a Pen
------------------------------------------------------------

/- Whether all is as it is at the start. -/
def isPlain
    (pen : Pen) : Bool :=
  pen = {}

/-
  Whether a space written with a pen shows nothing of it.
-/
def hidesSpaces
    (pen : Pen) : Bool :=
  !pen.attributes.contains .reverse &&
    pen.background.isNone && pen.underline.isNone

/- Turn an attribute on. -/
def turnOn
    (pen : Pen)
    (a : Attribute) : Pen :=
  { pen with
    attributes :=
      Attribute.all.filter fun b =>
        b = a || pen.attributes.contains b }

/- Turn off the attributes with the given parameter. -/
def turnOff
    (pen : Pen)
    (code : Nat) : Pen :=
  { pen with
    attributes :=
      pen.attributes.filter fun a => a.offCode ≠ code }

/-
  What is left of a basic color under some of its opposite
  ink and some black ink.
-/
def inked
    (black ink : Nat) : Nat :=
  let left :=
    (0xffff - 0x101 * ink) * (0xffff - 0x101 * black) /
      0xffff
  if 0xff < left then left / 0x100 else left

/-
  The parts of a color and the number of parameters it takes.
  The parts stand in one parameter, perhaps after the number
  of a color space and with more to follow, or, if they are
  three shades of light, in parameters of their own.
-/
def readParts?
    (isLight : Bool)
    (parameters : List Parameter) :
    Option (List Nat × Nat) :=
  let more := (parameters.takeWhile Parameter.hasMore).length
  let size := min (more + 1) parameters.length
  let separate :=
    5 ≤ parameters.length &&
      (parameters.take 5).all fun p => !p.hasMore
  let values := parameters.map fun p => p.value % 256
  if 7 ≤ size then
    some ((values.drop 3).take 4, min size 9)
  else if more = 5 && size = 6 then
    some ((values.drop 3).take 3, 6)
  else if isLight && (more = 4 && size = 5 || separate) then
    some ((values.drop 2).take 3, 5)
  else
    none

/-
  The color that follows a parameter, and the number of
  parameters it takes with that one. A color is left out,
  black, mixed of light, mixed of ink, perhaps with black
  ink, taken from a palette, or mixed of light with a degree
  of opacity that is passed over.
-/
def readColor?
    (parameters : List Parameter) :
    Option (Option Color × Nat) :=
  match parameters with
  | p :: q :: rest =>
      match q.value, rest with
      | 0, _ => some (none, 2)
      | 1, _ => some (some (.mixed 0 0 0), 2)
      | 2, _ =>
          match readParts? true parameters with
          | some (r :: g :: b :: _, used) =>
              some (some (.mixed r g b), used)
          | _ => none
      | 3, _ =>
          match readParts? false parameters with
          | some (c :: m :: y :: _, used) =>
              some
                (some
                  (.mixed (inked 0 c) (inked 0 m)
                    (inked 0 y)), used)
          | _ => none
      | 4, _ =>
          match readParts? false parameters with
          | some (c :: m :: y :: k :: _, used) =>
              some
                (some
                  (.mixed (inked k c) (inked k m)
                    (inked k y)), used)
          | _ => none
      | 5, r :: _ =>
          if p.hasMore = q.hasMore && !r.hasMore then
            some (some (.palette (r.value % 256)), 3)
          else
            none
      | 6, _ =>
          match readParts? false parameters with
          | some (r :: g :: b :: _ :: _, used) =>
              some (some (.mixed r g b), used)
          | _ => none
      | _, _ => none
  | _ => none

/- The way to underline that a part of a parameter names. -/
def underlineOf? :
    Nat → Option (Option Underline)
  | 0 => some none
  | 1 => some (some .single)
  | 2 => some (some .double)
  | 3 => some (some .curly)
  | 4 => some (some .dotted)
  | 5 => some (some .dashed)
  | _ => none

/- Change a pen by a parameter that stands for itself. -/
def applyCode
    (pen : Pen)
    (code : Nat) : Pen :=
  match Attribute.all.find? fun a => a.code = code with
  | some a => pen.turnOn a
  | none =>
      if code = 0 then
        {}
      else if 22 ≤ code && code ≤ 29 && code ≠ 24 then
        pen.turnOff code
      else if code = 24 then
        { pen with underline := none }
      else if 30 ≤ code && code ≤ 37 then
        { pen with foreground := some (.basic (code - 30)) }
      else if code = 39 then
        { pen with foreground := none }
      else if 40 ≤ code && code ≤ 47 then
        { pen with background := some (.basic (code - 40)) }
      else if code = 49 then
        { pen with background := none }
      else if code = 59 then
        { pen with underlineColor := none }
      else if 90 ≤ code && code ≤ 97 then
        { pen with foreground := some (.bright (code - 90)) }
      else if 100 ≤ code && code ≤ 107 then
        { pen with background := some (.bright (code - 100)) }
      else
        pen

/-
  Change a pen by the first of some parameters; also how
  many parameters that takes.
-/
def applyFirst
    (pen : Pen)
    (p : Parameter)
    (rest : List Parameter) : Pen × Nat :=
  if p.value = 4 then
    match p.hasMore, rest with
    | true, q :: _ =>
        match underlineOf? q.value with
        | some underline => ({ pen with underline }, 2)
        | none => (pen, 1)
    | _, _ => ({ pen with underline := some .single }, 1)
  else if [38, 48, 58].contains p.value then
    match readColor? (p :: rest) with
    | none => (pen, 1)
    | some (color, used) =>
        if p.value = 38 then
          ({ pen with foreground := color }, used)
        else if p.value = 48 then
          ({ pen with background := color }, used)
        else
          ({ pen with underlineColor := color }, used)
  else
    (pen.applyCode p.value, 1)

/-
  Change a pen by parameters, after those that have been
  taken already.
-/
def applyAfter
    (pen : Pen) :
    Nat → List Parameter → Pen
  | _, [] => pen
  | n + 1, _ :: rest => applyAfter pen n rest
  | 0, p :: rest =>
      let (pen, used) := pen.applyFirst p rest
      applyAfter pen (used - 1) rest

/- Change a pen by parameters; none at all reset it. -/
def apply
    (pen : Pen)
    (parameters : List Parameter) : Pen :=
  if parameters.isEmpty then
    {}
  else
    pen.applyAfter 0 parameters

------------------------------------------------------------
-- Writing a Pen
------------------------------------------------------------

/- The parameters of a color for one of its three uses. -/
def colorCodes
    (use : Nat) :
    Color → List String
  | .basic index => [toString (10 * use + index)]
  | .bright index => [toString (10 * use + 60 + index)]
  | .palette index =>
      [toString (10 * use + 8), "5", toString index]
  | .mixed red green blue =>
      [ toString (10 * use + 8), "2", toString red,
        toString green, toString blue ]

/-
  The parameters of a way to underline: underlining as such,
  and then which.
-/
def underlineCodes :
    Underline → List String
  | .single => ["4", "4"]
  | .double => ["4", "4:2"]
  | .curly => ["4", "4:3"]
  | .dotted => ["4", "4:4"]
  | .dashed => ["4", "4:5"]

/- The parameters of a pen. -/
def codes
    (pen : Pen) : List String :=
  let colors
      (use : Nat)
      (color : Option Color) : List String :=
    (color.map (colorCodes use)).getD []
  pen.attributes.map (fun a => toString a.code) ++
    (pen.underline.map underlineCodes).getD [] ++
    colors 3 pen.foreground ++ colors 4 pen.background ++
    colors 5 pen.underlineColor

/- The control sequence that makes a pen of the plain one. -/
def sequence
    (pen : Pen) : String :=
  "\x1b[" ++ ";".intercalate pen.codes ++ "m"

end Pen

end QueryHover
