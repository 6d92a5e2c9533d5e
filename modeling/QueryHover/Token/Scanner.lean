import QueryHover.Token.Basic
import QueryHover.Token.BlockString
import QueryHover.Token.Fault

/-
  The scanner.

  A text is read one character at a time by a machine whose
  mode says what has been read of the current token. A
  character that cannot extend the current token ends it
  and starts the next one. The machine keeps the offset and
  the current line, so a token knows its place when it is
  emitted.

  Line ends inside block strings are counted when they are
  met, so a block string is placed on the line where it
  closes. Between tokens a carriage return starts a new line
  by itself, and a newline right after it is one more
  character of that line.

  Key definitions include:
    * `Scanner.Mode`
    * `Scanner`
    * `Scanner.step`
    * `Scanner.finish`
    * `Scanner.Scan`
    * `Scanner.run`
-/

namespace QueryHover

------------------------------------------------------------
-- Modes
------------------------------------------------------------

/- How much of a number has been read. -/
inductive Scanner.NumberPart where
  | sign
  | zero
  | digits
  | point
  | fraction
  | exponent
  | exponentSign
  | exponentDigits
deriving DecidableEq, Repr

/-
  What has been read of the current token: where it starts
  and its characters so far, last one first. A string also
  remembers a code escape that has just been read: where its
  code starts, and the code, last character first.
-/
inductive Scanner.Mode where
  | blank
  | blankAfterReturn
  | comment (start : Nat) (read : List Char)
  | name (start : Nat) (read : List Char)
  | number
      (start : Nat) (read : List Char)
      (part : Scanner.NumberPart)
  | dots (start : Nat) (count : Nat)
  | quotes (start : Nat) (count : Nat)
  | string
      (start : Nat) (read : List Char)
      (escape : Option (Nat × List Char))
  | stringEscape (start : Nat) (read : List Char)
  | stringCode
      (start : Nat) (read : List Char)
      (escape : Nat) (digits : List Char)
  | block (start : Nat) (read : List Char)
  | blockAfterReturn (start : Nat) (read : List Char)
  | blockEscape
      (start : Nat) (read : List Char) (quotes : Nat)
  | blockQuotes
      (start : Nat) (read : List Char) (quotes : Nat)
deriving DecidableEq, Repr

/- The scanner before its next character. -/
structure Scanner where
  offset : Nat := 0
  line : Nat := 1
  lineStart : Nat := 0
  mode : Scanner.Mode := .blank
deriving DecidableEq, Repr

namespace Scanner

/-
  One step emits tokens and goes on, or stops at a place
  where no token can be read.
-/
inductive Step where
  | next (tokens : List Token) (scanner : Scanner)
  | stop (tokens : List Token) (last : Token) (fault : Fault)

/- A step that emits one more token in front. -/
def Step.after
    (t : Token) :
    Step → Step
  | .next tokens scanner => .next (t :: tokens) scanner
  | .stop tokens last fault => .stop (t :: tokens) last fault

------------------------------------------------------------
-- Characters
------------------------------------------------------------

/- The punctuator a character stands for. -/
def punctuator? :
    Char → Option Token.Kind
  | '!' => some .bang
  | '$' => some .dollar
  | '&' => some .ampersand
  | '(' => some .parenL
  | ')' => some .parenR
  | ':' => some .colon
  | '=' => some .equals
  | '@' => some .atSign
  | '[' => some .bracketL
  | ']' => some .bracketR
  | '\x7b' => some .braceL
  | '\x7d' => some .braceR
  | '|' => some .pipe
  | _ => none

/- Characters skipped between tokens, line ends apart. -/
def isIgnored
    (c : Char) : Bool :=
  c = ' ' || c = '\t' || c = ',' || c = '\uFEFF'

def isNameStart
    (c : Char) : Bool :=
  c = '_' || c.isAlpha

def isNamePart
    (c : Char) : Bool :=
  isNameStart c || c.isDigit

/- A control character other than the tab. -/
def isControl
    (c : Char) : Bool :=
  c.toNat < 0x20 && c ≠ '\t'

/- The value of a hexadecimal digit. -/
def hexDigit?
    (c : Char) : Option Nat :=
  if c.isDigit then
    some (c.toNat - '0'.toNat)
  else if 'a' ≤ c && c ≤ 'f' then
    some (c.toNat - 'a'.toNat + 10)
  else if 'A' ≤ c && c ≤ 'F' then
    some (c.toNat - 'A'.toNat + 10)
  else
    none

/- The character a short escape in a string stands for. -/
def unescape? :
    Char → Option Char
  | '"' => some '"'
  | '\\' => some '\\'
  | '/' => some '/'
  | 'b' => some '\x08'
  | 'f' => some '\x0c'
  | 'n' => some '\n'
  | 'r' => some '\r'
  | 't' => some '\t'
  | _ => none

/-
  The character of a code escape, from its digits last one
  first. A surrogate code stands for the replacement
  character.
-/
def unescapeCode
    (digits : List Char) : Char :=
  let code :=
    digits.foldr
      (fun d n => 16 * n + (hexDigit? d).getD 0) 0
  if 0xD800 ≤ code && code ≤ 0xDFFF then
    '\uFFFD'
  else
    Char.ofNat code

------------------------------------------------------------
-- Tokens and Stops
------------------------------------------------------------

/- The column of an offset on the current line. -/
def columnOf
    (s : Scanner)
    (offset : Nat) : Int :=
  (offset : Int) - s.lineStart + 1

/- A token on the current line. -/
def token
    (s : Scanner)
    (kind : Token.Kind)
    (value : List Char)
    (start stop : Nat) : Token :=
  { kind := kind
    value := String.ofList value
    start := start
    stop := stop
    line := s.line
    column := s.columnOf start }

/- A string is placed by its first character. -/
def stringToken
    (s : Scanner)
    (value : List Char)
    (start stop : Nat) : Token :=
  { s.token .string value start stop with
    column := s.columnOf (start + 1) }

/-
  A block string is placed by its first character, counted
  on the line where it closes. It covers three of the quotes
  that close it; further ones belong to its text.
-/
def blockToken
    (s : Scanner)
    (start : Nat)
    (read : List Char)
    (quotes : Nat) : Token :=
  let raw :=
    read.reverse ++ List.replicate (quotes - 3) '"'
  { s.token .blockString (BlockString.denote raw)
      start (s.offset - quotes + 3) with
    column := s.columnOf (start + 3) }

/- The mark left where no token can be read. -/
def invalidAt
    (s : Scanner)
    (offset : Nat) : Token :=
  s.token .invalid [] offset offset

/- Take the character just read into the given mode. -/
def goOn
    (s : Scanner)
    (mode : Mode) : Step :=
  .next [] { s with offset := s.offset + 1, mode := mode }

/- Take a character that ends a line. -/
def newLine
    (s : Scanner)
    (mode : Mode) : Step :=
  .next []
    { offset := s.offset + 1
      line := s.line + 1
      lineStart := s.offset + 1
      mode := mode }

/- Take the last character of a token. -/
def emit
    (s : Scanner)
    (t : Token) : Step :=
  .next [t] { s with offset := s.offset + 1, mode := .blank }

/- Stop at an offset of the current line. -/
def stopAt
    (s : Scanner)
    (offset : Nat)
    (fault : Fault) : Step :=
  .stop [] (s.invalidAt offset) fault

------------------------------------------------------------
-- Steps
------------------------------------------------------------

/- The first character of a token, or one between tokens. -/
def stepBlank
    (s : Scanner)
    (c : Char) : Step :=
  if isIgnored c then
    s.goOn .blank
  else if c = '\n' then
    s.newLine .blank
  else if c = '\r' then
    s.newLine .blankAfterReturn
  else if c = '#' then
    s.goOn (.comment s.offset [c])
  else if isNameStart c then
    s.goOn (.name s.offset [c])
  else if c = '-' then
    s.goOn (.number s.offset [c] .sign)
  else if c = '0' then
    s.goOn (.number s.offset [c] .zero)
  else if c.isDigit then
    s.goOn (.number s.offset [c] .digits)
  else if c = '.' then
    s.goOn (.dots s.offset 1)
  else if c = '"' then
    s.goOn (.quotes s.offset 1)
  else
    match punctuator? c with
    | some kind =>
        s.emit (s.token kind [] s.offset (s.offset + 1))
    | none => s.stopAt s.offset (.ofChar c)

/- The part a number is in after one more character. -/
def NumberPart.next? :
    NumberPart → Char → Option NumberPart
  | .sign, c =>
      if c = '0' then some .zero
      else if c.isDigit then some .digits
      else none
  | .zero, c =>
      if c = '.' then some .point
      else if c = 'e' || c = 'E' then some .exponent
      else none
  | .digits, c =>
      if c.isDigit then some .digits
      else if c = '.' then some .point
      else if c = 'e' || c = 'E' then some .exponent
      else none
  | .point, c =>
      if c.isDigit then some .fraction else none
  | .fraction, c =>
      if c.isDigit then some .fraction
      else if c = 'e' || c = 'E' then some .exponent
      else none
  | .exponent, c =>
      if c.isDigit then some .exponentDigits
      else if c = '+' || c = '-' then some .exponentSign
      else none
  | .exponentSign, c =>
      if c.isDigit then some .exponentDigits else none
  | .exponentDigits, c =>
      if c.isDigit then some .exponentDigits else none

/- The kind of a number that may end after a part. -/
def NumberPart.kind? :
    NumberPart → Option Token.Kind
  | .zero => some .int
  | .digits => some .int
  | .fraction => some .float
  | .exponentDigits => some .float
  | .sign => none
  | .point => none
  | .exponent => none
  | .exponentSign => none

/-
  A character after the start of a number. A digit cannot
  follow a leading zero.
-/
def stepNumber
    (s : Scanner)
    (start : Nat)
    (read : List Char)
    (part : NumberPart)
    (c : Char) : Step :=
  match part.next? c with
  | some after => s.goOn (.number start (c :: read) after)
  | none =>
      if part = .zero && c.isDigit then
        s.stopAt s.offset (.digitAfterZero c)
      else
        match part.kind? with
        | some kind =>
            (s.stepBlank c).after
              (s.token kind read.reverse start s.offset)
        | none => s.stopAt s.offset (.missingDigit (some c))

/- What a control character in a string is. -/
def controlFault
    (c : Char) : Fault :=
  if c = '\n' || c = '\r' then
    .unterminatedString
  else
    .controlInString c

/- A character inside a string. -/
def stepString
    (s : Scanner)
    (start : Nat)
    (read : List Char)
    (c : Char) : Step :=
  if c = '"' then
    s.emit
      (s.stringToken read.reverse start (s.offset + 1))
  else if c = '\\' then
    s.goOn (.stringEscape start read)
  else if isControl c then
    s.stopAt s.offset (controlFault c)
  else
    s.goOn (.string start (c :: read) none)

/- A character inside a block string. -/
def stepBlock
    (s : Scanner)
    (start : Nat)
    (read : List Char)
    (c : Char) : Step :=
  if c = '"' then
    s.goOn (.blockQuotes start read 1)
  else if c = '\\' then
    s.goOn (.blockEscape start read 0)
  else if c = '\n' then
    s.newLine (.block start ('\n' :: read))
  else if c = '\r' then
    s.newLine (.blockAfterReturn start ('\n' :: read))
  else if isControl c then
    s.stopAt s.offset (controlFault c)
  else
    s.goOn (.block start (c :: read))

/- Read one character. -/
def step
    (s : Scanner)
    (c : Char) : Step :=
  match s.mode with
  | .blank => s.stepBlank c
  | .blankAfterReturn =>
      if c = '\n' then
        s.goOn .blank
      else
        s.stepBlank c
  | .comment start read =>
      if isControl c then
        (s.stepBlank c).after
          (s.token .comment read.reverse start s.offset)
      else
        s.goOn (.comment start (c :: read))
  | .name start read =>
      if isNamePart c then
        s.goOn (.name start (c :: read))
      else
        (s.stepBlank c).after
          (s.token .name read.reverse start s.offset)
  | .number start read part =>
      s.stepNumber start read part c
  | .dots start count =>
      if c = '.' then
        if count = 1 then
          s.goOn (.dots start 2)
        else
          s.emit (s.token .spread [] start (s.offset + 1))
      else
        s.stopAt start (.unexpected '.')
  | .quotes start count =>
      if count = 1 then
        if c = '"' then
          s.goOn (.quotes start 2)
        else
          s.stepString start [] c
      else if c = '"' then
        s.goOn (.block start [])
      else
        (s.stepBlank c).after
          (s.stringToken [] start s.offset)
  | .string start read _ => s.stepString start read c
  | .stringEscape start read =>
      if c = 'u' then
        s.goOn (.stringCode start read s.offset [])
      else
        match unescape? c with
        | some d => s.goOn (.string start (d :: read) none)
        | none => s.stopAt s.offset (.unknownEscape c)
  | .stringCode start read escape digits =>
      if (hexDigit? c).isNone then
        s.stopAt escape
          (.badCode ('u' :: digits.reverse ++ [c]))
      else if digits.length < 3 then
        s.goOn
          (.stringCode start read escape (c :: digits))
      else
        s.goOn
          (.string start (unescapeCode (c :: digits) :: read)
            (some (escape, c :: digits)))
  | .block start read => s.stepBlock start read c
  | .blockAfterReturn start read =>
      if c = '\n' then
        .next []
          { s with
            offset := s.offset + 1
            lineStart := s.offset + 1
            mode := .block start read }
      else
        s.stepBlock start read c
  | .blockEscape start read quotes =>
      if c = '"' then
        if quotes < 2 then
          s.goOn (.blockEscape start read (quotes + 1))
        else
          s.goOn
            (.block start (List.replicate 3 '"' ++ read))
      else
        s.stepBlock start
          (List.replicate quotes '"' ++ '\\' :: read) c
  | .blockQuotes start read quotes =>
      if c = '"' then
        s.goOn (.blockQuotes start read (quotes + 1))
      else if quotes < 3 then
        s.stepBlock start
          (List.replicate quotes '"' ++ read) c
      else
        (s.stepBlank c).after
          (s.blockToken start read quotes)

------------------------------------------------------------
-- The End of the Text
------------------------------------------------------------

/- The mark of the end of the text. -/
def endToken
    (s : Scanner) : Token :=
  s.token .eof [] s.offset s.offset

/-
  All tokens of a text, comments among them, the mark that
  follows the last one, and what is wrong there if that is
  not the end of the text.
-/
structure Scan where
  tokens : List Token
  last : Token
  fault : Option Fault := none

/- A scan of the end of a text. -/
def ended
    (s : Scanner)
    (tokens : List Token) : Scan :=
  { tokens := tokens, last := s.endToken }

/- A scan that stops at an offset of the current line. -/
def stopped
    (s : Scanner)
    (offset : Nat)
    (fault : Fault) : Scan :=
  { tokens := []
    last := s.invalidAt offset
    fault := some fault }

/-
  What is emitted at the end of the text: the tokens that end
  there, and the mark that closes the stream. A code escape
  that the end of the text cuts off, or directly follows, is
  reported in place of the unclosed string.
-/
def finish
    (s : Scanner) : Scan :=
  match s.mode with
  | .blank | .blankAfterReturn => s.ended []
  | .comment start read =>
      s.ended [s.token .comment read.reverse start s.offset]
  | .name start read =>
      s.ended [s.token .name read.reverse start s.offset]
  | .number start read part =>
      match part.kind? with
      | some kind =>
          s.ended [s.token kind read.reverse start s.offset]
      | none => s.stopped s.offset (.missingDigit none)
  | .dots start _ => s.stopped start (.unexpected '.')
  | .quotes start count =>
      if count = 1 then
        s.stopped s.offset .unterminatedString
      else
        s.ended [s.stringToken [] start s.offset]
  | .string _ _ (some (escape, code)) =>
      s.stopped escape (.badCode ('u' :: code.reverse))
  | .string _ _ none =>
      s.stopped s.offset .unterminatedString
  | .stringEscape _ _ => s.stopped s.offset .cutEscape
  | .stringCode _ _ escape digits =>
      s.stopped escape (.badCode ('u' :: digits.reverse))
  | .block _ _ | .blockAfterReturn _ _
  | .blockEscape _ _ _ =>
      s.stopped s.offset .unterminatedString
  | .blockQuotes start read quotes =>
      if quotes < 3 then
        s.stopped s.offset .unterminatedString
      else
        s.ended [s.blockToken start read quotes]

/-
  The tokens of the rest of a text, and the mark that follows
  the last one: the end of the text or the first place where
  no token can be read.
-/
def run :
    Scanner → List Char → Scan
  | s, [] => s.finish
  | s, c :: cs =>
      match s.step c with
      | .next tokens s' =>
          let scan := run s' cs
          { scan with tokens := tokens ++ scan.tokens }
      | .stop tokens last fault =>
          { tokens := tokens
            last := last
            fault := some (fault.before cs) }

end Scanner

end QueryHover
