import QueryHover.Command.Integer
import QueryHover.Text.Bytes
import QueryHover.Text.Quoted

/-
  Flags of the command line.

  A flag is written by its name after two hyphens or by its
  letter after one; letters may be grouped. Its value stands
  in the same word or in the next one. The last value given
  for a flag counts.

  Key definitions include:
    * `Flag`
    * `Options`
    * `FlagError`
    * `Flag.parse`
-/

namespace QueryHover

------------------------------------------------------------
-- Flags and Options
------------------------------------------------------------

/- The flags of all commands. -/
inductive Flag where
  | schema
  | format
  | verbose
  | line
  | character
  | help
deriving DecidableEq, Repr

/- The values of all flags. -/
structure Options where
  schema : String := "schema.graphql"
  format : String := "text"
  verbosity : Int := 0
  line : Int := 0
  character : Int := 0
  help : Bool := false
deriving DecidableEq, Repr

namespace Flag

/- The name of a flag. -/
def name :
    Flag → String
  | schema => "schema"
  | format => "format"
  | verbose => "verbose"
  | line => "line"
  | character => "character"
  | help => "help"

/- The letter of a flag. -/
def letter :
    Flag → Char
  | schema => 's'
  | format => 'f'
  | verbose => 'v'
  | line => 'l'
  | character => 'c'
  | help => 'h'

/- The value that a flag has when none is written. -/
def impliedValue? :
    Flag → Option String
  | verbose => some "+1"
  | help => some "true"
  | _ => none

end Flag

------------------------------------------------------------
-- Errors
------------------------------------------------------------

/- Why the value of a flag is refused. -/
inductive ValueError where
  | notInteger (text : String) (e : Integer.Error)
  | notTruthValue (text : String)
deriving DecidableEq, Repr

/- The wording of an error. -/
def ValueError.message :
    ValueError → String
  | notInteger text e =>
      "strconv.ParseInt: parsing " ++ Text.quote text ++
        ": " ++ e.message
  | notTruthValue text =>
      "strconv.ParseBool: parsing " ++ Text.quote text ++
        ": invalid syntax"

/- Why flags cannot be read. -/
inductive FlagError where
  | malformed (word : String)
  | unknown (name : String)
  | unknownLetter (letter : Char) (group : String)
  | missingValue (name : String)
  | missingLetterValue (letter : Char) (group : String)
  | badValue (flag : Flag) (value : String) (e : ValueError)
deriving DecidableEq, Repr

/- The wording of an error. -/
def FlagError.message :
    FlagError → String
  | malformed word => "bad flag syntax: " ++ word
  | unknown name => "unknown flag: --" ++ name
  | unknownLetter letter group =>
      "unknown shorthand flag: " ++ Text.quoteChar letter ++
        " in -" ++ group
  | missingValue name => "flag needs an argument: --" ++ name
  | missingLetterValue letter group =>
      "flag needs an argument: " ++ Text.quoteChar letter ++
        " in -" ++ group
  | badValue flag value e =>
      let shown :=
        String.ofList ['-', flag.letter] ++ ", --" ++ flag.name
      "invalid argument " ++ Text.quote value ++ " for " ++
        Text.quote shown ++ " flag: " ++ e.message

------------------------------------------------------------
-- Values
------------------------------------------------------------

namespace Flag

/- The words for the two truth values. -/
def truthValue?
    (text : String) : Option Bool :=
  if ["1", "t", "T", "TRUE", "true", "True"].contains text then
    some true
  else if ["0", "f", "F", "FALSE", "false", "False"].contains
      text then
    some false
  else
    none

/- The next number among those of 64 bits. -/
def successor
    (n : Int) : Int :=
  Int.bmod (n + 1) UInt64.size

/- An integer value. -/
def integer
    (text : String) : Except ValueError Int :=
  match Integer.parse text with
  | .ok n => .ok n
  | .error e => .error (.notInteger text e)

/- The options after a flag is given a value. -/
def set
    (flag : Flag)
    (value : String)
    (o : Options) : Except ValueError Options :=
  match flag with
  | schema => pure { o with schema := value }
  | format => pure { o with format := value }
  | verbose =>
      if value = "+1" then
        pure { o with verbosity := successor o.verbosity }
      else do
        let n ← integer value
        pure { o with verbosity := n }
  | line => do
      let n ← integer value
      pure { o with line := n }
  | character => do
      let n ← integer value
      pure { o with character := n }
  | help =>
      match truthValue? value with
      | some b => pure { o with help := b }
      | none => .error (.notTruthValue value)

/- Set a flag, naming it in an error. -/
def assign
    (flag : Flag)
    (value : String)
    (o : Options) : Except FlagError Options :=
  match flag.set value o with
  | .ok o => .ok o
  | .error e => .error (.badValue flag value e)

------------------------------------------------------------
-- Words
------------------------------------------------------------

/- Cut a name at its first equals sign. -/
def cutValue
    (text : List Char) : List Char × Option (List Char) :=
  let name := text.takeWhile fun c => c ≠ '='
  match text.drop name.length with
  | [] => (name, none)
  | _ :: value => (name, some value)

/-
  Read a flag written by its name; also whether it takes the
  next word as its value.
-/
def readNamed
    (flags : List Flag)
    (text : List Char)
    (next : Option String)
    (o : Options) : Except FlagError (Options × Bool) := do
  let (nameChars, written) := cutValue text
  let name := String.ofList nameChars
  if name = "" || text.head? = some '-' then
    throw (.malformed ("--" ++ String.ofList text))
  match flags.find? fun flag => flag.name = name with
  | none => throw (.unknown name)
  | some flag =>
      match written, flag.impliedValue?, next with
      | some value, _, _ =>
          pure (← flag.assign (String.ofList value) o, false)
      | none, some value, _ =>
          pure (← flag.assign value o, false)
      | none, none, some value =>
          pure (← flag.assign value o, true)
      | none, none, none => throw (.missingValue name)

/- Groups that start like this are left to others. -/
def foreignGroup : List Char := "test.".toList

/-
  How an unknown letter is shown: the first byte of the
  character that its first byte numbers.
-/
def shownLetter
    (c : Char) : Char :=
  Text.leadByte (Text.leadByte c)

/-
  Read a group of letters; also whether its last flag takes
  the next word as its value. The rest of a group is passed
  over where it looks like a foreign one.
-/
def readLetters
    (flags : List Flag)
    (next : Option String) :
    List Char → Options → Except FlagError (Options × Bool)
  | [], o => pure (o, false)
  | c :: rest, o => do
      let group := String.ofList (c :: rest)
      if foreignGroup.isPrefixOf (c :: rest) then
        return (o, false)
      match flags.find? fun flag => flag.letter = c with
      | none => throw (.unknownLetter (shownLetter c) group)
      | some flag =>
          match rest, flag.impliedValue?, next with
          | '=' :: d :: value, _, _ =>
              let value := String.ofList (d :: value)
              pure (← flag.assign value o, false)
          | rest, some value, _ =>
              readLetters flags next rest
                (← flag.assign value o)
          | d :: value, none, _ =>
              let value := String.ofList (d :: value)
              pure (← flag.assign value o, false)
          | [], none, some value =>
              pure (← flag.assign value o, true)
          | [], none, none =>
              throw (.missingLetterValue c group)

/-
  Read all words: the options they set, and the words that
  are no flags. Two hyphens end the flags.
-/
def parse
    (flags : List Flag) :
    List String → Options →
      Except FlagError (Options × List String)
  | [], o => pure (o, [])
  | word :: rest, o => do
      match word.toList with
      | ['-', '-'] => pure (o, rest)
      | '-' :: c :: text =>
          let (o, usesNext) ←
            if c = '-' then
              readNamed flags text rest.head? o
            else
              readLetters flags rest.head? (c :: text) o
          match usesNext, rest with
          | true, _ :: rest => parse flags rest o
          | _, rest => parse flags rest o
      | _ =>
          let (o, arguments) ← parse flags rest o
          pure (o, word :: arguments)

end Flag

end QueryHover
