import QueryHover.Command.Flag
import QueryHover.Text.EditDistance
import QueryHover.Text.Lowercase

/-
  Commands of the command line.

  The first word that is neither a flag nor the value of one
  names the command; without such a word the tool itself is
  meant. A word that names no command is refused, with the
  commands that are spelled like it.

  Key definitions include:
    * `Command`
    * `Command.flags`
    * `Command.find`
    * `UnknownCommand`
-/

namespace QueryHover

/- The commands; `root` is the tool without a command. -/
inductive Command where
  | root
  | hover
  | nodes
  | help
deriving DecidableEq, Repr

/- A word that names no command. -/
structure UnknownCommand where
  word : String
deriving DecidableEq, Repr

namespace Command

/- The name under which the tool is called. -/
def toolName : String := "gqlhover"

/- The command that a word names. -/
def named? :
    String → Option Command
  | "hover" => some hover
  | "nodes" => some nodes
  | "help" => some help
  | _ => none

/- The flags that a command understands. -/
def flags :
    Command → List Flag
  | root => [.schema, .format, .verbose, .help]
  | hover =>
      [.schema, .format, .verbose, .line, .character, .help]
  | nodes =>
      [.schema, .format, .verbose, .line, .character, .help]
  | help => [.schema, .format, .verbose, .help]

------------------------------------------------------------
-- Finding the Command
------------------------------------------------------------

/- A word that starts with a hyphen. -/
def isFlagWord
    (word : String) : Bool :=
  word.toList.head? = some '-'

/-
  Whether a flag word is taken to have its value in the next
  word: a name or a single letter without an equals sign,
  unless it is the flag that needs no value.
-/
def expectsValue
    (word : String) : Bool :=
  let text := word.toList
  if text.contains '=' then
    false
  else
    match text with
    | '-' :: '-' :: name =>
        String.ofList name ≠ Flag.verbose.name
    | ['-', letter] =>
        letter.toNat < 0x80 && letter ≠ Flag.verbose.letter
    | _ => false

/- The words that are neither flags nor their values. -/
def plainWords :
    List String → List String
  | [] => []
  | word :: rest =>
      if word = "--" then
        []
      else if expectsValue word then
        match rest with
        | [] => []
        | [_] => []
        | _ :: rest => plainWords rest
      else if word ≠ "" && !isFlagWord word then
        word :: plainWords rest
      else
        plainWords rest

/- The words without the one that names the command. -/
def withoutName
    (name : String) :
    List String → List String
  | [] => []
  | word :: rest =>
      if word = "--" then
        word :: rest
      else if expectsValue word then
        match rest with
        | [] => [word]
        | value :: rest =>
            word :: value :: withoutName name rest
      else if word = name then
        rest
      else
        word :: withoutName name rest

/- The command that words name, and the words for it. -/
def find
    (words : List String) :
    Except UnknownCommand (Command × List String) :=
  match plainWords words with
  | [] => .ok (root, words)
  | word :: _ =>
      match named? word with
      | some command => .ok (command, withoutName word words)
      | none => .error ⟨word⟩

end Command

------------------------------------------------------------
-- Unknown Commands
------------------------------------------------------------

namespace UnknownCommand

/- The commands that are suggested for similar words. -/
def suggestable : List String :=
  ["hover", "nodes", "completion"]

/- Further words are no help as a suggestion. -/
def suggestionLimit : Nat := 2

/- Whether a command is spelled like a word. -/
def resembles
    (word command : String) : Bool :=
  let typed := word.toList.map Text.lowercase
  Text.editDistance (Text.bytes typed)
      (Text.bytes command.toList) ≤ suggestionLimit ||
    typed.isPrefixOf command.toList

/- The wording of the error. -/
def message
    (e : UnknownCommand) : String :=
  let similar := suggestable.filter (resembles e.word)
  let hint :=
    if similar.isEmpty then
      ""
    else
      "\n\nDid you mean this?\n" ++
        String.join
          (similar.map fun name => "\t" ++ name ++ "\n")
  "unknown command " ++ Text.quote e.word ++ " for " ++
    Text.quote Command.toolName ++ hint

end UnknownCommand

end QueryHover
