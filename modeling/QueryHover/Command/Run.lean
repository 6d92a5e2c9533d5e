import QueryHover.Command.HelpText
import QueryHover.Command.Path
import QueryHover.Hover.Candidates
import QueryHover.Output.Hovering
import QueryHover.Output.NodeEntry
import QueryHover.Output.Refusal
import QueryHover.Schema.Load

/-
  Running the commands.

  A run sees the words of the command line, standard input
  and files, and yields what is written to the two outputs
  and perhaps an error. It is a function of what it sees.

  A log line has a level, a message and named values. It is
  shown when the level is within the verbosity asked for.

  Key definitions include:
    * `Log.line`
    * `Surroundings`
    * `RunError`
    * `Outcome`
    * `Command.run`
    * `Command.needs`
-/

namespace QueryHover

------------------------------------------------------------
-- Log Lines
------------------------------------------------------------

namespace Log

/- A value in a log line. -/
inductive Value where
  | text (s : String)
  | int (n : Int)
deriving DecidableEq, Repr

/- How a value is written. -/
def Value.render :
    Value → String
  | text s => Text.quote s
  | int n => toString n

/- A log line, or nothing if its level is not shown. -/
def line
    (verbosity : Int)
    (level : Int)
    (message : String)
    (values : List (String × Value)) : String :=
  if level ≤ verbosity then
    let fields :=
      ("level", .int level) :: ("msg", .text message) ::
        values
    let shown :=
      fields.map fun (key, value) =>
        Text.quote key ++ "=" ++ value.render
    "gqlhover: " ++ " ".intercalate shown ++ "\n"
  else
    ""

end Log

------------------------------------------------------------
-- Surroundings
------------------------------------------------------------

/- Why a file cannot be read. -/
inductive ReadError where
  | missing (path : String)
  | isDirectory (path : String)
  | failed (path reason : String)
deriving DecidableEq, Repr

/- The wording of an error. -/
def ReadError.message :
    ReadError → String
  | missing path =>
      "open " ++ path ++ ": no such file or directory"
  | isDirectory path => "read " ++ path ++ ": is a directory"
  | failed path reason => "open " ++ path ++ ": " ++ reason

/- What a run sees besides the words of the command line. -/
structure Surroundings where
  directory : String
  read : String → Except ReadError String
  input : String
  color : Bool

------------------------------------------------------------
-- Errors and Outcomes
------------------------------------------------------------

/- Why a run fails. -/
inductive RunError where
  | unknownCommand (e : UnknownCommand)
  | flag (e : FlagError)
  | tooManyArguments (count : Nat)
  | format (e : Format.ParseError)
  | negativePosition
  | missingSchema (path : String)
  | unreadableSchema (e : ReadError)
  | invalidSchema (e : LoadError)
  | unreadableQuery (e : ReadError)
  | refusedQuery
  | nothingFound (p : Position)
  | rendering (e : RenderError)
deriving DecidableEq, Repr

/- The wording of an error. -/
def RunError.message :
    RunError → String
  | unknownCommand e => e.message
  | flag e => e.message
  | tooManyArguments count =>
      "accepts at most 1 arg(s), received " ++ toString count
  | format e => e.message
  | negativePosition =>
      "--line and --character must not be negative"
  | missingSchema path =>
      "schema file does not exist: " ++ path
  | unreadableSchema e => "unexpected error: " ++ e.message
  | invalidSchema e =>
      "GraphQL schema parsing error: " ++
        e.location.describe e.message
  | unreadableQuery e =>
      "failed to read query file: " ++ e.message
  | refusedQuery => "document does not parse"
  | nothingFound p =>
      "no hover information at " ++ toString p.line ++ ":" ++
        toString p.character
  | rendering e => "error rendering output: " ++ e.message

/- What a run writes, and why it failed if it did. -/
structure Outcome where
  stdout : String := ""
  stderr : String := ""
  error : Option RunError := none
deriving DecidableEq, Repr

namespace Outcome

/- Only an error. -/
def failure
    (e : RunError) : Outcome :=
  { error := some e }

/- Only text on standard output. -/
def success
    (text : String) : Outcome :=
  { stdout := text }

/- Put text in front of what is written to standard error. -/
def logged
    (text : String)
    (o : Outcome) : Outcome :=
  { o with stderr := text ++ o.stderr }

/- Report the error after all else. -/
def reported
    (o : Outcome) : Outcome :=
  match o.error with
  | none => o
  | some e =>
      { o with
        stderr := o.stderr ++ "Error: " ++ e.message ++ "\n" }

end Outcome

------------------------------------------------------------
-- What the Commands Need
------------------------------------------------------------

namespace Command

/- The position asked for. -/
def position
    (o : Options) : Except RunError Position :=
  let p : Position := ⟨o.line, o.character⟩
  if p.IsNonNegative then
    .ok p
  else
    .error .negativePosition

/- The schema asked for, and the path it was read from. -/
def readSchema
    (w : Surroundings)
    (o : Options) : Except RunError (Schema × String) :=
  let path := Path.absolute w.directory o.schema
  match w.read path with
  | .error (.missing _) => .error (.missingSchema o.schema)
  | .error e => .error (.unreadableSchema e)
  | .ok text =>
      match Schema.load (Path.base path) text.toList with
      | .error e => .error (.invalidSchema e)
      | .ok schema => .ok (schema, path)

/- The name and the text of the query asked for. -/
def readQuery
    (w : Surroundings)
    (arguments : List String) :
    Except RunError (String × String) :=
  match arguments with
  | [] => .ok ("stdin", w.input)
  | path :: _ =>
      match w.read path with
      | .error e => .error (.unreadableQuery e)
      | .ok text => .ok (path, text)

/- Write items in a format, with a final line end. -/
def write
    {α : Type}
    (renderer : Renderer α)
    (items : List α)
    (format : Format) : Except RunError String :=
  match renderer.render items format with
  | .error e => .error (.rendering e)
  | .ok text => .ok (text ++ "\n")

------------------------------------------------------------
-- The Hover Command
------------------------------------------------------------

/- The outcome of a hover whose answer is known. -/
def showAnswer
    (w : Surroundings)
    (format : Format)
    (schema : Schema)
    (source : String)
    (p : Position)
    (answer : Answer) : Outcome :=
  let hint :=
    match suggestion? (some schema) answer.chain with
    | none => ""
    | some message => Snippet.help w.color message ++ "\n"
  let found := answer.content ≠ ""
  let written :=
    if found || format = .json then
      write (Answer.renderer w.color source) [answer] format
    else
      .ok ""
  match written with
  | .error e => { stderr := hint, error := some e }
  | .ok text =>
      { stdout := text
        stderr := hint
        error :=
          if found then none else some (.nothingFound p) }

/- The outcome of a hover over a text. -/
def hoverText
    (w : Surroundings)
    (o : Options)
    (format : Format)
    (schema : Schema)
    (source : String)
    (text : String)
    (p : Position) : Outcome :=
  match Answer.resolve (some schema) text.toList p with
  | .error e =>
      let refusal := Refusal.ofSyntaxError e
      let log :=
        Log.line o.verbosity 1 "parse failed"
          [ ("source", .text source),
            ("error", .text refusal.describe) ]
      { stderr :=
          log ++ refusal.report w.color source text.toList
        error := some .refusedQuery }
  | .ok answer =>
      let log :=
        Log.line o.verbosity 1 "resolved position"
          [ ("source", .text source),
            ("offset", .int answer.offset),
            ("chain", .text answer.chain.describe),
            ("entity", .text (Entity.label answer.entity)) ]
      (showAnswer w format schema source p answer).logged log

/- Describe the element at a position. -/
def runHover
    (w : Surroundings)
    (o : Options)
    (format : Format)
    (arguments : List String) : Outcome :=
  match position o with
  | .error e => .failure e
  | .ok p =>
      match readSchema w o with
      | .error e => .failure e
      | .ok (schema, path) =>
          let log :=
            Log.line o.verbosity 2 "loaded schema"
              [ ("path", .text path),
                ("types", .int schema.types.length),
                ("directives",
                  .int schema.directives.length) ]
          match readQuery w arguments with
          | .error e => (Outcome.failure e).logged log
          | .ok (source, text) =>
              (hoverText w o format schema source text p).logged
                log

------------------------------------------------------------
-- The Nodes Command
------------------------------------------------------------

/- List the nodes around a position. -/
def runNodes
    (w : Surroundings)
    (o : Options)
    (format : Format)
    (arguments : List String) : Outcome :=
  match position o with
  | .error e => .failure e
  | .ok p =>
      match readQuery w arguments with
      | .error e => .failure e
      | .ok (source, text) =>
          match Document.parse text.toList with
          | .error e =>
              let refusal := Refusal.ofSyntaxError e
              { stderr :=
                  refusal.report w.color source text.toList
                error := some .refusedQuery }
          | .ok tree =>
              let offset := p.offsetIn text.toList
              let chain := Chain.resolve tree offset
              let log :=
                Log.line o.verbosity 1 "resolved position"
                  [ ("source", .text source),
                    ("offset", .int offset),
                    ("chain", .text chain.describe) ]
              let entries :=
                NodeEntry.ofChain text.toList chain
              match write NodeEntry.renderer entries format
              with
              | .error e => (Outcome.failure e).logged log
              | .ok written =>
                  (Outcome.success written).logged log

------------------------------------------------------------
-- The Help Command
------------------------------------------------------------

/- Whether a text can stand between backquotes. -/
def fitsBackquotes
    (text : String) : Bool :=
  text.toList.all fun c =>
    !(c.toNat < 0x20 && c ≠ '\t') && c.toNat ≠ 0x60 &&
      c.toNat ≠ 0x7f && c ≠ '\uFEFF'

/- A word of a help topic. -/
def quoteTopic
    (word : String) : String :=
  if fitsBackquotes word then
    "`" ++ word ++ "`"
  else
    Text.quote word

/- The help for the command that words name. -/
def runHelp
    (arguments : List String) : Outcome :=
  match find arguments with
  | .ok (command, _) => .success command.helpText
  | .error _ =>
      let topic :=
        " ".intercalate (arguments.map quoteTopic)
      .success
        ("Unknown help topic [" ++ topic ++ "]\n" ++
          topicUsage)

------------------------------------------------------------
-- Running
------------------------------------------------------------

/- Whether the usage is shown when a command fails. -/
def showsUsage :
    Command → Bool
  | root | help => true
  | hover | nodes => false

/- A failure of a command before it does anything. -/
def fail
    (c : Command)
    (e : RunError) : Outcome :=
  if c.showsUsage then
    { stdout := c.usage ++ "\n", error := some e }
  else
    .failure e

/- Run a command whose flags have been read. -/
def execute
    (c : Command)
    (w : Surroundings)
    (o : Options)
    (arguments : List String) : Outcome :=
  if o.help || c = root then
    .success c.helpText
  else if c ≠ help && 1 < arguments.length then
    .failure (.tooManyArguments arguments.length)
  else
    match Format.parse o.format with
    | .error e => c.fail (.format e)
    | .ok format =>
        match c with
        | hover => runHover w o format arguments
        | nodes => runNodes w o format arguments
        | _ => runHelp arguments

/- Run the command that the words of a command line name. -/
def run
    (w : Surroundings)
    (words : List String) : Outcome :=
  match find words with
  | .error e =>
      let outcome :=
        (Outcome.failure (.unknownCommand e)).reported
      { outcome with
        stderr :=
          outcome.stderr ++
            "Run 'gqlhover --help' for usage.\n" }
  | .ok (command, words) =>
      match Flag.parse command.flags words {} with
      | .error e => (command.fail (.flag e)).reported
      | .ok (o, arguments) =>
          (command.execute w o arguments).reported

------------------------------------------------------------
-- What a Run Reads
------------------------------------------------------------

/- The files that a run may read, and standard input. -/
structure Needs where
  files : List String := []
  input : Bool := false
deriving DecidableEq, Repr

/- What a command line makes its run read. -/
def needs
    (directory : String)
    (words : List String) : Needs :=
  match find words with
  | .error _ => {}
  | .ok (command, words) =>
      match command, Flag.parse command.flags words {} with
      | hover, .ok (o, arguments) =>
          { files :=
              Path.absolute directory o.schema :: arguments
            input := arguments.isEmpty }
      | nodes, .ok (_, arguments) =>
          { files := arguments, input := arguments.isEmpty }
      | _, _ => {}

end Command

end QueryHover
