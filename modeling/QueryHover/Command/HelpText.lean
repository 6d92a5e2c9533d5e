import QueryHover.Command.Basic

/-
  The help texts of the commands.

  Help is a description followed by the usage of the
  command.

  Key definitions include:
    * `Command.description`
    * `Command.usage`
    * `Command.topicUsage`
    * `Command.helpText`
-/

namespace QueryHover

namespace Command

/- Lines of text, each with its line end. -/
def paragraph
    (lines : List String) : String :=
  String.join (lines.map fun line => line ++ "\n")

------------------------------------------------------------
-- Descriptions
------------------------------------------------------------

/- What the tool itself is for. -/
def rootDescription : List String :=
  [ "gqlhover answers the question an editor asks when you hover over a GraphQL query:",
    "what is this? Point it at a position in a query document and it prints the field,",
    "argument, directive, enum value or type found there, with its signature and the",
    "documentation from the schema.",
    "",
    "Positions are zero-based line and character numbers, like in the Language Server",
    "Protocol. Queries are read from a file argument or from stdin.",
    "",
    "By default, gqlhover tries to read ./schema.graphql in the current directory.",
    "A different schema file can be specified using -s.",
    "",
    "Output can be formatted as pretty text (default in terminals), plain text",
    "(default when piping), or JSON shaped like an LSP hover response." ]

/- What the `hover` command is for. -/
def hoverDescription : List String :=
  [ "Prints the hover information for a position in a GraphQL query document:",
    "the signature of the field, argument, directive, enum value or type found there,",
    "followed by its description or deprecation notice from the schema.",
    "",
    "The query can be provided as a file path argument or piped via stdin.",
    "",
    "Exit codes:",
    "  0 - Hover information was found",
    "  1 - Nothing to show at the position, or the query does not parse",
    "",
    "Output formats:",
    "  text    The hover content as an editor would show it (default when piping)",
    "  json    An LSP Hover object \x7b\"contents\": \x7b...\x7d, \"range\": \x7b...\x7d\x7d, or null",
    "  pretty  Styled content and the hovered token underlined (default in terminal)" ]

/- What the `nodes` command is for. -/
def nodesDescription : List String :=
  [ "Prints the chain of syntax nodes from the document root down to the node",
    "found at a position, the same chain the hover command interprets.",
    "",
    "The schema is not consulted. The query can be provided as a file path argument",
    "or piped via stdin.",
    "",
    "Output formats:",
    "  text    One indented line per node: \"Field thing 0:8-0:13\" (default when piping)",
    "  json    [\x7b\"depth\": 0, \"kind\": \"Document\", ...\x7d, ...]",
    "  pretty  Formatted table with columns (default in terminal)" ]

/- What the `help` command is for. -/
def helpDescription : List String :=
  [ "Help provides help for any command in the application.",
    "Simply type gqlhover help [path to command] for full details." ]

/- What a command is for. -/
def description :
    Command → String
  | .root => paragraph rootDescription
  | .hover => paragraph hoverDescription
  | .nodes => paragraph nodesDescription
  | .help => paragraph helpDescription

------------------------------------------------------------
-- Usage
------------------------------------------------------------

/- The line on the help flag of the tool itself. -/
def rootHelpLine : String :=
  "  -h, --help            help for gqlhover"

/- How the tool itself is used. -/
def rootUsage : List String :=
  [ "Usage:",
    "  gqlhover [command]",
    "",
    "Examples:",
    "  # What is the field on the third line?",
    "  gqlhover hover query.graphql --line 2 --character 6",
    "",
    "  # Hover from stdin with a custom schema",
    "  echo 'query \x7b user \x7b name \x7d \x7d' | gqlhover hover -s api.graphql -l 0 -c 16",
    "",
    "  # Feed an editor integration",
    "  gqlhover hover query.graphql -l 2 -c 6 -f json",
    "",
    "  # Debug which syntax nodes sit under a position",
    "  gqlhover nodes query.graphql -l 2 -c 6",
    "",
    "Available Commands:",
    "  completion  Generate the autocompletion script for the specified shell",
    "  help        Help about any command",
    "  hover       Describe the schema element at a position in a query",
    "  nodes       Show the syntax nodes enclosing a position in a query",
    "",
    "Flags:",
    "  -f, --format string   Output format: json, text, pretty (default: pretty if interactive, text otherwise) (default \"text\")",
    rootHelpLine,
    "  -s, --schema string   File path of GraphQL schema (default \"schema.graphql\")",
    "  -v, --verbose count   Log resolution steps to stderr (repeat for more detail)",
    "",
    "Use \"gqlhover [command] --help\" for more information about a command." ]

/- How the `hover` command is used. -/
def hoverUsage : List String :=
  [ "Usage:",
    "  gqlhover hover [file] [flags]",
    "",
    "Examples:",
    "  # Hover over the field on the third line",
    "  gqlhover hover query.graphql --line 2 --character 6",
    "",
    "  # Hover from stdin",
    "  echo 'query \x7b user(id: 1) \x7b name \x7d \x7d' | gqlhover hover -l 0 -c 10",
    "",
    "  # LSP-shaped output for editor integrations",
    "  gqlhover hover query.graphql -l 2 -c 6 -f json",
    "",
    "Flags:",
    "  -c, --character int   Zero-based character of the position within the line",
    "  -h, --help            help for hover",
    "  -l, --line int        Zero-based line of the position",
    "",
    "Global Flags:",
    "  -f, --format string   Output format: json, text, pretty (default: pretty if interactive, text otherwise) (default \"text\")",
    "  -s, --schema string   File path of GraphQL schema (default \"schema.graphql\")",
    "  -v, --verbose count   Log resolution steps to stderr (repeat for more detail)" ]

/- How the `nodes` command is used. -/
def nodesUsage : List String :=
  [ "Usage:",
    "  gqlhover nodes [file] [flags]",
    "",
    "Examples:",
    "  # Why does hovering here show the parent field?",
    "  gqlhover nodes query.graphql --line 1 --character 9",
    "",
    "  # From stdin",
    "  echo '\x7b thing \x7b testField \x7d \x7d' | gqlhover nodes -l 0 -c 12 -f json",
    "",
    "Flags:",
    "  -c, --character int   Zero-based character of the position within the line",
    "  -h, --help            help for nodes",
    "  -l, --line int        Zero-based line of the position",
    "",
    "Global Flags:",
    "  -f, --format string   Output format: json, text, pretty (default: pretty if interactive, text otherwise) (default \"text\")",
    "  -s, --schema string   File path of GraphQL schema (default \"schema.graphql\")",
    "  -v, --verbose count   Log resolution steps to stderr (repeat for more detail)" ]

/- How the `help` command is used. -/
def helpUsage : List String :=
  [ "Usage:",
    "  gqlhover help [command] [flags]",
    "",
    "Flags:",
    "  -h, --help   help for help",
    "",
    "Global Flags:",
    "  -f, --format string   Output format: json, text, pretty (default: pretty if interactive, text otherwise) (default \"text\")",
    "  -s, --schema string   File path of GraphQL schema (default \"schema.graphql\")",
    "  -v, --verbose count   Log resolution steps to stderr (repeat for more detail)" ]

/- How a command is used. -/
def usage :
    Command → String
  | .root => paragraph rootUsage
  | .hover => paragraph hoverUsage
  | .nodes => paragraph nodesUsage
  | .help => paragraph helpUsage

/-
  How the tool itself is used, without its help flag: what is
  shown for a topic that is no command.
-/
def topicUsage : String :=
  paragraph (rootUsage.filter fun line => line ≠ rootHelpLine)

/- The help for a command. -/
def helpText
    (c : Command) : String :=
  c.description ++ "\n" ++ c.usage

end Command

end QueryHover
