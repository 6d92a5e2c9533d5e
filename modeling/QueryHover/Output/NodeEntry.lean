import QueryHover.Hover.Answer
import QueryHover.Output.Hovering
import QueryHover.Terminal.Table

/-
  How a chain of nodes is written.

  Each node of a chain becomes an entry with its depth and
  its range in the text.

  Key definitions include:
    * `NodeEntry`
    * `NodeEntry.ofChain`
    * `NodeEntry.renderer`
-/

namespace QueryHover

/- One node of a chain as it is listed. -/
structure NodeEntry where
  depth : Nat
  kind : String
  name : String := ""
  aliasName : String := ""
  start : Position
  stop : Position
deriving DecidableEq, Repr

namespace NodeEntry

/- The entries of a chain found in a text. -/
def ofChain
    (text : List Char)
    (chain : Chain) : List NodeEntry :=
  chain.zipIdx.map fun (n, depth) =>
    { depth
      kind := n.kind.label
      name := n.name
      aliasName := n.aliasName
      start := Position.ofOffset text n.span.start
      stop := Position.ofOffset text n.span.stop }

/- The range of an entry. -/
def range
    (e : NodeEntry) : String :=
  let point (p : Position) : String :=
    toString p.line ++ ":" ++ toString p.character
  point e.start ++ "-" ++ point e.stop

/- The name of an entry, after its alias if it has one. -/
def title
    (e : NodeEntry) : String :=
  if e.aliasName = "" then
    e.name
  else
    e.aliasName ++ ": " ++ e.name

/- An entry as an indented line. -/
def line
    (e : NodeEntry) : String :=
  let indent := Snippet.repeated (2 * e.depth) ' '
  let title :=
    if e.title = "" then "" else " " ++ e.title
  indent ++ e.kind ++ title ++ " " ++ e.range

/- Entries as a table. -/
def table
    (entries : List NodeEntry) : String :=
  let t : Table :=
    { headers := ["depth", "kind", "name", "range"]
      rows := entries.map fun e =>
        [toString e.depth, e.kind, e.title, e.range] }
  t.render

/- A member of an object, left out if its text is empty. -/
def optionalMember
    (key text : String) : List (String × Json) :=
  if text = "" then [] else [(key, .string text)]

/- An entry as a JSON object. -/
def toJson
    (e : NodeEntry) : Json :=
  .object
    ([("depth", .int e.depth), ("kind", .string e.kind)] ++
      optionalMember "name" e.name ++
      optionalMember "alias" e.aliasName ++
      [("start", e.start.toJson), ("end", e.stop.toJson)])

/- How entries are written. -/
def renderer : Renderer NodeEntry :=
  { text := some NodeEntry.line
    pretty := some NodeEntry.table
    json := fun entries =>
      some (.array (entries.map NodeEntry.toJson)) }

end NodeEntry

end QueryHover
