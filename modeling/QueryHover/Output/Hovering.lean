import QueryHover.Hover.Answer
import QueryHover.Output.Renderer
import QueryHover.Terminal.Snippet

/-
  How an answer to a hover is written.

  As text an answer is its content; for display the content
  is styled and the target underlined in its source line; as
  JSON it is the response of an editor's hover request.

  Key definitions include:
    * `Answer.width`
    * `Answer.pretty`
    * `Answer.toJson`
    * `Answer.renderer`
-/

namespace QueryHover

/- A position as a JSON object. -/
def Position.toJson
    (p : Position) : Json :=
  .object
    [ ("line", .int p.line),
      ("character", .int p.character) ]

/- A range as a JSON object. -/
def Range.toJson
    (r : Range) : Json :=
  .object [("start", r.start.toJson), ("end", r.stop.toJson)]

namespace Answer

/- The style of a signature. -/
def signatureStyle : Style := ⟨"1"⟩

/- The style of documentation. -/
def documentationStyle : Style := ⟨"38;5;245"⟩

/-
  How many characters of the line where a span starts are
  underlined: those of the span, or all that are left of the
  line where the span goes on after it.
-/
def width
    (a : Answer)
    (span : Span)
    (line : List Char) : Int :=
  let start := Position.ofOffset a.text span.start
  let stop := Position.ofOffset a.text span.stop
  if stop.line = start.line then
    span.length
  else
    ((Text.withoutReturn line).length : Int) - start.character

/-
  The line where the target starts, underlined as far as the
  target lies on it.
-/
def underline
    (a : Answer)
    (color : Bool)
    (source : String)
    (span : Span)
    (line : List Char) : String :=
  let start := Position.ofOffset a.text span.start
  Snippet.location color source
      (start.line + 1) (start.character + 1) ++
    "\n" ++
    Snippet.render color .info
      (String.ofList (Text.withoutReturn line))
      (start.line + 1) (start.character + 1)
      (a.width span line) ""

/- The source line where a span starts. -/
def lineOf?
    (a : Answer)
    (span : Span) : Option (List Char) :=
  let start := Position.ofOffset a.text span.start
  (Text.lines a.text)[start.line.toNat]?

/- An answer for display. -/
def pretty
    (color : Bool)
    (source : String)
    (a : Answer) : String :=
  let signature :=
    signatureStyle.render color (Content.signature a.content)
  let documentation := Content.documentation a.content
  let styled :=
    if documentation = "" then
      signature
    else
      signature ++ "\n\n" ++
        documentationStyle.render color documentation
  match a.target? with
  | none => styled
  | some span =>
      match a.lineOf? span with
      | none => styled
      | some line =>
          styled ++ "\n\n" ++
            a.underline color source span line

/- An answer as the response to an editor, null for none. -/
def toJson
    (a : Answer) : Json :=
  match a.range? with
  | none => .null
  | some range =>
      .object
        [ ("contents",
            .object
              [ ("kind", .string "plaintext"),
                ("value", .string a.content) ]),
          ("range", range.toJson) ]

/- How a single answer is written. -/
def renderer
    (color : Bool)
    (source : String) : Renderer Answer :=
  { text := some Answer.content
    pretty :=
      some fun answers =>
        "\n".intercalate
          (answers.map (Answer.pretty color source))
    json := fun answers =>
      answers.head?.map Answer.toJson }

end Answer

end QueryHover
