import QueryHover.Json.Basic

/-
  Output formats, and renderers: how a list of items is
  written in each format.

  Key definitions include:
    * `Format`
    * `Format.parse`
    * `Renderer`
    * `Renderer.render`
-/

namespace QueryHover

------------------------------------------------------------
-- Formats
------------------------------------------------------------

/- The formats that answers are written in. -/
inductive Format where
  | json
  | text
  | pretty
deriving DecidableEq, Repr, Inhabited

namespace Format

/- The name of a format. -/
def label :
    Format → String
  | json => "json"
  | text => "text"
  | pretty => "pretty"

/- The format with exactly the given name. -/
def ofLabel?
    (name : String) : Option Format :=
  [json, text, pretty].find? fun format =>
    format.label = name

/- A name that is no format. -/
structure ParseError where
  name : String
deriving DecidableEq, Repr

/- The wording of the error. -/
def ParseError.message
    (e : ParseError) : String :=
  "invalid format: " ++ e.name ++
    " (valid: json, text, pretty)"

/-
  The format with a name, whatever its case. Only letters of
  the plain alphabet occur in the names, so only those need
  be lowered.
-/
def parse
    (name : String) : Except ParseError Format :=
  let lowered := String.ofList (name.toList.map Char.toLower)
  match ofLabel? lowered with
  | some format => .ok format
  | none => .error ⟨name⟩

end Format

------------------------------------------------------------
-- Renderers
------------------------------------------------------------

/-
  How items are written: one line per item as text, all of
  them at once for display, or as a JSON document. A format
  without a writer is refused, and so is a document that
  JSON cannot express.
-/
structure Renderer (α : Type) where
  text : Option (α → String) := none
  pretty : Option (List α → String) := none
  json : List α → Option Json

/- Why items cannot be written. -/
inductive RenderError where
  | undefinedText
  | undefinedPretty
  | unsupportedValue
  | unsupportedFormat (name : String)
deriving DecidableEq, Repr

/- The wording of an error. -/
def RenderError.message :
    RenderError → String
  | undefinedText => "text format not defined for this type"
  | undefinedPretty =>
      "pretty format not defined for this type"
  | unsupportedValue => "json: unsupported type: func()"
  | unsupportedFormat name => "unsupported format: " ++ name

namespace Renderer

variable {α : Type}

/- Items in a format. -/
def render
    (r : Renderer α)
    (items : List α) :
    Format → Except RenderError String
  | .json =>
      match r.json items with
      | some document => .ok document.render
      | none => .error .unsupportedValue
  | .pretty =>
      match r.pretty with
      | some write => .ok (write items)
      | none => .error .undefinedPretty
  | .text =>
      match r.text with
      | some write =>
          .ok ("\n".intercalate (items.map write))
      | none => .error .undefinedText

/- Items in the format with a name. -/
def renderNamed
    (r : Renderer α)
    (items : List α)
    (name : String) : Except RenderError String :=
  match Format.ofLabel? name with
  | some format => r.render items format
  | none => .error (.unsupportedFormat name)

end Renderer

end QueryHover
