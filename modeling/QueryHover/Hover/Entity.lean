import QueryHover.Schema.Basic

/-
  Entities: the elements of a schema that a hover describes.

  An entity names its element by the definitions found for
  it. What an entity says is text: a signature and, after a
  blank line, documentation.

  Key definitions include:
    * `Entity`
    * `Entity.content`
    * `Content.signature`
    * `Content.documentation`
-/

namespace QueryHover

------------------------------------------------------------
-- Entities
------------------------------------------------------------

/-
  A described element. An argument belongs to a directive or
  to a field; a type may be described through the field that
  has it.
-/
inductive Entity where
  | field
      (parent : Option TypeDefinition)
      (field : Option FieldDefinition)
  | argument
      (parent : Option TypeDefinition)
      (field : Option FieldDefinition)
      (directive : Option DirectiveDefinition)
      (argument : Option ArgumentDefinition)
  | directive (directive : Option DirectiveDefinition)
  | enumValue
      (enum : Option TypeDefinition)
      (value : Option EnumValueDefinition)
  | type
      (type : Option TypeDefinition)
      (parent : Option TypeDefinition)
      (field : Option FieldDefinition)
  | variableType (type : Option TypeRef)
deriving DecidableEq, Repr

namespace Entity

/- How the variants are named, also when there is none. -/
def label :
    Option Entity → String
  | some (.field ..) => "FieldInfo"
  | some (.argument ..) => "ArgumentInfo"
  | some (.directive ..) => "DirectiveInfo"
  | some (.enumValue ..) => "EnumValueInfo"
  | some (.type ..) => "TypeInfo"
  | some (.variableType ..) => "VariableTypeInfo"
  | none => "None"

end Entity

------------------------------------------------------------
-- Sections of a Content
------------------------------------------------------------

namespace Content

/- Cut a text at its first blank line. -/
def cut :
    List Char → List Char × List Char
  | [] => ([], [])
  | '\n' :: '\n' :: rest => ([], rest)
  | c :: rest =>
      let (before, after) := cut rest
      (c :: before, after)

/- The part of a content before its first blank line. -/
def signature
    (content : String) : String :=
  String.ofList (cut content.toList).1

/- The part of a content after its first blank line. -/
def documentation
    (content : String) : String :=
  String.ofList (cut content.toList).2

/- A signature, and documentation if there is any. -/
def join
    (signature documentation : String) : String :=
  if documentation = "" then
    signature
  else
    signature ++ "\n\n" ++ documentation

end Content

------------------------------------------------------------
-- What an Entity Says
------------------------------------------------------------

namespace Entity

/- The value given for a name, if it has one. -/
def givenValue?
    (values : List NamedValue)
    (name : String) : Option Literal :=
  (values.find? fun v => v.name = name).bind
    NamedValue.value

/-
  Why an element is deprecated, if it is: the reason given,
  else the declared default, else nothing.
-/
def deprecation?
    (directives : List DirectiveUse) : Option String :=
  match directives.find? fun d => d.name = "deprecated" with
  | none => none
  | some d =>
      let given := givenValue? d.arguments "reason"
      let declared :=
        d.declared.bind fun values =>
          givenValue? values "reason"
      match given.or declared with
      | some reason => some reason.text
      | none => some ""

/- The description, or else the note of a deprecation. -/
def documentation
    (description : String)
    (directives : List DirectiveUse) : String :=
  if description ≠ "" then
    description
  else
    match deprecation? directives with
    | some reason => "Deprecated: " ++ reason
    | none => ""

/- A field of a type, as it is written in a signature. -/
def fieldSignature
    (parent : TypeDefinition)
    (field : FieldDefinition) : String :=
  parent.name ++ "." ++ field.name ++ ": " ++
    field.type.render

/- What an argument belongs to. -/
def argumentOwner?
    (parent : Option TypeDefinition)
    (field : Option FieldDefinition)
    (directive : Option DirectiveDefinition) :
    Option String :=
  match directive, parent, field with
  | some d, _, _ => some ("@" ++ d.name)
  | none, some p, some f => some (p.name ++ "." ++ f.name)
  | none, _, _ => none

/-
  The signature and documentation of an entity, if all that
  they mention is there.
-/
def sections? :
    Entity → Option (String × String)
  | .field (some p) (some f) =>
      some
        (fieldSignature p f,
          documentation f.description f.directives)
  | .argument p f d (some a) =>
      (argumentOwner? p f d).map fun owner =>
        (owner ++ "(" ++ a.name ++ ": " ++
            a.type.render ++ ")",
          documentation a.description a.directives)
  | .directive (some d) =>
      some ("@" ++ d.name, d.description)
  | .enumValue (some e) (some v) =>
      some
        (e.name ++ "." ++ v.name,
          documentation v.description v.directives)
  | .type _ (some p) (some f) =>
      some (fieldSignature p f, "")
  | .type (some t) _ _ => some (t.name, t.description)
  | .variableType (some t) => some (t.render, "")
  | _ => none

/- The text of an entity, empty if there is none. -/
def content
    (entity : Option Entity) : String :=
  match entity.bind sections? with
  | some (signature, documentation) =>
      Content.join signature documentation
  | none => ""

end Entity

end QueryHover
