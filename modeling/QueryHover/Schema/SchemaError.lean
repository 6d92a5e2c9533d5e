import QueryHover.Grammar.SyntaxError
import QueryHover.Schema.Basic

/-
  Errors of a schema.

  A schema whose declarations follow the grammar may still
  contradict itself. Each cause says what is wrong; its
  wording is in one place.

  Key definitions include:
    * `SchemaError.Cause`
    * `SchemaError`
    * `LoadError`
-/

namespace QueryHover

/- What is wrong with a schema. -/
inductive SchemaError.Cause where
  | redeclaredType (type : String)
  | mismatchedExtension
      (type : String) (base extension : TypeKind)
  | redeclaredDirective (directive : String)
  | severalSchemas
  | missingRoot (operation : Operation) (type : String)
  | reservedName (name : String)
  | undefinedType (type : String)
  | undefinedMember (type : String)
  | memberNotObject (type : String)
  | notInterface (type : String) (kind : TypeKind)
  | missingField (type interface field : String)
  | fieldType
      (type interface field : String) (required : TypeRef)
  | missingArgument
      (type interface field argument : String)
  | argumentType
      (type interface field argument : String)
  | extraArgument
      (type interface field argument : String)
  | circularInterface (type interface : String)
  | missingInterface (type interface through : String)
  | noFields (kind : TypeKind) (type : String)
  | inputAsField (kind : TypeKind) (type : String)
  | noValues (type : String)
  | nonEnumValue (type value : String)
  | noInputFields (type : String)
  | outputAsInputField (kind : TypeKind) (field : String)
  | repeatedField (type field : String)
  | outputAsArgument
      (type : TypeRef) (argument : String) (kind : TypeKind)
  | selfReference (directive : String)
  | undefinedDirective (directive : String)
  | misplacedDirective
      (directive : String) (place : DirectiveLocation)
  | undefinedArgument (directive argument : String)
  | nullArgument (directive argument : String)
deriving DecidableEq, Repr

/- A cause and where it is reported. -/
structure SchemaError where
  cause : SchemaError.Cause
  location : Location
deriving DecidableEq, Repr

namespace SchemaError

/- The common part of what an interface asks of a field. -/
def Cause.interfaceClause
    (type interface : String) : String :=
  "For " ++ type ++ " to implement " ++ interface

/- The wording of a cause. -/
def Cause.message :
    Cause → String
  | redeclaredType type =>
      "Cannot redeclare type " ++ type ++ "."
  | mismatchedExtension type base extension =>
      "Cannot extend type " ++ type ++
        " because the base type is a " ++ base.label ++
        ", not " ++ extension.label ++ "."
  | redeclaredDirective directive =>
      "Cannot redeclare directive " ++ directive ++ "."
  | severalSchemas =>
      "Cannot have multiple schema entry points, " ++
        "consider schema extensions instead."
  | missingRoot operation type =>
      "Schema root " ++ operation.keyword ++
        " refers to a type " ++ type ++
        " that does not exist."
  | reservedName name =>
      "Name \"" ++ name ++
        "\" must not begin with \"__\", " ++
        "which is reserved by GraphQL introspection."
  | undefinedType type => "Undefined type " ++ type ++ "."
  | undefinedMember type =>
      "Undefined type " ++ Text.quote type ++ "."
  | memberNotObject type =>
      "UNION type " ++ Text.quote type ++ " must be OBJECT."
  | notInterface type kind =>
      Text.quote type ++ " is a non interface type " ++
        kind.label ++ "."
  | missingField type interface field =>
      interfaceClause type interface ++
        " it must have a field called " ++ field ++ "."
  | fieldType type interface field required =>
      interfaceClause type interface ++ " the field " ++
        field ++ " must have type " ++ required.render ++ "."
  | missingArgument type interface field argument =>
      interfaceClause type interface ++ " the field " ++
        field ++ " must have the same arguments " ++
        "but it is missing " ++ argument ++ "."
  | argumentType type interface field argument =>
      interfaceClause type interface ++ " the field " ++
        field ++ " must have the same arguments " ++
        "but " ++ argument ++ " has the wrong type."
  | extraArgument type interface field argument =>
      interfaceClause type interface ++
        " any additional arguments on " ++ field ++
        " must be optional or have a default value but " ++
        argument ++ " is required."
  | circularInterface type interface =>
      "Type " ++ type ++ " cannot implement " ++ interface ++
        " because it would create a circular reference."
  | missingInterface type interface through =>
      "Type " ++ type ++ " must implement " ++ interface ++
        " because it is implemented by " ++ through ++ "."
  | noFields kind type =>
      kind.label ++ " " ++ type ++
        ": must define one or more fields."
  | inputAsField kind type =>
      kind.label ++ " " ++ type ++
        ": field must be one of " ++
        "SCALAR, OBJECT, INTERFACE, UNION, ENUM."
  | noValues type =>
      "ENUM " ++ type ++
        ": must define one or more unique enum values."
  | nonEnumValue type value =>
      "ENUM " ++ type ++ ": non-enum value " ++ value ++ "."
  | noInputFields type =>
      "INPUT_OBJECT " ++ type ++
        ": must define one or more input fields."
  | outputAsInputField kind field =>
      kind.label ++ " " ++ field ++
        ": field must be one of SCALAR, ENUM, INPUT_OBJECT."
  | repeatedField type field =>
      "Field " ++ type ++ "." ++ field ++
        " can only be defined once."
  | outputAsArgument type argument kind =>
      "cannot use " ++ type.render ++ " as argument " ++
        argument ++ " because " ++ kind.label ++
        " is not a valid input type"
  | selfReference directive =>
      "Directive " ++ directive ++ " cannot refer to itself."
  | undefinedDirective directive =>
      "Undefined directive " ++ directive ++ "."
  | misplacedDirective directive place =>
      "Directive " ++ directive ++ " is not applicable on " ++
        place.label ++ "."
  | undefinedArgument directive argument =>
      "Undefined argument " ++ argument ++
        " for directive " ++ directive ++ "."
  | nullArgument directive argument =>
      "Argument " ++ argument ++ " for directive " ++
        directive ++ " cannot be null."

end SchemaError

/- Why a schema text cannot be used. -/
inductive LoadError where
  | grammar (e : SyntaxError)
  | schema (e : SchemaError)
deriving DecidableEq, Repr

namespace LoadError

/- The wording of an error. -/
def message :
    LoadError → String
  | grammar e => e.message
  | schema e => e.cause.message

/- Where an error is reported. -/
def location :
    LoadError → Location
  | grammar e => e.location
  | schema e => e.location

end LoadError

end QueryHover
