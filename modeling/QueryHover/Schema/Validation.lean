import QueryHover.Schema.SchemaError

/-
  The rules that the definitions of a schema obey.

  A check either passes or fails with the first violation in
  a fixed order: types in the order of their names, then
  directives in the order of theirs.

  Key definitions include:
    * `Validation.checkUses`
    * `Validation.checkImplements`
    * `Validation.checkType`
    * `Validation.checkSchema`
-/

namespace QueryHover

namespace Validation

/- The outcome of checking a rule. -/
abbrev Check :=
  Except SchemaError Unit

/- Fail with a cause at a location. -/
def fail
    (location : Location)
    (cause : SchemaError.Cause) : Check :=
  throw { cause, location }

/- Fail unless a condition holds. -/
def require
    (condition : Bool)
    (location : Location)
    (cause : SchemaError.Cause) : Check :=
  if condition then pure () else fail location cause

------------------------------------------------------------
-- Names and Directives
------------------------------------------------------------

/- Names that start with two underscores are reserved. -/
def checkName
    (location : Location)
    (name : String) : Check :=
  require (!("__".toList.isPrefixOf name.toList)) location
    (.reservedName name)

/-
  A required argument of a directive must be given and must
  not be null.
-/
def checkGiven
    (use : DirectiveUse)
    (declared : ArgumentDefinition) : Check :=
  let given :=
    use.arguments.find? fun a => a.name = declared.name
  let missing :=
    match given with
    | none => true
    | some a => a.value = some .null
  require
    (!(declared.type.isRequired &&
      declared.defaultValue.isNone && missing))
    use.location (.nullArgument use.name declared.name)

/- One use of a directive, perhaps in a directive's own
  definition. -/
def checkUse
    (schema : Schema)
    (place : DirectiveLocation)
    (current : Option String)
    (use : DirectiveUse) : Check := do
  checkName use.location use.name
  require (current ≠ some use.name) use.location
    (.selfReference use.name)
  match schema.directive? use.name with
  | none => fail use.location (.undefinedDirective use.name)
  | some definition =>
      require (definition.places.contains place)
        use.location (.misplacedDirective use.name place)
      use.arguments.forM fun a =>
        require (definition.argument? a.name).isSome
          a.location (.undefinedArgument use.name a.name)
      definition.arguments.forM (checkGiven use)

/- Several uses of directives. -/
def checkUses
    (schema : Schema)
    (place : DirectiveLocation)
    (current : Option String)
    (uses : List DirectiveUse) : Check :=
  uses.forM (checkUse schema place current)

------------------------------------------------------------
-- Members of a Type
------------------------------------------------------------

/- The type that a reference names must exist. -/
def checkTypeRef
    (schema : Schema)
    (location : Location)
    (type : TypeRef) : Check :=
  require (schema.type? type.baseName).isSome location
    (.undefinedType type.baseName)

/- An argument of a field or of the current directive. -/
def checkArgument
    (schema : Schema)
    (current : Option String)
    (a : ArgumentDefinition) : Check := do
  checkName a.location a.name
  checkTypeRef schema a.typeLocation a.type
  match schema.type? a.type.baseName with
  | none => pure ()
  | some t =>
      require t.kind.isInput a.location
        (.outputAsArgument a.type a.name t.kind)
  checkUses schema .argumentDefinition current a.directives

/- A field of a type. -/
def checkField
    (schema : Schema)
    (t : TypeDefinition)
    (f : FieldDefinition) : Check := do
  checkName f.location f.name
  checkTypeRef schema f.typeLocation f.type
  f.arguments.forM (checkArgument schema none)
  let place :=
    if t.kind = .inputObject then
      DirectiveLocation.inputFieldDefinition
    else
      DirectiveLocation.fieldDefinition
  checkUses schema place none f.directives

/- A member of a union must be an object type. -/
def checkMember
    (schema : Schema)
    (t : TypeDefinition)
    (member : String) : Check :=
  match schema.type? member with
  | none => fail t.location (.undefinedMember member)
  | some m =>
      require (m.kind = .object) t.location
        (.memberNotObject member)

------------------------------------------------------------
-- Interfaces
------------------------------------------------------------

/- Whether values of one type may be of the other. -/
def isPossible
    (schema : Schema)
    (general special : String) : Bool :=
  let byUnion :=
    match schema.type? general with
    | some t => t.kind = .union && t.members.contains special
    | none => false
  let byInterface :=
    match schema.type? special with
    | some t =>
        (t.kind = .object || t.kind = .interface) &&
          t.interfaces.contains general
    | none => false
  byUnion || byInterface

/- Whether a field's type is as special as required. -/
def isCovariant
    (schema : Schema) :
    TypeRef → TypeRef → Bool
  | .named general nonNull, .named special given =>
      (!nonNull || given) &&
        (general = special ||
          isPossible schema general special)
  | .list general nonNull, .list special given =>
      (!nonNull || given) &&
        isCovariant schema general special
  | _, _ => false

/- Whether an argument takes all that is required. -/
def isCompatible :
    TypeRef → TypeRef → Bool
  | .named required nonNull, .named found given =>
      required = found && (!given || nonNull)
  | .list required nonNull, .list found given =>
      isCompatible required found && (!given || nonNull)
  | _, _ => false

/- A field of an interface, as a type implements it. -/
def checkInterfaceField
    (schema : Schema)
    (t interface : TypeDefinition)
    (required : FieldDefinition) : Check := do
  match t.field? required.name with
  | none =>
      fail t.location
        (.missingField t.name interface.name required.name)
  | some found =>
      require
        (isCovariant schema required.type found.type)
        found.location
        (.fieldType t.name interface.name required.name
          required.type)
      required.arguments.forM fun a =>
        match found.argument? a.name with
        | none =>
            fail found.location
              (.missingArgument t.name interface.name
                required.name a.name)
        | some b =>
            require (isCompatible a.type b.type) b.location
              (.argumentType t.name interface.name
                required.name a.name)
      found.arguments.forM fun b =>
        require
          ((required.argument? b.name).isSome ||
            !b.type.isRequired || b.defaultValue.isSome)
          b.location
          (.extraArgument t.name interface.name
            required.name b.name)

/- An interface that a type says it implements. -/
def checkImplements
    (schema : Schema)
    (t : TypeDefinition)
    (name : String) : Check := do
  match schema.type? name with
  | none => fail t.location (.undefinedMember name)
  | some interface =>
      require (interface.kind = .interface) t.location
        (.notInterface name interface.kind)
      interface.fields.forM
        (checkInterfaceField schema t interface)
      interface.interfaces.forM fun other =>
        if t.interfaces.contains other then
          pure ()
        else if other = t.name then
          fail t.location (.circularInterface t.name name)
        else
          fail t.location
            (.missingInterface t.name other name)

------------------------------------------------------------
-- Types
------------------------------------------------------------

/- A field that takes or yields the wrong kind of type. -/
def checkFieldKind
    (schema : Schema)
    (t : TypeDefinition)
    (f : FieldDefinition) : Check :=
  match schema.type? f.type.baseName with
  | none => pure ()
  | some type =>
      if t.kind = .inputObject then
        require type.kind.isInput f.location
          (.outputAsInputField type.kind f.name)
      else
        require (type.kind ≠ .inputObject) f.location
          (.inputAsField t.kind t.name)

/- The words that are values of other kinds. -/
def nonEnumWords : List String :=
  ["true", "false", "null"]

/- A value of an enum. -/
def checkEnumValue
    (schema : Schema)
    (t : TypeDefinition)
    (v : EnumValueDefinition) : Check := do
  require (!nonEnumWords.contains v.name) t.location
    (.nonEnumValue t.name v.name)
  checkUses schema .enumValue none v.directives

/- What a type of each kind must consist of. -/
def checkContents
    (schema : Schema)
    (t : TypeDefinition) : Check := do
  match t.kind with
  | .object | .interface =>
      require (!t.fields.isEmpty) t.location
        (.noFields t.kind t.name)
      t.fields.forM (checkFieldKind schema t)
  | .enum =>
      require (!t.values.isEmpty) t.location
        (.noValues t.name)
      t.values.forM (checkEnumValue schema t)
  | .inputObject =>
      require (!t.fields.isEmpty) t.location
        (.noInputFields t.name)
      t.fields.forM (checkFieldKind schema t)
  | .scalar | .union => pure ()

/- No name stands for two fields. -/
def checkDistinct
    (t : TypeDefinition) :
    List FieldDefinition → Check
  | [] => pure ()
  | f :: fs => do
      match fs.find? fun g => g.name = f.name with
      | some g =>
          fail g.location (.repeatedField t.name g.name)
      | none => checkDistinct t fs

/- A type and all that belongs to it. -/
def checkType
    (schema : Schema)
    (t : TypeDefinition) : Check := do
  t.fields.forM (checkField schema t)
  t.members.forM (checkMember schema t)
  t.interfaces.forM (checkImplements schema t)
  checkContents schema t
  checkDistinct t t.fields
  if !t.isBuiltIn then
    checkName t.location t.name
  checkUses schema (.ofKind t.kind) none t.directives

/- A directive and its arguments. -/
def checkDirective
    (schema : Schema)
    (d : DirectiveDefinition) : Check := do
  checkName d.location d.name
  d.arguments.forM (checkArgument schema (some d.name))

/- Put an item before the first one with no lesser name. -/
def insertByName
    {α : Type}
    (name : α → String)
    (a : α) :
    List α → List α
  | [] => [a]
  | b :: bs =>
      if name b < name a then
        b :: insertByName name a bs
      else
        a :: b :: bs

/- Order by name. -/
def sortByName
    {α : Type}
    (name : α → String)
    (items : List α) : List α :=
  items.foldr (insertByName name) []

/- A schema whose names are all resolved. -/
def checkSchema
    (schema : Schema) : Check := do
  (sortByName TypeDefinition.name schema.types).forM
    (checkType schema)
  (sortByName DirectiveDefinition.name
    schema.directives).forM (checkDirective schema)

end Validation

end QueryHover
