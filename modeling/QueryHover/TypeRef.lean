import QueryHover.Node.Basic

/-
  Type references.

  A type reference names a type, or is a list of one; either
  may be marked non-null. In a tree it is written at a node:
  type nodes stand for themselves, a variable definition for
  the type it declares.

  Key definitions include:
    * `TypeRef`
    * `TypeRef.render`
    * `TypeRef.baseName`
    * `Node.typeRef?`
-/

namespace QueryHover

/- A named type or a list of types, possibly non-null. -/
inductive TypeRef where
  | named (name : String) (nonNull : Bool)
  | list (element : TypeRef) (nonNull : Bool)
deriving DecidableEq, Repr, Inhabited

namespace TypeRef

/- The reference marked non-null. -/
def required :
    TypeRef → TypeRef
  | named name _ => named name true
  | list element _ => list element true

/- Whether the reference is marked non-null. -/
def isRequired :
    TypeRef → Bool
  | named _ nonNull => nonNull
  | list _ nonNull => nonNull

/- The type of the elements of a list. -/
def element? :
    TypeRef → Option TypeRef
  | named _ _ => none
  | list element _ => some element

/- The name under all wrappers. -/
def baseName :
    TypeRef → String
  | named name _ => name
  | list element _ => element.baseName

/- The mark of a non-null type. -/
def mark
    (nonNull : Bool) : String :=
  if nonNull then "!" else ""

/- The reference as it is written. -/
def render :
    TypeRef → String
  | named name nonNull => name ++ mark nonNull
  | list element nonNull =>
      "[" ++ element.render ++ "]" ++ mark nonNull

end TypeRef

------------------------------------------------------------
-- References Written at Nodes
------------------------------------------------------------

namespace Node

mutual

/- The type reference written at a node. -/
def typeRef? :
    Node → Option TypeRef
  | ⟨.namedType, _, name, _, _, _, _⟩ =>
      some (.named name false)
  | ⟨.listType, _, _, _, _, _, children⟩ =>
      (headTypeRef? children).map (.list · false)
  | ⟨.nonNullType, _, _, _, _, _, children⟩ =>
      (headTypeRef? children).map TypeRef.required
  | ⟨.variableDefinition, _, _, _, _, _, children⟩ =>
      firstTypeRef? children
  | _ => none

/- The reference written at the first node. -/
def headTypeRef? :
    List Node → Option TypeRef
  | [] => none
  | n :: _ => typeRef? n

/- The first reference written at any of the nodes. -/
def firstTypeRef? :
    List Node → Option TypeRef
  | [] => none
  | n :: ns =>
      match typeRef? n with
      | some type => some type
      | none => firstTypeRef? ns

end

end Node

end QueryHover
