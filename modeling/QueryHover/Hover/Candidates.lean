import QueryHover.Hover.Context
import QueryHover.Text.EditDistance

/-
  Candidates: the names that could stand at a leaf.

  Fields, directives and arguments are looked up in what the
  context around them knows. Where a leaf's own name is not
  found, the closest candidate is offered in its place.

  Key definitions include:
    * `candidates?`
    * `isKnown`
    * `suggestion?`
-/

namespace QueryHover

/- The context around the leaf of a chain. -/
def Context.around
    (schema : Schema)
    (chain : Chain) : Context :=
  Context.along schema chain.dropLast

/-
  The names that could stand at the leaf of a chain, in no
  particular order; none if nothing is known to look it up
  in.
-/
def Context.names?
    (schema : Schema)
    (chain : Chain) : Option (List String) := do
  let leaf ← chain.leaf?
  let c := Context.around schema chain
  match leaf.kind with
  | .field =>
      let t ← c.composite
      pure
        (typenameField.name ::
          t.fields.map FieldDefinition.name)
  | .directive =>
      pure (schema.directives.map DirectiveDefinition.name)
  | .argument =>
      let parent ← Chain.leaf? chain.dropLast
      if parent.kind = .directive then
        let d ← c.directive
        pure (d.arguments.map ArgumentDefinition.name)
      else
        let f ← c.field
        pure (f.arguments.map ArgumentDefinition.name)
  | _ => none

/- Texts in ascending order. -/
def sortTexts
    (texts : List String) : List String :=
  texts.mergeSort fun a b => !(decide (b < a))

/- The names that could stand at a leaf, in order. -/
def candidates?
    (schema : Option Schema)
    (chain : Chain) : Option (List String) := do
  let schema ← schema
  let names ← Context.names? schema chain
  pure (sortTexts names)

/- Nothing speaks against the leaf's own name. -/
def isKnown
    (schema : Option Schema)
    (chain : Chain) : Bool :=
  match candidates? schema chain, chain.leaf? with
  | some names, some leaf => names.contains leaf.name
  | _, _ => true

/- The name to offer in place of one that is not known. -/
def correction?
    (schema : Option Schema)
    (chain : Chain) : Option String := do
  let names ← candidates? schema chain
  let leaf ← chain.leaf?
  if names.contains leaf.name then
    none
  else
    Text.closest? leaf.name names

/- The hint that goes with a name that is not known. -/
def suggestion?
    (schema : Option Schema)
    (chain : Chain) : Option String := do
  let name ← correction? schema chain
  if name = "" then
    none
  else
    pure ("did you mean `" ++ name ++ "`?")

end QueryHover
