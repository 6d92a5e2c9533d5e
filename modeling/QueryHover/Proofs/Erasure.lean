import Mathlib.Tactic.SplitIfs
import QueryHover.Hover.Context

/-
  Trees without their places.

  What a hover describes is a matter of the kinds, names and
  children along a chain. The places of the nodes may be
  erased first.

  Main declarations:
    * `Node.erase`
    * `Context.enter_erase`
    * `annotate?_erase`
-/

namespace QueryHover

------------------------------------------------------------
-- Erasing Places
------------------------------------------------------------

namespace Node

mutual

/- A tree in which no node has a place. -/
def erase :
    Node → Node
  | ⟨kind, _, name, _, aliasName, operation, children⟩ =>
      { kind, name, aliasName, operation
        children := eraseAll children }

/- Trees in which no node has a place. -/
def eraseAll :
    List Node → List Node
  | [] => []
  | n :: ns => erase n :: eraseAll ns

end

theorem eraseAll_eq_map
    (ns : List Node) :
    eraseAll ns = ns.map erase := by
  induction ns with
  | nil => rfl
  | cons n ns ih => rw [eraseAll, ih, List.map_cons]

@[simp]
theorem erase_kind
    (n : Node) :
    n.erase.kind = n.kind := by
  cases n
  rw [erase]

@[simp]
theorem erase_name
    (n : Node) :
    n.erase.name = n.name := by
  cases n
  rw [erase]

@[simp]
theorem erase_operation
    (n : Node) :
    n.erase.operation = n.operation := by
  cases n
  rw [erase]

@[simp]
theorem erase_children
    (n : Node) :
    n.erase.children = n.children.map erase := by
  cases n
  rw [erase, eraseAll_eq_map]

/- Trees that agree but for places look alike when erased. -/
theorem erase_eq_iff
    {n m : Node} :
    m.erase = n.erase ↔
      m.kind = n.kind ∧ m.name = n.name ∧
        m.aliasName = n.aliasName ∧
        m.operation = n.operation ∧
        m.children.map erase = n.children.map erase := by
  cases n
  cases m
  simp [erase, eraseAll_eq_map]

/- A child is found by its kind and its name. -/
theorem find?_erase
    {p : Node → Bool}
    (hErase : ∀ c : Node, p c.erase = p c)
    (ns : List Node) :
    (ns.map erase).find? p = (ns.find? p).map erase := by
  have hSame : p ∘ erase = p := funext hErase
  rw [List.find?_map, hSame]

theorem childOfKind?_erase
    (n : Node)
    (kind : Node.Kind) :
    n.erase.childOfKind? kind =
      (n.childOfKind? kind).map erase := by
  unfold childOfKind?
  rw [erase_children]
  exact find?_erase (fun c => by simp) n.children

theorem childNamed?_erase
    (n : Node)
    (kind : Node.Kind)
    (name : String) :
    n.erase.childNamed? kind name =
      (n.childNamed? kind name).map erase := by
  unfold childNamed?
  rw [erase_children]
  exact find?_erase (fun c => by simp) n.children

mutual

/- So is the type written at a node. -/
theorem typeRef?_erase
    (n : Node) :
    n.erase.typeRef? = n.typeRef? := by
  cases n with
  | mk kind span name nameSpan aliasName operation children =>
      have hHead := headTypeRef?_eraseAll children
      have hFirst := firstTypeRef?_eraseAll children
      rw [erase]
      cases kind
      all_goals simp only [typeRef?, hHead, hFirst]

theorem headTypeRef?_eraseAll
    (ns : List Node) :
    headTypeRef? (eraseAll ns) = headTypeRef? ns := by
  cases ns with
  | nil => rfl
  | cons n ns =>
      rw [eraseAll, headTypeRef?, headTypeRef?,
        typeRef?_erase n]

theorem firstTypeRef?_eraseAll
    (ns : List Node) :
    firstTypeRef? (eraseAll ns) = firstTypeRef? ns := by
  cases ns with
  | nil => rfl
  | cons n ns =>
      rw [eraseAll, firstTypeRef?, firstTypeRef?,
        typeRef?_erase n, firstTypeRef?_eraseAll ns]

end

end Node

------------------------------------------------------------
-- Contexts of Erased Chains
------------------------------------------------------------

namespace Context

/- A context whose nodes have no places. -/
def erase
    (c : Context) : Context :=
  { c with
    document := c.document.map Node.erase
    definition := c.definition.map Node.erase }

variable (schema : Schema)

theorem enterField_erase
    (n : Node)
    (c : Context) :
    c.erase.enterField schema n.erase =
      (c.enterField schema n).erase := by
  unfold enterField
  have hField :
      c.erase.lookupField? n.erase.name =
        c.lookupField? n.name := by
    rw [Node.erase_name]
    rfl
  rw [hField]
  cases c.lookupField? n.name with
  | none => rfl
  | some f => rfl

theorem enterArgument_erase
    (parent : Option Node)
    (n : Node)
    (c : Context) :
    c.erase.enterArgument (parent.map Node.erase) n.erase =
      (c.enterArgument parent n).erase := by
  have hParent :
      (parent.map Node.erase).any
          (fun p => p.kind = .directive) =
        parent.any (fun p => p.kind = .directive) := by
    cases parent with
    | none => rfl
    | some p => simp
  unfold enterArgument
  rw [hParent, Node.erase_name]
  rfl

/- The declaration of a variable, found without places. -/
theorem variableType_erase
    (definition : Option Node)
    (name : String) :
    ((definition.map Node.erase).bind fun d =>
        d.variableNamed? name).bind Node.typeRef? =
      (definition.bind fun d =>
        d.variableNamed? name).bind Node.typeRef? := by
  cases definition with
  | none => rfl
  | some d =>
      simp only [Option.map_some, Option.bind_some,
        Node.variableNamed?, Node.childNamed?_erase]
      cases d.childNamed? .variableDefinition name with
      | none => rfl
      | some v => exact v.typeRef?_erase

/- The type condition of a fragment, found without places. -/
theorem condition_erase
    {α : Type}
    (n : Node)
    (f : String → Option α) :
    ((n.erase.childOfKind? .namedType).bind fun condition =>
        f condition.name) =
      (n.childOfKind? .namedType).bind fun condition =>
        f condition.name := by
  rw [Node.childOfKind?_erase]
  cases n.childOfKind? .namedType with
  | none => rfl
  | some condition => simp

/- Entering a node does not depend on places. -/
theorem enter_erase
    (parent : Option Node)
    (n : Node)
    (c : Context) :
    c.erase.enter schema (parent.map Node.erase) n.erase =
      (c.enter schema parent n).erase := by
  unfold enter
  rw [Node.erase_kind]
  cases n.kind
  case operationDefinition =>
    dsimp only
    rw [Node.erase_operation]
    rfl
  case fragmentDefinition =>
    dsimp only
    rw [condition_erase]
    rfl
  case inlineFragment =>
    dsimp only
    rw [Node.erase_name]
    split_ifs
    · rfl
    · rfl
  case field => exact enterField_erase schema n c
  case argument => exact enterArgument_erase parent n c
  case variableDefinition =>
    dsimp only
    rw [Node.typeRef?_erase]
    rfl
  case variableUse =>
    dsimp only
    rw [Node.erase_name]
    have hType := variableType_erase c.definition n.name
    simp only [erase, hType]
  case directive | namedType | objectField | enumValue =>
    dsimp only [enterObjectField, enterEnumValue]
    rw [Node.erase_name]
    rfl
  all_goals rfl

/- Nor does the context at the end of a chain. -/
theorem alongFrom_erase
    (parent : Option Node)
    (c : Context)
    (chain : Chain) :
    alongFrom schema (parent.map Node.erase) c.erase
        (chain.map Node.erase) =
      (alongFrom schema parent c chain).erase := by
  induction chain generalizing parent c with
  | nil => rfl
  | cons n chain ih =>
      rw [List.map_cons, alongFrom, alongFrom, enter_erase]
      exact ih (some n) (c.enter schema parent n)

theorem spreadEntity?_erase
    (c : Context)
    (name : String) :
    c.erase.spreadEntity? schema name =
      c.spreadEntity? schema name := by
  unfold spreadEntity? erase
  cases c.document with
  | none => rfl
  | some document =>
      simp only [Option.map_some, Option.bind_eq_bind,
        Option.bind_some, Node.fragmentNamed?,
        Node.childNamed?_erase]
      cases document.childNamed? .fragmentDefinition name with
      | none => rfl
      | some fragment =>
          exact condition_erase fragment fun name =>
            (schema.type? name).bind fun t =>
              some (Entity.type (some t) none none)

/- The entity of a leaf does not depend on places. -/
theorem entity?_erase
    (c : Context)
    (leaf : Node) :
    c.erase.entity? schema leaf.erase =
      c.entity? schema leaf := by
  unfold entity?
  rw [Node.erase_kind]
  cases leaf.kind
  case fragmentSpread =>
    dsimp only
    rw [Node.erase_name]
    exact spreadEntity?_erase schema c leaf.name
  all_goals rfl

end Context

/- What a hover describes does not depend on places. -/
theorem annotate?_erase
    (schema : Option Schema)
    (chain : Chain) :
    annotate? schema (chain.map Node.erase) =
      annotate? schema chain := by
  cases schema with
  | none => rfl
  | some schema =>
      have hAlong :
          Context.along schema (chain.map Node.erase) =
            (Context.along schema chain).erase :=
        Context.alongFrom_erase schema none {} chain
      unfold annotate? Chain.leaf?
      rw [List.getLast?_map]
      cases hLeaf : chain.getLast? with
      | none => rfl
      | some leaf =>
          simp only [Option.bind_eq_bind, Option.bind_some,
            Option.map_some, hAlong]
          exact Context.entity?_erase schema _ leaf

end QueryHover
