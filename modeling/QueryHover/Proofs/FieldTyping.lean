import QueryHover.Hover.Context
import QueryHover.Proofs.Innermost
import QueryHover.Proofs.Naming

/-
  The types that fields are selected from.

  The context type of a field is fixed by the nodes around
  it: the definition or the nearest fragment with a type
  condition gives the type to start with, and every field
  below that leads to the type it yields. A field is described
  through its context type, and nothing else matters.

  The nodes around a node are listed from the innermost to
  the outermost, so that a definition by recursion on them
  starts at the node itself.

  Main declarations:
    * `Schema.contextType?`
    * `Schema.fieldAt?`
    * `Node.turns`
    * `Context.along_composite`
    * `annotate?_resolve_field`
-/

namespace QueryHover

------------------------------------------------------------
-- Context Types
------------------------------------------------------------

/- The field that a selection from a type finds. -/
def TypeDefinition.selected?
    (t : TypeDefinition)
    (name : String) : Option FieldDefinition :=
  if name = typenameField.name then
    some typenameField
  else
    t.field? name

/-
  The type that selections are made from below some nodes.
  An inline fragment without a type condition changes
  nothing, nor does any node that is not mentioned.
-/
def Schema.contextType?
    (schema : Schema) :
    List Node → Option TypeDefinition
  | [] => none
  | n :: outer =>
      match n.kind with
      | .document => none
      | .operationDefinition =>
          schema.root? (n.operation.getD .query)
      | .fragmentDefinition =>
          (n.childOfKind? .namedType).bind fun condition =>
            schema.composite? condition.name
      | .inlineFragment =>
          match n.childOfKind? .namedType with
          | some condition => schema.composite? condition.name
          | none => schema.contextType? outer
      | .field =>
          ((schema.contextType? outer).bind fun t =>
            t.selected? n.name).bind fun f =>
              schema.composite? f.type.baseName
      | _ => schema.contextType? outer

/- The definition of a field, with the type it belongs to. -/
def Schema.fieldAt?
    (schema : Schema)
    (name : String)
    (outer : List Node) :
    Option (TypeDefinition × FieldDefinition) :=
  (schema.contextType? outer).bind fun t =>
    (t.selected? name).map fun f => (t, f)

------------------------------------------------------------
-- Contexts From the Inside
------------------------------------------------------------

namespace Context

variable {schema : Schema}

theorem alongFrom_concat
    (parent : Option Node)
    (c : Context)
    (chain : Chain)
    (n : Node) :
    alongFrom schema parent c (chain ++ [n]) =
      (alongFrom schema parent c chain).enter schema
        (chain.getLast?.or parent) n := by
  induction chain generalizing parent c with
  | nil => rfl
  | cons m chain ih =>
      have hLast :
          (m :: chain).getLast?.or parent =
            chain.getLast?.or (some m) := by
        rw [List.getLast?_cons]
        cases chain.getLast? with
        | none => rfl
        | some l => rfl
      rw [hLast]
      exact ih (some m) (c.enter schema parent m)

/- The innermost node is entered last. -/
theorem along_reverse_cons
    (n : Node)
    (outer : List Node) :
    along schema (n :: outer).reverse =
      (along schema outer.reverse).enter schema outer.head?
        n := by
  rw [List.reverse_cons]
  unfold along
  rw [alongFrom_concat, List.getLast?_reverse, Option.or_none]

theorem lookupField?_eq
    (c : Context)
    (name : String) :
    c.lookupField? name =
      c.composite.bind fun t => t.selected? name := by
  unfold lookupField?
  cases c.composite with
  | none => rfl
  | some t => rfl

/- Below a field, selections are made from what it yields. -/
theorem enterField_composite
    (c : Context)
    (n : Node) :
    (c.enterField schema n).composite =
      (c.composite.bind fun t => t.selected? n.name).bind
        fun f => schema.composite? f.type.baseName := by
  unfold enterField
  rw [← lookupField?_eq]
  cases c.lookupField? n.name with
  | none => rfl
  | some f => rfl

/- A context knows the type that selections are made from. -/
theorem along_composite
    {ancestors : List Node}
    (h : ∀ n ∈ ancestors, n.WellNamed) :
    (along schema ancestors.reverse).composite =
      schema.contextType? ancestors := by
  induction ancestors with
  | nil => rfl
  | cons n outer ih =>
      rw [List.forall_mem_cons] at h
      have hOuter := ih h.2
      rw [along_reverse_cons, Schema.contextType?]
      generalize along schema outer.reverse = c at hOuter ⊢
      unfold enter
      cases hKind : n.kind
      case document => rfl
      case operationDefinition => rfl
      case fragmentDefinition => rfl
      case inlineFragment =>
        dsimp only
        cases hCondition : n.childOfKind? .namedType with
        | none =>
            have hName :=
              (h.1.name_eq_empty_iff hKind).mpr hCondition
            rw [if_pos hName]
            exact hOuter
        | some condition =>
            have hName := h.1.name_eq_condition hKind hCondition
            have hSome := h.1.condition_name_ne_empty hCondition
            rw [hName, if_neg hSome]
      case field =>
        rw [← hOuter]
        exact enterField_composite c n
      all_goals exact hOuter

end Context

------------------------------------------------------------
-- The Turns That Matter
------------------------------------------------------------

/- What changes the type that selections are made from. -/
inductive Turn where
  | operation (type : Operation)
  | condition (name : String)
  | field (name : String)
deriving DecidableEq, Repr

/-
  The turns around a node, from the innermost outwards and
  no farther than the first that settles the type.
-/
def Node.turns :
    List Node → List Turn
  | [] => []
  | n :: outer =>
      match n.kind with
      | .document => []
      | .operationDefinition =>
          [.operation (n.operation.getD .query)]
      | .fragmentDefinition =>
          ((n.childOfKind? .namedType).map fun condition =>
            .condition condition.name).toList
      | .inlineFragment =>
          match n.childOfKind? .namedType with
          | some condition => [.condition condition.name]
          | none => turns outer
      | .field => .field n.name :: turns outer
      | _ => turns outer

namespace Schema

/- The type that some turns lead to. -/
def turnType?
    (schema : Schema) :
    List Turn → Option TypeDefinition
  | [] => none
  | .operation type :: _ => schema.root? type
  | .condition name :: _ => schema.composite? name
  | .field name :: turns =>
      ((schema.turnType? turns).bind fun t =>
        t.selected? name).bind fun f =>
          schema.composite? f.type.baseName

/- The context type depends on the turns alone. -/
theorem contextType?_eq_turnType?
    (schema : Schema)
    (ancestors : List Node) :
    schema.contextType? ancestors =
      schema.turnType? (Node.turns ancestors) := by
  induction ancestors with
  | nil => rfl
  | cons n outer ih =>
      rw [contextType?, Node.turns]
      cases n.kind
      case document => rfl
      case operationDefinition => rfl
      case fragmentDefinition =>
        cases n.childOfKind? .namedType with
        | none => rfl
        | some condition => rfl
      case inlineFragment =>
        cases n.childOfKind? .namedType with
        | none => exact ih
        | some condition => rfl
      case field =>
        dsimp only [turnType?]
        rw [ih]
      all_goals exact ih

end Schema

------------------------------------------------------------
-- Fields
------------------------------------------------------------

/- What is described at the end of a chain. -/
theorem annotate?_reverse_cons
    (schema : Schema)
    (leaf : Node)
    (ancestors : List Node) :
    annotate? (some schema) (leaf :: ancestors).reverse =
      ((Context.along schema ancestors.reverse).enter schema
        ancestors.head? leaf).entity? schema leaf := by
  have hLeaf :
      Chain.leaf? (leaf :: ancestors).reverse = some leaf := by
    unfold Chain.leaf?
    rw [List.getLast?_reverse, List.head?_cons]
  unfold annotate?
  rw [hLeaf, ← Context.along_reverse_cons]
  rfl

/- After entering a field nothing but the field is known. -/
theorem Context.enterField_nearest?
    (schema : Schema)
    (c : Context)
    (n : Node) :
    (c.enterField schema n).nearest? =
      c.composite.bind fun t =>
        (t.selected? n.name).map fun f =>
          .field (some t) (some f) := by
  unfold enterField
  rw [lookupField?_eq]
  cases hType : c.composite with
  | none => rfl
  | some t =>
      rw [Option.bind_some, Option.bind_some]
      cases t.selected? n.name with
      | none => rfl
      | some f => rfl

/- A field is described through its context type. -/
theorem annotate?_field
    (schema : Schema)
    {leaf : Node}
    {ancestors : List Node}
    (hLeaf : leaf.kind = .field)
    (hNames : ∀ n ∈ ancestors, n.WellNamed) :
    annotate? (some schema) (leaf :: ancestors).reverse =
      (schema.fieldAt? leaf.name ancestors).map fun found =>
        .field (some found.1) (some found.2) := by
  rw [annotate?_reverse_cons]
  unfold Context.entity? Context.enter Schema.fieldAt?
  rw [hLeaf]
  dsimp only
  rw [Context.enterField_nearest?, Context.along_composite hNames,
    Option.map_bind]
  congr 1
  funext t
  rw [Function.comp_apply, Option.map_map]
  rfl

/- The nodes around a node of a text are well named. -/
theorem wellNamed_of_leads
    {text : List Char}
    {root : Node}
    (h : Document.parse text = .ok root)
    {leaf : Node}
    {ancestors : List Node}
    (hChain : root.Leads (leaf :: ancestors).reverse) :
    ∀ n ∈ ancestors, n.WellNamed := by
  intro n hn
  have hMem : n ∈ (leaf :: ancestors).reverse := by
    rw [List.mem_reverse]
    exact List.mem_cons_of_mem leaf hn
  exact (Document.parse_wellNamed h).of_holds
    (hChain.holds hMem)

theorem eq_ok_of_toOption
    {ε α : Type}
    {result : Except ε α}
    {a : α}
    (h : result.toOption = some a) :
    result = .ok a := by
  cases result with
  | error e => cases h
  | ok b =>
      cases h
      rfl

/- What is seen of a leaf and the nodes around it. -/
theorem exists_leaf
    {α : Type}
    (text : List Char)
    (offset : Int)
    (view : Node → List Node → α)
    {a : α}
    (h :
      ((Document.parse text).toOption.bind fun root =>
        (Chain.resolve root offset).reverse.head?.map
          fun leaf =>
            view leaf (Chain.resolve root offset).reverse.tail) =
        some a) :
    ∃ root leaf ancestors,
      Document.parse text = .ok root ∧
        Chain.resolve root offset =
          (leaf :: ancestors).reverse ∧
        view leaf ancestors = a := by
  rcases Option.bind_eq_some_iff.mp h with ⟨root, hRoot, h⟩
  rcases Option.map_eq_some_iff.mp h with ⟨leaf, hLeaf, hView⟩
  refine ⟨root, leaf, _, eq_ok_of_toOption hRoot, ?_, hView⟩
  rw [List.cons_head?_tail hLeaf, List.reverse_reverse]

/-
  Fields are typed exactly. Where the innermost node at an
  offset is a field, it is described as the field of that
  name in its context type, if there are such a type and
  such a field, and not at all otherwise. Two fields of one
  name with the same turns around them are described alike,
  whatever else their documents hold.
-/
theorem annotate?_resolve_field
    {text : List Char}
    {root : Node}
    (h : Document.parse text = .ok root)
    {offset : Int}
    {leaf : Node}
    {ancestors : List Node}
    (hChain :
      Chain.resolve root offset = (leaf :: ancestors).reverse)
    (hLeaf : leaf.kind = .field)
    (schema : Schema) :
    annotate? (some schema) (Chain.resolve root offset) =
        (schema.fieldAt? leaf.name ancestors).map
          (fun found =>
            .field (some found.1) (some found.2)) ∧
      ∀ (text' : List Char) (root' : Node) (offset' : Int)
        (leaf' : Node) (ancestors' : List Node),
        Document.parse text' = .ok root' →
        Chain.resolve root' offset' =
          (leaf' :: ancestors').reverse →
        leaf'.kind = .field →
        leaf'.name = leaf.name →
        Node.turns ancestors' = Node.turns ancestors →
        annotate? (some schema) (Chain.resolve root' offset') =
          annotate? (some schema)
            (Chain.resolve root offset) := by
  have hLeads := Chain.leads_resolve root offset
  rw [hChain] at hLeads
  have hField :=
    annotate?_field schema hLeaf (wellNamed_of_leads h hLeads)
  refine ⟨?_, ?_⟩
  · rw [hChain]
    exact hField
  · intro text' root' offset' leaf' ancestors' h' hChain'
      hLeaf' hName hTurns
    have hLeads' := Chain.leads_resolve root' offset'
    rw [hChain'] at hLeads'
    have hField' := annotate?_field schema hLeaf'
      (wellNamed_of_leads h' hLeads')
    rw [hChain, hChain', hField, hField']
    unfold Schema.fieldAt?
    rw [Schema.contextType?_eq_turnType?,
      Schema.contextType?_eq_turnType?, hName, hTurns]

theorem annotate?_resolve_field_narrowed :
    ∃ (schema : Schema) (t : TypeDefinition)
      (f : FieldDefinition) (root root' : Node),
      schema.composite? "T" = some t ∧
      t.field? "g" = some f ∧
      Document.parse
          "\x7ba:f@skip\x7b...on T\x7b...\x7bg\x7d\x7d\x7d\x7d".toList =
        .ok root ∧
      Document.parse "fragment F on T\x7bb:g(x:1)\x7d".toList =
        .ok root' ∧
      annotate? (some schema) (Chain.resolve root 22) =
        some (.field (some t) (some f)) ∧
      annotate? (some schema) (Chain.resolve root' 18) =
        some (.field (some t) (some f)) := by
  let f : FieldDefinition :=
    { name := "g", type := .named "Int" false }
  let t : TypeDefinition :=
    { kind := .object, name := "T", fields := [f] }
  let schema : Schema := { types := [t] }
  let view (leaf : Node) (ancestors : List Node) :=
    (leaf.kind, leaf.name, Node.turns ancestors)
  have hSeen :=
    exists_leaf
      "\x7ba:f@skip\x7b...on T\x7b...\x7bg\x7d\x7d\x7d\x7d".toList 22
      view (show _ = some (.field, "g", [.condition "T"]) by
        decide +kernel)
  have hSeen' :=
    exists_leaf "fragment F on T\x7bb:g(x:1)\x7d".toList 18
      view (show _ = some (.field, "g", [.condition "T"]) by
        decide +kernel)
  rcases hSeen with ⟨root, leaf, ancestors, h, hChain, hView⟩
  rcases hSeen' with
    ⟨root', leaf', ancestors', h', hChain', hView'⟩
  simp only [view, Prod.mk.injEq] at hView hView'
  have hTyped :=
    annotate?_resolve_field h hChain hView.1 schema
  have hFound :
      schema.fieldAt? leaf.name ancestors = some (t, f) := by
    unfold Schema.fieldAt?
    rw [Schema.contextType?_eq_turnType?, hView.2.1, hView.2.2]
    rfl
  have hSame :=
    hTyped.2 _ root' 18 leaf' ancestors' h' hChain' hView'.1
      (hView'.2.1.trans hView.2.1.symm)
      (hView'.2.2.trans hView.2.2.symm)
  have hEntity := hTyped.1
  rw [hFound] at hEntity
  exact ⟨schema, t, f, root, root', rfl, rfl, h, h', hEntity,
    hSame.trans hEntity⟩

end QueryHover
