import QueryHover.Proofs.ValueTyping
import QueryHover.Proofs.Variables

/-
  What is around a node.

  The grammar fixes which kinds of nodes may stand around a
  node of some kind, and with that what its context knows.
  Outside of values and directives a context is plain. Type
  names, enum values and variables are leaves, so that their
  surroundings know of none; but a variable definition is
  around the variable that it declares.

  Main declarations:
    * `Node.Kind.parentKinds`
    * `Context.along_plain`
    * `annotate?_eq_nearest?`
    * `Node.definition?`
    * `owner_of_variableUse`
-/

namespace QueryHover

------------------------------------------------------------
-- Kinds of Parents
------------------------------------------------------------

namespace Node

/- Nodes outside of values, directives and variables. -/
def Kind.plain : List Node.Kind :=
  [ .document, .operationDefinition, .fragmentDefinition,
    .selectionSet, .field, .fragmentSpread, .inlineFragment ]

/- Nodes that describe themselves where they can. -/
def Kind.selfDescribed : List Node.Kind :=
  [.variableUse, .namedType, .fragmentSpread]

/- The kinds that may have nodes of a kind below them. -/
def Kind.parentKinds
    (kind : Node.Kind) : List Node.Kind :=
  let parents : List Node.Kind :=
    .directive :: .listType :: .nonNullType ::
      (Kind.plain ++ Kind.owners ++ Kind.inner)
  parents.filter fun parent => kind ∈ parent.childKinds

theorem Kind.mem_parentKinds
    {kind parent : Node.Kind}
    (h : kind ∈ parent.childKinds) :
    parent ∈ kind.parentKinds := by
  refine List.mem_filter.mpr ⟨?_, decide_eq_true h⟩
  cases parent
  case unknown | namedType | variableUse | intValue | floatValue
      | stringValue | booleanValue | nullValue | enumValue =>
    cases h
  all_goals decide

theorem Descends.outer
    {n : Node}
    {outer : List Node}
    (h : Descends (n :: outer)) :
    Descends outer :=
  h.tail

/- The node around another is of a kind that may have it. -/
theorem Descends.head_kind
    {leaf : Node}
    {ancestors : List Node}
    (h : Descends (leaf :: ancestors)) :
    ∀ n ∈ ancestors.head?, n.kind ∈ leaf.kind.parentKinds := by
  intro n hn
  cases ancestors with
  | nil => cases hn
  | cons m outer =>
      cases hn
      exact Kind.mem_parentKinds (List.isChain_cons_cons.mp h).1

end Node

------------------------------------------------------------
-- Plain Contexts
------------------------------------------------------------

namespace Context

variable {schema : Schema}

/- A context with no directive and no value. -/
def plain
    (c : Context) : Context :=
  { c.clearInput with directive := none }

theorem enterField_plain
    (c : Context)
    (n : Node) :
    (c.enterField schema n).plain = c.enterField schema n := by
  unfold enterField
  cases c.lookupField? n.name with
  | none => rfl
  | some f => rfl

/- Outside of values and directives contexts are plain. -/
theorem along_plain
    {ancestors : List Node}
    (hKinds :
      ∀ n ∈ ancestors.head?, n.kind ∈ Node.Kind.plain)
    (hDescends : Node.Descends ancestors) :
    (along schema ancestors.reverse).plain =
      along schema ancestors.reverse := by
  induction ancestors with
  | nil => rfl
  | cons n outer ih =>
      have hOuter
          (hKind :
            n.kind ∈ [.selectionSet, .fragmentSpread,
              .inlineFragment]) :
          (along schema outer.reverse).plain =
            along schema outer.reverse := by
        have hPlain :
            ∀ kind ∈ [Node.Kind.selectionSet, .fragmentSpread,
              .inlineFragment],
              ∀ parent ∈ kind.parentKinds,
                parent ∈ Node.Kind.plain := by
          decide
        refine ih ?_ hDescends.tail
        intro m hm
        exact hPlain n.kind hKind m.kind
          (hDescends.head_kind m hm)
      rw [along_reverse_cons]
      unfold enter
      cases hKind : n.kind
      case document => rfl
      case operationDefinition => rfl
      case fragmentDefinition => rfl
      case selectionSet => exact hOuter (by simp [hKind])
      case fragmentSpread => exact hOuter (by simp [hKind])
      case field => exact enterField_plain _ n
      case inlineFragment =>
        have hSame := hOuter (by simp [hKind])
        generalize along schema outer.reverse = c at hSame ⊢
        have hType (t : Option TypeDefinition) :
            ({ c with composite := t } : Context).plain =
              { c.plain with composite := t } :=
          rfl
        dsimp only
        split
        · exact hSame
        · rw [hType, hSame]
      all_goals
        have hPlain := hKinds n rfl
        rw [hKind] at hPlain
        simp [Node.Kind.plain] at hPlain

/- Outside of values there is nothing to forget. -/
theorem along_clearInput
    {ancestors : List Node}
    (hKinds :
      ∀ n ∈ ancestors.head?,
        n.kind ∈ Node.Kind.directive :: Node.Kind.plain)
    (hDescends : Node.Descends ancestors) :
    (along schema ancestors.reverse).clearInput =
      along schema ancestors.reverse := by
  cases ancestors with
  | nil => rfl
  | cons n outer =>
      rcases List.mem_cons.mp (hKinds n rfl) with hKind | hKind
      · rw [along_reverse_cons]
        unfold enter
        rw [hKind]
        rfl
      · have hPlain : (along schema (n :: outer).reverse).plain =
            along schema (n :: outer).reverse := by
          apply along_plain
          · rintro m ⟨⟩
            exact hKind
          · exact hDescends
        rw [← hPlain]
        rfl

/- Nodes that have nodes below them are no leaves of a value. -/
theorem enter_fresh
    {c : Context}
    {n : Node}
    (parent : Option Node)
    (hInner : n.kind.childKinds ≠ [])
    (h : c.namedType = none ∧ c.enumValue = none) :
    (c.enter schema parent n).namedType = none ∧
      (c.enter schema parent n).enumValue = none := by
  unfold enter
  cases hKind : n.kind
  case namedType =>
    rw [hKind] at hInner
    exact absurd rfl hInner
  case enumValue =>
    rw [hKind] at hInner
    exact absurd rfl hInner
  case field =>
    dsimp only
    rw [← enterField_plain]
    exact ⟨rfl, rfl⟩
  case inlineFragment =>
    dsimp only
    split
    · exact h
    · exact h
  case document => exact ⟨rfl, rfl⟩
  case operationDefinition => exact ⟨rfl, rfl⟩
  case fragmentDefinition => exact ⟨rfl, rfl⟩
  case directive => exact ⟨rfl, rfl⟩
  case argument => exact ⟨rfl, rfl⟩
  case variableDefinition => exact ⟨rfl, rfl⟩
  all_goals exact h

/- Around a node no type name and no enum value is known. -/
theorem along_fresh
    (schema : Schema)
    {leaf : Node}
    {ancestors : List Node}
    (hDescends : Node.Descends (leaf :: ancestors)) :
    (along schema ancestors.reverse).namedType = none ∧
      (along schema ancestors.reverse).enumValue = none := by
  induction ancestors generalizing leaf with
  | nil => exact ⟨rfl, rfl⟩
  | cons n outer ih =>
      rw [along_reverse_cons]
      have hChild := (List.isChain_cons_cons.mp hDescends).1
      exact enter_fresh outer.head? (List.ne_nil_of_mem hChild)
        (ih hDescends.tail)

end Context

/- Most nodes are described by what is nearest to them. -/
theorem annotate?_eq_nearest?
    (schema : Schema)
    {ancestors : List Node}
    (h :
      ∀ n ∈ ancestors.head?,
        n.kind ∉ Node.Kind.selfDescribed) :
    annotate? (some schema) ancestors.reverse =
      (Context.along schema ancestors.reverse).nearest? := by
  cases ancestors with
  | nil => rfl
  | cons n outer =>
      have hKind := h n rfl
      rw [annotate?_reverse_cons, Context.along_reverse_cons]
      unfold Context.entity?
      split
      · next hSame =>
          simp [Node.Kind.selfDescribed, hSame] at hKind
      · next hSame =>
          simp [Node.Kind.selfDescribed, hSame] at hKind
      · next hSame =>
          simp [Node.Kind.selfDescribed, hSame] at hKind
      · rfl

/- A node in a plain context has nothing else to describe. -/
theorem annotate?_plain
    {schema : Schema}
    {ancestors : List Node}
    (hDescends : Node.Descends ancestors)
    (hKinds :
      ∀ n ∈ ancestors.head?,
        n.kind ∈ Node.Kind.plain ∧ n.kind ≠ .fragmentSpread) :
    annotate? (some schema) ancestors.reverse =
      (Context.along schema
        ancestors.reverse).plain.nearest? := by
  have hOther :
      ∀ kind ∈ Node.Kind.plain, kind ≠ .fragmentSpread →
        kind ∉ Node.Kind.selfDescribed := by
    decide
  rw [Context.along_plain (fun n hn => (hKinds n hn).1) hDescends]
  apply annotate?_eq_nearest?
  intro n hn
  exact hOther n.kind (hKinds n hn).1 (hKinds n hn).2

------------------------------------------------------------
-- Definitions and Variables
------------------------------------------------------------

namespace Node

/- The definition around some nodes. -/
def definition? :
    List Node → Option Node
  | [] => none
  | n :: outer =>
      match n.kind with
      | .document => none
      | .operationDefinition | .fragmentDefinition => some n
      | _ => definition? outer

end Node

/- A context knows the definition around it. -/
theorem Context.along_definition
    (schema : Schema)
    (ancestors : List Node) :
    (along schema ancestors.reverse).definition =
      Node.definition? ancestors := by
  induction ancestors with
  | nil => rfl
  | cons n outer ih =>
      rw [along_reverse_cons, Node.definition?, ← ih]
      generalize along schema outer.reverse = c
      unfold enter
      cases n.kind
      case field =>
        dsimp only
        unfold enterField
        cases c.lookupField? n.name with
        | none => rfl
        | some f => rfl
      case inlineFragment =>
        dsimp only
        split
        · rfl
        · rfl
      all_goals rfl

namespace Node

variable {leaf owner : Node}
variable {ancestors outer : List Node}

/-
  The value around a leaf begins with a child of its owner:
  the leaf itself, or a node with values below it.
-/
theorem exists_child_of_fromOwner
    (hLinked :
      List.IsChain (fun c p => HasChild p c) (leaf :: ancestors))
    (hKinds :
      ∀ n ∈ ancestors.head?,
        n.kind ∈ Kind.owners ++ Kind.inner)
    (hDescends : Descends (leaf :: ancestors))
    (hOwner : fromOwner ancestors = owner :: outer) :
    ∃ c ∈ owner.children, c.Holds leaf ∧
      (c = leaf ∨ c.kind ∈ Kind.inner) := by
  induction ancestors generalizing leaf with
  | nil => cases hOwner
  | cons n above ih =>
      have hChild := (List.isChain_cons_cons.mp hLinked).1
      rcases List.mem_append.mp (hKinds n rfl) with
        hKind | hKind
      · rw [Context.fromOwner_cons_owner hKind] at hOwner
        cases hOwner
        exact ⟨leaf, hChild, Relation.ReflTransGen.refl,
          .inl rfl⟩
      · rw [Context.fromOwner_cons_inner hKind] at hOwner
        have hHead := Context.head_of_descends
          (List.mem_cons_of_mem _ hKind) hDescends.outer
        rcases ih hLinked.tail hHead hDescends.outer hOwner with
          ⟨c, hc, hHolds, hSame⟩
        refine ⟨c, hc, hHolds.tail hChild, .inr ?_⟩
        rcases hSame with rfl | hInner
        · exact hKind
        · exact hInner

/- A value stands in the definition that its owner is in. -/
theorem definition?_fromOwner
    (hKinds :
      ∀ n ∈ ancestors.head?,
        n.kind ∈ Kind.owners ++ Kind.inner)
    (hDescends : Descends ancestors) :
    definition? ancestors =
      definition? (fromOwner ancestors) := by
  induction ancestors with
  | nil => rfl
  | cons n above ih =>
      rcases List.mem_append.mp (hKinds n rfl) with
        hKind | hKind
      · rw [Context.fromOwner_cons_owner hKind]
      · have hHead := Context.head_of_descends
          (List.mem_cons_of_mem _ hKind) hDescends
        rw [Context.fromOwner_cons_inner hKind,
          ← ih hHead hDescends.outer]
        simp only [Kind.inner, List.mem_cons, List.not_mem_nil,
          or_false] at hKind
        rcases hKind with hKind | hKind | hKind
        all_goals rw [definition?, hKind]

/- Every chain starts at the root, wherever it ends. -/
theorem Leads.of_suffix
    {root : Node}
    (h : root.Leads ancestors.reverse)
    (hSuffix : outer <:+ ancestors)
    (hSome : outer ≠ []) :
    root.Leads outer.reverse := by
  rcases hSuffix with ⟨front, rfl⟩
  rw [List.reverse_append] at h
  refine ⟨?_, ?_⟩
  · have hHead := h.head
    rwa [List.head?_append_of_ne_nil _
      (List.reverse_ne_nil_iff.mpr hSome)] at hHead
  · exact h.linked.left_of_append

/- A variable definition declares its variable. -/
theorem variableNamed?_isSome
    {definition n : Node}
    (hChild : definition.HasChild n)
    (hKind : n.kind = .variableDefinition) :
    (definition.variableNamed? n.name).isSome := by
  unfold variableNamed? childNamed?
  rw [List.find?_isSome]
  exact ⟨n, hChild, by simp [hKind]⟩

end Node

section

variable {text : List Char}
variable {root leaf : Node}
variable {ancestors : List Node}

theorem declares_of_leads
    (h : Document.parse text = .ok root)
    (hChain : root.Leads ancestors.reverse)
    {n : Node}
    (hn : n ∈ ancestors)
    (hKind : n.kind = .variableDefinition) :
    n.Declares := by
  have hHolds := hChain.holds (List.mem_reverse.mpr hn)
  rcases Relation.reflTransGen_iff_eq_or_transGen.mp hHolds with
    rfl | hAbove
  · rw [(Document.parse_spells h).1] at hKind
    cases hKind
  · exact Document.parse_declares h hAbove hKind

/- What a variable definition declares is found by name. -/
theorem variableNamed?_own
    (h : Document.parse text = .ok root)
    {n : Node}
    {outer : List Node}
    (hChain : root.Leads (n :: outer).reverse)
    (hKind : n.kind = .variableDefinition) :
    ((Node.definition? (n :: outer)).bind fun d =>
      d.variableNamed? n.name).isSome := by
  rw [Node.definition?, hKind]
  dsimp only
  cases outer with
  | nil =>
      have hRoot := (Document.parse_spells h).1
      cases hChain.head
      rw [hRoot] at hKind
      cases hKind
  | cons d above =>
      have hLinked := List.isChain_reverse.mp hChain.linked
      have hParent := (List.isChain_cons_cons.mp hLinked).1
      have hSome := Node.variableNamed?_isSome hParent hKind
      have hDescends := descends_of_leads h hChain
      have hChild := (List.isChain_cons_cons.mp hDescends).1
      rw [hKind] at hChild
      rw [Node.definition?]
      rcases Node.Kind.variableDefinition_mem_childKinds hChild
        with hDefinition | hDefinition
      · rw [hDefinition]
        exact hSome
      · rw [hDefinition]
        exact hSome

/-
  A variable that is not known stands in an argument. In a
  variable definition only the variable itself is used, which
  is known, since defaults are constant.
-/
theorem owner_of_variableUse
    (h : Document.parse text = .ok root)
    (hChain : root.Leads (leaf :: ancestors).reverse)
    (hLeaf : leaf.kind = .variableUse)
    (hUnknown :
      ((Node.definition? ancestors).bind fun d =>
        d.variableNamed? leaf.name) = none)
    {owner : Node}
    {outer : List Node}
    (hOwner : Node.fromOwner ancestors = owner :: outer) :
    owner.kind = .argument := by
  have hDescends := descends_of_leads h hChain
  have hLinked :
      List.IsChain (fun c p => Node.HasChild p c)
        (leaf :: ancestors) :=
    List.isChain_reverse.mp hChain.linked
  have hKinds :
      ∀ kind ∈ Node.Kind.parentKinds .variableUse,
        kind ∈ Node.Kind.owners ++ Node.Kind.inner := by
    decide
  have hHead (n : Node) (hn : n ∈ ancestors.head?) :=
    hKinds n.kind (hLeaf ▸ hDescends.head_kind n hn)
  rcases List.mem_pair.mp (Context.fromOwner_head hOwner) with
    hKind | hKind
  · exact hKind
  · exfalso
    have hOuter : root.Leads (owner :: outer).reverse := by
      apply hChain.of_suffix
      · rw [← hOwner]
        exact (List.dropWhile_suffix _).trans
          (List.suffix_cons leaf ancestors)
      · exact List.cons_ne_nil owner outer
    have hHolds : root.Holds owner :=
      hOuter.holds (List.mem_reverse.mpr List.mem_cons_self)
    have hDeclares :=
      declares_of_leads h hOuter List.mem_cons_self hKind
    rcases Node.exists_child_of_fromOwner hLinked hHead hDescends
      hOwner with ⟨c, hc, hBelow, rfl | hInner⟩
    · have hSome := variableNamed?_own h hOuter hKind
      rw [← hDeclares.name c hc hLeaf, ← hOwner,
        ← Node.definition?_fromOwner hHead hDescends.outer,
        hUnknown] at hSome
      cases hSome
    · have hConstants :
          ∀ kind ∈ Node.Kind.inner,
            kind ∈ Node.Kind.childKinds .variableDefinition →
              kind ∈ Node.Kind.constants := by
        decide
      have hChild :=
        Document.parse_wellKinded h owner hHolds c hc
      rw [hKind] at hChild
      exact hDeclares.constant c hc
        (hConstants c.kind hInner hChild) leaf hBelow hLeaf

end

end QueryHover
