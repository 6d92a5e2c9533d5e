import Mathlib.Data.List.TakeWhile
import QueryHover.Proofs.Degrading
import QueryHover.Proofs.Joining
import QueryHover.Proofs.Safety
import QueryHover.Proofs.TypeReferences

/-
  The scope of variables.

  A variable belongs to the operation or fragment that it is
  used in. If that declares the variable, the type declared
  first is what is described, however deep in values and
  directives the variable stands. If it does not, the
  variable is passed over, whatever is declared elsewhere in
  the document.

  Main declarations:
    * `Node.fromBrackets`
    * `annotate?_declared`
    * `annotate?_fromBrackets`
    * `annotate?_resolve_variable`
-/

namespace QueryHover

------------------------------------------------------------
-- What a Value Is Written For
------------------------------------------------------------

/-
  The nodes around a value, from the argument or field of an
  input object that it is written for.
-/
def Node.fromBrackets
    (ancestors : List Node) : List Node :=
  ancestors.dropWhile fun n =>
    n.kind ∈ [.listValue, .objectValue]

section

variable {schema : Schema}
variable {ancestors : List Node}

/- Brackets and braces do not change what is described. -/
theorem annotate?_fromBrackets
    (hKinds :
      ∀ n ∈ ancestors.head?,
        n.kind ∈ Node.Kind.owners ++ Node.Kind.inner)
    (hDescends : Node.Descends ancestors) :
    annotate? (some schema) ancestors.reverse =
      annotate? (some schema)
        (Node.fromBrackets ancestors).reverse := by
  induction ancestors with
  | nil => rfl
  | cons n outer ih =>
      unfold Node.fromBrackets at ih ⊢
      by_cases hKind : n.kind ∈ [.listValue, .objectValue]
      · have hInner : n.kind ∈ Node.Kind.inner := by
          rcases List.mem_pair.mp hKind with hKind | hKind
          all_goals simp [hKind, Node.Kind.inner]
        have hHead := Context.head_of_descends
          (List.mem_cons_of_mem _ hInner) hDescends
        rw [List.dropWhile_cons_of_pos (by simpa using hKind),
          annotate?_bracketed (List.mem_pair.mp hKind) hHead]
        exact ih hHead hDescends.outer
      · rw [List.dropWhile_cons_of_neg (by simpa using hKind)]

/- What a value is written for is its owner or a field in it. -/
theorem Node.fromBrackets_head
    (hKinds :
      ∀ n ∈ ancestors.head?,
        n.kind ∈ Kind.owners ++ Kind.inner)
    (hDescends : Descends ancestors)
    {n : Node}
    {outer : List Node}
    (h : fromBrackets ancestors = n :: outer) :
    n.kind = .objectField ∨
      n.kind ∈ Kind.owners ∧
        fromOwner ancestors = n :: outer := by
  induction ancestors with
  | nil => cases h
  | cons m above ih =>
      unfold fromBrackets at ih h
      by_cases hKind : m.kind ∈ [.listValue, .objectValue]
      · have hInner : m.kind ∈ Kind.inner := by
          rcases List.mem_pair.mp hKind with hKind | hKind
          all_goals simp [hKind, Kind.inner]
        have hHead := Context.head_of_descends
          (List.mem_cons_of_mem _ hInner) hDescends
        rw [List.dropWhile_cons_of_pos (by simpa using hKind)]
          at h
        rw [Context.fromOwner_cons_inner hInner]
        exact ih hHead hDescends.outer h
      · rw [List.dropWhile_cons_of_neg (by simpa using hKind)]
          at h
        cases h
        rcases List.mem_append.mp (hKinds n rfl) with
          hOwner | hInner
        · exact .inr
            ⟨hOwner, Context.fromOwner_cons_owner hOwner⟩
        · simp only [Kind.inner, List.mem_cons,
            List.not_mem_nil, or_false] at hInner hKind
          exact .inl ((or_assoc.mpr hInner).resolve_left hKind)

end

------------------------------------------------------------
-- Variables
------------------------------------------------------------

/- A variable whose type is known is described by it. -/
theorem annotate?_declared
    (schema : Schema)
    {leaf : Node}
    {ancestors : List Node}
    (hLeaf : leaf.kind = .variableUse)
    {type : TypeRef}
    (h :
      ((Node.definition? ancestors).bind fun d =>
        d.variableNamed? leaf.name).bind Node.typeRef? =
          some type) :
    annotate? (some schema) (leaf :: ancestors).reverse =
      some (.variableType (some type)) := by
  rw [annotate?_reverse_cons]
  unfold Context.entity? Context.enter
  rw [hLeaf]
  dsimp only
  rw [Context.along_definition, h]
  rfl

/- Only documents have definitions below them. -/
theorem Node.Kind.definition_mem_childKinds
    {kind parent : Node.Kind}
    (hKind :
      kind = .operationDefinition ∨ kind = .fragmentDefinition)
    (h : kind ∈ parent.childKinds) :
    parent = .document := by
  rcases hKind with rfl | rfl
  all_goals
    cases parent
    case unknown => cases h
    all_goals
      revert h
      decide

/- The definitions of a document stand right below it. -/
theorem hasChild_of_definition
    {text : List Char}
    {root d : Node}
    (h : Document.parse text = .ok root)
    (hd : root.Holds d)
    (hKind :
      d.kind = .operationDefinition ∨
        d.kind = .fragmentDefinition) :
    root.HasChild d := by
  have hKinds := Document.parse_wellKinded h
  rcases Relation.reflTransGen_iff_eq_or_transGen.mp hd with
    rfl | hAbove
  · have hRoot := (Document.parse_spells h).1
    rcases hKind with hKind | hKind
    all_goals
      rw [hRoot] at hKind
      cases hKind
  · rcases Relation.TransGen.tail'_iff.mp hAbove with
      ⟨m, hm, hChild⟩
    have hParent := Node.Kind.definition_mem_childKinds hKind
      (hKinds m hm d hChild)
    rcases Relation.reflTransGen_iff_eq_or_transGen.mp hm with
      rfl | hBelow
    · exact hChild
    · exact absurd hParent (hKinds.kind_ne_document hBelow)

section

variable {text : List Char}
variable {root leaf : Node}
variable {ancestors : List Node}
variable (h : Document.parse text = .ok root)
variable (hChain : root.Leads (leaf :: ancestors).reverse)
variable (hLeaf : leaf.kind = .variableUse)

include h hChain hLeaf

/- Every variable is used inside of a definition. -/
theorem exists_definition?_of_variableUse :
    ∃ d,
      Node.definition? ancestors = some d ∧ d ∈ ancestors ∧
        (d.kind = .operationDefinition ∨
          d.kind = .fragmentDefinition) := by
  have hSome :=
    sheltered_of_leads h hChain leaf ancestors
      List.prefix_rfl hLeaf
  rcases Option.isSome_iff_exists.mp hSome with ⟨d, hd⟩
  exact ⟨d, hd, Node.definition?_mem hd⟩

/-
  A variable that is not declared is described as what it is
  written for: an argument, or a field of an input object.
-/
theorem annotate?_undeclared
    (schema : Schema)
    (hUnknown :
      ((Node.definition? ancestors).bind fun d =>
        d.variableNamed? leaf.name) = none) :
    ∃ n outer,
      Node.fromBrackets ancestors = n :: outer ∧
        (n.kind = .argument ∨ n.kind = .objectField) ∧
        annotate? (some schema) (leaf :: ancestors).reverse =
          annotate? (some schema) ancestors.reverse ∧
        annotate? (some schema) ancestors.reverse =
          annotate? (some schema) (n :: outer).reverse := by
  have hDescends := descends_of_leads h hChain
  have hParents :
      ∀ kind ∈ Node.Kind.parentKinds .variableUse,
        kind ∈ Node.Kind.owners ++ Node.Kind.inner := by
    decide
  have hKinds (n : Node) (hn : n ∈ ancestors.head?) :=
    hParents n.kind (hLeaf ▸ hDescends.head_kind n hn)
  have hSame :
      annotate? (some schema) (leaf :: ancestors).reverse =
        annotate? (some schema) ancestors.reverse :=
    unresolved_variableUse h hChain hLeaf hUnknown
  have hOuter :
      annotate? (some schema) ancestors.reverse =
        annotate? (some schema)
          (Node.fromBrackets ancestors).reverse :=
    annotate?_fromBrackets hKinds hDescends.outer
  cases hFrom : Node.fromBrackets ancestors with
  | nil =>
      rcases exists_definition?_of_variableUse h hChain hLeaf with
        ⟨d, _, hd, hKind⟩
      have hBracket := List.dropWhile_eq_nil_iff.mp hFrom d hd
      rcases hKind with hKind | hKind
      all_goals simp [hKind] at hBracket
  | cons n outer =>
      rw [hFrom] at hOuter
      refine ⟨n, outer, rfl, ?_, hSame, hOuter⟩
      rcases Node.fromBrackets_head hKinds hDescends.outer hFrom
        with hField | ⟨_, hOwner⟩
      · exact .inr hField
      · exact .inl
          (owner_of_variableUse h hChain hLeaf hUnknown hOwner)

/- The type of a declaration is the one written in it. -/
theorem annotate?_written
    (schema : Schema)
    {d declaration : Node}
    (hd : Node.definition? ancestors = some d)
    (hDeclared : d.variableNamed? leaf.name = some declaration) :
    ∃ c type,
      declaration.typeChildren = [c] ∧
        c.typeRef? = some type ∧
        type.render.toList = Document.writtenIn text c.span ∧
        annotate? (some schema) (leaf :: ancestors).reverse =
          some (.variableType (some type)) := by
  have hChild : d.HasChild declaration :=
    List.mem_of_find?_eq_some hDeclared
  have hAbove : root.Above declaration := by
    have hMem : d ∈ (leaf :: ancestors).reverse := by
      rw [List.mem_reverse]
      exact List.mem_cons_of_mem leaf
        (Node.definition?_mem hd).1
    exact Relation.TransGen.tail' (hChain.holds hMem) hChild
  have hKind : declaration.kind = .variableDefinition := by
    have hFound := List.find?_some hDeclared
    simp only [Bool.and_eq_true, decide_eq_true_eq] at hFound
    exact hFound.1
  rcases Document.parse_typeChildren h hAbove hKind with
    ⟨c, hOnly, hType⟩
  have hMem : c ∈ declaration.typeChildren := by
    rw [hOnly]
    exact List.mem_singleton_self c
  rcases List.mem_filter.mp hMem with ⟨hc, hTypes⟩
  rcases Document.parse_writes h (hAbove.tail hc)
    (of_decide_eq_true hTypes) with
    ⟨type, hRead, _, hWritten⟩
  refine ⟨c, type, hOnly, hRead, hWritten, ?_⟩
  apply annotate?_declared schema hLeaf
  rw [hd, Option.bind_some, hDeclared, Option.bind_some, hType,
    hRead]

/- Nothing else in the document matters for a variable. -/
theorem annotate?_other_document
    (schema : Schema)
    {root' : Node}
    (hRoot' : root'.kind = .document) :
    annotate? (some schema)
        (root' :: (leaf :: ancestors).reverse.tail) =
      annotate? (some schema) (leaf :: ancestors).reverse := by
  have hRoot := (Document.parse_spells h).1
  cases hPath : (leaf :: ancestors).reverse with
  | nil =>
      rw [hPath] at hChain
      cases hChain.head
  | cons n path =>
      have hLast : (leaf :: ancestors).reverse.getLast? =
          some leaf := by
        rw [List.getLast?_reverse, List.head?_cons]
      rw [hPath] at hChain hLast
      obtain rfl := Option.some.inj hChain.head
      have hBelow : ∀ m ∈ path, m.kind ≠ .document := by
        intro m hm
        exact (Document.parse_wellKinded h).kind_ne_document
          (Node.above_of_isChain hChain.linked hm)
      refine annotate?_within (some schema) hRoot hRoot' hBelow ?_
      intro m hm hSpread
      change path.getLast? = some m at hm
      rw [List.getLast?_cons, hm, Option.getD_some] at hLast
      obtain rfl := Option.some.inj hLast
      rw [hLeaf] at hSpread
      cases hSpread

end

------------------------------------------------------------
-- Scopes
------------------------------------------------------------

/-
  Variables are scoped to their definition. A variable at an
  offset stands inside of an operation or a fragment. If that
  declares it, the type written in the first declaration is
  what is described, whatever is around the variable. If not,
  it is described as what it is written for, as if the
  variable were not there. The rest of the document has no
  part in this: the same nodes below any other document are
  described alike.
-/
theorem annotate?_resolve_variable
    {text : List Char}
    {root : Node}
    (h : Document.parse text = .ok root)
    {offset : Int}
    {leaf : Node}
    {ancestors : List Node}
    (hChain :
      Chain.resolve root offset = (leaf :: ancestors).reverse)
    (hLeaf : leaf.kind = .variableUse)
    (schema : Schema) :
    ∃ d ∈ ancestors,
      root.HasChild d ∧
      (d.kind = .operationDefinition ∨
        d.kind = .fragmentDefinition) ∧
      (∀ declaration,
        d.variableNamed? leaf.name = some declaration →
        ∃ c type,
          declaration.typeChildren = [c] ∧
          c.typeRef? = some type ∧
          type.render.toList = Document.writtenIn text c.span ∧
          annotate? (some schema) (Chain.resolve root offset) =
            some (.variableType (some type))) ∧
      (d.variableNamed? leaf.name = none →
        ∃ n outer,
          Node.fromBrackets ancestors = n :: outer ∧
          (n.kind = .argument ∨ n.kind = .objectField) ∧
          annotate? (some schema) (Chain.resolve root offset) =
            annotate? (some schema) ancestors.reverse ∧
          annotate? (some schema) ancestors.reverse =
            annotate? (some schema) (n :: outer).reverse) ∧
      ∀ root' : Node, root'.kind = .document →
        annotate? (some schema)
            (root' :: (Chain.resolve root offset).tail) =
          annotate? (some schema)
            (Chain.resolve root offset) := by
  have hLeads := Chain.leads_resolve root offset
  rw [hChain] at hLeads ⊢
  rcases exists_definition?_of_variableUse h hLeads hLeaf with
    ⟨d, hd, hMem, hKind⟩
  refine ⟨d, hMem, ?_, hKind, ?_, ?_, ?_⟩
  · refine hasChild_of_definition h (hLeads.holds ?_) hKind
    rw [List.mem_reverse]
    exact List.mem_cons_of_mem leaf hMem
  · intro declaration hDeclared
    exact annotate?_written h hLeads hLeaf schema hd hDeclared
  · intro hNone
    apply annotate?_undeclared h hLeads hLeaf schema
    rw [hd, Option.bind_some, hNone]
  · intro root' hRoot'
    exact annotate?_other_document h hLeads hLeaf schema hRoot'

/-
  A variable that one operation declares twice and another
  one not at all.
-/
theorem annotate?_resolve_variable_shared :
    let text :=
      ("query($x:[Int !],$x:A)\x7bf(a:\x7bg:[$x]\x7d)\x7d " ++
        "\x7bf(a:[$x])\x7d").toList
    let a : ArgumentDefinition :=
      { name := "a", type := .named "Int" false }
    let f : FieldDefinition :=
      { name := "f"
        arguments := [a]
        type := .named "Int" false }
    let t : TypeDefinition :=
      { kind := .object, name := "Query", fields := [f] }
    let schema : Schema :=
      { types := [t], query := some "Query" }
    ∃ root,
      Document.parse text = .ok root ∧
      annotate? (some schema) (Chain.resolve root 32) =
        some
          (.variableType
            (some (.list (.named "Int" true) false))) ∧
      annotate? (some schema) (Chain.resolve root 45) =
        some (.argument (some t) (some f) none (some a)) := by
  intro text a f t schema
  let types (leaf : Node) (ancestors : List Node) :=
    (ancestors.filter fun d =>
      d.kind = .operationDefinition ||
        d.kind = .fragmentDefinition).map fun d =>
          (d.variableNamed? leaf.name).map fun declaration =>
            declaration.typeChildren.map Node.typeRef?
  have hTypes (leaf : Node) {d : Node} {ancestors : List Node}
      (hd : d ∈ ancestors)
      (hKind :
        d.kind = .operationDefinition ∨
          d.kind = .fragmentDefinition) :
      ((d.variableNamed? leaf.name).map fun declaration =>
        declaration.typeChildren.map Node.typeRef?) ∈
          types leaf ancestors :=
    List.mem_map_of_mem
      (List.mem_filter.mpr ⟨hd, by simpa using hKind⟩)
  let view (leaf : Node) (ancestors : List Node) :=
    (leaf.kind, types leaf ancestors)
  let view' (leaf : Node) (ancestors : List Node) :=
    (leaf.kind, decide (types leaf ancestors = [none]),
      annotate? (some schema)
        (Node.fromBrackets ancestors).reverse)
  rcases exists_leaf text 32 view
    (show _ =
      some (.variableUse,
        [some [some (.list (.named "Int" true) false)]]) by
        decide +kernel) with
    ⟨root, leaf, ancestors, h, hChain, hView⟩
  rcases exists_leaf text 45 view'
    (show _ =
      some (.variableUse, true,
        some (.argument (some t) (some f) none (some a))) by
        decide +kernel) with
    ⟨root', leaf', ancestors', h', hChain', hView'⟩
  obtain rfl : root' = root := Except.ok.inj (h'.symm.trans h)
  simp only [view, Prod.mk.injEq] at hView
  simp only [view', Prod.mk.injEq, decide_eq_true_eq] at hView'
  refine ⟨root', h, ?_, ?_⟩
  · rcases annotate?_resolve_variable h hChain hView.1 schema
      with ⟨d, hd, _, hKind, hDeclared, _⟩
    have hType := hTypes leaf hd hKind
    rw [hView.2, List.mem_singleton] at hType
    rcases Option.map_eq_some_iff.mp hType with
      ⟨declaration, hDeclaration, hType⟩
    rcases hDeclared declaration hDeclaration with
      ⟨c, type, hOnly, hRead, _, hEntity⟩
    rw [hOnly, List.map_singleton, hRead] at hType
    cases hType
    exact hEntity
  · rcases annotate?_resolve_variable h' hChain' hView'.1 schema
      with ⟨d, hd, _, hKind, _, hUndeclared, _⟩
    have hNone := hTypes leaf' hd hKind
    rw [hView'.2.1, List.mem_singleton, Option.map_eq_none_iff]
      at hNone
    rcases hUndeclared hNone with
      ⟨n, outer, hFrom, _, hSame, hOuter⟩
    rw [hSame, hOuter, ← hFrom]
    exact hView'.2.2

end QueryHover
