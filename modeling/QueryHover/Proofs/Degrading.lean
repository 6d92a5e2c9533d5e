import QueryHover.Proofs.Lookup
import QueryHover.Proofs.Surroundings

/-
  What is described where a name is not known.

  A name that the schema does not know is passed over, and an
  ancestor is described in its place. For most nodes that is
  the node around the name. A directive of a variable
  definition or of a fragment spread passes over these as
  well, and a field of an input object passes over the fields
  of input objects around it, up to the owner of the value.

  Main declarations:
    * `Schema.Unresolved`
    * `Node.fallback`
    * `Schema.KeepsParent`
    * `annotate?_unresolved`
-/

namespace QueryHover

------------------------------------------------------------
-- Names That Are Not Known
------------------------------------------------------------

namespace Node

/- The nodes that are described where a name is not known. -/
def fallback
    (leaf : Node)
    (ancestors : List Node) : List Node :=
  match leaf.kind with
  | .directive =>
      match ancestors with
      | [] => []
      | n :: outer =>
          if n.kind ∈ [.variableDefinition, .fragmentSpread] then
            outer
          else
            n :: outer
  | .objectField => fromOwner ancestors
  | _ => ancestors

end Node

namespace Schema

variable (schema : Schema)

/-
  The name of a node is not known: its owner has no such
  argument, the schema no such directive or type, the
  expected input object no such field, the expected enum no
  such value, or the definition no such variable.
-/
def Unresolved
    (leaf : Node)
    (ancestors : List Node) : Prop :=
  match leaf.kind with
  | .argument => schema.argumentAt? leaf.name ancestors = none
  | .directive => schema.directive? leaf.name = none
  | .objectField =>
      schema.inputFieldAt? leaf.name
        (schema.expectedType? ancestors) = none
  | .enumValue =>
      schema.enumValueAt? leaf.name
        (schema.expectedType? ancestors) = none
  | .variableUse =>
      ((Node.definition? ancestors).bind fun d =>
        d.variableNamed? leaf.name) = none
  | .namedType => schema.type? leaf.name = none
  | _ => False

/- The field of an input object that a value is written for. -/
def enclosingField? :
    List Node → Option (TypeDefinition × FieldDefinition)
  | [] => none
  | n :: outer =>
      match n.kind with
      | .objectField =>
          schema.inputFieldAt? n.name
            (schema.expectedType? outer)
      | .objectValue | .listValue => enclosingField? outer
      | _ => none

/-
  A name that is not known is described as the node around it
  is. That is not so for directives of variable definitions
  and, unless there is nothing to describe, of fragment
  spreads; nor inside of fields of input objects.
-/
def KeepsParent
    (leaf : Node)
    (ancestors : List Node) : Prop :=
  match leaf.kind with
  | .directive =>
      ∀ n ∈ ancestors.head?,
        n.kind ≠ .variableDefinition ∧
        (n.kind = .fragmentSpread →
          annotate? (some schema) ancestors.reverse = none ∧
          annotate? (some schema) ancestors.tail.reverse = none)
  | .objectField => schema.enclosingField? ancestors = none
  | _ => True

/- Only directives and input fields may pass over more. -/
theorem keepsParent_of_kind
    {leaf : Node}
    (ancestors : List Node)
    (hKind : leaf.kind ∉ [.directive, .objectField]) :
    leaf.fallback ancestors = ancestors ∧
      schema.KeepsParent leaf ancestors := by
  unfold Node.fallback KeepsParent
  split
  · next hSame => simp [hSame] at hKind
  · next hSame => simp [hSame] at hKind
  · exact ⟨rfl, trivial⟩

end Schema

------------------------------------------------------------
-- Passing Over a Name
------------------------------------------------------------

section

variable {schema : Schema}
variable {leaf : Node}
variable {ancestors : List Node}

/- An argument leaves what it is given to. -/
theorem unresolved_argument
    (hLeaf : leaf.kind = .argument)
    (hNames : ∀ n ∈ ancestors, n.WellNamed)
    (hDescends : Node.Descends (leaf :: ancestors))
    (h : schema.argumentAt? leaf.name ancestors = none) :
    annotate? (some schema) (leaf :: ancestors).reverse =
      annotate? (some schema) ancestors.reverse := by
  rw [← Context.along_argument hLeaf hNames hDescends,
    Context.along_reverse_cons,
    Context.enter_argument _ hLeaf] at h
  have hKinds :
      ∀ kind ∈ Node.Kind.parentKinds .argument,
        kind ∈ Node.Kind.directive :: Node.Kind.plain ∧
          kind ∉ Node.Kind.selfDescribed := by
    decide
  have hHead (n : Node) (hn : n ∈ ancestors.head?) :=
    hKinds n.kind (hLeaf ▸ hDescends.head_kind n hn)
  have hOwner :
      (Context.along schema ancestors.reverse).clearInput =
        Context.along schema ancestors.reverse :=
    Context.along_clearInput (fun n hn => (hHead n hn).1)
      hDescends.tail
  rw [annotate?_reverse_cons, Context.enter_argument _ hLeaf]
  unfold Context.entity?
  rw [hLeaf]
  dsimp only
  rw [Context.enterArgument_nearest?_of_none h, hOwner,
    annotate?_eq_nearest? schema fun n hn => (hHead n hn).2]

/- A directive leaves the field around it. -/
theorem unresolved_directive
    (hLeaf : leaf.kind = .directive)
    (hDescends : Node.Descends (leaf :: ancestors))
    (h : schema.directive? leaf.name = none) :
    annotate? (some schema) (leaf :: ancestors).reverse =
      annotate? (some schema)
        (leaf.fallback ancestors).reverse := by
  have hPlain :
      annotate? (some schema) (leaf :: ancestors).reverse =
        (Context.along schema
          ancestors.reverse).plain.nearest? := by
    rw [annotate?_reverse_cons]
    unfold Context.entity? Context.enter
    rw [hLeaf]
    dsimp only
    rw [h]
    rfl
  rw [hPlain]
  unfold Node.fallback
  rw [hLeaf]
  dsimp only
  cases ancestors with
  | nil => rfl
  | cons n outer =>
      have hKind := hLeaf ▸ hDescends.head_kind n rfl
      dsimp only
      split
      case isTrue hPass =>
        have hSame :
            (Context.along schema (n :: outer).reverse).plain =
              (Context.along schema outer.reverse).plain := by
          rw [Context.along_reverse_cons]
          unfold Context.enter
          simp only [List.mem_cons, List.not_mem_nil, or_false]
            at hPass
          rcases hPass with hPass | hPass
          · rw [hPass]
            rfl
          · rw [hPass]
        have hKinds :
            ∀ kind ∈ [Node.Kind.variableDefinition,
              .fragmentSpread],
              ∀ parent ∈ kind.parentKinds,
                parent ∈ Node.Kind.plain ∧
                  parent ≠ .fragmentSpread := by
          decide
        rw [hSame, annotate?_plain hDescends.outer.outer]
        intro m hm
        exact hKinds n.kind hPass m.kind
          (hDescends.outer.head_kind m hm)
      case isFalse hStay =>
        have hKinds :
            ∀ kind ∈ Node.Kind.parentKinds .directive,
              kind ∉ [Node.Kind.variableDefinition,
                .fragmentSpread] →
              kind ∈ Node.Kind.plain ∧
                kind ≠ .fragmentSpread := by
          decide
        rw [annotate?_plain hDescends.outer]
        rintro m ⟨⟩
        exact hKinds n.kind hKind hStay

/- The fields of input objects around a name are passed over. -/
theorem unresolved_objectField
    (hLeaf : leaf.kind = .objectField)
    (hNames : ∀ n ∈ ancestors, n.WellNamed)
    (hDescends : Node.Descends (leaf :: ancestors))
    (h :
      schema.inputFieldAt? leaf.name
        (schema.expectedType? ancestors) = none) :
    annotate? (some schema) (leaf :: ancestors).reverse =
      annotate? (some schema)
        (Node.fromOwner ancestors).reverse := by
  rw [annotate?_objectField schema hLeaf hNames hDescends, h]
  rfl

theorem unresolved_enumValue
    (hLeaf : leaf.kind = .enumValue)
    (hNames : ∀ n ∈ ancestors, n.WellNamed)
    (hDescends : Node.Descends (leaf :: ancestors))
    (h :
      schema.enumValueAt? leaf.name
        (schema.expectedType? ancestors) = none) :
    annotate? (some schema) (leaf :: ancestors).reverse =
      annotate? (some schema) ancestors.reverse := by
  have hKinds :
      ∀ kind ∈ Node.Kind.parentKinds .enumValue,
        kind ∉ Node.Kind.selfDescribed := by
    decide
  have hHead := Context.head_of_descends
    (by simp [hLeaf]) hDescends
  have hInput :=
    Context.along_inputType schema hHead hNames hDescends.tail
  have hFresh := (Context.along_fresh schema hDescends).2
  rw [annotate?_reverse_cons,
    annotate?_eq_nearest? schema fun n hn =>
      hKinds n.kind (hLeaf ▸ hDescends.head_kind n hn)]
  rw [← hInput] at h
  generalize Context.along schema ancestors.reverse = c
    at h hFresh ⊢
  have hValue :
      (c.enterEnumValue schema leaf).enumValue =
        (schema.enumValueAt? leaf.name c.inputType).map
          fun found => found.2 :=
    (map_snd_bind _ _).symm
  rw [h] at hValue
  unfold Context.entity? Context.enter
  rw [hLeaf]
  dsimp only
  unfold Context.nearest?
  rw [hValue, hFresh]
  rfl

theorem unresolved_namedType
    (hLeaf : leaf.kind = .namedType)
    (hDescends : Node.Descends (leaf :: ancestors))
    (h : schema.type? leaf.name = none) :
    annotate? (some schema) (leaf :: ancestors).reverse =
      annotate? (some schema) ancestors.reverse := by
  have hKinds :
      ∀ kind ∈ Node.Kind.parentKinds .namedType,
        kind ∉ Node.Kind.selfDescribed := by
    decide
  have hFresh := (Context.along_fresh schema hDescends).1
  rw [annotate?_reverse_cons,
    annotate?_eq_nearest? schema fun n hn =>
      hKinds n.kind (hLeaf ▸ hDescends.head_kind n hn)]
  generalize Context.along schema ancestors.reverse = c
    at hFresh ⊢
  unfold Context.entity? Context.enter
  rw [hLeaf]
  dsimp only
  rw [h]
  cases c
  cases hFresh
  rfl

end

section

variable {text : List Char}
variable {root leaf : Node}
variable {ancestors : List Node}

theorem unresolved_variableUse
    (h : Document.parse text = .ok root)
    (hChain : root.Leads (leaf :: ancestors).reverse)
    (hLeaf : leaf.kind = .variableUse)
    {schema : Schema}
    (hUnknown :
      ((Node.definition? ancestors).bind fun d =>
        d.variableNamed? leaf.name) = none) :
    annotate? (some schema) (leaf :: ancestors).reverse =
      annotate? (some schema) ancestors.reverse := by
  have hDescends := descends_of_leads h hChain
  have hKinds :
      ∀ kind ∈ Node.Kind.parentKinds .variableUse,
        kind ∈ Node.Kind.owners ++ Node.Kind.inner ∧
          kind ∉ Node.Kind.selfDescribed := by
    decide
  have hHead (n : Node) (hn : n ∈ ancestors.head?) :=
    hKinds n.kind (hLeaf ▸ hDescends.head_kind n hn)
  have hSame := Context.along_fromOwner schema
    (fun n hn => (hHead n hn).1) hDescends.outer
  have hType :
      (Context.along schema ancestors.reverse).variableType =
        none := by
    refine (congrArg Context.variableType hSame).trans ?_
    cases hOwner : Node.fromOwner ancestors with
    | nil => rfl
    | cons owner outer =>
        have hKind :=
          owner_of_variableUse h hChain hLeaf hUnknown hOwner
        rw [Context.along_reverse_cons,
          Context.enter_argument _ hKind]
        rfl
  have hDefinition := Context.along_definition schema ancestors
  rw [annotate?_reverse_cons,
    annotate?_eq_nearest? schema fun n hn => (hHead n hn).2]
  generalize Context.along schema ancestors.reverse = c
    at hType hDefinition ⊢
  unfold Context.entity? Context.enter
  rw [hLeaf]
  dsimp only
  rw [hDefinition, hUnknown]
  cases c
  cases hType
  rfl

end

------------------------------------------------------------
-- Names That Pass Over More
------------------------------------------------------------

section

variable {schema : Schema}
variable {leaf : Node}
variable {ancestors : List Node}

/- Brackets and braces are described as what is around. -/
theorem annotate?_bracketed
    {n : Node}
    (hKind : n.kind = .listValue ∨ n.kind = .objectValue)
    (hKinds :
      ∀ m ∈ ancestors.head?,
        m.kind ∈ Node.Kind.owners ++ Node.Kind.inner) :
    annotate? (some schema) (n :: ancestors).reverse =
      annotate? (some schema) ancestors.reverse := by
  have hOther :
      ∀ kind ∈ Node.Kind.owners ++ Node.Kind.inner,
        kind ∉ Node.Kind.selfDescribed := by
    decide
  rw [annotate?_reverse_cons,
    annotate?_eq_nearest? schema fun m hm =>
      hOther m.kind (hKinds m hm)]
  unfold Context.entity? Context.enter
  rcases hKind with hKind | hKind
  · rw [hKind]
    rfl
  · rw [hKind]

/-
  A value is described as the field of an input object that
  it is written for, or else as its owner.
-/
theorem annotate?_enclosing
    (hKinds :
      ∀ n ∈ ancestors.head?,
        n.kind ∈ Node.Kind.owners ++ Node.Kind.inner)
    (hNames : ∀ n ∈ ancestors, n.WellNamed)
    (hDescends : Node.Descends ancestors) :
    annotate? (some schema) ancestors.reverse =
      ((schema.enclosingField? ancestors).map fun found =>
        .field (some found.1) (some found.2)).or
        (annotate? (some schema)
          (Node.fromOwner ancestors).reverse) := by
  induction ancestors with
  | nil => rfl
  | cons n outer ih =>
      rw [List.forall_mem_cons] at hNames
      rcases List.mem_append.mp (hKinds n rfl) with
        hKind | hKind
      · rw [Context.fromOwner_cons_owner hKind,
          Schema.enclosingField?]
        rcases List.mem_pair.mp hKind with hKind | hKind
        · rw [hKind]
          rfl
        · rw [hKind]
          rfl
      · have hHead := Context.head_of_descends
          (List.mem_cons_of_mem _ hKind) hDescends
        have hOuter := ih hHead hNames.2 hDescends.outer
        rw [Context.fromOwner_cons_inner hKind,
          Schema.enclosingField?]
        simp only [Node.Kind.inner, List.mem_cons,
          List.not_mem_nil, or_false] at hKind
        rcases hKind with hKind | hKind | hKind
        · rw [annotate?_bracketed (.inl hKind) hHead, hKind]
          exact hOuter
        · rw [annotate?_bracketed (.inr hKind) hHead, hKind]
          exact hOuter
        · rw [annotate?_objectField schema hKind hNames.2
            hDescends, hKind]

/- Nothing is enclosed where nothing is expected. -/
theorem enclosingField?_eq_none
    (hKinds :
      ∀ n ∈ ancestors.head?,
        n.kind ∈ Node.Kind.owners ++ Node.Kind.inner)
    (hDescends : Node.Descends ancestors)
    (h : schema.expectedType? (Node.fromOwner ancestors) = none) :
    schema.enclosingField? ancestors = none := by
  induction ancestors with
  | nil => rfl
  | cons n outer ih =>
      rw [Schema.enclosingField?]
      rcases List.mem_append.mp (hKinds n rfl) with
        hKind | hKind
      · rcases List.mem_pair.mp hKind with hKind | hKind
        · rw [hKind]
        · rw [hKind]
      · have hHead := Context.head_of_descends
          (List.mem_cons_of_mem _ hKind) hDescends
        rw [Context.fromOwner_cons_inner hKind] at h
        simp only [Node.Kind.inner, List.mem_cons,
          List.not_mem_nil, or_false] at hKind
        rcases hKind with hKind | hKind | hKind
        · rw [hKind]
          exact ih hHead hDescends.outer h
        · rw [hKind]
          exact ih hHead hDescends.outer h
        · rw [hKind, expectedType?_eq_none hHead
            hDescends.outer h]
          rfl

theorem keepsParent_objectField
    (hLeaf : leaf.kind = .objectField)
    (hNames : ∀ n ∈ ancestors, n.WellNamed)
    (hDescends : Node.Descends (leaf :: ancestors))
    (h :
      schema.inputFieldAt? leaf.name
        (schema.expectedType? ancestors) = none) :
    annotate? (some schema) (leaf :: ancestors).reverse =
        annotate? (some schema) ancestors.reverse ↔
      schema.enclosingField? ancestors = none := by
  have hHead := Context.head_of_descends
    (by simp [hLeaf, Node.Kind.inner]) hDescends
  rw [unresolved_objectField hLeaf hNames hDescends h,
    annotate?_enclosing hHead hNames hDescends.outer]
  constructor
  · intro hSame
    cases hField : schema.enclosingField? ancestors with
    | none => rfl
    | some found =>
        rw [hField] at hSame
        have hExpected :=
          expectedType?_fromOwner hNames hDescends.outer hSame
        rw [enclosingField?_eq_none hHead hDescends.outer
          hExpected] at hField
        cases hField
  · intro hNone
    rw [hNone]
    rfl

/- At a definition no directive and no field is known. -/
theorem Context.along_definition_fresh
    (schema : Schema)
    {ancestors : List Node}
    (hKinds :
      ∀ n ∈ ancestors.head?,
        n.kind ∈ [.operationDefinition, .fragmentDefinition]) :
    (along schema ancestors.reverse).directive = none ∧
      (along schema ancestors.reverse).field = none ∧
      (along schema ancestors.reverse).nearest? = none := by
  cases ancestors with
  | nil => exact ⟨rfl, rfl, rfl⟩
  | cons n outer =>
      rw [along_reverse_cons]
      unfold enter
      rcases List.mem_pair.mp (hKinds n rfl) with hKind | hKind
      · rw [hKind]
        exact ⟨rfl, rfl, rfl⟩
      · rw [hKind]
        exact ⟨rfl, rfl, rfl⟩

/- A variable definition is described by its type. -/
theorem annotate?_variableDefinition
    (schema : Schema)
    {n : Node}
    {outer : List Node}
    (hKind : n.kind = .variableDefinition)
    (hType : n.typeRef?.isSome)
    (hDescends : Node.Descends (n :: outer)) :
    annotate? (some schema) (n :: outer).reverse =
        some (.variableType n.typeRef?) ∧
      annotate? (some schema) outer.reverse = none := by
  have hDefinitions :
      ∀ kind ∈ Node.Kind.parentKinds .variableDefinition,
        kind ∈ [.operationDefinition, .fragmentDefinition] ∧
          kind ∉ Node.Kind.selfDescribed := by
    decide
  have hHead (m : Node) (hm : m ∈ outer.head?) :=
    hDefinitions m.kind (hKind ▸ hDescends.head_kind m hm)
  have hFresh :=
    Context.along_definition_fresh schema fun m hm =>
      (hHead m hm).1
  rw [annotate?_reverse_cons,
    annotate?_eq_nearest? schema fun m hm => (hHead m hm).2]
  generalize Context.along schema outer.reverse = c
    at hFresh ⊢
  rcases hFresh with ⟨hDirective, hField, hNone⟩
  refine ⟨?_, hNone⟩
  rcases Option.isSome_iff_exists.mp hType with ⟨t, ht⟩
  unfold Context.entity? Context.enter
  rw [hKind, ht]
  dsimp only
  unfold Context.nearest? Context.clearInput
  rw [hDirective, hField]
  rfl

/- A fragment spread is not described as what is around it. -/
theorem annotate?_fragmentSpread_eq_iff
    (schema : Schema)
    {n : Node}
    {outer : List Node}
    (hKind : n.kind = .fragmentSpread)
    (hDescends : Node.Descends (n :: outer)) :
    annotate? (some schema) outer.reverse =
        annotate? (some schema) (n :: outer).reverse ↔
      annotate? (some schema) (n :: outer).reverse = none ∧
        annotate? (some schema) outer.reverse = none := by
  have hPlain :
      ∀ kind ∈ Node.Kind.parentKinds .fragmentSpread,
        kind ∈ Node.Kind.plain ∧ kind ≠ .fragmentSpread := by
    decide
  have hOuter :
      annotate? (some schema) outer.reverse =
        (Context.along schema outer.reverse).plain.nearest? :=
    annotate?_plain hDescends.outer fun m hm =>
      hPlain m.kind (hKind ▸ hDescends.head_kind m hm)
  have hSpread :
      annotate? (some schema) (n :: outer).reverse =
        (Context.along schema outer.reverse).spreadEntity? schema
          n.name := by
    rw [annotate?_reverse_cons]
    unfold Context.entity? Context.enter
    rw [hKind]
  rw [hOuter, hSpread]
  generalize Context.along schema outer.reverse = c
  constructor
  · intro hSame
    cases hEntity : c.spreadEntity? schema n.name with
    | none => exact ⟨rfl, hSame.trans hEntity⟩
    | some e =>
        -- A spread is described as a type, the rest as a field.
        have hField :
            c.plain.nearest? =
              c.field.map fun f => .field c.parent (some f) :=
          Context.clearInput_nearest? { c with directive := none }
        rcases Context.mem_spreadEntity? hEntity with
          ⟨_, _, _, _, _, _, t, _, rfl⟩
        rw [hEntity, hField] at hSame
        rcases Option.map_eq_some_iff.mp hSame with
          ⟨f, _, hEq⟩
        cases hEq
  · rintro ⟨hSpread, hOuter⟩
    rw [hSpread, hOuter]

theorem keepsParent_directive
    (hLeaf : leaf.kind = .directive)
    (hDescends : Node.Descends (leaf :: ancestors))
    (hTypes :
      ∀ n ∈ ancestors, n.kind = .variableDefinition →
        n.typeRef?.isSome)
    (h : schema.directive? leaf.name = none) :
    annotate? (some schema) (leaf :: ancestors).reverse =
        annotate? (some schema) ancestors.reverse ↔
      schema.KeepsParent leaf ancestors := by
  rw [unresolved_directive hLeaf hDescends h]
  unfold Node.fallback Schema.KeepsParent
  rw [hLeaf]
  dsimp only
  cases ancestors with
  | nil =>
      refine iff_of_true rfl ?_
      intro n hn
      cases hn
  | cons n outer =>
      simp only [List.head?_cons, Option.mem_some_iff,
        forall_eq', List.tail_cons]
      by_cases hVariable : n.kind = .variableDefinition
      · have hType := hTypes n List.mem_cons_self hVariable
        have hParent := annotate?_variableDefinition schema
          hVariable hType hDescends.outer
        rw [if_pos (by simp [hVariable]), hParent.1, hParent.2]
        refine iff_of_false (Option.some_ne_none _).symm ?_
        intro hKeeps
        exact hKeeps.1 hVariable
      · by_cases hSpread : n.kind = .fragmentSpread
        · rw [if_pos (by simp [hSpread]),
            annotate?_fragmentSpread_eq_iff schema hSpread
              hDescends.outer]
          constructor
          · intro hNone
            exact ⟨hVariable, fun _ => hNone⟩
          · intro hKeeps
            exact hKeeps.2 hSpread
        · rw [if_neg (by simp [hVariable, hSpread])]
          refine iff_of_true rfl ⟨hVariable, ?_⟩
          intro hSame
          exact absurd hSame hSpread

end

------------------------------------------------------------
-- What Is Described Instead
------------------------------------------------------------

/-
  Where the name of a node is not known, an ancestor of the
  node is described. It is the node around it, except that
  directives pass over variable definitions and fragment
  spreads and that fields of input objects pass over the rest
  of their value. The two descriptions are the same exactly
  for the nodes that keep to the node around them.
-/
theorem annotate?_unresolved
    {text : List Char}
    {root : Node}
    (h : Document.parse text = .ok root)
    {leaf : Node}
    {ancestors : List Node}
    (hChain : root.Leads (leaf :: ancestors).reverse)
    {schema : Schema}
    (hUnresolved : schema.Unresolved leaf ancestors) :
    annotate? (some schema) (leaf :: ancestors).reverse =
        annotate? (some schema)
          (leaf.fallback ancestors).reverse ∧
      (annotate? (some schema) (leaf :: ancestors).reverse =
          annotate? (some schema) ancestors.reverse ↔
        schema.KeepsParent leaf ancestors) := by
  have hNames := wellNamed_of_leads h hChain
  have hDescends := descends_of_leads h hChain
  unfold Schema.Unresolved at hUnresolved
  have hKeeps
      (hKind : leaf.kind ∉ [.directive, .objectField])
      (hSame :
        annotate? (some schema) (leaf :: ancestors).reverse =
          annotate? (some schema) ancestors.reverse) :
      annotate? (some schema) (leaf :: ancestors).reverse =
          annotate? (some schema)
            (leaf.fallback ancestors).reverse ∧
        (annotate? (some schema) (leaf :: ancestors).reverse =
            annotate? (some schema) ancestors.reverse ↔
          schema.KeepsParent leaf ancestors) := by
    have hStays := schema.keepsParent_of_kind ancestors hKind
    rw [hStays.1]
    exact ⟨hSame, iff_of_true hSame hStays.2⟩
  cases hLeaf : leaf.kind
  all_goals
    rw [hLeaf] at hUnresolved
  case argument =>
    exact hKeeps (by simp [hLeaf])
      (unresolved_argument hLeaf hNames hDescends hUnresolved)
  case enumValue =>
    exact hKeeps (by simp [hLeaf])
      (unresolved_enumValue hLeaf hNames hDescends hUnresolved)
  case variableUse =>
    exact hKeeps (by simp [hLeaf])
      (unresolved_variableUse h hChain hLeaf hUnresolved)
  case namedType =>
    exact hKeeps (by simp [hLeaf])
      (unresolved_namedType hLeaf hDescends hUnresolved)
  case directive =>
    refine ⟨unresolved_directive hLeaf hDescends hUnresolved,
      keepsParent_directive hLeaf hDescends ?_ hUnresolved⟩
    intro n hn hKind
    exact (declares_of_leads h hChain (List.mem_cons_of_mem _ hn)
      hKind).typed
  case objectField =>
    have hOwner :=
      unresolved_objectField hLeaf hNames hDescends hUnresolved
    have hIff :=
      keepsParent_objectField hLeaf hNames hDescends hUnresolved
    unfold Node.fallback Schema.KeepsParent
    rw [hLeaf]
    exact ⟨hOwner, hIff⟩
  all_goals cases hUnresolved

theorem annotate?_unresolved_variable :
    ∃ (schema : Schema) (root leaf : Node)
      (ancestors : List Node),
      Document.parse
          "query($x:Int)\x7bf(a:[$y])\x7d".toList =
        .ok root ∧
      root.Leads (leaf :: ancestors).reverse ∧
      leaf.kind = .variableUse ∧
      schema.Unresolved leaf ancestors ∧
      (annotate? (some schema) ancestors.reverse).isSome ∧
      annotate? (some schema) (leaf :: ancestors).reverse =
        annotate? (some schema) ancestors.reverse := by
  let a : ArgumentDefinition :=
    { name := "a", type := .list (.named "Int" false) false }
  let f : FieldDefinition :=
    { name := "f", arguments := [a], type := .named "Int" false }
  let schema : Schema :=
    { types :=
        [{ kind := .object, name := "Query", fields := [f] }]
      query := some "Query" }
  let view (leaf : Node) (ancestors : List Node) :=
    (leaf.kind,
      ((Node.definition? ancestors).bind fun d =>
        d.variableNamed? leaf.name).isNone,
      (annotate? (some schema) ancestors.reverse).isSome)
  have hSeen :=
    exists_leaf "query($x:Int)\x7bf(a:[$y])\x7d".toList 20 view
      (show _ = some (.variableUse, true, true) by
        decide +kernel)
  rcases hSeen with ⟨root, leaf, ancestors, h, hChain, hView⟩
  simp only [view, Prod.mk.injEq, Option.isNone_iff_eq_none]
    at hView
  have hLeads := Chain.leads_resolve root 20
  rw [hChain] at hLeads
  have hUnresolved : schema.Unresolved leaf ancestors := by
    unfold Schema.Unresolved
    rw [hView.1]
    exact hView.2.1
  have hKeeps : schema.KeepsParent leaf ancestors := by
    unfold Schema.KeepsParent
    rw [hView.1]
    trivial
  have hDescribed := annotate?_unresolved h hLeads hUnresolved
  exact ⟨schema, root, leaf, ancestors, h, hLeads, hView.1,
    hUnresolved, hView.2.2, hDescribed.2.mpr hKeeps⟩

/-
  A field that an input object does not have, inside of one
  that it has: the argument is described, and not the field
  around it.
-/
theorem annotate?_unknown_inputField :
    ∃ (schema : Schema) (root leaf : Node)
      (ancestors : List Node),
      Schema.load "schema"
          "type Query\x7bf(a:I):Int\x7d input I\x7bg:I\x7d".toList =
        .ok schema ∧
      Document.parse
          "\x7bf(a:\x7bg:\x7bn:1\x7d\x7d)\x7d".toList =
        .ok root ∧
      root.Leads (leaf :: ancestors).reverse ∧
      leaf.kind = .objectField ∧
      schema.Unresolved leaf ancestors ∧
      annotate? (some schema) (leaf :: ancestors).reverse ≠
        annotate? (some schema) ancestors.reverse := by
  let view (schema : Schema) (leaf : Node)
      (ancestors : List Node) :=
    (leaf.kind,
      (schema.inputFieldAt? leaf.name
        (schema.expectedType? ancestors)).isNone,
      decide (annotate? (some schema) (leaf :: ancestors).reverse =
        annotate? (some schema) ancestors.reverse))
  have hSeen :
      ((Schema.load "schema"
        "type Query\x7bf(a:I):Int\x7d input I\x7bg:I\x7d".toList
        ).toOption.bind fun schema =>
          (Document.parse
            "\x7bf(a:\x7bg:\x7bn:1\x7d\x7d)\x7d".toList
            ).toOption.bind fun root =>
              (Chain.resolve root 9).reverse.head?.map fun leaf =>
                view schema leaf
                  (Chain.resolve root 9).reverse.tail) =
        some (.objectField, true, false) := by
    decide +kernel
  rcases Option.bind_eq_some_iff.mp hSeen with
    ⟨schema, hSchema, hSeen⟩
  rcases exists_leaf _ 9 (view schema) hSeen with
    ⟨root, leaf, ancestors, h, hChain, hView⟩
  simp only [view, Prod.mk.injEq, Option.isNone_iff_eq_none,
    decide_eq_false_iff_not] at hView
  have hLeads := Chain.leads_resolve root 9
  rw [hChain] at hLeads
  refine ⟨schema, root, leaf, ancestors,
    eq_ok_of_toOption hSchema, h, hLeads, hView.1, ?_,
    hView.2.2⟩
  unfold Schema.Unresolved
  rw [hView.1]
  exact hView.2.1

end QueryHover
