import QueryHover.Proofs.FieldTyping
import QueryHover.Proofs.Grounding
import QueryHover.Schema.Load

/-
  The types that values are expected to have.

  A value stands in an argument or is the default of a
  variable. From the type declared there, lists lead to the
  type of their elements and object fields to the type of
  that field of the input object. Enum values and object
  fields are described through the type expected of them.

  An object field that the expected type does not have is
  described as the owner of the whole value is. Where that
  owner is an argument that is not known either, this is the
  field around it.

  Main declarations:
    * `Schema.argumentAt?`
    * `Schema.expectedType?`
    * `Node.fromOwner`
    * `Context.along_inputType`
    * `annotate?_resolve_value`
-/

namespace QueryHover

------------------------------------------------------------
-- Expected Types
------------------------------------------------------------

namespace Schema

variable (schema : Schema)

/-
  The definition of an argument, from the nodes around it. It
  belongs to the directive that it is given to, and otherwise
  to the field.
-/
def argumentAt?
    (name : String) :
    List Node → Option ArgumentDefinition
  | [] => none
  | owner :: outer =>
      if owner.kind = .directive then
        (schema.directive? owner.name).bind fun d =>
          d.argument? name
      else
        (schema.fieldAt? owner.name outer).bind fun found =>
          found.2.argument? name

/- A field of the input object under a type, with its name. -/
def inputFieldAt?
    (name : String)
    (type : Option TypeRef) :
    Option (TypeDefinition × FieldDefinition) :=
  ((schema.typeOf? type).filter fun t =>
    t.kind = .inputObject).bind fun t =>
      (t.field? name).map fun f => (t, f)

/- A value of the enum under a type, with its name. -/
def enumValueAt?
    (name : String)
    (type : Option TypeRef) :
    Option (TypeDefinition × EnumValueDefinition) :=
  ((schema.typeOf? type).filter fun t =>
    t.kind = .enum).bind fun t =>
      (t.value? name).map fun v => (t, v)

/- The type expected of a value below some nodes. -/
def expectedType? :
    List Node → Option TypeRef
  | [] => none
  | n :: outer =>
      match n.kind with
      | .argument =>
          (schema.argumentAt? n.name outer).map
            ArgumentDefinition.type
      | .variableDefinition => n.typeRef?
      | .listValue =>
          (expectedType? outer).bind TypeRef.element?
      | .objectField =>
          (schema.inputFieldAt? n.name
            (expectedType? outer)).map fun found =>
              found.2.type
      | .objectValue => expectedType? outer
      | _ => none

end Schema

namespace Node

/- Nodes that values are written for. -/
def Kind.owners : List Node.Kind :=
  [.argument, .variableDefinition]

/- Nodes inside a value that have values below them. -/
def Kind.inner : List Node.Kind :=
  [.listValue, .objectValue, .objectField]

/- The owner of the value around, and the nodes around it. -/
def fromOwner
    (ancestors : List Node) : List Node :=
  ancestors.dropWhile fun n => n.kind ∉ Kind.owners

/- Values stand in owners and in other values. -/
theorem Kind.mem_of_mem_childKinds
    {kind parent : Node.Kind}
    (hKind : kind ∈ Kind.enumValue :: Kind.inner)
    (h : kind ∈ parent.childKinds) :
    parent ∈ Kind.owners ++ Kind.inner := by
  cases parent
  case unknown => cases h
  all_goals
    revert kind
    decide

theorem Kind.argument_mem_childKinds
    {parent : Node.Kind}
    (h : .argument ∈ parent.childKinds) :
    parent = .field ∨ parent = .directive := by
  cases parent
  case unknown => cases h
  all_goals
    revert h
    decide

theorem Kind.variableDefinition_mem_childKinds
    {parent : Node.Kind}
    (h : .variableDefinition ∈ parent.childKinds) :
    parent = .operationDefinition ∨
      parent = .fragmentDefinition := by
  cases parent
  case unknown => cases h
  all_goals
    revert h
    decide

/- Each node is of a kind that the next one may have. -/
def Descends
    (ancestors : List Node) : Prop :=
  List.IsChain (fun c p => c.kind ∈ p.kind.childKinds)
    ancestors

end Node

/- The nodes of a text stand below each other as they may. -/
theorem descends_of_leads
    {text : List Char}
    {root : Node}
    (h : Document.parse text = .ok root)
    {ancestors : List Node}
    (hChain : root.Leads ancestors.reverse) :
    Node.Descends ancestors := by
  have hKinds := Document.parse_wellKinded h
  have hLinked := List.isChain_reverse.mp hChain.linked
  refine List.IsChain.imp_of_mem_imp ?_ hLinked
  intro c p hc hp hChild
  exact hKinds p (hChain.holds (List.mem_reverse.mpr hp)) c
    hChild

------------------------------------------------------------
-- Contexts of Values
------------------------------------------------------------

/- What is found in something, without where it was found. -/
theorem map_snd_bind
    {α β : Type}
    (o : Option α)
    (g : α → Option β) :
    ((o.bind fun a => (g a).map fun b => (a, b)).map
      fun found => found.2) = o.bind g := by
  cases o with
  | none => rfl
  | some a =>
      rw [Option.bind_some, Option.bind_some]
      cases g a with
      | none => rfl
      | some b => rfl

namespace Context

variable {schema : Schema}
variable {parent : Option Node}
variable {n : Node}

theorem enter_field
    (c : Context)
    (hKind : n.kind = .field) :
    c.enter schema parent n = c.enterField schema n := by
  unfold enter
  rw [hKind]

theorem enter_directive
    (c : Context)
    (hKind : n.kind = .directive) :
    (c.enter schema parent n).directive =
      schema.directive? n.name := by
  unfold enter
  rw [hKind]

theorem enter_argument
    (c : Context)
    (hKind : n.kind = .argument) :
    c.enter schema parent n = c.enterArgument parent n := by
  unfold enter
  rw [hKind]

theorem enter_objectField
    (c : Context)
    (hKind : n.kind = .objectField) :
    c.enter schema parent n = c.enterObjectField schema n := by
  unfold enter
  rw [hKind]

theorem enterField_field
    (c : Context)
    (n : Node) :
    (c.enterField schema n).field =
      c.composite.bind fun t => t.selected? n.name := by
  unfold enterField
  rw [← lookupField?_eq]
  cases c.lookupField? n.name with
  | none => rfl
  | some f => rfl

theorem enterObjectField_inputField
    (schema : Schema)
    (c : Context)
    (n : Node) :
    (c.enterObjectField schema n).inputField =
      (schema.inputFieldAt? n.name c.inputType).map
        fun found => found.2 :=
  (map_snd_bind _ _).symm

theorem enterObjectField_inputType
    (c : Context)
    (n : Node) :
    (c.enterObjectField schema n).inputType =
      (schema.inputFieldAt? n.name c.inputType).map
        fun found => found.2.type := by
  have hType :
      (c.enterObjectField schema n).inputType =
        (c.enterObjectField schema n).inputField.map
          FieldDefinition.type :=
    rfl
  rw [hType, enterObjectField_inputField, Option.map_map]
  rfl

/- The field that an argument may belong to. -/
theorem along_field
    {outer : List Node}
    (hKind : n.kind = .field)
    (hNames : ∀ m ∈ outer, m.WellNamed) :
    (along schema (n :: outer).reverse).field =
      (schema.fieldAt? n.name outer).map fun found =>
        found.2 := by
  rw [along_reverse_cons, enter_field _ hKind, enterField_field,
    along_composite hNames]
  exact (map_snd_bind _ _).symm

theorem enterArgument_argument
    (c : Context)
    (owner n : Node) :
    (c.enterArgument (some owner) n).argument =
      if owner.kind = .directive then
        c.directive.bind fun d => d.argument? n.name
      else
        c.field.bind fun f => f.argument? n.name := by
  simp [enterArgument]

/- An argument is looked up in the node around it. -/
theorem along_argument
    {outer : List Node}
    (hKind : n.kind = .argument)
    (hNames : ∀ m ∈ outer, m.WellNamed)
    (hDescends : Node.Descends (n :: outer)) :
    (along schema (n :: outer).reverse).argument =
      schema.argumentAt? n.name outer := by
  rw [along_reverse_cons, enter_argument _ hKind]
  cases outer with
  | nil => rfl
  | cons owner above =>
      rw [List.forall_mem_cons] at hNames
      have hChild := (List.isChain_cons_cons.mp hDescends).1
      rw [hKind] at hChild
      rw [List.head?_cons, enterArgument_argument,
        Schema.argumentAt?]
      rcases Node.Kind.argument_mem_childKinds hChild with
        hOwner | hOwner
      · have hNot : owner.kind ≠ .directive := by
          rw [hOwner]
          decide
        rw [if_neg hNot, if_neg hNot,
          along_field hOwner hNames.2, Option.bind_map]
        rfl
      · rw [if_pos hOwner, if_pos hOwner, along_reverse_cons,
          enter_directive _ hOwner]

/- Around a part of a value is a part of it or its owner. -/
theorem head_of_descends
    {outer : List Node}
    (hKind : n.kind ∈ Node.Kind.enumValue :: Node.Kind.inner)
    (hDescends : Node.Descends (n :: outer)) :
    ∀ m ∈ outer.head?,
      m.kind ∈ Node.Kind.owners ++ Node.Kind.inner := by
  intro m hm
  cases outer with
  | nil => cases hm
  | cons m' above =>
      cases hm
      have hChild := (List.isChain_cons_cons.mp hDescends).1
      exact Node.Kind.mem_of_mem_childKinds hKind hChild

/- A context knows the type that a value is expected to have. -/
theorem along_inputType
    (schema : Schema)
    {ancestors : List Node}
    (hKinds :
      ∀ n ∈ ancestors.head?,
        n.kind ∈ Node.Kind.owners ++ Node.Kind.inner)
    (hNames : ∀ n ∈ ancestors, n.WellNamed)
    (hDescends : Node.Descends ancestors) :
    (along schema ancestors.reverse).inputType =
      schema.expectedType? ancestors := by
  induction ancestors with
  | nil => rfl
  | cons n outer ih =>
      rw [List.forall_mem_cons] at hNames
      have hOuter :
          n.kind ∈ Node.Kind.inner →
            (along schema outer.reverse).inputType =
              schema.expectedType? outer :=
        fun hInner =>
          ih (head_of_descends (List.mem_cons_of_mem _ hInner)
            hDescends) hNames.2 hDescends.tail
      have hKind := hKinds n rfl
      simp only [Node.Kind.owners, Node.Kind.inner,
        List.cons_append, List.nil_append, List.mem_cons,
        List.not_mem_nil, or_false] at hKind
      rw [Schema.expectedType?]
      rcases hKind with hKind | hKind | hKind | hKind | hKind
      · rw [hKind]
        dsimp only
        rw [← along_argument hKind hNames.2 hDescends,
          along_reverse_cons, enter_argument _ hKind]
        rfl
      · rw [along_reverse_cons]
        unfold enter
        rw [hKind]
      · have hInput := hOuter (by simp [hKind, Node.Kind.inner])
        rw [along_reverse_cons]
        unfold enter
        rw [hKind]
        dsimp only
        rw [hInput]
      · have hInput := hOuter (by simp [hKind, Node.Kind.inner])
        rw [along_reverse_cons]
        unfold enter
        rw [hKind]
        exact hInput
      · have hInput := hOuter (by simp [hKind, Node.Kind.inner])
        rw [along_reverse_cons, enter_objectField _ hKind,
          enterObjectField_inputType, hInput, hKind]

------------------------------------------------------------
-- Owners of Values
------------------------------------------------------------

/- What is known apart from the place inside a value. -/
def withoutValue
    (c : Context) : Context :=
  { c with
    inputType := none
    inputParent := none
    inputField := none }

/- Going deeper into a value changes nothing else. -/
theorem enter_withoutValue
    (c : Context)
    (hKind : n.kind ∈ Node.Kind.inner) :
    (c.enter schema parent n).withoutValue =
      c.withoutValue := by
  simp only [Node.Kind.inner, List.mem_cons, List.not_mem_nil,
    or_false] at hKind
  unfold enter
  rcases hKind with hKind | hKind | hKind
  · rw [hKind]
    rfl
  · rw [hKind]
  · rw [hKind]
    rfl

/- Without an input field the place does not matter. -/
theorem nearest?_withoutValue
    {c : Context}
    (h : c.inputField = none) :
    c.withoutValue.nearest? = c.nearest? := by
  cases c
  cases h
  rfl

/- An input field comes before everything but enum values. -/
theorem nearest?_inputField
    {c : Context}
    {f : FieldDefinition}
    (hValue : c.enumValue = none)
    (hField : c.inputField = some f) :
    c.nearest? = some (.field c.inputParent (some f)) := by
  unfold nearest?
  rw [hValue, hField]
  rfl

theorem exists_typeEntity
    (c : Context)
    (t : TypeDefinition) :
    ∃ p f, c.typeEntity t = .type (some t) p f := by
  unfold typeEntity
  cases c.field with
  | none => exact ⟨none, none, rfl⟩
  | some f =>
      dsimp only
      split_ifs
      · exact ⟨c.parent, some f, rfl⟩
      · exact ⟨none, none, rfl⟩

/- An enum value is shown exactly if it is known. -/
theorem nearest?_eq_enumValue_iff
    {c : Context}
    {t : Option TypeDefinition}
    {v : EnumValueDefinition} :
    c.nearest? = some (.enumValue t (some v)) ↔
      c.enumType = t ∧ c.enumValue = some v := by
  constructor
  · intro h
    have hShows := shows_of_mem_nearest? h
    generalize hEntity : Entity.enumValue t (some v) = e at hShows
    cases hShows with
    | enumValue hValue =>
        cases hEntity
        exact ⟨rfl, hValue⟩
    | namedType hType =>
        rcases exists_typeEntity c _ with ⟨p, f, hSame⟩
        rw [hSame] at hEntity
        cases hEntity
    | _ => cases hEntity
  · rintro ⟨rfl, hValue⟩
    unfold nearest?
    rw [hValue]
    rfl

/- A field is shown only if no argument is known. -/
theorem of_nearest?_eq_field
    {c : Context}
    {t : Option TypeDefinition}
    {f : FieldDefinition}
    (hValue : c.enumValue = none)
    (hInput : c.inputField = none)
    (h : c.nearest? = some (.field t (some f))) :
    c.argument = none ∧ c.field = some f := by
  constructor
  · cases hArgument : c.argument with
    | none => rfl
    | some a =>
        unfold nearest? at h
        rw [hValue, hInput, hArgument] at h
        cases hOwner : c.argumentDirective with
        | none =>
            rw [hOwner] at h
            cases h
        | some d =>
            rw [hOwner] at h
            cases h
  · have hShows := shows_of_mem_nearest? h
    generalize hEntity : Entity.field t (some f) = e at hShows
    cases hShows with
    | inputField hField =>
        rw [hInput] at hField
        cases hField
    | field hField =>
        cases hEntity
        exact hField
    | namedType hType =>
        rcases exists_typeEntity c _ with ⟨p, f, hSame⟩
        rw [hSame] at hEntity
        cases hEntity
    | _ => cases hEntity

theorem fromOwner_cons_owner
    {outer : List Node}
    (hKind : n.kind ∈ Node.Kind.owners) :
    Node.fromOwner (n :: outer) = n :: outer := by
  simp [Node.fromOwner, hKind]

theorem fromOwner_cons_inner
    {outer : List Node}
    (hKind : n.kind ∈ Node.Kind.inner) :
    Node.fromOwner (n :: outer) = Node.fromOwner outer := by
  have hNot : ∀ kind ∈ Node.Kind.inner, kind ∉ Node.Kind.owners := by
    decide
  simp [Node.fromOwner, hNot n.kind hKind]

/- A value knows what its owner knows. -/
theorem along_fromOwner
    (schema : Schema)
    {ancestors : List Node}
    (hKinds :
      ∀ n ∈ ancestors.head?,
        n.kind ∈ Node.Kind.owners ++ Node.Kind.inner)
    (hDescends : Node.Descends ancestors) :
    (along schema ancestors.reverse).withoutValue =
      (along schema
        (Node.fromOwner ancestors).reverse).withoutValue := by
  induction ancestors with
  | nil => rfl
  | cons n outer ih =>
      rcases List.mem_append.mp (hKinds n rfl) with
        hOwner | hInner
      · rw [fromOwner_cons_owner hOwner]
      · have hOuter := head_of_descends
          (List.mem_cons_of_mem _ hInner) hDescends
        rw [fromOwner_cons_inner hInner, along_reverse_cons,
          enter_withoutValue _ hInner]
        exact ih hOuter hDescends.tail

/- At an owner nothing is known of the value yet. -/
theorem along_owner
    (schema : Schema)
    (outer : List Node)
    (hKind : n.kind ∈ Node.Kind.owners) :
    (along schema (n :: outer).reverse).inputField = none ∧
      (along schema (n :: outer).reverse).enumValue = none ∧
      annotate? (some schema) (n :: outer).reverse =
        (along schema (n :: outer).reverse).nearest? := by
  simp only [Node.Kind.owners, List.mem_cons, List.not_mem_nil,
    or_false] at hKind
  rw [annotate?_reverse_cons, along_reverse_cons]
  unfold enter entity?
  rcases hKind with hKind | hKind
  · rw [hKind]
    exact ⟨rfl, rfl, rfl⟩
  · rw [hKind]
    exact ⟨rfl, rfl, rfl⟩

theorem fromOwner_head
    {ancestors outer : List Node}
    (h : Node.fromOwner ancestors = n :: outer) :
    n.kind ∈ Node.Kind.owners := by
  have hHead := List.head?_dropWhile_not
    (fun n : Node => decide (n.kind ∉ Node.Kind.owners))
    ancestors
  unfold Node.fromOwner at h
  rw [h] at hHead
  simpa using hHead

theorem along_fromOwner_fresh
    (schema : Schema)
    (ancestors : List Node) :
    let owner := (Node.fromOwner ancestors).reverse
    (along schema owner).inputField = none ∧
      (along schema owner).enumValue = none ∧
      annotate? (some schema) owner =
        (along schema owner).nearest? := by
  cases hOwner : Node.fromOwner ancestors with
  | nil => exact ⟨rfl, rfl, rfl⟩
  | cons n outer =>
      exact along_owner schema outer (fromOwner_head hOwner)

end Context

------------------------------------------------------------
-- Parts of Values
------------------------------------------------------------

/- Something that is found in what is found first. -/
theorem bind_pair_eq_some_iff
    {α β : Type}
    {o : Option α}
    {g : α → Option β}
    {a : α}
    {b : β} :
    (o.bind fun x => (g x).map fun y => (x, y)) = some (a, b) ↔
      o = some a ∧ g a = some b := by
  simp only [Option.bind_eq_some_iff, Option.map_eq_some_iff,
    Prod.mk.injEq]
  constructor
  · rintro ⟨x, hx, y, hy, rfl, rfl⟩
    exact ⟨hx, hy⟩
  · rintro ⟨ha, hb⟩
    exact ⟨a, ha, b, hb, rfl, rfl⟩

section

variable {schema : Schema}
variable {leaf : Node}
variable {ancestors : List Node}

/-
  An object field is described through the type expected of
  the object, or else as the owner of the value.
-/
theorem annotate?_objectField
    (schema : Schema)
    (hLeaf : leaf.kind = .objectField)
    (hNames : ∀ n ∈ ancestors, n.WellNamed)
    (hDescends : Node.Descends (leaf :: ancestors)) :
    annotate? (some schema) (leaf :: ancestors).reverse =
      ((schema.inputFieldAt? leaf.name
        (schema.expectedType? ancestors)).map fun found =>
          .field (some found.1) (some found.2)).or
        (annotate? (some schema)
          (Node.fromOwner ancestors).reverse) := by
  have hKinds := Context.head_of_descends
    (by simp [hLeaf, Node.Kind.inner]) hDescends
  have hInput :=
    Context.along_inputType schema hKinds hNames hDescends.tail
  have hSame :=
    Context.along_fromOwner schema hKinds hDescends.tail
  have hOwner :=
    Context.along_fromOwner_fresh schema ancestors
  dsimp only at hOwner
  rw [annotate?_reverse_cons, hOwner.2.2,
    Context.enter_objectField _ hLeaf, ← hInput]
  generalize Context.along schema ancestors.reverse = c
    at hSame ⊢
  generalize
    Context.along schema (Node.fromOwner ancestors).reverse = d
    at hSame hOwner ⊢
  have hField :=
    Context.enterObjectField_inputField schema c leaf
  unfold Context.entity?
  rw [hLeaf]
  dsimp only
  cases hFound : schema.inputFieldAt? leaf.name c.inputType with
  | none =>
      rw [hFound] at hField
      rw [← Context.nearest?_withoutValue hField,
        ← Context.nearest?_withoutValue hOwner.1, ← hSame]
      rfl
  | some found =>
      rw [hFound] at hField
      have hValue :
          (c.enterObjectField schema leaf).enumValue = none :=
        (congrArg Context.enumValue hSame).trans hOwner.2.1
      have hParent :
          (c.enterObjectField schema leaf).inputParent =
            some found.1 :=
        (bind_pair_eq_some_iff.mp hFound).1
      rw [Context.nearest?_inputField hValue hField, hParent]
      rfl

/-
  An enum value is described as one exactly if the type
  expected of it is an enum with that value.
-/
theorem annotate?_enumValue_iff
    (hLeaf : leaf.kind = .enumValue)
    (hNames : ∀ n ∈ ancestors, n.WellNamed)
    (hDescends : Node.Descends (leaf :: ancestors))
    (t : TypeDefinition)
    (v : EnumValueDefinition) :
    annotate? (some schema) (leaf :: ancestors).reverse =
        some (.enumValue (some t) (some v)) ↔
      schema.enumValueAt? leaf.name
        (schema.expectedType? ancestors) = some (t, v) := by
  have hKinds := Context.head_of_descends
    (by simp [hLeaf]) hDescends
  have hInput :=
    Context.along_inputType schema hKinds hNames hDescends.tail
  rw [annotate?_reverse_cons, ← hInput]
  generalize Context.along schema ancestors.reverse = c
  have hEnter :
      c.enter schema ancestors.head? leaf =
        c.enterEnumValue schema leaf := by
    unfold Context.enter
    rw [hLeaf]
  rw [hEnter]
  unfold Context.entity?
  rw [hLeaf]
  dsimp only
  rw [Context.nearest?_eq_enumValue_iff]
  unfold Schema.enumValueAt?
  rw [bind_pair_eq_some_iff]
  have hValue :
      (c.enterEnumValue schema leaf).enumValue =
        (c.enterEnumValue schema leaf).enumType.bind fun t =>
          t.value? leaf.name :=
    rfl
  constructor
  · rintro ⟨ht, hv⟩
    rw [hValue, ht] at hv
    exact ⟨ht, hv⟩
  · rintro ⟨ht, hv⟩
    refine ⟨ht, ?_⟩
    rw [hValue]
    exact Option.bind_eq_some_iff.mpr ⟨t, ht, hv⟩

/- A value whose owner is not known has no expected type. -/
theorem expectedType?_eq_none
    (hKinds :
      ∀ n ∈ ancestors.head?,
        n.kind ∈ Node.Kind.owners ++ Node.Kind.inner)
    (hDescends : Node.Descends ancestors)
    (h : schema.expectedType? (Node.fromOwner ancestors) = none) :
    schema.expectedType? ancestors = none := by
  induction ancestors with
  | nil => rfl
  | cons n outer ih =>
      rcases List.mem_append.mp (hKinds n rfl) with
        hOwner | hInner
      · rwa [Context.fromOwner_cons_owner hOwner] at h
      · rw [Context.fromOwner_cons_inner hInner] at h
        have hOuter :=
          ih (Context.head_of_descends
            (List.mem_cons_of_mem _ hInner) hDescends)
            hDescends.tail h
        simp only [Node.Kind.inner, List.mem_cons,
          List.not_mem_nil, or_false] at hInner
        rw [Schema.expectedType?, hOuter]
        rcases hInner with hKind | hKind | hKind
        · rw [hKind]
          rfl
        · rw [hKind]
        · rw [hKind]
          rfl

/- A variable definition stands in no field. -/
theorem along_field_variableDefinition
    (schema : Schema)
    {n : Node}
    {outer : List Node}
    (hKind : n.kind = .variableDefinition)
    (hDescends : Node.Descends (n :: outer)) :
    (Context.along schema (n :: outer).reverse).field =
      none := by
  have hEnter (c : Context) :
      (c.enter schema outer.head? n).field = c.field := by
    unfold Context.enter
    rw [hKind]
    rfl
  rw [Context.along_reverse_cons, hEnter]
  cases outer with
  | nil => rfl
  | cons d above =>
      have hChild := (List.isChain_cons_cons.mp hDescends).1
      rw [hKind] at hChild
      rw [Context.along_reverse_cons]
      unfold Context.enter
      rcases Node.Kind.variableDefinition_mem_childKinds hChild
        with hDefinition | hDefinition
      · rw [hDefinition]
        rfl
      · rw [hDefinition]
        rfl

/-
  An owner that is described as a field is not known: it is
  an argument that neither the field nor a directive has.
-/
theorem expectedType?_of_annotate?_field
    {n : Node}
    {outer : List Node}
    (hKind : n.kind ∈ Node.Kind.owners)
    (hNames : ∀ m ∈ n :: outer, m.WellNamed)
    (hDescends : Node.Descends (n :: outer))
    {t : Option TypeDefinition}
    {f : FieldDefinition}
    (h :
      annotate? (some schema) (n :: outer).reverse =
        some (.field t (some f))) :
    schema.expectedType? (n :: outer) = none := by
  rw [List.forall_mem_cons] at hNames
  rcases Context.along_owner schema outer hKind with
    ⟨hInput, hValue, hEntity⟩
  rw [hEntity] at h
  have hField := Context.of_nearest?_eq_field hValue hInput h
  simp only [Node.Kind.owners, List.mem_cons, List.not_mem_nil,
    or_false] at hKind
  rcases hKind with hKind | hKind
  · have hArgument := hField.1
    rw [Context.along_argument hKind hNames.2 hDescends]
      at hArgument
    rw [Schema.expectedType?, hKind]
    dsimp only
    rw [hArgument]
    rfl
  · have hNone :=
      along_field_variableDefinition schema hKind hDescends
    rw [hField.2] at hNone
    cases hNone

theorem expectedType?_fromOwner
    (hNames : ∀ n ∈ ancestors, n.WellNamed)
    (hDescends : Node.Descends ancestors)
    {t : Option TypeDefinition}
    {f : FieldDefinition}
    (h :
      annotate? (some schema)
          (Node.fromOwner ancestors).reverse =
        some (.field t (some f))) :
    schema.expectedType? (Node.fromOwner ancestors) = none := by
  have hSuffix : Node.fromOwner ancestors <:+ ancestors :=
    List.dropWhile_suffix _
  have hNames' : ∀ n ∈ Node.fromOwner ancestors, n.WellNamed :=
    fun n hn => hNames n (hSuffix.subset hn)
  have hDescends' : Node.Descends (Node.fromOwner ancestors) :=
    List.IsChain.suffix hDescends hSuffix
  cases hOwner : Node.fromOwner ancestors with
  | nil => rfl
  | cons n outer =>
      rw [hOwner] at h hNames' hDescends'
      exact expectedType?_of_annotate?_field
        (Context.fromOwner_head hOwner) hNames' hDescends' h

/-
  Parts of values are typed exactly. An enum value is
  described as a value of an enum exactly if the type expected
  of it is that enum and has that value. An object field is
  described as a field of an input object if the type expected
  of the object is that one and has the field. If there is no
  such field, it is described as the owner of the value is;
  and that is a field only where the owner is not known, so
  that nothing in the value has an expected type.
-/
theorem annotate?_value
    {text : List Char}
    {root : Node}
    (h : Document.parse text = .ok root)
    {leaf : Node}
    {ancestors : List Node}
    (hChain : root.Leads (leaf :: ancestors).reverse)
    (schema : Schema) :
    (leaf.kind = .enumValue →
      ∀ (t : TypeDefinition) (v : EnumValueDefinition),
        annotate? (some schema) (leaf :: ancestors).reverse =
            some (.enumValue (some t) (some v)) ↔
          schema.enumValueAt? leaf.name
            (schema.expectedType? ancestors) = some (t, v)) ∧
      (leaf.kind = .objectField →
        (∀ (t : TypeDefinition) (f : FieldDefinition),
          annotate? (some schema) (leaf :: ancestors).reverse =
              some (.field (some t) (some f)) ↔
            schema.inputFieldAt? leaf.name
                (schema.expectedType? ancestors) =
              some (t, f) ∨
            schema.expectedType? (Node.fromOwner ancestors) =
                none ∧
              annotate? (some schema)
                  (Node.fromOwner ancestors).reverse =
                some (.field (some t) (some f))) ∧
          (schema.inputFieldAt? leaf.name
              (schema.expectedType? ancestors) = none →
            annotate? (some schema) (leaf :: ancestors).reverse =
              annotate? (some schema)
                (Node.fromOwner ancestors).reverse)) := by
  have hNames := wellNamed_of_leads h hChain
  have hDescends := descends_of_leads h hChain
  refine ⟨fun hLeaf => annotate?_enumValue_iff hLeaf hNames
    hDescends, ?_⟩
  intro hLeaf
  have hEntity :=
    annotate?_objectField schema hLeaf hNames hDescends
  have hKinds := Context.head_of_descends
    (by simp [hLeaf, Node.Kind.inner]) hDescends
  refine ⟨?_, ?_⟩
  · intro t f
    rw [hEntity, Option.or_eq_some_iff, Option.map_eq_some_iff,
      Option.map_eq_none_iff]
    constructor
    · rintro (⟨found, hFound, hSame⟩ | ⟨_, hOwner⟩)
      · cases hSame
        exact .inl hFound
      · exact .inr
          ⟨expectedType?_fromOwner hNames hDescends.tail hOwner,
            hOwner⟩
    · rintro (hFound | ⟨hUnknown, hOwner⟩)
      · exact .inl ⟨(t, f), hFound, rfl⟩
      · refine .inr ⟨?_, hOwner⟩
        rw [expectedType?_eq_none hKinds hDescends.tail hUnknown]
        rfl
  · intro hNone
    rw [hEntity, hNone]
    rfl

end

theorem annotate?_value_nested :
    ∃ (schema : Schema) (t : TypeDefinition)
      (v : EnumValueDefinition) (root leaf : Node)
      (ancestors : List Node),
      Document.parse "\x7bf(a:[\x7bg:V\x7d])\x7d".toList =
        .ok root ∧
      root.Leads (leaf :: ancestors).reverse ∧
      leaf.kind = .enumValue ∧
      schema.enumValueAt? "V" (some (.named "E" true)) =
        some (t, v) ∧
      annotate? (some schema) (leaf :: ancestors).reverse =
        some (.enumValue (some t) (some v)) := by
  let v : EnumValueDefinition := { name := "V" }
  let e : TypeDefinition :=
    { kind := .enum, name := "E", values := [v] }
  let g : FieldDefinition :=
    { name := "g", type := .named "E" true }
  let a : ArgumentDefinition :=
    { name := "a", type := .list (.named "I" false) false }
  let f : FieldDefinition :=
    { name := "f", arguments := [a], type := .named "E" false }
  let schema : Schema :=
    { types :=
        [ { kind := .object, name := "Query", fields := [f] },
          { kind := .inputObject, name := "I", fields := [g] },
          e ]
      query := some "Query" }
  let view (leaf : Node) (ancestors : List Node) :=
    (leaf.kind, leaf.name, schema.expectedType? ancestors)
  have hSeen :=
    exists_leaf "\x7bf(a:[\x7bg:V\x7d])\x7d".toList 9 view
      (show _ = some (.enumValue, "V", some (.named "E" true)) by
        decide +kernel)
  rcases hSeen with ⟨root, leaf, ancestors, h, hChain, hView⟩
  simp only [view, Prod.mk.injEq] at hView
  have hLeads := Chain.leads_resolve root 9
  rw [hChain] at hLeads
  have hFound :
      schema.enumValueAt? "V" (some (.named "E" true)) =
        some (e, v) :=
    rfl
  refine ⟨schema, e, v, root, leaf, ancestors, h, hLeads,
    hView.1, hFound, ?_⟩
  rw [(annotate?_value h hLeads schema).1 hView.1 e v, hView.2.1,
    hView.2.2]
  exact hFound

/-
  An input object may be the root of a schema. There an
  object field in an unknown argument is described as the
  field around the argument, though nothing is expected of it.
-/
theorem annotate?_unknown_argument :
    ∃ (schema : Schema) (root leaf : Node)
      (ancestors : List Node) (t : TypeDefinition)
      (f : FieldDefinition),
      Schema.load "schema" "input Query\x7bf:Int\x7d".toList =
          .ok schema ∧
        Document.parse "\x7bf(x:\x7bf:1\x7d)\x7d".toList =
          .ok root ∧
        root.Leads (leaf :: ancestors).reverse ∧
        leaf.kind = .objectField ∧
        ¬(annotate? (some schema) (leaf :: ancestors).reverse =
              some (.field (some t) (some f)) ↔
            schema.inputFieldAt? leaf.name
              (schema.expectedType? ancestors) = some (t, f)) := by
  let field? (schema : Schema) :=
    (schema.type? "Query").bind fun t =>
      (t.field? "f").map fun f =>
        Entity.field (some t) (some f)
  let view (schema : Schema) (leaf : Node)
      (ancestors : List Node) :=
    (leaf.kind, schema.expectedType? ancestors,
      (field? schema).isSome,
      decide (annotate? (some schema) (leaf :: ancestors).reverse =
        field? schema))
  have hSeen :
      ((Schema.load "schema"
        "input Query\x7bf:Int\x7d".toList).toOption.bind
          fun schema =>
        (Document.parse
          "\x7bf(x:\x7bf:1\x7d)\x7d".toList).toOption.bind
            fun root =>
          (Chain.resolve root 6).reverse.head?.map fun leaf =>
            view schema leaf
              (Chain.resolve root 6).reverse.tail) =
        some (.objectField, none, true, true) := by
    decide +kernel
  rcases Option.bind_eq_some_iff.mp hSeen with
    ⟨schema, hSchema, hLeaf⟩
  rcases exists_leaf _ 6 (view schema) hLeaf with
    ⟨root, leaf, ancestors, h, hChain, hView⟩
  simp only [view, field?, Prod.mk.injEq, decide_eq_true_eq]
    at hView
  rcases hView with ⟨hKind, hType, hSome, hEntity⟩
  rcases Option.isSome_iff_exists.mp hSome with ⟨e, he⟩
  rcases Option.bind_eq_some_iff.mp he with ⟨t, ht, he'⟩
  rcases Option.map_eq_some_iff.mp he' with ⟨f, hf, rfl⟩
  have hLeads := Chain.leads_resolve root 6
  rw [hChain] at hLeads
  refine ⟨schema, root, leaf, ancestors, t, f,
    eq_ok_of_toOption hSchema, h, hLeads, hKind, ?_⟩
  rw [hEntity, he, hType]
  intro hIff
  cases hIff.mp rfl

end QueryHover
