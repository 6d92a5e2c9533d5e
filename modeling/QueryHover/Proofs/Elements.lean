import QueryHover.Proofs.Attaching
import QueryHover.Proofs.Lookup
import QueryHover.Proofs.Surroundings

/-
  The elements of a schema that nodes name.

  A field, an argument, a directive, an enum value or a field
  of an input object names an element of the schema. Which one
  is fixed by the nodes around it, and a node is described as
  itself exactly if there is such an element.

  Main declarations:
    * `Schema.element?`
    * `Schema.DescribesAs`
    * `describesAs_iff`
    * `Schema.Attached.element?_informs`
-/

namespace QueryHover

------------------------------------------------------------
-- Named Elements
------------------------------------------------------------

namespace Schema

variable (schema : Schema)

/- An argument with what it belongs to. -/
def argumentElement?
    (name : String) :
    List Node → Option Entity
  | [] => none
  | owner :: outer =>
      if owner.kind = .directive then
        (schema.directive? owner.name).bind fun d =>
          (d.argument? name).map fun a =>
            .argument none none (some d) (some a)
      else
        (schema.fieldAt? owner.name outer).bind fun found =>
          (found.2.argument? name).map fun a =>
            .argument (some found.1) (some found.2) none
              (some a)

/- The element that a node names, below some nodes. -/
def element?
    (leaf : Node)
    (ancestors : List Node) : Option Entity :=
  match leaf.kind with
  | .field =>
      (schema.fieldAt? leaf.name ancestors).map fun found =>
        .field (some found.1) (some found.2)
  | .argument => schema.argumentElement? leaf.name ancestors
  | .directive =>
      (schema.directive? leaf.name).map fun d =>
        .directive (some d)
  | .enumValue =>
      (schema.enumValueAt? leaf.name
        (schema.expectedType? ancestors)).map fun found =>
          .enumValue (some found.1) (some found.2)
  | .objectField =>
      (schema.inputFieldAt? leaf.name
        (schema.expectedType? ancestors)).map fun found =>
          .field (some found.1) (some found.2)
  | _ => none

/-
  A node is described, and as itself: by an element of its
  kind and name. What is described of a field of an input
  object may also be the field around it, so that it has to be
  the one of the type that is expected.
-/
def DescribesAs
    (leaf : Node)
    (ancestors : List Node)
    (e : Entity) : Prop :=
  annotate? (some schema) (leaf :: ancestors).reverse =
      some e ∧
    match leaf.kind, e with
    | .field, .field (some _) (some f) => f.name = leaf.name
    | .argument, .argument _ _ _ (some a) =>
        a.name = leaf.name
    | .directive, .directive (some d) => d.name = leaf.name
    | .enumValue, .enumValue (some _) (some v) =>
        v.name = leaf.name
    | .objectField, .field (some t) (some f) =>
        schema.inputFieldAt? leaf.name
          (schema.expectedType? ancestors) = some (t, f)
    | _, _ => False

end Schema

------------------------------------------------------------
-- Elements Are Described
------------------------------------------------------------

namespace Context

variable {schema : Schema}

/- An argument is described with what it was looked up in. -/
theorem nearest?_of_argument
    {c : Context}
    {a : ArgumentDefinition}
    (hValue : c.enumValue = none)
    (hInput : c.inputField = none)
    (h : c.argument = some a) :
    c.nearest? =
      if c.argumentDirective.isSome then
        some
          (.argument none none c.argumentDirective (some a))
      else
        some (.argument c.parent c.field none (some a)) := by
  unfold nearest?
  rw [hValue, hInput, h]
  rfl

/- An argument that is found comes before anything else. -/
theorem enterArgument_nearest?
    (c : Context)
    (owner n : Node) :
    (c.enterArgument (some owner) n).nearest? =
      (if owner.kind = .directive then
        c.directive.bind fun d =>
          (d.argument? n.name).map fun a =>
            .argument none none (some d) (some a)
      else
        c.field.bind fun f =>
          (f.argument? n.name).map fun a =>
            .argument c.parent (some f) none (some a)).or
        c.clearInput.nearest? := by
  have hFound := enterArgument_argument c owner n
  cases hArgument :
      (c.enterArgument (some owner) n).argument with
  | none =>
      rw [enterArgument_nearest?_of_none hArgument]
      rw [hArgument] at hFound
      split
      case isTrue hOwner =>
        rw [if_pos hOwner] at hFound
        cases hd : c.directive with
        | none => rfl
        | some d =>
            rw [hd, Option.bind_some] at hFound
            rw [Option.bind_some, ← hFound]
            rfl
      case isFalse hOwner =>
        rw [if_neg hOwner] at hFound
        cases hf : c.field with
        | none => rfl
        | some f =>
            rw [hf, Option.bind_some] at hFound
            rw [Option.bind_some, ← hFound]
            rfl
  | some a =>
      rw [nearest?_of_argument rfl rfl hArgument]
      rw [hArgument] at hFound
      by_cases hOwner : owner.kind = .directive
      · rw [if_pos hOwner] at hFound ⊢
        rcases Option.bind_eq_some_iff.mp hFound.symm with
          ⟨d, hd, ha⟩
        simp [enterArgument, hOwner, hd, ha]
      · rw [if_neg hOwner] at hFound ⊢
        rcases Option.bind_eq_some_iff.mp hFound.symm with
          ⟨f, hf, ha⟩
        simp [enterArgument, clearInput, hOwner, hf, ha]

/- The type that a field was found in. -/
theorem along_parent
    {n : Node}
    {outer : List Node}
    (hKind : n.kind = .field)
    (hNames : ∀ m ∈ outer, m.WellNamed) :
    (along schema (n :: outer).reverse).parent =
      (schema.fieldAt? n.name outer).map fun found =>
        found.1 := by
  rw [along_reverse_cons, enter_field _ hKind,
    Schema.fieldAt?, ← along_composite hNames]
  generalize along schema outer.reverse = c
  unfold enterField
  rw [lookupField?_eq]
  cases hType : c.composite with
  | none => rfl
  | some t =>
      rw [Option.bind_some, Option.bind_some]
      cases t.selected? n.name with
      | none => rfl
      | some f => rfl

end Context

section

variable {schema : Schema}
variable {leaf : Node}
variable {ancestors : List Node}
variable {e : Entity}

/- An argument is described as one, or else as its owner. -/
theorem annotate?_argument
    (schema : Schema)
    (hLeaf : leaf.kind = .argument)
    (hNames : ∀ n ∈ ancestors, n.WellNamed)
    (hDescends : Node.Descends (leaf :: ancestors)) :
    annotate? (some schema) (leaf :: ancestors).reverse =
      (schema.argumentElement? leaf.name ancestors).or
        (Context.along schema
          ancestors.reverse).clearInput.nearest? := by
  rw [annotate?_reverse_cons, Context.enter_argument _ hLeaf]
  unfold Context.entity?
  rw [hLeaf]
  dsimp only
  cases ancestors with
  | nil => rfl
  | cons owner outer =>
      rw [List.forall_mem_cons] at hNames
      have hChild := (List.isChain_cons_cons.mp hDescends).1
      rw [hLeaf] at hChild
      rw [List.head?_cons, Context.enterArgument_nearest?,
        Schema.argumentElement?]
      congr 1
      rcases Node.Kind.argument_mem_childKinds hChild with
        hOwner | hOwner
      · have hNot : owner.kind ≠ .directive := by
          rw [hOwner]
          decide
        rw [if_neg hNot, if_neg hNot,
          Context.along_field hOwner hNames.2,
          Context.along_parent hOwner hNames.2]
        cases schema.fieldAt? owner.name outer with
        | none => rfl
        | some found => rfl
      · rw [if_pos hOwner, if_pos hOwner,
          Context.along_reverse_cons,
          Context.enter_directive _ hOwner]

/- A directive is described as one, or else as its field. -/
theorem annotate?_directive
    (schema : Schema)
    (hLeaf : leaf.kind = .directive)
    (ancestors : List Node) :
    annotate? (some schema) (leaf :: ancestors).reverse =
      ((schema.directive? leaf.name).map fun d =>
        .directive (some d)).or
        (Context.along schema
          ancestors.reverse).plain.nearest? := by
  rw [annotate?_reverse_cons]
  generalize Context.along schema ancestors.reverse = c
  unfold Context.entity? Context.enter
  rw [hLeaf]
  dsimp only
  cases schema.directive? leaf.name with
  | none => rfl
  | some d => rfl

/- Outside of values only directives and fields are found. -/
theorem clearInput_nearest?_ne_argument
    {c : Context}
    {p : Option TypeDefinition}
    {f : Option FieldDefinition}
    {d : Option DirectiveDefinition}
    {a : Option ArgumentDefinition} :
    c.clearInput.nearest? ≠ some (.argument p f d a) := by
  rw [Context.clearInput_nearest?]
  cases c.directive with
  | some d => simp
  | none => simp

theorem plain_nearest?_ne_directive
    {c : Context}
    {d : Option DirectiveDefinition} :
    c.plain.nearest? ≠ some (.directive d) := by
  have hNearest :=
    Context.clearInput_nearest? { c with directive := none }
  unfold Context.plain
  unfold Context.clearInput at hNearest ⊢
  rw [hNearest]
  simp

theorem argumentElement?_name
    {name : String}
    (h : schema.argumentElement? name ancestors = some e) :
    ∃ p f d a, e = .argument p f d (some a) ∧ a.name = name := by
  cases ancestors with
  | nil => cases h
  | cons owner outer =>
      rw [Schema.argumentElement?] at h
      split at h
      · rcases Option.bind_eq_some_iff.mp h with ⟨d, _, h⟩
        rcases Option.map_eq_some_iff.mp h with ⟨a, ha, rfl⟩
        exact ⟨_, _, _, a, rfl, by simpa using List.find?_some ha⟩
      · rcases Option.bind_eq_some_iff.mp h with ⟨found, _, h⟩
        rcases Option.map_eq_some_iff.mp h with ⟨a, ha, rfl⟩
        exact ⟨_, _, _, a, rfl, by simpa using List.find?_some ha⟩

theorem describesAs_argument
    (hLeaf : leaf.kind = .argument)
    (hNames : ∀ n ∈ ancestors, n.WellNamed)
    (hDescends : Node.Descends (leaf :: ancestors)) :
    schema.DescribesAs leaf ancestors e ↔
      schema.argumentElement? leaf.name ancestors = some e := by
  unfold Schema.DescribesAs
  rw [annotate?_argument schema hLeaf hNames hDescends, hLeaf,
    Option.or_eq_some_iff]
  constructor
  · rintro ⟨hFound | ⟨_, hOther⟩, hName⟩
    · exact hFound
    · cases e with
      | argument p f d a =>
          exact absurd hOther clearInput_nearest?_ne_argument
      | _ => cases hName
  · intro hFound
    refine ⟨.inl hFound, ?_⟩
    rcases argumentElement?_name hFound with
      ⟨p, f, d, a, rfl, hName⟩
    exact hName

theorem describesAs_field
    (hLeaf : leaf.kind = .field)
    (hNames : ∀ n ∈ ancestors, n.WellNamed) :
    schema.DescribesAs leaf ancestors e ↔
      (schema.fieldAt? leaf.name ancestors).map
        (fun found => .field (some found.1) (some found.2)) =
          some e := by
  unfold Schema.DescribesAs
  rw [annotate?_field schema hLeaf hNames, hLeaf]
  refine and_iff_left_of_imp ?_
  intro hFound
  rcases Option.map_eq_some_iff.mp hFound with
    ⟨⟨t, f⟩, hField, rfl⟩
  have hSelected := (bind_pair_eq_some_iff.mp hField).2
  exact TypeDefinition.selected?_name hSelected

theorem describesAs_directive
    (hLeaf : leaf.kind = .directive) :
    schema.DescribesAs leaf ancestors e ↔
      (schema.directive? leaf.name).map
        (fun d => .directive (some d)) = some e := by
  unfold Schema.DescribesAs
  rw [annotate?_directive schema hLeaf, hLeaf,
    Option.or_eq_some_iff]
  constructor
  · rintro ⟨hFound | ⟨_, hOther⟩, hName⟩
    · exact hFound
    · cases e with
      | directive d =>
          exact absurd hOther plain_nearest?_ne_directive
      | _ => cases hName
  · intro hFound
    refine ⟨.inl hFound, ?_⟩
    rcases Option.map_eq_some_iff.mp hFound with ⟨d, hd, rfl⟩
    have hName := List.find?_some hd
    simpa using hName

theorem describesAs_enumValue
    (hLeaf : leaf.kind = .enumValue)
    (hNames : ∀ n ∈ ancestors, n.WellNamed)
    (hDescends : Node.Descends (leaf :: ancestors)) :
    schema.DescribesAs leaf ancestors e ↔
      (schema.enumValueAt? leaf.name
        (schema.expectedType? ancestors)).map
          (fun found =>
            .enumValue (some found.1) (some found.2)) =
        some e := by
  have hEntity :=
    @annotate?_enumValue_iff schema _ _ hLeaf hNames hDescends
  unfold Schema.DescribesAs
  rw [hLeaf, Option.map_eq_some_iff]
  constructor
  · rintro ⟨hAnnotate, hName⟩
    cases e with
    | enumValue t v =>
        rcases t with _ | t
        · cases hName
        rcases v with _ | v
        · cases hName
        exact ⟨(t, v), (hEntity t v).mp hAnnotate, rfl⟩
    | _ => cases hName
  · rintro ⟨⟨t, v⟩, hFound, rfl⟩
    refine ⟨(hEntity t v).mpr hFound, ?_⟩
    have hValue := (bind_pair_eq_some_iff.mp hFound).2
    have hName := List.find?_some hValue
    simpa using hName

theorem describesAs_objectField
    (hLeaf : leaf.kind = .objectField)
    (hNames : ∀ n ∈ ancestors, n.WellNamed)
    (hDescends : Node.Descends (leaf :: ancestors)) :
    schema.DescribesAs leaf ancestors e ↔
      (schema.inputFieldAt? leaf.name
        (schema.expectedType? ancestors)).map
          (fun found => .field (some found.1) (some found.2)) =
        some e := by
  unfold Schema.DescribesAs
  rw [annotate?_objectField schema hLeaf hNames hDescends, hLeaf,
    Option.map_eq_some_iff]
  constructor
  · rintro ⟨_, hName⟩
    cases e with
    | field t f =>
        rcases t with _ | t
        · cases hName
        rcases f with _ | f
        · cases hName
        exact ⟨(t, f), hName, rfl⟩
    | _ => cases hName
  · rintro ⟨⟨t, f⟩, hFound, rfl⟩
    refine ⟨?_, hFound⟩
    rw [hFound]
    rfl

/- A node is described as itself if it names an element. -/
theorem describesAs_iff
    (hNames : ∀ n ∈ ancestors, n.WellNamed)
    (hDescends : Node.Descends (leaf :: ancestors)) :
    schema.DescribesAs leaf ancestors e ↔
      schema.element? leaf ancestors = some e := by
  unfold Schema.element?
  cases hLeaf : leaf.kind
  case field => exact describesAs_field hLeaf hNames
  case argument =>
    exact describesAs_argument hLeaf hNames hDescends
  case directive => exact describesAs_directive hLeaf
  case enumValue =>
    exact describesAs_enumValue hLeaf hNames hDescends
  case objectField =>
    exact describesAs_objectField hLeaf hNames hDescends
  all_goals
    unfold Schema.DescribesAs
    rw [hLeaf]
    simp

end

------------------------------------------------------------
-- Directives on Elements
------------------------------------------------------------

/- The directives that are used on what is described. -/
def Entity.uses :
    Entity → List DirectiveUse
  | .field _ (some f) => f.directives
  | .argument _ _ _ (some a) => a.directives
  | .enumValue _ (some v) => v.directives
  | _ => []

namespace Schema

variable {s : Schema}
variable {t : TypeDefinition}

theorem type?_mem
    {name : String}
    (h : s.type? name = some t) :
    t ∈ s.types :=
  List.mem_of_find?_eq_some h

theorem composite?_mem
    {name : String}
    (h : s.composite? name = some t) :
    t ∈ s.types :=
  type?_mem (Option.filter_eq_some_iff.mp h).1

theorem typeOf?_mem
    {type : Option TypeRef}
    (h : s.typeOf? type = some t) :
    t ∈ s.types := by
  rcases Option.bind_eq_some_iff.mp h with ⟨_, _, ht⟩
  exact type?_mem ht

/- Selections are made from types of the schema. -/
theorem contextType?_mem
    {ancestors : List Node}
    (h : s.contextType? ancestors = some t) :
    t ∈ s.types := by
  induction ancestors with
  | nil => cases h
  | cons n outer ih =>
      rw [contextType?] at h
      cases hKind : n.kind
      case document =>
        rw [hKind] at h
        cases h
      case operationDefinition =>
        rw [hKind] at h
        rcases Option.bind_eq_some_iff.mp h with ⟨_, _, ht⟩
        exact type?_mem ht
      case fragmentDefinition =>
        rw [hKind] at h
        rcases Option.bind_eq_some_iff.mp h with ⟨_, _, ht⟩
        exact composite?_mem ht
      case inlineFragment =>
        rw [hKind] at h
        dsimp only at h
        split at h
        · exact composite?_mem h
        · exact ih h
      case field =>
        rw [hKind] at h
        rcases Option.bind_eq_some_iff.mp h with ⟨_, _, ht⟩
        exact composite?_mem ht
      all_goals
        rw [hKind] at h
        exact ih h

/- A field is selected from a type, or is known to all. -/
theorem fieldAt?_mem
    {name : String}
    {outer : List Node}
    {f : FieldDefinition}
    (h : s.fieldAt? name outer = some (t, f)) :
    t ∈ s.types ∧ (f ∈ t.fields ∨ f = typenameField) := by
  rcases bind_pair_eq_some_iff.mp h with ⟨ht, hf⟩
  refine ⟨contextType?_mem ht, ?_⟩
  unfold TypeDefinition.selected? at hf
  split at hf
  · cases hf
    exact .inr rfl
  · exact .inl (List.mem_of_find?_eq_some hf)

variable (hAttached : s.Attached)

include hAttached

theorem Attached.fieldAt?_informs
    {name : String}
    {outer : List Node}
    {f : FieldDefinition}
    (h : s.fieldAt? name outer = some (t, f)) :
    s.Informs f.directives ∧
      ∀ a ∈ f.arguments, s.Informs a.directives := by
  rcases fieldAt?_mem h with ⟨ht, hf | rfl⟩
  · exact ⟨hAttached.fields t ht f hf,
      hAttached.fieldArguments t ht f hf⟩
  · exact ⟨List.forall_mem_nil _, List.forall_mem_nil _⟩

theorem Attached.argumentElement?_informs
    {name : String}
    {ancestors : List Node}
    {e : Entity}
    (h : s.argumentElement? name ancestors = some e) :
    s.Informs e.uses := by
  cases ancestors with
  | nil => cases h
  | cons owner outer =>
      rw [argumentElement?] at h
      split at h
      · rcases Option.bind_eq_some_iff.mp h with ⟨d, hd, h⟩
        rcases Option.map_eq_some_iff.mp h with ⟨a, ha, rfl⟩
        exact hAttached.directiveArguments d
          (List.mem_of_find?_eq_some hd) a
          (List.mem_of_find?_eq_some ha)
      · rcases Option.bind_eq_some_iff.mp h with
          ⟨⟨t, f⟩, hf, h⟩
        rcases Option.map_eq_some_iff.mp h with ⟨a, ha, rfl⟩
        exact (hAttached.fieldAt?_informs hf).2 a
          (List.mem_of_find?_eq_some ha)

/- The uses of directives on an element know their defaults. -/
theorem Attached.element?_informs
    {leaf : Node}
    {ancestors : List Node}
    {e : Entity}
    (h : s.element? leaf ancestors = some e) :
    s.Informs e.uses := by
  unfold element? at h
  split at h
  · rcases Option.map_eq_some_iff.mp h with ⟨⟨t, f⟩, hf, rfl⟩
    exact (hAttached.fieldAt?_informs hf).1
  · exact hAttached.argumentElement?_informs h
  · rcases Option.map_eq_some_iff.mp h with ⟨d, _, rfl⟩
    exact List.forall_mem_nil _
  · rcases Option.map_eq_some_iff.mp h with ⟨⟨t, v⟩, hv, rfl⟩
    rcases bind_pair_eq_some_iff.mp hv with ⟨ht, hv⟩
    exact hAttached.values t
      (typeOf?_mem (Option.filter_eq_some_iff.mp ht).1) v
      (List.mem_of_find?_eq_some hv)
  · rcases Option.map_eq_some_iff.mp h with ⟨⟨t, f⟩, hf, rfl⟩
    rcases bind_pair_eq_some_iff.mp hf with ⟨ht, hf⟩
    exact hAttached.fields t
      (typeOf?_mem (Option.filter_eq_some_iff.mp ht).1) f
      (List.mem_of_find?_eq_some hf)
  · cases h

end Schema

end QueryHover
