import QueryHover.Hover.Candidates
import QueryHover.Proofs.ByteOrder
import QueryHover.Proofs.FieldTyping
import QueryHover.Proofs.Loading

/-
  The names that are listed and the names that are found.

  The name of a field, a directive or an argument is looked
  up in an owner: the type that is selected from, the schema,
  or the directive or field that the argument is given to.
  Candidates list the entries of the owner; an annotation
  looks one of them up. Both know the same names, whatever
  order the directives of the schema have.

  Main declarations:
    * `Owner`
    * `Schema.ownerAt?`
    * `Entity.Describes`
    * `candidates?_reverse_cons`
    * `describes_iff`
    * `candidates?_agree`
-/

namespace QueryHover

------------------------------------------------------------
-- Owners
------------------------------------------------------------

/- A name is among those of a list if it is found there. -/
theorem mem_map_iff_find?
    {α : Type}
    (name : α → String)
    (items : List α)
    (key : String) :
    key ∈ items.map name ↔
      (items.find? fun x => name x = key).isSome := by
  rw [List.find?_isSome, List.mem_map]
  simp only [decide_eq_true_eq]

/- What the name of a leaf is looked up in. -/
inductive Owner where
  | type (t : TypeDefinition)
  | schema (s : Schema)
  | directive (d : DirectiveDefinition)
  | field (f : FieldDefinition)

namespace Owner

/- The names of all entries. -/
def names :
    Owner → List String
  | type t =>
      typenameField.name :: t.fields.map FieldDefinition.name
  | schema s => s.directives.map DirectiveDefinition.name
  | directive d => d.arguments.map ArgumentDefinition.name
  | field f => f.arguments.map ArgumentDefinition.name

/- An entry of the name is found. -/
def Has
    (owner : Owner)
    (name : String) : Prop :=
  match owner with
  | type t => (t.selected? name).isSome
  | schema s => (s.directive? name).isSome
  | directive d => (d.argument? name).isSome
  | field f => (f.argument? name).isSome

instance
    (owner : Owner)
    (name : String) :
    Decidable (owner.Has name) :=
  match owner with
  | type _ => inferInstanceAs (Decidable (Option.isSome _))
  | schema _ => inferInstanceAs (Decidable (Option.isSome _))
  | directive _ => inferInstanceAs (Decidable (Option.isSome _))
  | field _ => inferInstanceAs (Decidable (Option.isSome _))

/- The names that are listed are the names that are found. -/
theorem mem_names_iff
    (owner : Owner)
    (name : String) :
    name ∈ owner.names ↔ owner.Has name := by
  cases owner with
  | type t =>
      unfold names Has
      dsimp only
      unfold TypeDefinition.selected?
      rw [List.mem_cons]
      split
      case isTrue hName =>
        exact iff_of_true (.inl hName) rfl
      case isFalse hName =>
        rw [or_iff_right hName]
        exact mem_map_iff_find? FieldDefinition.name _ name
  | schema s =>
      exact mem_map_iff_find? DirectiveDefinition.name _ name
  | directive d =>
      exact mem_map_iff_find? ArgumentDefinition.name _ name
  | field f =>
      exact mem_map_iff_find? ArgumentDefinition.name _ name

end Owner

/-
  What the name of a node of some kind is looked up in below
  some nodes. Nodes of other kinds have no candidates.
-/
def Schema.ownerAt?
    (schema : Schema)
    (kind : Node.Kind)
    (ancestors : List Node) : Option Owner :=
  let c := Context.along schema ancestors.reverse
  match kind with
  | .field => c.composite.map .type
  | .directive => some (.schema schema)
  | .argument =>
      if ancestors.head?.any fun n => n.kind = .directive then
        c.directive.map .directive
      else
        c.field.map .field
  | _ => none

------------------------------------------------------------
-- Listed Names
------------------------------------------------------------

variable {schema : Schema}

section

variable (leaf : Node)
variable (ancestors : List Node)

@[simp] theorem Chain.leaf?_reverse_cons :
    Chain.leaf? (leaf :: ancestors).reverse = some leaf := by
  unfold Chain.leaf?
  rw [List.getLast?_reverse, List.head?_cons]

/- Candidates are what the owner lists, in order. -/
theorem candidates?_reverse_cons :
    candidates? (some schema) (leaf :: ancestors).reverse =
      (schema.ownerAt? leaf.kind ancestors).map fun owner =>
        sortTexts owner.names := by
  unfold candidates? Context.names? Schema.ownerAt?
    Context.around
  rw [Chain.leaf?_reverse_cons, List.reverse_cons,
    List.dropLast_concat]
  dsimp only [Option.bind_eq_bind, Option.bind_some]
  cases leaf.kind
  case field =>
    cases (Context.along schema ancestors.reverse).composite with
    | none => rfl
    | some t => rfl
  case directive => rfl
  case argument =>
    cases ancestors with
    | nil => rfl
    | cons n outer =>
        rw [Chain.leaf?_reverse_cons]
        simp only [Option.bind_some, List.head?_cons,
          Option.any_some, decide_eq_true_eq]
        generalize Context.along schema (n :: outer).reverse = c
        by_cases hKind : n.kind = .directive
        · rw [if_pos hKind, if_pos hKind]
          cases c.directive with
          | none => rfl
          | some d => rfl
        · rw [if_neg hKind, if_neg hKind]
          cases c.field with
          | none => rfl
          | some f => rfl
  all_goals rfl

theorem mem_sortTexts
    {name : String}
    {texts : List String} :
    name ∈ sortTexts texts ↔ name ∈ texts :=
  List.mem_mergeSort

/- A name is listed if the owner has it. -/
theorem mem_candidates?_iff
    (name : String) :
    name ∈
        (candidates? (some schema)
          (leaf :: ancestors).reverse).getD [] ↔
      ∃ owner ∈ schema.ownerAt? leaf.kind ancestors,
        owner.Has name := by
  rw [candidates?_reverse_cons]
  cases schema.ownerAt? leaf.kind ancestors with
  | none => simp
  | some owner => simp [mem_sortTexts, Owner.mem_names_iff]

/- Only an owner without the name speaks against it. -/
theorem isKnown_eq_false_iff :
    isKnown (some schema) (leaf :: ancestors).reverse = false ↔
      ∃ owner ∈ schema.ownerAt? leaf.kind ancestors,
        ¬owner.Has leaf.name := by
  unfold isKnown
  rw [candidates?_reverse_cons, Chain.leaf?_reverse_cons]
  cases schema.ownerAt? leaf.kind ancestors with
  | none => simp
  | some owner => simp [mem_sortTexts, Owner.mem_names_iff]

end

------------------------------------------------------------
-- Names That Are Found
------------------------------------------------------------

namespace Entity

/- The kind of node that names an element, and its name. -/
def named? :
    Entity → Option (Node.Kind × String)
  | .field _ f => f.map fun f => (.field, f.name)
  | .argument _ _ _ a => a.map fun a => (.argument, a.name)
  | .directive d => d.map fun d => (.directive, d.name)
  | _ => none

/- The entity is the element that the node names. -/
def Describes
    (e : Entity)
    (n : Node) : Prop :=
  e.named? = some (n.kind, n.name)

instance
    (e : Entity)
    (n : Node) :
    Decidable (e.Describes n) := by
  unfold Describes
  infer_instance

end Entity

/- A leaf is itself what is described of its chain. -/
def Schema.Describes
    (schema : Schema)
    (leaf : Node)
    (ancestors : List Node) : Prop :=
  ∃ e ∈ annotate? (some schema) (leaf :: ancestors).reverse,
    e.Describes leaf

namespace Context

/- Outside of values a directive comes before its field. -/
theorem clearInput_nearest?
    (c : Context) :
    c.clearInput.nearest? =
      (c.directive.map fun d => .directive (some d)).or
        (c.field.map fun f => .field c.parent (some f)) := by
  unfold nearest? clearInput
  cases c.directive with
  | some d => rfl
  | none =>
      cases c.field with
      | some f => rfl
      | none => rfl

/- An argument that is not found leaves what is around it. -/
theorem enterArgument_nearest?_of_none
    {c : Context}
    {parent : Option Node}
    {n : Node}
    (h : (c.enterArgument parent n).argument = none) :
    (c.enterArgument parent n).nearest? =
      c.clearInput.nearest? := by
  unfold enterArgument at h ⊢
  dsimp only at h ⊢
  rw [h]
  rfl

/- An argument comes before what it is given to. -/
theorem nearest?_argument
    {c : Context}
    {a : ArgumentDefinition}
    (hValue : c.enumValue = none)
    (hInput : c.inputField = none)
    (h : c.argument = some a) :
    ∃ p f d, c.nearest? = some (.argument p f d (some a)) := by
  unfold nearest?
  rw [hValue, hInput, h]
  cases c.argumentDirective with
  | none => exact ⟨_, _, _, rfl⟩
  | some d => exact ⟨_, _, _, rfl⟩

theorem enterArgument_name
    {c : Context}
    {parent : Option Node}
    {n : Node}
    {a : ArgumentDefinition}
    (h : (c.enterArgument parent n).argument = some a) :
    a.name = n.name := by
  unfold enterArgument at h
  dsimp only at h
  split at h
  · rcases Option.bind_eq_some_iff.mp h with ⟨d, _, hFound⟩
    simpa using List.find?_some hFound
  · rcases Option.bind_eq_some_iff.mp h with ⟨f, _, hFound⟩
    simpa using List.find?_some hFound

end Context

instance
    (schema : Schema)
    (leaf : Node)
    (ancestors : List Node) :
    Decidable (schema.Describes leaf ancestors) := by
  unfold Schema.Describes
  infer_instance

theorem TypeDefinition.selected?_name
    {t : TypeDefinition}
    {name : String}
    {f : FieldDefinition}
    (h : t.selected? name = some f) :
    f.name = name := by
  unfold selected? at h
  split at h
  case isTrue hName =>
    cases h
    exact hName.symm
  case isFalse => simpa using List.find?_some h

section

variable {leaf : Node}
variable (ancestors : List Node)

/- A field is found if the type that is selected from has it. -/
theorem describes_field
    (hLeaf : leaf.kind = .field) :
    schema.Describes leaf ancestors ↔
      ∃ owner ∈ schema.ownerAt? .field ancestors,
        owner.Has leaf.name := by
  unfold Schema.Describes Schema.ownerAt?
  rw [annotate?_reverse_cons]
  unfold Context.entity? Context.enter
  rw [hLeaf]
  dsimp only
  rw [Context.enterField_nearest?]
  cases (Context.along schema ancestors.reverse).composite with
  | none => simp
  | some t =>
      cases hFound : t.selected? leaf.name with
      | none => simp [hFound, Owner.Has]
      | some f =>
          have hName := TypeDefinition.selected?_name hFound
          simp [hFound, Owner.Has, Entity.Describes,
            Entity.named?, hLeaf, hName]

theorem describes_directive
    (hLeaf : leaf.kind = .directive) :
    schema.Describes leaf ancestors ↔
      ∃ owner ∈ schema.ownerAt? .directive ancestors,
        owner.Has leaf.name := by
  unfold Schema.Describes Schema.ownerAt?
  rw [annotate?_reverse_cons]
  unfold Context.entity? Context.enter
  rw [hLeaf]
  dsimp only
  generalize Context.along schema ancestors.reverse = c
  have hNearest := Context.clearInput_nearest?
    { c with directive := schema.directive? leaf.name }
  unfold Context.clearInput at hNearest ⊢
  dsimp only at hNearest ⊢
  rw [hNearest]
  cases hFound : schema.directive? leaf.name with
  | none =>
      simp [hFound, Owner.Has, Entity.Describes, Entity.named?,
        hLeaf]
  | some d =>
      have hName : d.name = leaf.name := by
        simpa using List.find?_some hFound
      simp [hFound, Owner.Has, Entity.Describes, Entity.named?,
        hLeaf, hName]

theorem describes_argument
    (hLeaf : leaf.kind = .argument) :
    schema.Describes leaf ancestors ↔
      ∃ owner ∈ schema.ownerAt? .argument ancestors,
        owner.Has leaf.name := by
  unfold Schema.Describes Schema.ownerAt?
  rw [annotate?_reverse_cons]
  unfold Context.entity? Context.enter
  rw [hLeaf]
  dsimp only
  generalize Context.along schema ancestors.reverse = c
  have hFound :
      (c.enterArgument ancestors.head? leaf).argument.isSome ↔
        ∃ owner ∈
          if ancestors.head?.any fun n => n.kind = .directive then
            c.directive.map Owner.directive
          else
            c.field.map Owner.field,
          owner.Has leaf.name := by
    unfold Context.enterArgument
    dsimp only
    split
    · cases c.directive with
      | none => simp
      | some d => simp [Owner.Has]
    · cases c.field with
      | none => simp
      | some f => simp [Owner.Has]
  rw [← hFound]
  cases h : (c.enterArgument ancestors.head? leaf).argument with
  | none =>
      rw [Context.enterArgument_nearest?_of_none h,
        Context.clearInput_nearest?]
      cases c.directive with
      | some d => simp [Entity.Describes, Entity.named?, hLeaf]
      | none => simp [Entity.Describes, Entity.named?, hLeaf]
  | some a =>
      have hName := Context.enterArgument_name h
      rcases Context.nearest?_argument rfl rfl h with
        ⟨p, f, d, hNearest⟩
      rw [hNearest]
      simp [Entity.Describes, Entity.named?, hLeaf, hName]

/- Exactly what the owner has is found. -/
theorem describes_iff
    (leaf : Node) :
    schema.Describes leaf ancestors ↔
      ∃ owner ∈ schema.ownerAt? leaf.kind ancestors,
        owner.Has leaf.name := by
  cases hLeaf : leaf.kind
  case field => exact describes_field ancestors hLeaf
  case directive => exact describes_directive ancestors hLeaf
  case argument => exact describes_argument ancestors hLeaf
  all_goals
    refine iff_of_false ?_ ?_
    · rintro ⟨e, _, he⟩
      unfold Entity.Describes at he
      rw [hLeaf] at he
      cases e
      all_goals simp [Entity.named?] at he
    · rintro ⟨owner, h, _⟩
      cases h

end

------------------------------------------------------------
-- The Order of Names and of Directives
------------------------------------------------------------

theorem sortTexts_ordered
    (texts : List String) :
    (sortTexts texts).Pairwise fun s t => ¬Text.ByteLess t s := by
  have hSorted :
      (sortTexts texts).Pairwise fun s t =>
        (!decide (t < s)) = true := by
    apply List.pairwise_mergeSort
    · intro a b c hab hbc
      simp only [Bool.not_eq_true', decide_eq_false_iff_not,
        String.not_lt] at hab hbc ⊢
      exact String.le_trans hab hbc
    · intro a b
      simp only [Bool.or_eq_true, Bool.not_eq_true',
        decide_eq_false_iff_not, String.not_lt]
      exact String.le_total a b
  refine hSorted.imp ?_
  intro s t h
  rw [Text.byteLess_iff]
  simpa using h

theorem candidates?_ordered
    (leaf : Node)
    (ancestors : List Node) :
    ((candidates? (some schema)
      (leaf :: ancestors).reverse).getD []).Pairwise
        fun s t => ¬Text.ByteLess t s := by
  rw [candidates?_reverse_cons]
  cases schema.ownerAt? leaf.kind ancestors with
  | none => exact List.Pairwise.nil
  | some owner => exact sortTexts_ordered owner.names

theorem sortTexts_perm
    {texts texts' : List String}
    (h : texts.Perm texts') :
    sortTexts texts = sortTexts texts' := by
  refine List.Perm.eq_of_pairwise ?_ (sortTexts_ordered texts)
    (sortTexts_ordered texts') ?_
  · intro s t _ _ hst hts
    rw [Text.byteLess_iff, String.not_lt] at hst hts
    exact String.le_antisymm hst hts
  · exact (List.mergeSort_perm texts _).trans
      (h.trans (List.mergeSort_perm texts' _).symm)

section

variable {α : Type}
variable {name : α → String}
variable {items items' : List α}

/- Where names differ, an item is found by its name. -/
theorem find?_eq_some_iff_of_distinct
    (hDistinct : (items.map name).Nodup)
    {key : String}
    {a : α} :
    (items.find? fun x => name x = key) = some a ↔
      a ∈ items ∧ name a = key := by
  constructor
  · intro h
    exact ⟨List.mem_of_find?_eq_some h,
      by simpa using List.find?_some h⟩
  · rintro ⟨ha, rfl⟩
    induction items with
    | nil => cases ha
    | cons x rest ih =>
        rw [List.map_cons, List.nodup_cons] at hDistinct
        rcases List.mem_cons.mp ha with rfl | hRest
        · simp
        · have hNot : name x ≠ name a := by
            intro hSame
            apply hDistinct.1
            rw [hSame]
            exact List.mem_map_of_mem hRest
          rw [List.find?_cons_of_neg (by simpa using hNot)]
          exact ih hDistinct.2 hRest

theorem find?_perm
    (h : items'.Perm items)
    (hDistinct : (items.map name).Nodup)
    (key : String) :
    (items'.find? fun x => name x = key) =
      items.find? fun x => name x = key := by
  have hDistinct' := (h.map name).nodup_iff.mpr hDistinct
  apply Option.ext
  intro a
  rw [find?_eq_some_iff_of_distinct hDistinct,
    find?_eq_some_iff_of_distinct hDistinct', h.mem_iff]

end

/- The schema with its directives in another order. -/
def Schema.withDirectives
    (schema : Schema)
    (directives : List DirectiveDefinition) : Schema :=
  { schema with directives := directives }

section

variable {directives : List DirectiveDefinition}

/- Contexts only look directives up. -/
theorem Context.along_withDirectives
    (h : directives.Perm schema.directives)
    (hNames : schema.WellNamed)
    (chain : Chain) :
    along (schema.withDirectives directives) chain =
      along schema chain := by
  have hEnter (c : Context) (parent : Option Node) (n : Node) :
      c.enter (schema.withDirectives directives) parent n =
        c.enter schema parent n := by
    unfold enter
    cases n.kind
    case directive =>
      have hFound := find?_perm h hNames.distinct n.name
      dsimp only
      congr 1
    all_goals rfl
  have hFrom (parent : Option Node) (c : Context) :
      alongFrom (schema.withDirectives directives) parent c
          chain =
        alongFrom schema parent c chain := by
    induction chain generalizing parent c with
    | nil => rfl
    | cons n rest ih =>
        unfold alongFrom
        rw [hEnter]
        exact ih (some n) _
  exact hFrom none {}

theorem candidates?_withDirectives
    (h : directives.Perm schema.directives)
    (hNames : schema.WellNamed)
    (leaf : Node)
    (ancestors : List Node) :
    candidates? (some (schema.withDirectives directives))
        (leaf :: ancestors).reverse =
      candidates? (some schema) (leaf :: ancestors).reverse := by
  rw [candidates?_reverse_cons, candidates?_reverse_cons]
  unfold Schema.ownerAt?
  rw [Context.along_withDirectives h hNames]
  cases leaf.kind
  case directive =>
    exact congrArg some (sortTexts_perm (h.map _))
  all_goals rfl

end

------------------------------------------------------------
-- Agreement
------------------------------------------------------------

/-
  Candidates and annotations know the same names. A leaf is
  known by its name, with candidates at hand, exactly if it
  is itself what is described. It is not known exactly if
  there is an owner to look it up in that has no entry of
  the name. The candidates are the names under which the leaf
  would be described, in the order of their bytes, whatever
  order the directives of the schema have.
-/
theorem candidates?_agree
    {file : String}
    {text : List Char}
    {schema : Schema}
    (hLoad : Schema.load file text = .ok schema)
    (leaf : Node)
    (ancestors : List Node) :
    let chain := (leaf :: ancestors).reverse
    ((∃ names ∈ candidates? (some schema) chain, names ≠ []) ∧
          isKnown (some schema) chain = true ↔
        schema.Describes leaf ancestors) ∧
      (isKnown (some schema) chain = false ↔
        ∃ owner ∈ schema.ownerAt? leaf.kind ancestors,
          ¬owner.Has leaf.name) ∧
      (∀ name,
        name ∈ (candidates? (some schema) chain).getD [] ↔
          schema.Describes { leaf with name := name }
            ancestors) ∧
      ((candidates? (some schema) chain).getD []).Pairwise
        (fun s t => ¬Text.ByteLess t s) ∧
      ∀ directives, directives.Perm schema.directives →
        candidates? (some (schema.withDirectives directives))
            chain =
          candidates? (some schema) chain ∧
        isKnown (some (schema.withDirectives directives))
            chain =
          isKnown (some schema) chain := by
  have hNames := Schema.load_wellNamed hLoad
  have hUnknown :=
    @isKnown_eq_false_iff schema leaf ancestors
  refine ⟨?_, hUnknown, ?_, candidates?_ordered leaf ancestors,
    ?_⟩
  · rw [describes_iff, ← Bool.not_eq_false, hUnknown,
      candidates?_reverse_cons]
    cases schema.ownerAt? leaf.kind ancestors with
    | none => simp
    | some owner =>
        simp only [Option.map_some, Option.mem_some_iff,
          exists_eq_left', not_not]
        rw [and_iff_right_of_imp]
        intro h
        have hMem := (owner.mem_names_iff leaf.name).mpr h
        exact List.ne_nil_of_mem (mem_sortTexts.mpr hMem)
  · intro name
    rw [mem_candidates?_iff, describes_iff]
  · intro directives hPerm
    have hSame :=
      candidates?_withDirectives hPerm hNames leaf ancestors
    refine ⟨hSame, ?_⟩
    unfold isKnown
    rw [hSame]

theorem candidates?_agree_misspelt :
    let leaf : Node := { kind := .field, name := "feild" }
    let operation : Node := { kind := .operationDefinition }
    ∃ schema,
      Schema.load "schema"
          "type Query\x7bfield:Int\x7d".toList =
        .ok schema ∧
      isKnown (some schema) [operation, leaf] = false ∧
      "field" ∈
        (candidates? (some schema) [operation, leaf]).getD [] ∧
      schema.Describes { leaf with name := "field" }
        [operation] := by
  intro leaf operation
  let view (schema : Schema) :=
    (decide (∃ owner ∈ schema.ownerAt? .field [operation],
      ¬owner.Has "feild"),
      decide (schema.Describes { leaf with name := "field" }
        [operation]))
  have hSeen :
      (Schema.load "schema"
        "type Query\x7bfield:Int\x7d".toList).toOption.map view =
        some (true, true) := by
    decide +kernel
  rcases Option.map_eq_some_iff.mp hSeen with
    ⟨schema, hSchema, hView⟩
  simp only [view, Prod.mk.injEq, decide_eq_true_eq] at hView
  have hLoad := eq_ok_of_toOption hSchema
  have hAgree := candidates?_agree hLoad leaf [operation]
  exact ⟨schema, hLoad, hAgree.2.1.mpr hView.1,
    (hAgree.2.2.1 "field").mpr hView.2, hView.2⟩

end QueryHover
