import Mathlib.Tactic.SplitIfs
import QueryHover.Hover.Answer
import QueryHover.Proofs.Innermost
import QueryHover.Proofs.Naming

/-
  What a context knows belongs together.

  Entering a node sets some parts of a context, keeps others
  and forgets the rest. Whatever the nodes are, a field that
  is left belongs to the parent that is left, an argument to
  the directive or the field, and so on. Hence an entity has
  all the definitions that its text mentions, and only where
  there is no entity is there no text.

  Main declarations:
    * `Context.Grounded`
    * `Context.Grounded.enter`
    * `Entity.Complete`
    * `Context.Spoken`
    * `Context.along_complete`
-/

namespace QueryHover

------------------------------------------------------------
-- Grounded Contexts
------------------------------------------------------------

/- What is found by its name is found by its own name. -/
theorem find?_own_name
    {α : Type}
    {name : α → String}
    {items : List α}
    {key : String}
    {a : α}
    (h : items.find? (fun x => name x = key) = some a) :
    items.find? (fun x => name x = name a) = some a := by
  have hName : name a = key := by
    simpa using List.find?_some h
  rw [hName]
  exact h

namespace Context

/-
  A context whose parts belong together: a field to its
  parent, an argument to the directive it was looked up in or
  else to the field, an input field and an enum value to
  their types, a named type to the schema.
-/
structure Grounded
    (schema : Schema)
    (c : Context) : Prop where
  field :
    ∀ f ∈ c.field, ∃ p ∈ c.parent,
      p.field? f.name = some f ∨ f = typenameField
  argument :
    ∀ a ∈ c.argument,
      (∃ d ∈ c.argumentDirective,
        d.argument? a.name = some a) ∨
      (c.argumentDirective = none ∧
        ∃ f ∈ c.field, f.argument? a.name = some a)
  inputField :
    ∀ f ∈ c.inputField, ∃ t ∈ c.inputParent,
      t.kind = .inputObject ∧ t.field? f.name = some f
  enumValue :
    ∀ v ∈ c.enumValue, ∃ t ∈ c.enumType,
      t.kind = .enum ∧ t.value? v.name = some v
  namedType :
    ∀ t ∈ c.namedType, schema.type? t.name = some t

variable {schema : Schema}
variable {c : Context}

/- A context that knows of no field and no value. -/
theorem Grounded.fresh
    (document definition : Option Node)
    (composite : Option TypeDefinition) :
    Grounded schema { document, definition, composite } := by
  constructor
  all_goals
    intro x hx
    cases hx

/- Values may be forgotten; the field stays with its parent. -/
theorem Grounded.clearInput
    (h : c.Grounded schema) :
    c.clearInput.Grounded schema := by
  refine ⟨h.field, ?_, ?_, ?_, ?_⟩
  all_goals
    intro x hx
    cases hx

/- A field that is looked up belongs to the current type. -/
theorem mem_lookupField?
    {name : String}
    {f : FieldDefinition}
    (h : f ∈ c.lookupField? name) :
    ∃ p ∈ c.composite,
      p.field? f.name = some f ∨ f = typenameField := by
  unfold lookupField? at h
  cases hType : c.composite with
  | none =>
      rw [hType] at h
      cases h
  | some p =>
      rw [hType] at h
      dsimp only at h
      split_ifs at h with hName
      · cases h
        exact ⟨p, rfl, .inr rfl⟩
      · exact ⟨p, rfl, .inl (find?_own_name h)⟩

theorem Grounded.enterField
    (h : c.Grounded schema)
    (n : Node) :
    (c.enterField schema n).Grounded schema := by
  unfold Context.enterField
  have hCleared := h.clearInput
  cases hField : c.lookupField? n.name with
  | none =>
      refine ⟨?_, ?_, hCleared.inputField,
        hCleared.enumValue, hCleared.namedType⟩
      · intro f hf
        cases hf
      · intro a ha
        cases ha
  | some f =>
      refine ⟨?_, ?_, hCleared.inputField,
        hCleared.enumValue, hCleared.namedType⟩
      · intro g hg
        cases hg
        exact mem_lookupField? hField
      · intro a ha
        cases ha

/-
  An argument is looked up either in the directive or in the
  field, and the context remembers in which.
-/
theorem Grounded.enterArgument
    (h : c.Grounded schema)
    (parent : Option Node)
    (n : Node) :
    (c.enterArgument parent n).Grounded schema := by
  have hCleared := h.clearInput
  unfold Context.enterArgument
  refine ⟨hCleared.field, ?_, hCleared.inputField,
    hCleared.enumValue, hCleared.namedType⟩
  dsimp only
  split_ifs with hDirective
  · intro a ha
    rcases Option.bind_eq_some_iff.mp ha with ⟨d, hd, ha⟩
    exact .inl ⟨d, hd, find?_own_name ha⟩
  · intro a ha
    rcases Option.bind_eq_some_iff.mp ha with ⟨f, hf, ha⟩
    exact .inr ⟨rfl, f, hf, find?_own_name ha⟩

theorem Grounded.enterObjectField
    (h : c.Grounded schema)
    (n : Node) :
    (c.enterObjectField schema n).Grounded schema := by
  unfold Context.enterObjectField
  refine ⟨h.field, h.argument, ?_, h.enumValue, h.namedType⟩
  intro f hf
  rcases Option.bind_eq_some_iff.mp hf with ⟨t, ht, hf⟩
  have hKind := (Option.filter_eq_some_iff.mp ht).2
  exact ⟨t, ht, by simpa using hKind, find?_own_name hf⟩

theorem Grounded.enterEnumValue
    (h : c.Grounded schema)
    (n : Node) :
    (c.enterEnumValue schema n).Grounded schema := by
  unfold Context.enterEnumValue
  refine ⟨h.field, h.argument, h.inputField, ?_, h.namedType⟩
  intro v hv
  rcases Option.bind_eq_some_iff.mp hv with ⟨t, ht, hv⟩
  have hKind := (Option.filter_eq_some_iff.mp ht).2
  exact ⟨t, ht, by simpa using hKind, find?_own_name hv⟩

/- Entering any node keeps a context grounded. -/
theorem Grounded.enter
    (h : c.Grounded schema)
    (parent : Option Node)
    (n : Node) :
    (c.enter schema parent n).Grounded schema := by
  have hCleared := h.clearInput
  unfold Context.enter
  cases n.kind
  case document => exact Grounded.fresh _ _ _
  case operationDefinition => exact Grounded.fresh _ _ _
  case fragmentDefinition => exact Grounded.fresh _ _ _
  case inlineFragment =>
    dsimp only
    split_ifs
    · exact h
    · exact ⟨h.field, h.argument, h.inputField, h.enumValue,
        h.namedType⟩
  case field => exact h.enterField n
  case directive | variableDefinition =>
    exact ⟨hCleared.field, hCleared.argument,
      hCleared.inputField, hCleared.enumValue,
      hCleared.namedType⟩
  case argument => exact h.enterArgument parent n
  case variableUse | listValue =>
    exact ⟨h.field, h.argument, h.inputField, h.enumValue,
      h.namedType⟩
  case namedType =>
    refine ⟨h.field, h.argument, h.inputField, h.enumValue,
      ?_⟩
    intro t ht
    exact find?_own_name ht
  case objectField => exact h.enterObjectField n
  case enumValue => exact h.enterEnumValue n
  all_goals exact h

theorem Grounded.alongFrom
    (h : c.Grounded schema)
    (parent : Option Node)
    (chain : Chain) :
    (Context.alongFrom schema parent c chain).Grounded
      schema := by
  induction chain generalizing parent c with
  | nil => exact h
  | cons n chain ih => exact ih (h.enter parent n) (some n)

/- The context at the end of any chain is grounded. -/
theorem along_grounded
    (schema : Schema)
    (chain : Chain) :
    (along schema chain).Grounded schema :=
  (Grounded.fresh none none none).alongFrom none chain

end Context

------------------------------------------------------------
-- Complete Entities
------------------------------------------------------------

namespace Entity

/-
  An entity with all the definitions that its text mentions.
  An argument has either a directive or a field, which then
  has its parent; a type has a parent and a field, or none of
  the two.
-/
def Complete :
    Entity → Prop
  | .field p f => p.isSome ∧ f.isSome
  | .argument p f d a =>
      a.isSome ∧
        ((d.isSome ∧ p = none ∧ f = none) ∨
          (d = none ∧ p.isSome ∧ f.isSome))
  | .directive d => d.isSome
  | .enumValue e v => e.isSome ∧ v.isSome
  | .type t p f => t.isSome ∧ p.isSome = f.isSome
  | .variableType t => t.isSome

/- A complete entity has a text. -/
theorem Complete.isSome_sections?
    {e : Entity}
    (h : e.Complete) :
    e.sections?.isSome := by
  cases e with
  | field p f =>
      rcases p with _ | p
      · cases h.1
      rcases f with _ | f
      · cases h.2
      rfl
  | argument p f d a =>
      rcases a with _ | a
      · cases h.1
      rcases h.2 with ⟨hd, rfl, rfl⟩ | ⟨rfl, hp, hf⟩
      · rcases d with _ | d
        · cases hd
        rfl
      · rcases p with _ | p
        · cases hp
        rcases f with _ | f
        · cases hf
        rfl
  | directive d =>
      rcases d with _ | d
      · cases h
      rfl
  | enumValue e v =>
      rcases e with _ | e
      · cases h.1
      rcases v with _ | v
      · cases h.2
      rfl
  | type t p f =>
      rcases t with _ | t
      · cases h.1
      rcases p with _ | p
      · rfl
      rcases f with _ | f
      · cases h.2
      rfl
  | variableType t =>
      rcases t with _ | t
      · cases h
      rfl

end Entity

namespace Context

variable {schema : Schema}
variable {c : Context}

/- What a context may describe without looking elsewhere. -/
inductive Shows
    (c : Context) :
    Entity → Prop where
  | enumValue
      {v : EnumValueDefinition}
      (hValue : c.enumValue = some v) :
      Shows c (.enumValue c.enumType (some v))
  | inputField
      {f : FieldDefinition}
      (hField : c.inputField = some f) :
      Shows c (.field c.inputParent (some f))
  | directiveArgument
      {d : DirectiveDefinition} {a : ArgumentDefinition}
      (hArgument : c.argument = some a)
      (hOwner : c.argumentDirective = some d) :
      Shows c (.argument none none (some d) (some a))
  | fieldArgument
      {a : ArgumentDefinition}
      (hArgument : c.argument = some a)
      (hOwner : c.argumentDirective = none) :
      Shows c (.argument c.parent c.field none (some a))
  | directive
      {d : DirectiveDefinition}
      (hDirective : c.directive = some d) :
      Shows c (.directive (some d))
  | field
      {f : FieldDefinition}
      (hField : c.field = some f) :
      Shows c (.field c.parent (some f))
  | namedType
      {t : TypeDefinition}
      (hType : c.namedType = some t) :
      Shows c (c.typeEntity t)
  | variableType
      {t : TypeRef}
      (hType : c.variableType = some t) :
      Shows c (.variableType (some t))

theorem shows_of_mem_nearest?
    {e : Entity}
    (h : e ∈ c.nearest?) :
    c.Shows e := by
  unfold nearest? at h
  -- One case for each element that may be the nearest.
  split_ifs at h with
    hValue hInput hArgument hOwner hDirective hField hVariable
  · rcases Option.isSome_iff_exists.mp hValue with ⟨v, hv⟩
    rw [hv] at h
    cases h
    exact .enumValue hv
  · rcases Option.isSome_iff_exists.mp hInput with ⟨f, hf⟩
    rw [hf] at h
    cases h
    exact .inputField hf
  · rcases Option.isSome_iff_exists.mp hArgument with ⟨a, ha⟩
    rcases Option.isSome_iff_exists.mp hOwner with ⟨d, hd⟩
    rw [ha, hd] at h
    cases h
    exact .directiveArgument ha hd
  · rcases Option.isSome_iff_exists.mp hArgument with ⟨a, ha⟩
    rw [ha] at h
    cases h
    exact .fieldArgument ha
      (Option.not_isSome_iff_eq_none.mp hOwner)
  · rcases Option.isSome_iff_exists.mp hDirective with ⟨d, hd⟩
    rw [hd] at h
    cases h
    exact .directive hd
  · rcases Option.isSome_iff_exists.mp hField with ⟨f, hf⟩
    rw [hf] at h
    cases h
    exact .field hf
  · rcases Option.isSome_iff_exists.mp hVariable with ⟨v, hv⟩
    cases hType : c.namedType with
    | some t =>
        rw [hType] at h
        cases h
        exact .namedType hType
    | none =>
        rw [hType, hv] at h
        cases h
        exact .variableType hv
  · cases hType : c.namedType with
    | some t =>
        rw [hType] at h
        cases h
        exact .namedType hType
    | none =>
        rw [hType] at h
        cases h

/- Only a fragment spread is described from elsewhere. -/
theorem mem_entity?
    {leaf : Node}
    {e : Entity}
    (h : e ∈ c.entity? schema leaf) :
    c.Shows e ∨ e ∈ c.spreadEntity? schema leaf.name := by
  unfold entity? at h
  cases hKind : leaf.kind
  case fragmentSpread =>
    rw [hKind] at h
    exact .inr h
  case variableUse =>
    rw [hKind] at h
    dsimp only at h
    cases hType : c.variableType with
    | some t =>
        rw [hType] at h
        cases h
        exact .inl (.variableType hType)
    | none =>
        rw [hType] at h
        exact .inl (shows_of_mem_nearest? h)
  case namedType =>
    rw [hKind] at h
    dsimp only at h
    cases hType : c.namedType with
    | some t =>
        rw [hType] at h
        cases h
        exact .inl (.namedType hType)
    | none =>
        rw [hType] at h
        exact .inl (shows_of_mem_nearest? h)
  all_goals
    rw [hKind] at h
    exact .inl (shows_of_mem_nearest? h)

theorem mem_spreadEntity?
    {name : String}
    {e : Entity}
    (h : e ∈ c.spreadEntity? schema name) :
    ∃ document ∈ c.document,
      ∃ fragment ∈ document.fragmentNamed? name,
        ∃ condition ∈ fragment.childOfKind? .namedType,
          ∃ t ∈ schema.type? condition.name,
            e = .type (some t) none none := by
  unfold spreadEntity? at h
  simp only [Option.bind_eq_bind, Option.mem_def,
    Option.bind_eq_some_iff, Option.pure_def,
    Option.some.injEq] at h
  rcases h with
    ⟨document, hDocument, fragment, hFragment, condition,
      hCondition, t, ht, rfl⟩
  exact ⟨document, hDocument, fragment, hFragment, condition,
    hCondition, t, ht, rfl⟩

theorem Grounded.isSome_parent
    (h : c.Grounded schema)
    {f : FieldDefinition}
    (hField : c.field = some f) :
    c.parent.isSome := by
  rcases h.field f hField with ⟨p, hp, _⟩
  exact Option.isSome_of_mem hp

theorem Grounded.typeEntity_complete
    (h : c.Grounded schema)
    (t : TypeDefinition) :
    (c.typeEntity t).Complete := by
  unfold typeEntity
  cases hField : c.field with
  | none => exact ⟨rfl, rfl⟩
  | some f =>
      dsimp only
      split_ifs
      · exact ⟨rfl, h.isSome_parent hField⟩
      · exact ⟨rfl, rfl⟩

/- What a grounded context describes is complete. -/
theorem Grounded.complete_of_shows
    (h : c.Grounded schema)
    {e : Entity}
    (he : c.Shows e) :
    e.Complete := by
  cases he with
  | enumValue hValue =>
      rcases h.enumValue _ hValue with ⟨t, ht, _⟩
      exact ⟨Option.isSome_of_mem ht, rfl⟩
  | inputField hField =>
      rcases h.inputField _ hField with ⟨t, ht, _⟩
      exact ⟨Option.isSome_of_mem ht, rfl⟩
  | directiveArgument hArgument hOwner =>
      exact ⟨rfl, .inl ⟨rfl, rfl, rfl⟩⟩
  | fieldArgument hArgument hOwner =>
      rcases h.argument _ hArgument with
        ⟨d, hd, _⟩ | ⟨_, f, hf, _⟩
      · rw [hOwner] at hd
        cases hd
      · exact ⟨rfl, .inr ⟨rfl, h.isSome_parent hf,
          Option.isSome_of_mem hf⟩⟩
  | directive hDirective => rfl
  | field hField => exact ⟨h.isSome_parent hField, rfl⟩
  | namedType hType => exact h.typeEntity_complete _
  | variableType hType => rfl

/- The entity of any leaf is complete. -/
theorem Grounded.entity?_complete
    (h : c.Grounded schema)
    {leaf : Node}
    {e : Entity}
    (he : e ∈ c.entity? schema leaf) :
    e.Complete := by
  rcases mem_entity? he with hShows | hSpread
  · exact h.complete_of_shows hShows
  · rcases mem_spreadEntity? hSpread with
      ⟨_, _, _, _, _, _, t, _, rfl⟩
    exact ⟨rfl, rfl⟩

end Context

------------------------------------------------------------
-- Texts That Are Not Empty
------------------------------------------------------------

theorem TypeRef.render_ne_empty
    {t : TypeRef}
    (h : t.baseName ≠ "") :
    t.render ≠ "" := by
  cases t with
  | named name nonNull =>
      have hName : name ≠ "" := h
      simp [TypeRef.render, hName]
  | list element nonNull => simp [TypeRef.render]

namespace Entity

/- An entity whose text may be a mere name has that name. -/
def Spoken :
    Entity → Prop
  | .type (some t) _ _ => t.name ≠ ""
  | .variableType (some t) => t.baseName ≠ ""
  | _ => True

theorem join_ne_empty
    {signature : String}
    (h : signature ≠ "")
    (documentation : String) :
    Content.join signature documentation ≠ "" := by
  unfold Content.join
  split_ifs
  · exact h
  · simp

/- Signatures are not empty. -/
theorem Spoken.signature_ne_empty
    {e : Entity}
    (h : e.Spoken)
    {signature documentation : String}
    (hText : e.sections? = some (signature, documentation)) :
    signature ≠ "" := by
  unfold sections? at hText
  split at hText
  · cases hText
    simp [fieldSignature]
  · rcases Option.map_eq_some_iff.mp hText with
      ⟨owner, _, hPair⟩
    cases hPair
    simp
  · cases hText
    simp
  · cases hText
    simp
  · cases hText
    simp [fieldSignature]
  · cases hText
    exact h
  · cases hText
    exact TypeRef.render_ne_empty h
  · cases hText

/- A complete entity with its names has a text to show. -/
theorem Complete.content_ne_empty
    {e : Entity}
    (h : e.Complete)
    (hSpoken : e.Spoken) :
    content (some e) ≠ "" := by
  rcases Option.isSome_iff_exists.mp h.isSome_sections? with
    ⟨⟨signature, documentation⟩, hText⟩
  have hSignature := hSpoken.signature_ne_empty hText
  unfold content
  rw [Option.bind_some, hText]
  exact join_ne_empty hSignature documentation

end Entity

namespace Context

/-
  A context of nodes that are well named: the types that it
  may show by their names alone have names.
-/
structure Spoken
    (c : Context) : Prop where
  document : ∀ n ∈ c.document, n.WellNamed
  definition : ∀ n ∈ c.definition, n.WellNamed
  namedType : ∀ t ∈ c.namedType, t.name ≠ ""
  variableType : ∀ t ∈ c.variableType, t.baseName ≠ ""

variable {schema : Schema}
variable {c : Context}
variable {n : Node}

theorem Spoken.clearInput
    (h : c.Spoken) :
    c.clearInput.Spoken := by
  refine ⟨h.document, h.definition, ?_, ?_⟩
  all_goals
    intro t ht
    cases ht

/- A type that is found has the name it is found by. -/
theorem name_ne_empty_of_mem_type?
    {name : String}
    (hName : name ≠ "")
    {t : TypeDefinition}
    (ht : t ∈ schema.type? name) :
    t.name ≠ "" := by
  have hSame : t.name = name := by
    simpa using List.find?_some ht
  rw [hSame]
  exact hName

/- The declared type of a variable names a type. -/
theorem Spoken.variableType_of_definition
    (h : c.Spoken)
    (name : String) :
    ∀ t ∈ (c.definition.bind fun d =>
        d.variableNamed? name).bind Node.typeRef?,
      t.baseName ≠ "" := by
  intro t ht
  rcases Option.bind_eq_some_iff.mp ht with
    ⟨declared, hDeclared, hType⟩
  rcases Option.bind_eq_some_iff.mp hDeclared with
    ⟨d, hd, hFind⟩
  have hMem := List.mem_of_find?_eq_some hFind
  exact Node.WellNamed.typeRef?_baseName declared
    ((h.definition d hd).child hMem) t hType

/- Entering a definition starts anew with that node. -/
theorem Spoken.enterDefinition
    (h : c.Spoken)
    (hn : n.WellNamed)
    (composite : Option TypeDefinition) :
    (c.enterDefinition n composite).Spoken := by
  refine ⟨h.document, ?_, ?_, ?_⟩
  · intro m hm
    cases hm
    exact hn
  · intro t ht
    cases ht
  · intro t ht
    cases ht

/- Entering a well named node keeps the names. -/
theorem Spoken.enter
    (h : c.Spoken)
    (parent : Option Node)
    (hn : n.WellNamed) :
    (c.enter schema parent n).Spoken := by
  have hCleared := h.clearInput
  unfold Context.enter
  cases hKind : n.kind
  case document =>
    refine ⟨?_, ?_, ?_, ?_⟩
    · intro m hm
      cases hm
      exact hn
    all_goals
      intro x hx
      cases hx
  case operationDefinition => exact h.enterDefinition hn _
  case fragmentDefinition => exact h.enterDefinition hn _
  case inlineFragment =>
    dsimp only
    split_ifs
    · exact h
    · exact ⟨h.document, h.definition, h.namedType,
        h.variableType⟩
  case field =>
    dsimp only [Context.enterField]
    cases c.lookupField? n.name with
    | none =>
        exact ⟨hCleared.document, hCleared.definition,
          hCleared.namedType, hCleared.variableType⟩
    | some f =>
        exact ⟨hCleared.document, hCleared.definition,
          hCleared.namedType, hCleared.variableType⟩
  case directive | argument =>
    exact ⟨hCleared.document, hCleared.definition,
      hCleared.namedType, hCleared.variableType⟩
  case variableDefinition =>
    exact ⟨hCleared.document, hCleared.definition,
      hCleared.namedType,
      Node.WellNamed.typeRef?_baseName n hn⟩
  case variableUse =>
    exact ⟨h.document, h.definition, h.namedType,
      h.variableType_of_definition n.name⟩
  case namedType =>
    have hName := hn.name_ne_empty hKind
    exact ⟨h.document, h.definition,
      fun _ ht => name_ne_empty_of_mem_type? hName ht,
      h.variableType⟩
  case listValue | objectField | enumValue =>
    exact ⟨h.document, h.definition, h.namedType,
      h.variableType⟩
  all_goals exact h

theorem Spoken.alongFrom
    (h : c.Spoken)
    (parent : Option Node)
    {chain : Chain}
    (hChain : ∀ n ∈ chain, n.WellNamed) :
    (Context.alongFrom schema parent c chain).Spoken := by
  induction chain generalizing parent c with
  | nil => exact h
  | cons n chain ih =>
      rw [List.forall_mem_cons] at hChain
      exact ih (h.enter parent hChain.1) (some n) hChain.2

theorem along_spoken
    (schema : Schema)
    {chain : Chain}
    (hChain : ∀ n ∈ chain, n.WellNamed) :
    (along schema chain).Spoken := by
  refine Spoken.alongFrom ⟨?_, ?_, ?_, ?_⟩ none hChain
  all_goals
    intro x hx
    cases hx

/- What it describes by a name alone has that name. -/
theorem Spoken.spoken_of_shows
    (h : c.Spoken)
    {e : Entity}
    (he : c.Shows e) :
    e.Spoken := by
  cases he with
  | namedType hType =>
      have hName := h.namedType _ hType
      unfold typeEntity
      cases c.field with
      | none => exact hName
      | some f =>
          dsimp only
          split_ifs
          · exact hName
          · exact hName
  | variableType hType => exact h.variableType _ hType
  | _ => trivial

theorem Spoken.entity?
    (h : c.Spoken)
    {leaf : Node}
    {e : Entity}
    (he : e ∈ c.entity? schema leaf) :
    e.Spoken := by
  rcases mem_entity? he with hShows | hSpread
  · exact h.spoken_of_shows hShows
  · rcases mem_spreadEntity? hSpread with
      ⟨document, hDocument, fragment, hFragment, condition,
        hCondition, t, ht, rfl⟩
    have hMem := List.mem_of_find?_eq_some hFragment
    have hName :=
      ((h.document document hDocument).child
        hMem).condition_name_ne_empty hCondition
    exact name_ne_empty_of_mem_type? hName ht

end Context

------------------------------------------------------------
-- Answers
------------------------------------------------------------

/- What is described is described completely. -/
theorem annotate?_complete
    (schema : Option Schema)
    (chain : Chain) :
    ∀ e ∈ annotate? schema chain, e.Complete := by
  intro e he
  simp only [annotate?, Option.bind_eq_bind, Option.mem_def,
    Option.bind_eq_some_iff] at he
  rcases he with ⟨schema, rfl, leaf, _, hEntity⟩
  exact (Context.along_grounded schema chain).entity?_complete
    hEntity

/- On the chains of a text it can always be shown. -/
theorem annotate?_spoken
    {text : List Char}
    {root : Node}
    (h : Document.parse text = .ok root)
    (schema : Option Schema)
    (offset : Int) :
    ∀ e ∈ annotate? schema (Chain.resolve root offset),
      e.Spoken := by
  have hRoot := Document.parse_wellNamed h
  have hChain :
      ∀ n ∈ Chain.resolve root offset, n.WellNamed :=
    fun n hn =>
      hRoot.of_holds ((Chain.leads_resolve root offset).holds hn)
  intro e he
  simp only [annotate?, Option.bind_eq_bind, Option.mem_def,
    Option.bind_eq_some_iff] at he
  rcases he with ⟨schema, rfl, leaf, _, hEntity⟩
  exact (Context.along_spoken schema hChain).entity? hEntity

namespace Context

/-
  Contexts and entities. After any chain of nodes the parts
  of the context belong together. An entity that is found has
  all the definitions that its text mentions, and so has a
  text. In an answer to a hover the content is empty exactly
  if there is no entity.
-/
theorem along_complete
    (schema : Schema) :
    (∀ chain : Chain,
      (along schema chain).Grounded schema ∧
        ∀ e ∈ annotate? (some schema) chain,
          e.Complete ∧ e.sections?.isSome) ∧
      ∀ (text : List Char) (p : Position) (a : Answer),
        Answer.resolve (some schema) text p = .ok a →
          (a.content = "" ↔ a.entity = none) := by
  refine ⟨?_, ?_⟩
  · intro chain
    refine ⟨along_grounded schema chain, ?_⟩
    intro e he
    have hComplete := annotate?_complete _ chain e he
    exact ⟨hComplete, hComplete.isSome_sections?⟩
  · intro text p a hAnswer
    unfold Answer.resolve at hAnswer
    cases hParse : Document.parse text with
    | error e =>
        rw [hParse] at hAnswer
        cases hAnswer
    | ok root =>
        rw [hParse] at hAnswer
        cases hAnswer
        dsimp only [Answer.ofTree]
        cases hEntity :
            annotate? (some schema)
              (Chain.resolve root (p.offsetIn text)) with
        | none =>
            refine iff_of_true ?_ rfl
            rfl
        | some e =>
            have hComplete := annotate?_complete _ _ e hEntity
            have hSpoken := annotate?_spoken hParse _ _ e hEntity
            refine iff_of_false ?_ (by simp)
            exact hComplete.content_ne_empty hSpoken

theorem along_complete_argument :
    ∃ (schema : Schema) (e : Entity) (a : Answer),
      annotate? (some schema)
          [ { kind := .operationDefinition },
            { kind := .field, name := "f" },
            { kind := .argument, name := "a" } ] = some e ∧
        e.Complete ∧
        Answer.resolve (some schema)
            "\x7bf(a:1)\x7d".toList ⟨0, 3⟩ = .ok a ∧
        a.content = "Query.f(a: Int)" ∧ a.entity ≠ none := by
  let f : FieldDefinition :=
    { name := "f"
      arguments :=
        [{ name := "a", type := .named "Int" false }]
      type := .named "Int" false }
  let schema : Schema :=
    { types :=
        [{ kind := .object, name := "Query", fields := [f] }]
      query := some "Query" }
  have hEntity :
      annotate? (some schema)
          [ { kind := .operationDefinition },
            { kind := .field, name := "f" },
            { kind := .argument, name := "a" } ] =
        some (.argument schema.types.head? (some f) none
          f.arguments.head?) :=
    rfl
  have hContent :
      (Answer.resolve (some schema)
        "\x7bf(a:1)\x7d".toList ⟨0, 3⟩).toOption.map
          Answer.content = some "Query.f(a: Int)" := by
    decide +kernel
  have hResult := along_complete schema
  cases hAnswer :
      Answer.resolve (some schema)
        "\x7bf(a:1)\x7d".toList ⟨0, 3⟩ with
  | error e =>
      rw [hAnswer] at hContent
      cases hContent
  | ok a =>
      rw [hAnswer] at hContent
      have hText := Option.some.inj hContent
      refine ⟨schema, _, a, hEntity,
        ((hResult.1 _).2 _ hEntity).1, hAnswer, hText, ?_⟩
      intro hNone
      have hEmpty := (hResult.2 _ _ a hAnswer).mpr hNone
      rw [hText] at hEmpty
      exact absurd hEmpty (by decide)

end Context

end QueryHover
