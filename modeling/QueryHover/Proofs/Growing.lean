import Mathlib.Tactic.MkIffOfInductiveProp
import QueryHover.Proofs.Elements

/-
  Schemas that grow.

  A schema grows by more types, fields, arguments, enum values
  and directives, while those that were there stay as they
  are. What was found by its name is found again, so that a
  node which names an element still names it.

  The text of an element stays the same as well, with one
  exception. An element that is deprecated without a reason
  takes the default of the schema, and a schema that declares
  no reason for deprecations may grow to one that does.

  Main declarations:
    * `Schema.GrowsTo`
    * `Kept`
    * `Schema.GrowsTo.element?`
    * `Entity.GrowsTo.content_eq`
    * `Schema.growsTo_of_assemble`
    * `describesAs_growsTo`
-/

namespace QueryHover

------------------------------------------------------------
-- Growth
------------------------------------------------------------

namespace NamedValue

/- A value without its place. -/
def bare
    (v : NamedValue) : NamedValue :=
  { v with location := {} }

end NamedValue

namespace DirectiveUse

/- A use of a directive as it is written, wherever it is. -/
def bare
    (use : DirectiveUse) : DirectiveUse :=
  { name := use.name
    arguments := use.arguments.map NamedValue.bare }

end DirectiveUse

/- The same directives, used in the same way. -/
def SameUses
    (uses uses' : List DirectiveUse) : Prop :=
  uses'.map DirectiveUse.bare = uses.map DirectiveUse.bare

/-
  Items that grew, in the same order, among others that have
  new names.
-/
def Grown
    {α : Type}
    (name : α → String)
    (R : α → α → Prop)
    (items items' : List α) : Prop :=
  List.Forall₂ R items
    (items'.filter fun b => name b ∈ items.map name)

/- An argument stays as it is, wherever it is declared. -/
@[mk_iff]
structure ArgumentDefinition.GrowsTo
    (a a' : ArgumentDefinition) : Prop where
  name : a'.name = a.name
  description : a'.description = a.description
  type : a'.type = a.type
  defaultValue : a'.defaultValue = a.defaultValue
  directives : SameUses a.directives a'.directives

/- A field may be given more arguments. -/
@[mk_iff]
structure FieldDefinition.GrowsTo
    (f f' : FieldDefinition) : Prop where
  name : f'.name = f.name
  description : f'.description = f.description
  type : f'.type = f.type
  defaultValue : f'.defaultValue = f.defaultValue
  directives : SameUses f.directives f'.directives
  arguments :
    Grown ArgumentDefinition.name ArgumentDefinition.GrowsTo
      f.arguments f'.arguments

@[mk_iff]
structure EnumValueDefinition.GrowsTo
    (v v' : EnumValueDefinition) : Prop where
  name : v'.name = v.name
  description : v'.description = v.description
  directives : SameUses v.directives v'.directives

/- A type may be given more fields and values. -/
@[mk_iff]
structure TypeDefinition.GrowsTo
    (t t' : TypeDefinition) : Prop where
  kind : t'.kind = t.kind
  name : t'.name = t.name
  description : t'.description = t.description
  directives : SameUses t.directives t'.directives
  fields :
    Grown FieldDefinition.name FieldDefinition.GrowsTo
      t.fields t'.fields
  values :
    Grown EnumValueDefinition.name
      EnumValueDefinition.GrowsTo t.values t'.values

/- A directive may be given more arguments. -/
@[mk_iff]
structure DirectiveDefinition.GrowsTo
    (d d' : DirectiveDefinition) : Prop where
  name : d'.name = d.name
  description : d'.description = d.description
  arguments :
    Grown ArgumentDefinition.name ArgumentDefinition.GrowsTo
      d.arguments d'.arguments

/- A schema may be given more of everything. -/
@[mk_iff]
structure Schema.GrowsTo
    (s s' : Schema) : Prop where
  types :
    ∀ t ∈ s.types, ∃ t' ∈ s'.type? t.name, t.GrowsTo t'
  directives :
    ∀ d ∈ s.directives,
      ∃ d' ∈ s'.directive? d.name, d.GrowsTo d'
  roots :
    ∀ operation, ∀ name ∈ s.rootName? operation,
      s'.rootName? operation = some name

section

instance
    (uses uses' : List DirectiveUse) :
    Decidable (SameUses uses uses') :=
  inferInstanceAs (Decidable (_ = _))

instance
    {α : Type}
    (name : α → String)
    (R : α → α → Prop)
    [∀ a b, Decidable (R a b)]
    (items items' : List α) :
    Decidable (Grown name R items items') :=
  inferInstanceAs (Decidable (List.Forall₂ _ _ _))

instance
    (a a' : ArgumentDefinition) :
    Decidable (a.GrowsTo a') :=
  decidable_of_iff _ (ArgumentDefinition.growsTo_iff a a').symm

instance
    (f f' : FieldDefinition) :
    Decidable (f.GrowsTo f') :=
  decidable_of_iff _ (FieldDefinition.growsTo_iff f f').symm

instance
    (v v' : EnumValueDefinition) :
    Decidable (v.GrowsTo v') :=
  decidable_of_iff _ (EnumValueDefinition.growsTo_iff v v').symm

instance
    (t t' : TypeDefinition) :
    Decidable (t.GrowsTo t') :=
  decidable_of_iff _ (TypeDefinition.growsTo_iff t t').symm

instance
    (d d' : DirectiveDefinition) :
    Decidable (d.GrowsTo d') :=
  decidable_of_iff _ (DirectiveDefinition.growsTo_iff d d').symm

theorem Operation.forall_iff
    {P : Operation → Prop} :
    (∀ operation, P operation) ↔
      P .query ∧ P .mutation ∧ P .subscription := by
  constructor
  · intro h
    exact ⟨h .query, h .mutation, h .subscription⟩
  · rintro ⟨hQuery, hMutation, hSubscription⟩ operation
    cases operation
    · exact hQuery
    · exact hMutation
    · exact hSubscription

instance Operation.decidableForall
    (P : Operation → Prop)
    [∀ operation, Decidable (P operation)] :
    Decidable (∀ operation, P operation) :=
  decidable_of_iff _ Operation.forall_iff.symm

instance
    (s s' : Schema) :
    Decidable (s.GrowsTo s') :=
  decidable_of_iff _ (Schema.growsTo_iff s s').symm

end

------------------------------------------------------------
-- What Is Found Again
------------------------------------------------------------

/- What is there is there again, if only related to it. -/
def Kept
    {α β : Type}
    (R : α → β → Prop)
    (o : Option α)
    (o' : Option β) : Prop :=
  ∀ a ∈ o, ∃ b ∈ o', R a b

section

variable {α β γ δ : Type}
variable {R : α → β → Prop}
variable {Q : γ → δ → Prop}
variable {o : Option α}
variable {o' : Option β}

theorem Kept.none :
    Kept R none o' := by
  intro a ha
  cases ha

theorem Kept.of_rel
    {a : α}
    {b : β}
    (h : R a b) :
    Kept R (some a) (some b) := by
  rintro a' ⟨⟩
  exact ⟨b, rfl, h⟩

theorem Kept.bind
    (h : Kept R o o')
    {f : α → Option γ}
    {f' : β → Option δ}
    (hf : ∀ a b, R a b → Kept Q (f a) (f' b)) :
    Kept Q (o.bind f) (o'.bind f') := by
  intro c hc
  rcases Option.bind_eq_some_iff.mp hc with ⟨a, ha, hc⟩
  rcases h a ha with ⟨b, hb, hab⟩
  rcases hf a b hab c hc with ⟨d, hd, hcd⟩
  exact ⟨d, Option.bind_eq_some_iff.mpr ⟨b, hb, hd⟩, hcd⟩

theorem Kept.map
    (h : Kept R o o')
    {f : α → γ}
    {f' : β → δ}
    (hf : ∀ a b, R a b → Q (f a) (f' b)) :
    Kept Q (o.map f) (o'.map f') := by
  intro c hc
  rcases Option.map_eq_some_iff.mp hc with ⟨a, ha, rfl⟩
  rcases h a ha with ⟨b, hb, hab⟩
  exact ⟨f' b, Option.mem_map_of_mem f' hb, hf a b hab⟩

theorem Kept.filter
    (h : Kept R o o')
    {p : α → Bool}
    {p' : β → Bool}
    (hp : ∀ a b, R a b → p' b = p a) :
    Kept R (o.filter p) (o'.filter p') := by
  intro a ha
  rcases Option.filter_eq_some_iff.mp ha with ⟨ha, hTrue⟩
  rcases h a ha with ⟨b, hb, hab⟩
  rw [← hp a b hab] at hTrue
  exact ⟨b, Option.filter_eq_some_iff.mpr ⟨hb, hTrue⟩, hab⟩

/- Something found, together with where it was found. -/
theorem Kept.pair
    (h : Kept R o o')
    {f : α → Option γ}
    {f' : β → Option δ}
    (hf : ∀ a b, R a b → Kept Q (f a) (f' b)) :
    Kept (fun x y => R x.1 y.1 ∧ Q x.2 y.2)
      (o.bind fun a => (f a).map fun c => (a, c))
      (o'.bind fun b => (f' b).map fun d => (b, d)) :=
  h.bind fun a b hab =>
    (hf a b hab).map fun _ _ hcd => ⟨hab, hcd⟩

end

section

variable {α : Type}
variable {name : α → String}
variable {R : α → α → Prop}
variable {items items' : List α}

theorem find?_forall₂
    (h : List.Forall₂ R items items')
    (hName : ∀ a b, R a b → name b = name a)
    (key : String) :
    Kept R
      (items.find? fun a => name a = key)
      (items'.find? fun b => name b = key) := by
  induction h with
  | nil => exact Kept.none
  | cons hab _ ih =>
      rw [List.find?_cons, List.find?_cons, hName _ _ hab]
      split
      · exact Kept.of_rel hab
      · exact ih

/- An item that grew is found again by its name. -/
theorem Grown.find?
    (h : Grown name R items items')
    (hName : ∀ a b, R a b → name b = name a)
    (key : String) :
    Kept R
      (items.find? fun a => name a = key)
      (items'.find? fun b => name b = key) := by
  intro a ha
  have hKey : key ∈ items.map name := by
    rw [mem_map_iff_find?, ha]
    rfl
  -- Items with new names are passed over in the search.
  have hSame :
      ((items'.filter fun b => name b ∈ items.map name).find?
          fun b => name b = key) =
        items'.find? fun b => name b = key := by
    rw [List.find?_filter]
    congr 1
    funext b
    rw [Bool.eq_iff_iff]
    simp only [decide_eq_true_eq]
    constructor
    · exact And.right
    · rintro rfl
      exact ⟨hKey, rfl⟩
  rw [← hSame]
  exact find?_forall₂ h hName key a ha

end

section

variable {key : String}

theorem argumentNamed?_kept
    {arguments arguments' : List ArgumentDefinition}
    (h :
      Grown ArgumentDefinition.name
        ArgumentDefinition.GrowsTo arguments arguments') :
    Kept ArgumentDefinition.GrowsTo
      (argumentNamed? arguments key)
      (argumentNamed? arguments' key) :=
  h.find? (fun _ _ hGrows => hGrows.name) key

namespace TypeDefinition.GrowsTo

variable {t t' : TypeDefinition}

theorem field?
    (h : t.GrowsTo t') :
    Kept FieldDefinition.GrowsTo (t.field? key)
      (t'.field? key) :=
  h.fields.find? (fun _ _ hGrows => hGrows.name) key

theorem value?
    (h : t.GrowsTo t') :
    Kept EnumValueDefinition.GrowsTo (t.value? key)
      (t'.value? key) :=
  h.values.find? (fun _ _ hGrows => hGrows.name) key

theorem selected?
    (h : t.GrowsTo t') :
    Kept FieldDefinition.GrowsTo (t.selected? key)
      (t'.selected? key) := by
  unfold TypeDefinition.selected?
  split
  · exact Kept.of_rel ⟨rfl, rfl, rfl, rfl, rfl, .nil⟩
  · exact h.field?

end TypeDefinition.GrowsTo

end

namespace Schema.GrowsTo

variable {s s' : Schema}
variable (h : s.GrowsTo s')

include h

theorem type?
    (name : String) :
    Kept TypeDefinition.GrowsTo (s.type? name)
      (s'.type? name) := by
  intro t ht
  have hName : t.name = name := by
    simpa using List.find?_some ht
  rw [← hName]
  exact h.types t (type?_mem ht)

theorem directive?
    (name : String) :
    Kept DirectiveDefinition.GrowsTo (s.directive? name)
      (s'.directive? name) := by
  intro d hd
  have hName : d.name = name := by
    simpa using List.find?_some hd
  rw [← hName]
  exact h.directives d (List.mem_of_find?_eq_some hd)

theorem root?
    (operation : Operation) :
    Kept TypeDefinition.GrowsTo (s.root? operation)
      (s'.root? operation) := by
  have hName :
      Kept Eq (s.rootName? operation)
        (s'.rootName? operation) := by
    intro name hName
    exact ⟨name, h.roots operation name hName, rfl⟩
  refine hName.bind ?_
  rintro name _ rfl
  exact h.type? name

theorem composite?
    (name : String) :
    Kept TypeDefinition.GrowsTo (s.composite? name)
      (s'.composite? name) := by
  refine (h.type? name).filter ?_
  intro t t' ht
  rw [ht.kind]

theorem typeOf?
    {type type' : Option TypeRef}
    (hType : Kept Eq type type') :
    Kept TypeDefinition.GrowsTo (s.typeOf? type)
      (s'.typeOf? type') := by
  refine hType.bind ?_
  rintro t _ rfl
  exact h.type? t.baseName

------------------------------------------------------------
-- Types That Are Known Again
------------------------------------------------------------

/- Selections are made from the same types. -/
theorem contextType?
    (ancestors : List Node) :
    Kept TypeDefinition.GrowsTo (s.contextType? ancestors)
      (s'.contextType? ancestors) := by
  induction ancestors with
  | nil => exact Kept.none
  | cons n outer ih =>
      rw [Schema.contextType?, Schema.contextType?]
      cases n.kind
      case document => exact Kept.none
      case operationDefinition =>
        exact h.root? (n.operation.getD .query)
      case fragmentDefinition =>
        dsimp only
        cases n.childOfKind? .namedType with
        | none => exact Kept.none
        | some condition => exact h.composite? condition.name
      case inlineFragment =>
        dsimp only
        cases n.childOfKind? .namedType with
        | none => exact ih
        | some condition => exact h.composite? condition.name
      case field =>
        refine (ih.bind fun t t' ht => ht.selected?).bind ?_
        intro f f' hf
        rw [hf.type]
        exact h.composite? f.type.baseName
      all_goals exact ih

theorem fieldAt?
    (name : String)
    (outer : List Node) :
    Kept
      (fun found found' =>
        found.1.GrowsTo found'.1 ∧ found.2.GrowsTo found'.2)
      (s.fieldAt? name outer) (s'.fieldAt? name outer) :=
  (h.contextType? outer).pair fun _ _ ht => ht.selected?

theorem argumentAt?
    (name : String)
    (outer : List Node) :
    Kept ArgumentDefinition.GrowsTo
      (s.argumentAt? name outer)
      (s'.argumentAt? name outer) := by
  cases outer with
  | nil => exact Kept.none
  | cons owner above =>
      rw [Schema.argumentAt?, Schema.argumentAt?]
      split
      · exact (h.directive? owner.name).bind fun d d' hd =>
          argumentNamed?_kept hd.arguments
      · exact (h.fieldAt? owner.name above).bind
          fun found found' hf =>
            argumentNamed?_kept hf.2.arguments

theorem inputFieldAt?
    (name : String)
    {type type' : Option TypeRef}
    (hType : Kept Eq type type') :
    Kept
      (fun found found' =>
        found.1.GrowsTo found'.1 ∧ found.2.GrowsTo found'.2)
      (s.inputFieldAt? name type)
      (s'.inputFieldAt? name type') := by
  refine ((h.typeOf? hType).filter ?_).pair fun _ _ ht =>
    ht.field?
  intro t t' ht
  rw [ht.kind]

theorem enumValueAt?
    (name : String)
    {type type' : Option TypeRef}
    (hType : Kept Eq type type') :
    Kept
      (fun found found' =>
        found.1.GrowsTo found'.1 ∧ found.2.GrowsTo found'.2)
      (s.enumValueAt? name type)
      (s'.enumValueAt? name type') := by
  refine ((h.typeOf? hType).filter ?_).pair fun _ _ ht =>
    ht.value?
  intro t t' ht
  rw [ht.kind]

/- Values are expected to have the same types. -/
theorem expectedType?
    (ancestors : List Node) :
    Kept Eq (s.expectedType? ancestors)
      (s'.expectedType? ancestors) := by
  induction ancestors with
  | nil => exact Kept.none
  | cons n outer ih =>
      rw [Schema.expectedType?, Schema.expectedType?]
      cases n.kind
      case argument =>
        exact (h.argumentAt? n.name outer).map
          fun a a' ha => ha.type.symm
      case variableDefinition =>
        intro type hType
        exact ⟨type, hType, rfl⟩
      case listValue =>
        refine ih.bind ?_
        rintro type _ rfl element hElement
        exact ⟨element, hElement, rfl⟩
      case objectField =>
        exact (h.inputFieldAt? n.name ih).map
          fun found found' hf => hf.2.type.symm
      case objectValue => exact ih
      all_goals exact Kept.none

end Schema.GrowsTo

------------------------------------------------------------
-- Elements That Are Described Again
------------------------------------------------------------

namespace Entity

/- An element of a schema, and what it grew to. -/
inductive GrowsTo :
    Entity → Entity → Prop where
  | field
      {t t' : TypeDefinition} {f f' : FieldDefinition}
      (hType : t.GrowsTo t')
      (hField : f.GrowsTo f') :
      GrowsTo (.field (some t) (some f))
        (.field (some t') (some f'))
  | fieldArgument
      {t t' : TypeDefinition} {f f' : FieldDefinition}
      {a a' : ArgumentDefinition}
      (hType : t.GrowsTo t')
      (hField : f.GrowsTo f')
      (hArgument : a.GrowsTo a') :
      GrowsTo (.argument (some t) (some f) none (some a))
        (.argument (some t') (some f') none (some a'))
  | directiveArgument
      {d d' : DirectiveDefinition}
      {a a' : ArgumentDefinition}
      (hDirective : d.GrowsTo d')
      (hArgument : a.GrowsTo a') :
      GrowsTo (.argument none none (some d) (some a))
        (.argument none none (some d') (some a'))
  | directive
      {d d' : DirectiveDefinition}
      (hDirective : d.GrowsTo d') :
      GrowsTo (.directive (some d)) (.directive (some d'))
  | enumValue
      {t t' : TypeDefinition} {v v' : EnumValueDefinition}
      (hType : t.GrowsTo t')
      (hValue : v.GrowsTo v') :
      GrowsTo (.enumValue (some t) (some v))
        (.enumValue (some t') (some v'))

/- The names that an entity is described by. -/
def names :
    Entity → List (Option String)
  | .field t f =>
      [ t.map TypeDefinition.name,
        f.map FieldDefinition.name ]
  | .argument t f d a =>
      [ t.map TypeDefinition.name,
        f.map FieldDefinition.name,
        d.map DirectiveDefinition.name,
        a.map ArgumentDefinition.name ]
  | .directive d => [d.map DirectiveDefinition.name]
  | .enumValue t v =>
      [ t.map TypeDefinition.name,
        v.map EnumValueDefinition.name ]
  | .type t p f =>
      [ t.map TypeDefinition.name,
        p.map TypeDefinition.name,
        f.map FieldDefinition.name ]
  | .variableType t => [t.map TypeRef.render]

/- The description of an element, empty if it has none. -/
def description :
    Entity → String
  | .field _ (some f) => f.description
  | .argument _ _ _ (some a) => a.description
  | .directive (some d) => d.description
  | .enumValue _ (some v) => v.description
  | _ => ""

/- An element that only says to be deprecated, not why. -/
def Unexplained
    (e : Entity) : Prop :=
  e.description = "" ∧ givenReason? e.uses = some none

instance
    (e : Entity) :
    Decidable e.Unexplained :=
  inferInstanceAs (Decidable (_ ∧ _))

variable {e e' : Entity}

theorem GrowsTo.label_eq
    (h : e.GrowsTo e') :
    label (some e') = label (some e) := by
  cases h
  all_goals rfl

theorem GrowsTo.names_eq
    (h : e.GrowsTo e') :
    e'.names = e.names := by
  cases h with
  | field hType hField =>
      simp [names, hType.name, hField.name]
  | fieldArgument hType hField hArgument =>
      simp [names, hType.name, hField.name, hArgument.name]
  | directiveArgument hDirective hArgument =>
      simp [names, hDirective.name, hArgument.name]
  | directive hDirective => simp [names, hDirective.name]
  | enumValue hType hValue =>
      simp [names, hType.name, hValue.name]

end Entity

namespace Schema

variable {s s' : Schema}

theorem GrowsTo.argumentElement?
    (h : s.GrowsTo s')
    (name : String)
    (ancestors : List Node) :
    Kept Entity.GrowsTo (s.argumentElement? name ancestors)
      (s'.argumentElement? name ancestors) := by
  cases ancestors with
  | nil => exact Kept.none
  | cons owner outer =>
      rw [Schema.argumentElement?, Schema.argumentElement?]
      split
      · exact (h.directive? owner.name).bind fun d d' hd =>
          (argumentNamed?_kept hd.arguments).map
            fun a a' ha => .directiveArgument hd ha
      · exact (h.fieldAt? owner.name outer).bind
          fun found found' hf =>
            (argumentNamed?_kept hf.2.arguments).map
              fun a a' ha => .fieldArgument hf.1 hf.2 ha

/- A node that names an element still names it. -/
theorem GrowsTo.element?
    (h : s.GrowsTo s')
    (leaf : Node)
    (ancestors : List Node) :
    Kept Entity.GrowsTo (s.element? leaf ancestors)
      (s'.element? leaf ancestors) := by
  have hType := h.expectedType? ancestors
  unfold Schema.element?
  cases leaf.kind
  case field =>
    exact (h.fieldAt? leaf.name ancestors).map
      fun found found' hf => .field hf.1 hf.2
  case argument => exact h.argumentElement? leaf.name ancestors
  case directive =>
    exact (h.directive? leaf.name).map
      fun d d' hd => .directive hd
  case enumValue =>
    exact (h.enumValueAt? leaf.name hType).map
      fun found found' hf => .enumValue hf.1 hf.2
  case objectField =>
    exact (h.inputFieldAt? leaf.name hType).map
      fun found found' hf => .field hf.1 hf.2
  all_goals exact Kept.none

------------------------------------------------------------
-- Texts That Stay
------------------------------------------------------------

/-
  The default for reasons of deprecations that a schema gets
  by growing, empty if it had one before.
-/
def addedReason
    (s s' : Schema) : String :=
  if s.defaultReason?.isSome then
    ""
  else
    (s'.defaultReason?.map Literal.text).getD ""

theorem GrowsTo.reason?
    (h : s.GrowsTo s') :
    Kept ArgumentDefinition.GrowsTo
      ((s.directive? "deprecated").bind fun d =>
        d.argument? "reason")
      ((s'.directive? "deprecated").bind fun d =>
        d.argument? "reason") :=
  (h.directive? "deprecated").bind fun _ _ hd =>
    argumentNamed?_kept hd.arguments

/- A default for reasons that was there stays. -/
theorem GrowsTo.defaultReason?
    (h : s.GrowsTo s') :
    Kept Eq s.defaultReason? s'.defaultReason? := by
  refine h.reason?.bind ?_
  intro a a' ha reason hReason
  rw [ha.defaultValue]
  exact ⟨reason, hReason, rfl⟩

/- No reason is added where one can be given already. -/
theorem GrowsTo.addedReason_eq_empty
    (h : s.GrowsTo s')
    {a : ArgumentDefinition}
    (ha :
      ((s.directive? "deprecated").bind fun d =>
        d.argument? "reason") = some a) :
    s.addedReason s' = "" := by
  rcases h.reason? a ha with ⟨a', ha', hGrows⟩
  unfold addedReason Schema.defaultReason?
  rw [ha, ha', Option.bind_some, Option.bind_some,
    hGrows.defaultValue]
  cases a.defaultValue with
  | none => rfl
  | some reason => rfl

end Schema

theorem givenValue?_bare
    (values : List NamedValue)
    (name : String) :
    Entity.givenValue? (values.map NamedValue.bare) name =
      Entity.givenValue? values name := by
  unfold Entity.givenValue?
  rw [List.find?_map, Option.bind_map]
  rfl

/- Uses that are written alike give the same reason. -/
theorem SameUses.givenReason?_eq
    {uses uses' : List DirectiveUse}
    (h : SameUses uses uses') :
    givenReason? uses' = givenReason? uses := by
  have hBare (uses : List DirectiveUse) :
      givenReason? (uses.map DirectiveUse.bare) =
        givenReason? uses := by
    unfold givenReason?
    rw [List.find?_map, Option.map_map]
    congr 1
    funext use
    exact givenValue?_bare use.arguments "reason"
  rw [← hBare uses, ← hBare uses', h]

section

variable {s s' : Schema}

/- Documentation changes by an added reason at most. -/
theorem documentation_growsTo
    (h : s.GrowsTo s')
    {uses uses' : List DirectiveUse}
    (hSame : SameUses uses uses')
    (hInforms : s.Informs uses)
    (hInforms' : s'.Informs uses')
    (description : String) :
    Entity.documentation description uses' =
      Entity.documentation description uses ++
        if description = "" ∧ givenReason? uses = some none then
          s.addedReason s'
        else
          "" := by
  unfold Entity.documentation
  by_cases hDescription : description = ""
  · rw [hInforms.deprecation?_eq, hInforms'.deprecation?_eq,
      hSame.givenReason?_eq]
    cases hGiven : givenReason? uses with
    | none => simp [hDescription]
    | some given =>
        cases given with
        | some reason => simp [hDescription]
        | none =>
            unfold Schema.addedReason
            cases hReason : s.defaultReason? with
            | none => simp [hDescription]
            | some reason =>
                rcases h.defaultReason? reason hReason with
                  ⟨_, hReason', rfl⟩
                simp [hDescription, Option.mem_def.mp hReason']
  · simp [hDescription]

/- More documentation is written at the end of a text. -/
theorem join_append
    (signature : String)
    {documentation : String}
    (h : documentation ≠ "")
    (more : String) :
    Content.join signature (documentation ++ more) =
      Content.join signature documentation ++ more := by
  unfold Content.join
  have hMore : documentation ++ more ≠ "" := by
    simp [h]
  rw [if_neg h, if_neg hMore]
  simp only [String.append_assoc]

namespace Entity

variable {e e' : Entity}

theorem GrowsTo.sameUses
    (h : e.GrowsTo e') :
    SameUses e.uses e'.uses := by
  cases h with
  | field _ hField => exact hField.directives
  | fieldArgument _ _ hArgument => exact hArgument.directives
  | directiveArgument _ hArgument => exact hArgument.directives
  | directive _ => rfl
  | enumValue _ hValue => exact hValue.directives

theorem GrowsTo.description_eq
    (h : e.GrowsTo e') :
    e'.description = e.description := by
  cases h with
  | field _ hField => exact hField.description
  | fieldArgument _ _ hArgument => exact hArgument.description
  | directiveArgument _ hArgument => exact hArgument.description
  | directive hDirective => exact hDirective.description
  | enumValue _ hValue => exact hValue.description

/- What an element is called does not change. -/
theorem GrowsTo.exists_signature
    (h : e.GrowsTo e') :
    ∃ signature,
      e.sections? =
          some (signature,
            documentation e.description e.uses) ∧
        e'.sections? =
          some (signature,
            documentation e'.description e'.uses) := by
  have hDirective (description : String) :
      documentation description [] = description := by
    unfold documentation
    split
    case isTrue => rfl
    case isFalse hEmpty => exact (not_not.mp hEmpty).symm
  cases h with
  | field hType hField =>
      refine ⟨_, rfl, ?_⟩
      simp [sections?, fieldSignature, description, uses,
        hType.name, hField.name, hField.type]
  | fieldArgument hType hField hArgument =>
      refine ⟨_, rfl, ?_⟩
      simp [sections?, argumentOwner?, description, uses,
        hType.name, hField.name, hArgument.name,
        hArgument.type]
  | directiveArgument hOwner hArgument =>
      refine ⟨_, rfl, ?_⟩
      simp [sections?, argumentOwner?, description, uses,
        hOwner.name, hArgument.name, hArgument.type]
  | @directive d d' hSame =>
      refine ⟨"@" ++ d.name, ?_, ?_⟩
      · simp [sections?, description, uses, hDirective]
      · simp [sections?, description, uses, hDirective,
          hSame.name]
  | enumValue hType hValue =>
      refine ⟨_, rfl, ?_⟩
      simp [sections?, description, uses, hType.name,
        hValue.name]

/- The text of an element changes by a reason at most. -/
theorem GrowsTo.content_eq
    (hSchema : s.GrowsTo s')
    (h : e.GrowsTo e')
    (hInforms : s.Informs e.uses)
    (hInforms' : s'.Informs e'.uses) :
    content (some e') =
      content (some e) ++
        if e.Unexplained then s.addedReason s' else "" := by
  rcases h.exists_signature with
    ⟨signature, hSections, hSections'⟩
  have hDocumentation :=
    documentation_growsTo hSchema h.sameUses hInforms hInforms'
      e.description
  unfold content
  rw [Option.bind_some, Option.bind_some, hSections,
    hSections', h.description_eq]
  dsimp only
  rw [hDocumentation]
  by_cases hUnexplained : e.Unexplained
  · have hSome : documentation e.description e.uses ≠ "" := by
      unfold documentation
      rw [hInforms.deprecation?_eq, hUnexplained.1,
        hUnexplained.2]
      simp
    have hGiven :
        e.description = "" ∧ givenReason? e.uses = some none :=
      hUnexplained
    rw [if_pos hUnexplained, if_pos hGiven]
    exact join_append signature hSome _
  · have hGiven :
        ¬(e.description = "" ∧
          givenReason? e.uses = some none) :=
      hUnexplained
    rw [if_neg hUnexplained, if_neg hGiven, String.append_empty,
      String.append_empty]

end Entity

end

------------------------------------------------------------
-- Hovers That Stay
------------------------------------------------------------

section

variable {schema : Schema}
variable {leaf : Node}
variable {ancestors : List Node}

/- The entities that fields, arguments and directives name. -/
theorem Entity.describes_iff
    {e : Entity} :
    e.Describes leaf ↔
      (∃ t f, e = .field t (some f) ∧
        leaf.kind = .field ∧ f.name = leaf.name) ∨
      (∃ t f d a, e = .argument t f d (some a) ∧
        leaf.kind = .argument ∧ a.name = leaf.name) ∨
      ∃ d, e = .directive (some d) ∧
        leaf.kind = .directive ∧ d.name = leaf.name := by
  unfold Describes named?
  cases e with
  | field t f => cases f <;> simp [eq_comm]
  | argument t f d a => cases a <;> simp [eq_comm]
  | directive d => cases d <;> simp [eq_comm]
  | _ => simp

theorem Schema.Describes.exists_describesAs
    (h : schema.Describes leaf ancestors) :
    ∃ e, schema.DescribesAs leaf ancestors e := by
  rcases h with ⟨e, he, hNamed⟩
  have hComplete := annotate?_complete _ _ e he
  refine ⟨e, he, ?_⟩
  rcases Entity.describes_iff.mp hNamed with
    ⟨t, f, rfl, hLeaf, hName⟩ | ⟨_, _, _, a, rfl, hLeaf, hName⟩ |
    ⟨d, rfl, hLeaf, hName⟩
  · rcases t with _ | t
    · cases hComplete.1
    rw [hLeaf]
    exact hName
  · rw [hLeaf]
    exact hName
  · rw [hLeaf]
    exact hName

/- Elements with candidates are described in both senses. -/
theorem Schema.DescribesAs.describes
    {e : Entity}
    (h : schema.DescribesAs leaf ancestors e)
    (hLeaf : leaf.kind ∈ [.field, .argument, .directive]) :
    schema.Describes leaf ancestors := by
  rcases h with ⟨he, hName⟩
  refine ⟨e, he, Entity.describes_iff.mpr ?_⟩
  split at hName
  case h_1 hKind => exact .inl ⟨_, _, rfl, hKind, hName⟩
  case h_2 hKind =>
    exact .inr (.inl ⟨_, _, _, _, rfl, hKind, hName⟩)
  case h_3 hKind => exact .inr (.inr ⟨_, rfl, hKind, hName⟩)
  case h_4 hKind => simp [hKind] at hLeaf
  case h_5 hKind => simp [hKind] at hLeaf
  case h_6 => cases hName

/- A name with candidates that is known is described. -/
theorem describes_of_isKnown
    (hSome :
      (candidates? (some schema)
        (leaf :: ancestors).reverse).isSome)
    (h : isKnown (some schema) (leaf :: ancestors).reverse) :
    schema.Describes leaf ancestors := by
  rw [candidates?_reverse_cons, Option.isSome_map] at hSome
  rcases Option.isSome_iff_exists.mp hSome with ⟨owner, hOwner⟩
  rw [describes_iff]
  refine ⟨owner, hOwner, ?_⟩
  by_contra hNot
  rw [isKnown_eq_false_iff leaf ancestors |>.mpr
    ⟨owner, hOwner, hNot⟩] at h
  cases h

/- A name that is described is known among candidates. -/
theorem isKnown_of_describes
    (h : schema.Describes leaf ancestors) :
    (∃ names ∈
        candidates? (some schema) (leaf :: ancestors).reverse,
        names ≠ []) ∧
      isKnown (some schema) (leaf :: ancestors).reverse := by
  rw [describes_iff] at h
  have hMem :=
    (mem_candidates?_iff leaf ancestors leaf.name).mpr h
  unfold isKnown
  rw [Chain.leaf?_reverse_cons]
  cases hNames :
      candidates? (some schema) (leaf :: ancestors).reverse with
  | none =>
      rw [hNames] at hMem
      cases hMem
  | some names =>
      rw [hNames] at hMem
      exact ⟨⟨names, rfl, List.ne_nil_of_mem hMem⟩,
        List.contains_iff_mem.mpr hMem⟩

end

------------------------------------------------------------
-- Schemas with the Same Prelude
------------------------------------------------------------

/- The names of the types that every schema has. -/
def Prelude.typeNames : List String :=
  Prelude.types.map TypeDefinition.name

/- An extension of a type among the declarations. -/
def Declaration.isExtension :
    Declaration → Bool
  | .typeExtension _ => true
  | _ => false

namespace Schema

/- What a use says to others does not matter for growing. -/
theorem sameUses_attach
    (s s' : Schema)
    (uses : List DirectiveUse) :
    SameUses (uses.map s.attachUse)
      (uses.map s'.attachUse) := by
  unfold SameUses
  rw [List.map_map, List.map_map]
  rfl

theorem grown_map
    {α : Type}
    {name : α → String}
    {R : α → α → Prop}
    (f g : α → α)
    (hf : ∀ a, name (f a) = name a)
    (hg : ∀ a, name (g a) = name a)
    (h : ∀ a, R (f a) (g a))
    (items : List α) :
    Grown name R (items.map f) (items.map g) := by
  have hAll :
      ((items.map g).filter fun b =>
        name b ∈ (items.map f).map name) = items.map g := by
    refine List.filter_eq_self.mpr fun b hb => ?_
    rcases List.mem_map.mp hb with ⟨a, ha, rfl⟩
    rw [hg, ← hf]
    exact decide_eq_true
      (List.mem_map_of_mem (List.mem_map_of_mem ha))
  unfold Grown
  rw [hAll, List.forall₂_map_left_iff,
    List.forall₂_map_right_iff, List.forall₂_same]
  exact fun a _ => h a

theorem attachArgument_growsTo
    (s s' : Schema)
    (a : ArgumentDefinition) :
    (s.attachArgument a).GrowsTo (s'.attachArgument a) :=
  ⟨rfl, rfl, rfl, rfl, sameUses_attach s s' _⟩

theorem attachField_growsTo
    (s s' : Schema)
    (f : FieldDefinition) :
    (s.attachField f).GrowsTo (s'.attachField f) :=
  ⟨rfl, rfl, rfl, rfl, sameUses_attach s s' _,
    grown_map s.attachArgument s'.attachArgument
      (fun _ => rfl) (fun _ => rfl)
      (attachArgument_growsTo s s') _⟩

/- One type, completed in two schemas. -/
theorem attachType_growsTo
    (s s' : Schema)
    (t : TypeDefinition) :
    (s.attachType t).GrowsTo (s'.attachType t) :=
  ⟨rfl, rfl, rfl, sameUses_attach s s' _,
    grown_map s.attachField s'.attachField
      (fun _ => rfl) (fun _ => rfl)
      (attachField_growsTo s s') _,
    grown_map s.attachValue s'.attachValue
      (fun _ => rfl) (fun _ => rfl)
      (fun _ => ⟨rfl, rfl, sameUses_attach s s' _⟩) _⟩

/- The prelude comes first, other types have other names. -/
def Preceded
    (s : Schema) : Prop :=
  ∃ user, s.types = Prelude.types ++ user ∧
    ∀ t ∈ user, t.name ∉ Prelude.typeNames

theorem Preceded.addType
    {s s' : Schema}
    (h : s.Preceded)
    {t : TypeDefinition}
    (hRun : s.addType t = .ok s') :
    s'.Preceded := by
  rcases h with ⟨user, hTypes, hUser⟩
  rcases bind_eq_ok.mp hRun with ⟨_, hNew, hRun⟩
  cases hRun
  refine ⟨user ++ [t], ?_, ?_⟩
  · rw [hTypes, List.append_assoc]
  · rw [List.forall_mem_append, List.forall_mem_singleton]
    refine ⟨hUser, fun hOld => ?_⟩
    have hFound : (s.type? t.name).isSome := by
      rw [Schema.type?, hTypes, List.find?_append,
        Option.isSome_or]
      exact Bool.or_eq_true_iff.mpr
        (.inl ((mem_map_iff_find? _ _ _).mp hOld))
    rw [Option.isNone_eq_false_iff.mpr hFound] at hNew
    cases hNew

/- Without extensions the prelude stays as it is. -/
theorem exists_preceded
    {declarations : List Declaration}
    {schema : Schema}
    (h : assemble declarations = .ok schema)
    (hNone : ∀ d ∈ declarations, ¬ d.isExtension) :
    ∃ s : Schema, s.Preceded ∧
      schema = s.attach.addIntrospection := by
  refine exists_assembled h ?_ ?_ ?_ ?_ ?_
  · exact ⟨[], (List.append_nil _).symm, List.forall_mem_nil _⟩
  · intro t _ s s' hs hRun
    exact hs.addType hRun
  · intro t ht
    exact absurd rfl (hNone _ ht)
  · intro d _ s s' hs hRun
    rcases bind_eq_ok.mp hRun with ⟨_, _, hRun⟩
    cases hRun
    exact hs
  · intro s operation name hs
    cases operation
    all_goals exact hs

/- Completion keeps names, and changes only the query root. -/
theorem exists_completion
    (s : Schema) :
    ∃ f : TypeDefinition → TypeDefinition,
      s.attach.addIntrospection.types = s.types.map f ∧
        s.attach.addIntrospection.query = s.query ∧
        (∀ t, (f t).name = t.name) ∧
        ∀ t, t.name ∉ s.query → f t = s.attachType t := by
  have hQuery : s.attach.query = s.query := rfl
  unfold addIntrospection
  rw [hQuery]
  cases hRoot : s.query with
  | none =>
      exact ⟨s.attachType, rfl, hRoot, fun _ => rfl,
        fun _ _ => rfl⟩
  | some name =>
      refine ⟨_, List.map_map, hRoot, fun t => ?_,
        fun t ht => ?_⟩
      · dsimp only [Function.comp_apply]
        split
        · rfl
        · rfl
      · refine if_neg fun hSame => ht ?_
        rw [Option.mem_def, ← hSame]
        rfl

/-
  Schemas without extensions share the types of the prelude,
  so that only the other ones have to be compared.
-/
theorem growsTo_of_assemble
    {declarations declarations' : List Declaration}
    {schema schema' : Schema}
    (h : assemble declarations = .ok schema)
    (h' : assemble declarations' = .ok schema')
    (hNone : ∀ d ∈ declarations, ¬ d.isExtension)
    (hNone' : ∀ d ∈ declarations', ¬ d.isExtension)
    (hQuery : ∀ name ∈ schema.query, name ∉ Prelude.typeNames)
    (hQuery' :
      ∀ name ∈ schema'.query, name ∉ Prelude.typeNames)
    (hTypes :
      ∀ t ∈ schema.types, t.name ∉ Prelude.typeNames →
        ∃ t' ∈ schema'.type? t.name, t.GrowsTo t')
    (hDirectives :
      ∀ d ∈ schema.directives,
        ∃ d' ∈ schema'.directive? d.name, d.GrowsTo d')
    (hRoots :
      ∀ operation, ∀ name ∈ schema.rootName? operation,
        schema'.rootName? operation = some name) :
    schema.GrowsTo schema' := by
  refine ⟨?_, hDirectives, hRoots⟩
  rcases exists_preceded h hNone with
    ⟨s, ⟨user, hAll, hUser⟩, rfl⟩
  rcases exists_preceded h' hNone' with
    ⟨s', ⟨user', hAll', _⟩, rfl⟩
  rcases exists_completion s with
    ⟨f, hMap, hRoot, hName, hSame⟩
  rcases exists_completion s' with
    ⟨f', hMap', hRoot', hName', hSame'⟩
  intro t ht
  by_cases hOwn : t.name ∈ Prelude.typeNames
  · rw [hMap] at ht
    rcases List.mem_map.mp ht with ⟨t₀, ht₀, rfl⟩
    rw [hName] at hOwn ⊢
    rw [hRoot] at hQuery
    rw [hRoot'] at hQuery'
    have hShared : t₀ ∈ Prelude.types := by
      rw [hAll, List.mem_append] at ht₀
      rcases ht₀ with ht₀ | ht₀
      · exact ht₀
      · exact absurd hOwn (hUser t₀ ht₀)
    have hFound :
        s'.attach.addIntrospection.type? t₀.name =
          some (s'.attachType t₀) := by
      have hFirst :
          (Prelude.types.find? fun t => t.name = t₀.name) =
            some t₀ :=
        (find?_eq_some_iff_of_distinct (by decide +kernel)).mpr
          ⟨hShared, rfl⟩
      unfold type?
      rw [hMap', List.find?_map]
      simp only [Function.comp_def, hName']
      rw [hAll', List.find?_append, hFirst, Option.some_or,
        Option.map_some,
        hSame' t₀ fun hMem => hQuery' _ hMem hOwn]
    refine ⟨_, hFound, ?_⟩
    rw [hSame t₀ fun hMem => hQuery _ hMem hOwn]
    exact attachType_growsTo s s' t₀
  · exact hTypes t ht hOwn

end Schema

------------------------------------------------------------
-- A Schema before and after Growing
------------------------------------------------------------

namespace Growth

/- Deprecations without a place for a reason. -/
def source : List Char :=
  ("directive@deprecated(why:Int)on FIELD_DEFINITION " ++
    "type Query\x7bf(a:I):Int@deprecated\x7d " ++
    "input I\x7bg:E\x7d enum E\x7bV\x7d").toList

/- More of everything, and a default for reasons. -/
def source' : List Char :=
  ("directive@deprecated(why:Int,reason:String=\"gone\")" ++
    "on FIELD_DEFINITION " ++
    "type Query\x7bh:Int f(b:Int,a:I):Int@deprecated\x7d " ++
    "input I\x7bg:E k:I\x7d enum E\x7bU V\x7d").toList

def text : List Char :=
  "\x7bf(a:\x7bg:V\x7d)\x7d".toList

/- The element that the last node of a chain names. -/
def elementOn?
    (schema : Schema)
    (chain : Chain) : Option Entity :=
  match chain.reverse with
  | [] => none
  | leaf :: ancestors => schema.element? leaf ancestors

theorem describesAs_of_elementOn?
    {schema : Schema}
    {root : Node}
    (h : Document.parse text = .ok root)
    {offset : Int}
    {leaf : Node}
    {ancestors : List Node}
    (hChain :
      Chain.resolve root offset = (leaf :: ancestors).reverse)
    {e : Entity}
    (he :
      elementOn? schema (Chain.resolve root offset) = some e) :
    schema.DescribesAs leaf ancestors e := by
  have hLeads := Chain.leads_resolve root offset
  rw [hChain] at hLeads
  unfold elementOn? at he
  rw [hChain, List.reverse_reverse] at he
  exact (describesAs_iff (wellNamed_of_leads h hLeads)
    (descends_of_leads h hLeads)).mpr he

/- Every chain of a document has a last node. -/
theorem exists_last
    (root : Node)
    (offset : Int) :
    ∃ leaf ancestors,
      Chain.resolve root offset =
        (leaf :: ancestors).reverse := by
  have hHead := (Chain.leads_resolve root offset).head
  cases hReverse : (Chain.resolve root offset).reverse with
  | nil =>
      rw [List.reverse_eq_nil_iff.mp hReverse] at hHead
      cases hHead
  | cons leaf ancestors =>
      refine ⟨leaf, ancestors, ?_⟩
      rw [← hReverse, List.reverse_reverse]

/- What does not belong to the prelude grows. -/
def Compared
    (s s' : Schema) : Prop :=
  (∀ name ∈ s.query, name ∉ Prelude.typeNames) ∧
    (∀ name ∈ s'.query, name ∉ Prelude.typeNames) ∧
    (∀ t ∈ s.types, t.name ∉ Prelude.typeNames →
      ∃ t' ∈ s'.type? t.name, t.GrowsTo t') ∧
    (∀ d ∈ s.directives,
      ∃ d' ∈ s'.directive? d.name, d.GrowsTo d') ∧
    ∀ operation, ∀ name ∈ s.rootName? operation,
      s'.rootName? operation = some name

instance
    (s s' : Schema) :
    Decidable (Compared s s') := by
  unfold Compared
  infer_instance

/-
  What both schemas say of the enum value and of the field in
  the text.
-/
def Seen
    (s s' : Schema)
    (root : Node) : Prop :=
  (elementOn? s (Chain.resolve root 8)).map
        (fun e => (e.names, decide e.Unexplained)) =
      some ([some "E", some "V"], false) ∧
    (elementOn? s (Chain.resolve root 1)).map
        (fun e => Entity.content (some e)) =
      some "Query.f: Int\n\nDeprecated: " ∧
    (elementOn? s' (Chain.resolve root 1)).map
        (fun e => Entity.content (some e)) =
      some "Query.f: Int\n\nDeprecated: gone"

instance
    (s s' : Schema)
    (root : Node) :
    Decidable (Seen s s' root) := by
  unfold Seen
  infer_instance

theorem exists_schemas :
    ∃ schema schema' root,
      Schema.load "schema" source = .ok schema ∧
        Schema.load "schema" source' = .ok schema' ∧
        Document.parse text = .ok root ∧
        schema.GrowsTo schema' ∧ Seen schema schema' root := by
  have hAll :
      ((Declaration.parse "schema" source).toOption.bind
        fun ds => (Schema.assemble ds).toOption.bind fun s =>
        (Declaration.parse "schema" source').toOption.bind
        fun ds' => (Schema.assemble ds').toOption.bind fun s' =>
        (Document.parse text).toOption.map fun root =>
          decide
            ((∀ d ∈ ds ++ ds', ¬ d.isExtension) ∧
              Compared s s' ∧ Seen s s' root)) =
        some true := by
    decide +kernel
  rcases Option.bind_eq_some_iff.mp hAll with
    ⟨_, hParse, hAll⟩
  rcases Option.bind_eq_some_iff.mp hAll with
    ⟨schema, hSchema, hAll⟩
  rcases Option.bind_eq_some_iff.mp hAll with
    ⟨_, hParse', hAll⟩
  rcases Option.bind_eq_some_iff.mp hAll with
    ⟨schema', hSchema', hAll⟩
  rcases Option.map_eq_some_iff.mp hAll with ⟨root, hRoot, hAll⟩
  replace hSchema := eq_ok_of_toOption hSchema
  replace hSchema' := eq_ok_of_toOption hSchema'
  rcases of_decide_eq_true hAll with ⟨hNone, hCompared, hSeen⟩
  rcases List.forall_mem_append.mp hNone with ⟨hNone, hNone'⟩
  rcases hCompared with
    ⟨hQuery, hQuery', hTypes, hDirectives, hRoots⟩
  refine ⟨schema, schema', root, ?_, ?_,
    eq_ok_of_toOption hRoot, ?_, hSeen⟩
  · exact Schema.load_eq_ok_iff.mpr
      ⟨_, eq_ok_of_toOption hParse, hSchema⟩
  · exact Schema.load_eq_ok_iff.mpr
      ⟨_, eq_ok_of_toOption hParse', hSchema'⟩
  · exact Schema.growsTo_of_assemble hSchema hSchema' hNone
      hNone' hQuery hQuery' hTypes hDirectives hRoots

end Growth

------------------------------------------------------------
-- Growing Keeps Hovers
------------------------------------------------------------

/-
  A schema that grows keeps its hovers. A node that is
  described as itself is still described as itself, by the
  same names and with the same text. Only an element that is
  deprecated without a reason and has no description says
  more, if the schema grew by a default for such reasons;
  that cannot be where a reason could be given before. A name
  that is known for its candidates stays known for them.
-/
theorem describesAs_growsTo
    {file file' : String}
    {source source' : List Char}
    {schema schema' : Schema}
    (hLoad : Schema.load file source = .ok schema)
    (hLoad' : Schema.load file' source' = .ok schema')
    (hGrows : schema.GrowsTo schema')
    {text : List Char}
    {root : Node}
    (h : Document.parse text = .ok root)
    {offset : Int}
    {leaf : Node}
    {ancestors : List Node}
    (hChain :
      Chain.resolve root offset =
        (leaf :: ancestors).reverse) :
    (∀ e, schema.DescribesAs leaf ancestors e →
      ∃ e', schema'.DescribesAs leaf ancestors e' ∧
        Entity.label (some e') = Entity.label (some e) ∧
        e'.names = e.names ∧
        Entity.content (some e') =
          Entity.content (some e) ++
            (if e.Unexplained then
              schema.addedReason schema'
            else
              "") ∧
        (((schema.directive? "deprecated").bind fun d =>
            d.argument? "reason").isSome →
          Entity.content (some e') =
            Entity.content (some e))) ∧
      ((∃ names ∈
          candidates? (some schema) (Chain.resolve root offset),
          names ≠ []) →
        isKnown (some schema) (Chain.resolve root offset) →
        (∃ names ∈
          candidates? (some schema')
            (Chain.resolve root offset),
          names ≠ []) ∧
        isKnown (some schema')
          (Chain.resolve root offset)) := by
  have hLeads := Chain.leads_resolve root offset
  rw [hChain] at hLeads
  have hNames := wellNamed_of_leads h hLeads
  have hDescends := descends_of_leads h hLeads
  have hAgain (e : Entity)
      (he : schema.DescribesAs leaf ancestors e) :
      ∃ e', schema'.DescribesAs leaf ancestors e' ∧
        e.GrowsTo e' := by
    rw [describesAs_iff hNames hDescends] at he
    rcases hGrows.element? leaf ancestors e he with
      ⟨e', he', hGrown⟩
    exact ⟨e', (describesAs_iff hNames hDescends).mpr he',
      hGrown⟩
  refine ⟨?_, ?_⟩
  · intro e he
    rcases hAgain e he with ⟨e', he', hGrown⟩
    have hInforms :=
      (Schema.load_attached hLoad).element?_informs
        ((describesAs_iff hNames hDescends).mp he)
    have hInforms' :=
      (Schema.load_attached hLoad').element?_informs
        ((describesAs_iff hNames hDescends).mp he')
    have hContent :=
      hGrown.content_eq hGrows hInforms hInforms'
    refine ⟨e', he', hGrown.label_eq, hGrown.names_eq, hContent,
      ?_⟩
    intro hReason
    rcases Option.isSome_iff_exists.mp hReason with ⟨a, ha⟩
    rw [hContent, hGrows.addedReason_eq_empty ha, ite_self,
      String.append_empty]
  · rw [hChain]
    rintro ⟨names, hSome, _⟩ hKnown
    have hDescribes :=
      describes_of_isKnown (Option.isSome_of_mem hSome) hKnown
    have hKind :
        leaf.kind ∈ [.field, .argument, .directive] := by
      rcases hDescribes with ⟨_, _, hNamed⟩
      rcases Entity.describes_iff.mp hNamed with
        ⟨_, _, _, hKind, _⟩ | ⟨_, _, _, _, _, hKind, _⟩ |
        ⟨_, _, hKind, _⟩
      all_goals simp [hKind]
    rcases hDescribes.exists_describesAs with ⟨e, he⟩
    rcases hAgain e he with ⟨e', he', _⟩
    exact isKnown_of_describes (he'.describes hKind)

/- An enum value whose enum, field and schema all grew. -/
theorem describesAs_growsTo_enumValue :
    ∃ (schema schema' : Schema) (root leaf : Node)
      (ancestors : List Node) (e e' : Entity),
      Schema.load "schema" Growth.source = .ok schema ∧
      Schema.load "schema" Growth.source' = .ok schema' ∧
      schema.GrowsTo schema' ∧
      Document.parse Growth.text = .ok root ∧
      Chain.resolve root 8 = (leaf :: ancestors).reverse ∧
      schema.DescribesAs leaf ancestors e ∧
      schema'.DescribesAs leaf ancestors e' ∧
      e'.names = [some "E", some "V"] ∧
      Entity.content (some e') = Entity.content (some e) := by
  rcases Growth.exists_schemas with
    ⟨schema, schema', root, hLoad, hLoad', h, hGrows, hValue, _⟩
  rcases Growth.exists_last root 8 with
    ⟨leaf, ancestors, hChain⟩
  rcases Option.map_eq_some_iff.mp hValue with ⟨e, he, hView⟩
  simp only [Prod.mk.injEq, decide_eq_false_iff_not] at hView
  rcases hView with ⟨hNames, hExplained⟩
  have hDescribes :=
    Growth.describesAs_of_elementOn? h hChain he
  rcases (describesAs_growsTo hLoad hLoad' hGrows h hChain).1 e
    hDescribes with ⟨e', he', _, hSame, hContent, _⟩
  rw [if_neg hExplained, String.append_empty] at hContent
  exact ⟨schema, schema', root, leaf, ancestors, e, e', hLoad,
    hLoad', hGrows, h, hChain, hDescribes, he',
    hSame.trans hNames, hContent⟩

/- A default for reasons that is added shows in a hover. -/
theorem content_of_added_reason :
    ∃ (schema schema' : Schema) (root leaf : Node)
      (ancestors : List Node) (e e' : Entity),
      Schema.load "schema" Growth.source = .ok schema ∧
      Schema.load "schema" Growth.source' = .ok schema' ∧
      schema.GrowsTo schema' ∧
      Document.parse Growth.text = .ok root ∧
      Chain.resolve root 1 = (leaf :: ancestors).reverse ∧
      schema.DescribesAs leaf ancestors e ∧
      schema'.DescribesAs leaf ancestors e' ∧
      Entity.content (some e) =
        "Query.f: Int\n\nDeprecated: " ∧
      Entity.content (some e') =
        "Query.f: Int\n\nDeprecated: gone" := by
  rcases Growth.exists_schemas with
    ⟨schema, schema', root, hLoad, hLoad', h, hGrows, _, hField,
      hField'⟩
  rcases Growth.exists_last root 1 with
    ⟨leaf, ancestors, hChain⟩
  rcases Option.map_eq_some_iff.mp hField with
    ⟨e, he, hContent⟩
  rcases Option.map_eq_some_iff.mp hField' with
    ⟨e', he', hContent'⟩
  exact ⟨schema, schema', root, leaf, ancestors, e, e', hLoad,
    hLoad', hGrows, h, hChain,
    Growth.describesAs_of_elementOn? h hChain he,
    Growth.describesAs_of_elementOn? h hChain he', hContent,
    hContent'⟩

end QueryHover
