import QueryHover.Hover.Entity
import QueryHover.Proofs.Loading

/-
  What the uses of directives know in a loaded schema.

  Loading lets every use of a directive know the arguments
  that are declared for it. An element that is marked as
  deprecated without a reason takes its reason from there, so
  all of them share the default of the schema.

  Main declarations:
    * `Schema.declared?`
    * `Schema.Attached`
    * `Schema.load_attached`
    * `Schema.defaultReason?`
    * `givenReason?`
    * `Schema.Informs.deprecation?_eq`
-/

namespace QueryHover

namespace Schema

variable {s : Schema}

------------------------------------------------------------
-- Declared Arguments
------------------------------------------------------------

/- The arguments of a directive, with their defaults. -/
def declared?
    (s : Schema)
    (name : String) : Option (List NamedValue) :=
  (s.directive? name).map fun d =>
    d.arguments.map fun a =>
      { name := a.name, value := a.defaultValue }

/- Uses of directives that know what the schema declares. -/
def Informs
    (s : Schema)
    (uses : List DirectiveUse) : Prop :=
  ∀ use ∈ uses, use.declared = s.declared? use.name

/-
  A schema where the uses of directives on fields, arguments
  and enum values know what is declared.
-/
structure Attached
    (s : Schema) : Prop where
  fields :
    ∀ t ∈ s.types, ∀ f ∈ t.fields, s.Informs f.directives
  fieldArguments :
    ∀ t ∈ s.types, ∀ f ∈ t.fields, ∀ a ∈ f.arguments,
      s.Informs a.directives
  values :
    ∀ t ∈ s.types, ∀ v ∈ t.values, s.Informs v.directives
  directiveArguments :
    ∀ d ∈ s.directives, ∀ a ∈ d.arguments,
      s.Informs a.directives

/- What is declared does not depend on what is known of it. -/
theorem attach_declared?
    (s : Schema)
    (name : String) :
    s.attach.declared? name = s.declared? name := by
  unfold declared? directive? attach
  rw [List.find?_map, Option.map_map]
  congr 1
  funext d
  exact List.map_map

theorem attach_informs
    (s : Schema)
    (uses : List DirectiveUse) :
    s.attach.Informs (uses.map s.attachUse) := by
  intro use hUse
  rcases List.mem_map.mp hUse with ⟨use₀, _, rfl⟩
  rw [attach_declared?]
  rfl

theorem attach_attached
    (s : Schema) :
    s.attach.Attached := by
  constructor
  · intro t ht f hf
    rcases List.mem_map.mp ht with ⟨t₀, _, rfl⟩
    rcases List.mem_map.mp hf with ⟨f₀, _, rfl⟩
    exact attach_informs s f₀.directives
  · intro t ht f hf a ha
    rcases List.mem_map.mp ht with ⟨t₀, _, rfl⟩
    rcases List.mem_map.mp hf with ⟨f₀, _, rfl⟩
    rcases List.mem_map.mp ha with ⟨a₀, _, rfl⟩
    exact attach_informs s a₀.directives
  · intro t ht v hv
    rcases List.mem_map.mp ht with ⟨t₀, _, rfl⟩
    rcases List.mem_map.mp hv with ⟨v₀, _, rfl⟩
    exact attach_informs s v₀.directives
  · intro d hd a ha
    rcases List.mem_map.mp hd with ⟨d₀, _, rfl⟩
    rcases List.mem_map.mp ha with ⟨a₀, _, rfl⟩
    exact attach_informs s a₀.directives

/- Introspection adds fields that no directive is used on. -/
theorem Attached.addIntrospection
    (h : s.Attached) :
    s.addIntrospection.Attached := by
  unfold Schema.addIntrospection
  cases s.query with
  | none => exact h
  | some name =>
      have hType (t : TypeDefinition)
          (ht :
            t ∈ (s.mapType name fun t =>
              { t with
                fields :=
                  t.fields ++
                    [Prelude.schemaField,
                      Prelude.typeField] }).types) :
          ∃ t₀ ∈ s.types, t.values = t₀.values ∧
            ∀ f ∈ t.fields,
              f ∈ t₀.fields ∨
                f.directives = [] ∧
                  ∀ a ∈ f.arguments, a.directives = [] := by
        rcases List.mem_map.mp ht with ⟨t₀, ht₀, rfl⟩
        refine ⟨t₀, ht₀, ?_⟩
        split
        · refine ⟨rfl, ?_⟩
          rw [List.forall_mem_append]
          refine ⟨fun f hf => .inl hf, ?_⟩
          intro f hf
          refine .inr ?_
          revert f
          decide
        · exact ⟨rfl, fun f hf => .inl hf⟩
      constructor
      · intro t ht f hf
        rcases hType t ht with ⟨t₀, ht₀, _, hFields⟩
        rcases hFields f hf with hOld | ⟨hNone, _⟩
        · exact h.fields t₀ ht₀ f hOld
        · rw [hNone]
          exact List.forall_mem_nil _
      · intro t ht f hf a ha
        rcases hType t ht with ⟨t₀, ht₀, _, hFields⟩
        rcases hFields f hf with hOld | ⟨_, hNone⟩
        · exact h.fieldArguments t₀ ht₀ f hOld a ha
        · rw [hNone a ha]
          exact List.forall_mem_nil _
      · intro t ht v hv
        rcases hType t ht with ⟨t₀, ht₀, hValues, _⟩
        rw [hValues] at hv
        exact h.values t₀ ht₀ v hv
      · exact h.directiveArguments

/- Loading ends with letting the uses know. -/
theorem load_attached
    {file : String}
    {text : List Char}
    {schema : Schema}
    (h : load file text = .ok schema) :
    schema.Attached := by
  rcases load_eq_ok_iff.mp h with ⟨_, _, hSchema⟩
  rcases exists_assembled (P := fun _ => True) hSchema trivial
      (fun _ _ _ _ _ _ => trivial) (fun _ _ _ _ _ _ => trivial)
      (fun _ _ _ _ _ _ => trivial) (fun _ _ _ _ => trivial) with
    ⟨s, _, rfl⟩
  exact (attach_attached s).addIntrospection

------------------------------------------------------------
-- Reasons
------------------------------------------------------------

/- The reason of deprecations that do not give one. -/
def defaultReason?
    (s : Schema) : Option Literal :=
  ((s.directive? "deprecated").bind fun d =>
    d.argument? "reason").bind ArgumentDefinition.defaultValue

theorem declared?_reason
    (s : Schema) :
    ((s.declared? "deprecated").bind fun values =>
        Entity.givenValue? values "reason") =
      s.defaultReason? := by
  unfold declared? defaultReason?
  cases s.directive? "deprecated" with
  | none => rfl
  | some d =>
      rw [Option.map_some, Option.bind_some, Option.bind_some]
      unfold Entity.givenValue? DirectiveDefinition.argument?
        argumentNamed?
      rw [List.find?_map, Option.bind_map]
      rfl

end Schema

/- The reason given for a deprecation, if there is one. -/
def givenReason?
    (uses : List DirectiveUse) : Option (Option Literal) :=
  (uses.find? fun use => use.name = "deprecated").map
    fun use => Entity.givenValue? use.arguments "reason"

/- Without a reason of its own an element takes the default. -/
theorem Schema.Informs.deprecation?_eq
    {s : Schema}
    {uses : List DirectiveUse}
    (h : s.Informs uses) :
    Entity.deprecation? uses =
      (givenReason? uses).map fun given =>
        ((given.or s.defaultReason?).map
          Literal.text).getD "" := by
  unfold Entity.deprecation? givenReason?
  rw [← s.declared?_reason]
  cases hUse : uses.find? fun use => use.name = "deprecated" with
  | none => rfl
  | some use =>
      have hName : use.name = "deprecated" := by
        simpa using List.find?_some hUse
      have hDeclared := h use (List.mem_of_find?_eq_some hUse)
      rw [hName] at hDeclared
      dsimp only
      rw [Option.map_some, Option.map_some, hDeclared]
      cases (Entity.givenValue? use.arguments "reason").or
        ((s.declared? "deprecated").bind fun values =>
          Entity.givenValue? values "reason") with
      | none => rfl
      | some reason => rfl

end QueryHover
