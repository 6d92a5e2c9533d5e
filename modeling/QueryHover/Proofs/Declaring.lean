import QueryHover.Proofs.Parsing
import QueryHover.Schema.Declaration

/-
  Names of declarations.

  Every name token of a text has a value. So whatever a
  schema document declares has a name: its directives, its
  fields and the arguments of both. The grammar is followed
  production by production, each with what it promises of
  the values that it yields.

  Main declarations:
    * `Token.Named`
    * `TokenStream.ofText_named`
    * `Declaration.Named`
    * `Declaration.parse_named`
-/

namespace QueryHover

------------------------------------------------------------
-- Names With Values
------------------------------------------------------------

/- A token that has a value if it is a name. -/
def Token.Named
    (t : Token) : Prop :=
  t.kind = .name → t.value ≠ ""

/- The names of a text have values. -/
theorem TokenStream.ofText_named
    (file : String)
    (text : List Char) :
    (ofText file text).Of Token.Named := by
  refine ⟨?_, ?_, ?_⟩
  · intro t ht hKind
    have hProper := (ofText_proper file text ht).1
    unfold Token.Proper at hProper
    rw [hKind] at hProper
    exact hProper
  · intro hKind
    rcases (ofText_last file text).2 with hEnd | hEnd
    · exact absurd (hKind.symm.trans hEnd.1) (by decide)
    · exact absurd (hKind.symm.trans hEnd.1) (by decide)
  · intro t ht hKind
    have hComment : t.kind = .comment := by
      simpa using (List.mem_filter.mp ht).2
    exact absurd (hKind.symm.trans hComment) (by decide)

------------------------------------------------------------
-- Members of Types
------------------------------------------------------------

/- A field with a name, and so its arguments. -/
def FieldDefinition.Named
    (f : FieldDefinition) : Prop :=
  f.name ≠ "" ∧ ∀ a ∈ f.arguments, a.name ≠ ""

/- A directive with a name, and so its arguments. -/
def DirectiveDefinition.Named
    (d : DirectiveDefinition) : Prop :=
  d.name ≠ "" ∧ ∀ a ∈ d.arguments, a.name ≠ ""

/- A type whose fields have names. -/
def TypeDefinition.Named
    (t : TypeDefinition) : Prop :=
  ∀ f ∈ t.fields, f.Named

namespace Declaration

open QueryHover.Parser

/- A declaration of types or directives with names. -/
def Named :
    Declaration → Prop
  | .typeDefinition t => t.Named
  | .typeExtension t => t.Named
  | .directiveDefinition d => d.Named
  | .rootDefinition _ => True
  | .rootExtension _ => True

/- A name is not empty. -/
theorem yields_nameValue :
    Yields Token.Named Parser.name fun name => name ≠ "" := by
  intro s hs
  cases hRun : Parser.name s with
  | error e => exact yields_name.of_error hs hRun
  | ok r =>
      have hName := name_ok.mp hRun
      refine ⟨(yields_name.of_ok hs hRun).1, ?_⟩
      rw [hName.2.1]
      exact hs.head hName.1

theorem yields_description :
    Yields Token.Named description fun _ => True := by
  refine yields_peek.bind fun t _ => ?_
  refine .ite ?_ (.pure trivial)
  exact yields_next.bind fun _ _ => .pure trivial

theorem yields_here :
    Yields Token.Named here fun _ => True :=
  yields_peek.bind fun t _ => yields_place t

theorem yields_argument :
    Yields Token.Named argument fun a => a.name ≠ "" := by
  refine yields_here.bind fun _ _ => ?_
  refine yields_description.bind fun _ _ => ?_
  refine yields_nameValue.bind fun name hName => ?_
  refine (yields_expect .colon).bind fun _ _ => ?_
  refine Grammar.yields_typeRef.bind fun _ _ => ?_
  -- The default does not matter to the name.
  refine (yields_skip .equals).bind fun _ _ => ?_
  refine .ite ?_ ?_
  · refine (Grammar.yields_value true).bind fun _ _ => ?_
    refine .pure_bind ?_
    exact (Grammar.yields_directives true).bind fun _ _ =>
      .pure hName
  · refine .pure_bind ?_
    exact (Grammar.yields_directives true).bind fun _ _ =>
      .pure hName

theorem yields_arguments :
    Yields Token.Named arguments
      fun items => ∀ a ∈ items, a.name ≠ "" :=
  yields_nonEmptyList .parenL .parenR yields_argument

theorem yields_field :
    Yields Token.Named field FieldDefinition.Named := by
  refine yields_here.bind fun _ _ => ?_
  refine yields_description.bind fun _ _ => ?_
  refine yields_nameValue.bind fun name hName => ?_
  refine yields_arguments.bind fun items hItems => ?_
  refine (yields_expect .colon).bind fun _ _ => ?_
  refine Grammar.yields_typeRef.bind fun _ _ => ?_
  exact (Grammar.yields_directives true).bind fun _ _ =>
    .pure ⟨hName, hItems⟩

theorem yields_fields :
    Yields Token.Named fields
      fun items => ∀ f ∈ items, f.Named :=
  yields_nonEmptyList .braceL .braceR yields_field

theorem yields_inputField :
    Yields Token.Named inputField FieldDefinition.Named := by
  refine yields_argument.bind fun a hName => ?_
  exact .pure ⟨hName, List.forall_mem_nil _⟩

theorem yields_inputFields :
    Yields Token.Named inputFields
      fun items => ∀ f ∈ items, f.Named :=
  yields_nonEmptyList .braceL .braceR yields_inputField

theorem yields_enumValues :
    Yields Token.Named enumValues
      fun values => ∀ v ∈ values, True := by
  refine yields_nonEmptyList .braceL .braceR ?_
  refine yields_here.bind fun _ _ => ?_
  refine yields_description.bind fun _ _ => ?_
  refine yields_name.bind fun _ _ => ?_
  exact (Grammar.yields_directives true).bind fun _ _ =>
    .pure trivial

theorem yields_members :
    Yields Token.Named members
      fun names => ∀ name ∈ names, name ≠ "" := by
  refine (yields_skip .equals).bind fun _ _ => ?_
  exact .ite (yields_separated .pipe yields_nameValue)
    (.pure (List.forall_mem_nil _))

theorem yields_interfaces :
    Yields Token.Named interfaces
      fun names => ∀ name ∈ names, name ≠ "" := by
  refine yields_peek.bind fun _ _ => ?_
  refine .ite ?_ (.pure (List.forall_mem_nil _))
  refine yields_next.bind fun _ _ => ?_
  exact yields_separated .ampersand yields_nameValue

------------------------------------------------------------
-- Types, Roots and Directives
------------------------------------------------------------

theorem yields_typeBody
    (asExtension : Bool)
    (kind : TypeKind) :
    Yields Token.Named (typeBody asExtension kind)
      TypeDefinition.Named := by
  have hNone (t : TypeDefinition) (h : t.fields = []) :
      t.Named := by
    unfold TypeDefinition.Named
    rw [h]
    exact List.forall_mem_nil _
  cases kind with
  | scalar =>
      refine yields_here.bind fun _ _ => ?_
      refine yields_name.bind fun _ _ => ?_
      exact (Grammar.yields_directives true).bind fun _ _ =>
        .pure (hNone _ rfl)
  | object =>
      refine yields_here.bind fun _ _ => ?_
      refine yields_name.bind fun _ _ => ?_
      refine yields_interfaces.bind fun _ _ => ?_
      refine (Grammar.yields_directives true).bind fun _ _ => ?_
      exact yields_fields.bind fun _ hFields => .pure hFields
  | interface =>
      refine yields_here.bind fun _ _ => ?_
      refine yields_name.bind fun _ _ => ?_
      refine .ite ?_ ?_
      · refine .pure_bind ?_
        refine (Grammar.yields_directives true).bind
          fun _ _ => ?_
        exact yields_fields.bind fun _ hFields => .pure hFields
      · refine yields_interfaces.bind fun _ _ => ?_
        refine (Grammar.yields_directives true).bind
          fun _ _ => ?_
        exact yields_fields.bind fun _ hFields => .pure hFields
  | union =>
      refine yields_here.bind fun _ _ => ?_
      refine yields_name.bind fun _ _ => ?_
      refine (Grammar.yields_directives true).bind fun _ _ => ?_
      exact yields_members.bind fun _ _ => .pure (hNone _ rfl)
  | enum =>
      refine yields_here.bind fun _ _ => ?_
      refine yields_name.bind fun _ _ => ?_
      refine (Grammar.yields_directives true).bind fun _ _ => ?_
      exact yields_enumValues.bind fun _ _ =>
        .pure (hNone _ rfl)
  | inputObject =>
      refine yields_here.bind fun _ _ => ?_
      refine yields_name.bind fun _ _ => ?_
      refine (Grammar.yields_directives (!asExtension)).bind
        fun _ _ => ?_
      exact yields_inputFields.bind fun _ hFields =>
        .pure hFields

theorem yields_rootEntry :
    Yields Token.Named rootEntry fun _ => True := by
  refine yields_take.bind fun t ht => ?_
  cases Operation.ofKeyword? t.value with
  | none => exact yields_refuse ht (by simp)
  | some operation =>
      refine (yields_place t).bind fun _ _ => ?_
      refine (yields_expect .colon).bind fun _ _ => ?_
      exact yields_name.bind fun _ _ => .pure trivial

theorem yields_rootBody :
    Yields Token.Named rootBody fun _ => True := by
  refine yields_here.bind fun _ _ => ?_
  refine (Grammar.yields_directives true).bind fun _ _ => ?_
  refine (yields_nonEmptyList .braceL .braceR
    yields_rootEntry).bind fun _ _ => ?_
  exact .pure trivial

theorem yields_directivePlace :
    Yields Token.Named directivePlace fun _ => True := by
  refine (yields_expect .name).bind fun t ht => ?_
  cases DirectiveLocation.ofLabel? t.value with
  | none => exact yields_refuse ht (by simp)
  | some place => exact .pure trivial

theorem yields_directiveBody :
    Yields Token.Named directiveBody
      DirectiveDefinition.Named := by
  refine (yields_expect .atSign).bind fun _ _ => ?_
  refine yields_here.bind fun _ _ => ?_
  refine yields_nameValue.bind fun name hName => ?_
  refine yields_arguments.bind fun items hItems => ?_
  refine yields_peek.bind fun _ _ => ?_
  have hPlaces :=
    yields_separated .pipe yields_directivePlace
  refine .ite ?_ ?_
  · refine yields_next.bind fun _ _ => ?_
    refine (yields_word "on").bind fun _ _ => ?_
    exact hPlaces.bind fun _ _ => .pure ⟨hName, hItems⟩
  · refine (yields_word "on").bind fun _ _ => ?_
    exact hPlaces.bind fun _ _ => .pure ⟨hName, hItems⟩

------------------------------------------------------------
-- Documents
------------------------------------------------------------

theorem yields_extensionBody :
    Yields Token.Named extensionBody Named := by
  refine yields_peek.bind fun t ht => ?_
  refine .ite ?_ ?_
  · refine (yields_word "schema").bind fun _ _ => ?_
    refine yields_rootBody.bind fun _ _ => ?_
    exact .ite yields_unexpected (.pure trivial)
  · cases kindOfKeyword? t.value with
    | none => exact yields_refuse ht (by simp)
    | some kind =>
        refine (yields_word t.value).bind fun _ _ => ?_
        refine (yields_typeBody true kind).bind
          fun type hType => ?_
        exact .ite (.pure hType) yields_unexpected

theorem yields_declaration :
    Yields Token.Named declaration Named := by
  refine yields_peek.bind fun first hFirst => ?_
  refine yields_description.bind fun description _ => ?_
  refine yields_peek.bind fun t ht => ?_
  refine .ite (yields_refuse ht (by simp)) ?_
  refine .ite ?_ (.ite ?_ (.ite ?_ ?_))
  · refine yields_next.bind fun _ _ => ?_
    exact yields_rootBody.bind fun _ _ => .pure trivial
  · refine yields_next.bind fun _ _ => ?_
    exact yields_directiveBody.bind fun _ hDirective =>
      .pure hDirective
  · refine .ite ?_ ?_
    · refine yields_get.bind fun s hs => ?_
      exact yields_refuse (hs.commentBetween hFirst t)
        (by simp)
    · exact yields_next.bind fun _ _ => yields_extensionBody
  · cases kindOfKeyword? t.value with
    | none => exact yields_refuse ht (by simp)
    | some kind =>
        refine yields_next.bind fun _ _ => ?_
        exact (yields_typeBody false kind).bind fun _ hType =>
          .pure hType

/- What a schema document declares has names. -/
theorem parse_named
    {file : String}
    {text : List Char}
    {declarations : List Declaration}
    (h : parse file text = .ok declarations) :
    ∀ d ∈ declarations, d.Named := by
  unfold parse StateT.run' at h
  cases hRun : document (TokenStream.ofText file text) with
  | error e =>
      rw [hRun] at h
      cases h
  | ok result =>
      rw [hRun] at h
      cases h
      have hDocument := yields_readWhile
        (fun t => t.kind ≠ .eof) yields_declaration
      exact (hDocument.of_ok
        (TokenStream.ofText_named file text) hRun).2

end Declaration

end QueryHover
