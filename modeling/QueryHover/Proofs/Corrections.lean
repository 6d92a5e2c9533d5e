import QueryHover.Proofs.Distances
import QueryHover.Proofs.Grounding
import QueryHover.Proofs.Lookup

/-
  Corrections of names that are not known.

  Where the name of a leaf is not known, the closest of its
  candidates is offered. That is a name, since everything in
  a loaded schema has one; the leaf would be known by it; and
  no other candidate is closer.

  Main declarations:
    * `Context.Named`
    * `suggestion?_reverse_cons`
    * `suggestion?_best`
-/

namespace QueryHover

------------------------------------------------------------
-- Names Around a Leaf
------------------------------------------------------------

theorem typenameField_named :
    typenameField.Named := by
  unfold FieldDefinition.Named
  decide

namespace Schema.WellNamed

variable {schema : Schema}

theorem type?
    (h : schema.WellNamed)
    {name : String}
    {t : TypeDefinition}
    (ht : t ∈ schema.type? name) :
    t.Named :=
  h.types t (List.mem_of_find?_eq_some ht)

theorem composite?
    (h : schema.WellNamed)
    {name : String}
    {t : TypeDefinition}
    (ht : t ∈ schema.composite? name) :
    t.Named :=
  h.type? (Option.filter_eq_some_iff.mp ht).1

theorem root?
    (h : schema.WellNamed)
    {operation : Operation}
    {t : TypeDefinition}
    (ht : t ∈ schema.root? operation) :
    t.Named := by
  rcases Option.bind_eq_some_iff.mp ht with ⟨name, _, hType⟩
  exact h.type? hType

end Schema.WellNamed

namespace Context

/- What names are looked up in has names itself. -/
structure Named
    (c : Context) : Prop where
  composite : ∀ t ∈ c.composite, t.Named
  field : ∀ f ∈ c.field, f.Named
  directive : ∀ d ∈ c.directive, d.Named

variable {schema : Schema}
variable {c : Context}

theorem Named.lookupField?
    (h : c.Named)
    {name : String}
    {f : FieldDefinition}
    (hf : f ∈ c.lookupField? name) :
    f.Named := by
  rcases mem_lookupField? hf with ⟨t, ht, hFound | rfl⟩
  · exact h.composite t ht f (List.mem_of_find?_eq_some hFound)
  · exact typenameField_named

theorem Named.enterField
    (hNames : schema.WellNamed)
    (h : c.Named)
    (n : Node) :
    (c.enterField schema n).Named := by
  unfold Context.enterField
  cases hField : c.lookupField? n.name with
  | none =>
      constructor
      all_goals
        intro x hx
        cases hx
  | some f =>
      refine ⟨fun t ht => hNames.composite? ht, ?_, ?_⟩
      · rintro _ ⟨⟩
        exact h.lookupField? hField
      · intro d hd
        cases hd

theorem Named.enter
    (hNames : schema.WellNamed)
    (h : c.Named)
    (parent : Option Node)
    (n : Node) :
    (c.enter schema parent n).Named := by
  have hFresh (document definition : Option Node)
      {composite : Option TypeDefinition}
      (hType : ∀ t ∈ composite, t.Named) :
      Named { document, definition, composite } := by
    refine ⟨hType, ?_, ?_⟩
    all_goals
      intro x hx
      cases hx
  unfold Context.enter
  cases n.kind
  case document =>
    exact hFresh _ _ fun t ht => by cases ht
  case operationDefinition =>
    exact hFresh _ _ fun t ht => hNames.root? ht
  case fragmentDefinition =>
    refine hFresh _ _ fun t ht => ?_
    rcases Option.bind_eq_some_iff.mp ht with ⟨m, _, hType⟩
    exact hNames.composite? hType
  case inlineFragment =>
    dsimp only
    split
    · exact h
    · exact ⟨fun t ht => hNames.composite? ht, h.field,
        h.directive⟩
  case field => exact h.enterField hNames n
  case directive =>
    refine ⟨h.composite, h.field, fun d hd => ?_⟩
    exact hNames.directives d (List.mem_of_find?_eq_some hd)
  all_goals exact ⟨h.composite, h.field, h.directive⟩

theorem along_named
    (hNames : schema.WellNamed)
    (ancestors : List Node) :
    (along schema ancestors.reverse).Named := by
  induction ancestors with
  | nil =>
      constructor
      all_goals
        intro x hx
        cases hx
  | cons n outer ih =>
      rw [along_reverse_cons]
      exact ih.enter hNames outer.head? n

end Context

section

variable {schema : Schema}

/- The entries of every owner have names. -/
theorem names_ne_empty
    (hNames : schema.WellNamed)
    {kind : Node.Kind}
    {ancestors : List Node}
    {owner : Owner}
    (h : owner ∈ schema.ownerAt? kind ancestors) :
    ∀ name ∈ owner.names, name ≠ "" := by
  have hContext := Context.along_named hNames ancestors
  unfold Schema.ownerAt? at h
  generalize Context.along schema ancestors.reverse = c
    at h hContext
  cases kind
  case field =>
    rcases Option.map_eq_some_iff.mp h with ⟨t, ht, rfl⟩
    unfold Owner.names
    rw [List.forall_mem_cons, List.forall_mem_map]
    refine ⟨by decide, ?_⟩
    intro f hf
    exact (hContext.composite t ht f hf).1
  case directive =>
    cases h
    unfold Owner.names
    rw [List.forall_mem_map]
    intro d hd
    exact (hNames.directives d hd).1
  case argument =>
    dsimp only at h
    split at h
    · rcases Option.map_eq_some_iff.mp h with ⟨d, hd, rfl⟩
      exact List.forall_mem_map.mpr (hContext.directive d hd).2
    · rcases Option.map_eq_some_iff.mp h with ⟨f, hf, rfl⟩
      exact List.forall_mem_map.mpr (hContext.field f hf).2
  all_goals cases h

/- Every candidate is a name. -/
theorem candidates?_ne_empty
    (hNames : schema.WellNamed)
    (leaf : Node)
    (ancestors : List Node) :
    ∀ name ∈
        (candidates? (some schema)
          (leaf :: ancestors).reverse).getD [],
      name ≠ "" := by
  intro name hName
  rw [mem_candidates?_iff] at hName
  rcases hName with ⟨owner, hOwner, hHas⟩
  exact names_ne_empty hNames hOwner name
    ((owner.mem_names_iff name).mpr hHas)

------------------------------------------------------------
-- Corrections
------------------------------------------------------------

/- A leaf whose name is a candidate is known. -/
theorem isKnown_of_mem
    {leaf : Node}
    {ancestors : List Node}
    (h :
      leaf.name ∈
        (candidates? (some schema)
          (leaf :: ancestors).reverse).getD []) :
    isKnown (some schema) (leaf :: ancestors).reverse = true := by
  rw [mem_candidates?_iff] at h
  rcases h with ⟨owner, hOwner, hHas⟩
  rw [← Bool.not_eq_false, isKnown_eq_false_iff]
  rintro ⟨other, hOther, hNot⟩
  cases Option.mem_unique hOwner hOther
  exact hNot hHas

/- A name that is not known gets the closest candidate. -/
theorem suggestion?_reverse_cons
    (hNames : schema.WellNamed)
    (leaf : Node)
    (ancestors : List Node) :
    let chain := (leaf :: ancestors).reverse
    suggestion? (some schema) chain =
      if isKnown (some schema) chain then
        none
      else
        (Text.closest? leaf.name
          ((candidates? (some schema) chain).getD [])).map
            fun name => "did you mean `" ++ name ++ "`?" := by
  have hNonempty := candidates?_ne_empty hNames leaf ancestors
  have hOrder := @candidates?_ordered schema leaf ancestors
  unfold suggestion? correction? isKnown
  dsimp only
  rw [Chain.leaf?_reverse_cons]
  cases hCandidates :
      candidates? (some schema) (leaf :: ancestors).reverse with
  | none => rfl
  | some names =>
      rw [hCandidates, Option.getD_some] at hNonempty hOrder
      rw [Option.getD_some]
      dsimp only [Option.bind_eq_bind, Option.bind_some]
      split
      · rfl
      · cases hClosest : Text.closest? leaf.name names with
        | none => rfl
        | some name =>
            have hMem := (Text.closest?_eq_some hOrder hClosest).1
            rw [Option.bind_some, if_neg (hNonempty name hMem)]
            rfl

end

/-
  A hint is a correct fix and the best one. The name that it
  offers is a candidate other than the leaf's own name, at
  most five changes away, and no candidate is closer, or as
  close and before it in the order of bytes. Under that name
  the leaf is known and is itself what is described. There is
  no hint exactly if the leaf is known, if it has no
  candidates or if all of them are farther away. The order of
  the directives in the schema does not matter.
-/
theorem suggestion?_best
    {file : String}
    {text : List Char}
    {schema : Schema}
    (hLoad : Schema.load file text = .ok schema)
    (leaf : Node)
    (ancestors : List Node) :
    let chain := (leaf :: ancestors).reverse
    let names := (candidates? (some schema) chain).getD []
    (∀ hint, suggestion? (some schema) chain = some hint →
      ∃ name,
        hint = "did you mean `" ++ name ++ "`?" ∧
        name ≠ leaf.name ∧
        name ∈ names ∧
        Text.distance leaf.name name ≤ 5 ∧
        (∀ other ∈ names,
          ¬Text.Closer leaf.name other name) ∧
        isKnown (some schema)
          ({ leaf with name := name } :: ancestors).reverse =
            true ∧
        schema.Describes { leaf with name := name }
          ancestors) ∧
      (suggestion? (some schema) chain = none ↔
        isKnown (some schema) chain = true ∨
        names = [] ∨
        ∀ other ∈ names,
          5 < Text.distance leaf.name other) ∧
      ∀ directives, directives.Perm schema.directives →
        suggestion? (some (schema.withDirectives directives))
            chain =
          suggestion? (some schema) chain := by
  intro chain names
  have hNames := Schema.load_wellNamed hLoad
  have hHint := suggestion?_reverse_cons hNames leaf ancestors
  have hOrder : names.Pairwise fun s t => ¬Text.ByteLess t s :=
    candidates?_ordered leaf ancestors
  refine ⟨?_, ?_, ?_⟩
  · intro hint hSome
    rw [hHint] at hSome
    split at hSome
    case isTrue => cases hSome
    case isFalse hUnknown =>
      rcases Option.map_eq_some_iff.mp hSome with
        ⟨name, hClosest, rfl⟩
      rcases Text.closest?_eq_some hOrder hClosest with
        ⟨hMem, hNear, hLeast⟩
      have hHas := (mem_candidates?_iff leaf ancestors name).mp hMem
      refine ⟨name, rfl, ?_, hMem, hNear, hLeast, ?_, ?_⟩
      · rintro rfl
        exact hUnknown (isKnown_of_mem hMem)
      · apply isKnown_of_mem
        exact (mem_candidates?_iff _ ancestors name).mpr hHas
      · rw [describes_iff]
        exact hHas
  · rw [hHint]
    split
    case isTrue hKnown => exact iff_of_true rfl (.inl hKnown)
    case isFalse hUnknown =>
      rw [Option.map_eq_none_iff,
        Text.closest?_eq_none_iff hOrder]
      constructor
      · intro hFar
        exact .inr (.inr hFar)
      · rintro (hKnown | hNone | hFar)
        · exact absurd hKnown hUnknown
        · rw [hNone]
          exact List.forall_mem_nil _
        · exact hFar
  · intro directives hPerm
    unfold suggestion? correction?
    rw [candidates?_withDirectives hPerm hNames]

theorem suggestion?_best_tie :
    let operation : Node := { kind := .operationDefinition }
    let field : Node := { kind := .field, name := "f" }
    let leaf : Node := { kind := .argument, name := "ad" }
    ∃ schema,
      Schema.load "schema"
          "type Query\x7bf(ac:Int,ab:Int):Int\x7d".toList =
        .ok schema ∧
      suggestion? (some schema)
          [leaf, field, operation].reverse =
        some "did you mean `ab`?" := by
  intro operation field leaf
  let listed (schema : Schema) :=
    (schema.ownerAt? leaf.kind [field, operation]).map
      Owner.names
  have hSeen :
      (Schema.load "schema"
          "type Query\x7bf(ac:Int,ab:Int):Int\x7d".toList
        ).toOption.map listed = some (some ["ac", "ab"]) := by
    decide +kernel
  rcases Option.map_eq_some_iff.mp hSeen with
    ⟨schema, hSchema, hListed⟩
  rcases Option.map_eq_some_iff.mp hListed with
    ⟨owner, hOwner, hNames⟩
  have hSorted : sortTexts ["ac", "ab"] = ["ab", "ac"] := by
    rw [sortTexts_perm (List.Perm.swap "ab" "ac" [])]
    exact List.mergeSort_of_pairwise (by decide)
  have hCandidates :
      candidates? (some schema)
          [leaf, field, operation].reverse =
        some ["ab", "ac"] := by
    rw [candidates?_reverse_cons, hOwner, Option.map_some,
      hNames, hSorted]
  have hDistance :
      Text.distance "ad" "ab" = 1 ∧
        Text.distance "ad" "ac" = 1 := by
    unfold Text.distance
    rw [← Text.editDistance_eq_changes,
      ← Text.editDistance_eq_changes]
    decide
  have hLoad := eq_ok_of_toOption hSchema
  have hBest := suggestion?_best hLoad leaf [field, operation]
  dsimp only at hBest
  rw [hCandidates] at hBest
  refine ⟨schema, hLoad, ?_⟩
  cases hHint :
      suggestion? (some schema)
        [leaf, field, operation].reverse with
  | none =>
      rcases hBest.2.1.mp hHint with hKnown | hNone | hFar
      · unfold isKnown at hKnown
        rw [hCandidates] at hKnown
        exact absurd hKnown (by decide)
      · cases hNone
      · have hLess := hFar "ab" List.mem_cons_self
        rw [hDistance.1] at hLess
        exact absurd hLess (by decide)
  | some hint =>
      rcases hBest.1 hint hHint with
        ⟨name, rfl, _, hMem, _, hLeast, _, _⟩
      rcases List.mem_pair.mp hMem with rfl | rfl
      · rfl
      · exfalso
        apply hLeast "ab" List.mem_cons_self
        refine .inr ⟨hDistance.1.trans hDistance.2.symm, ?_⟩
        rw [Text.byteLess_iff]
        decide

end QueryHover
