import QueryHover.Proofs.Declaring
import QueryHover.Schema.Load

/-
  What holds of every schema that was loaded.

  A schema starts from the prelude and grows by one
  declaration after the other. What each step of that keeps
  holds at the end: fields, directives and their arguments
  have names, and no two directives have the same.

  Main declarations:
    * `Schema.exists_assembled`
    * `Schema.WellNamed`
    * `Schema.load_wellNamed`
-/

namespace QueryHover

------------------------------------------------------------
-- Steps of Loading
------------------------------------------------------------

section

variable {ε α β : Type}

theorem bind_eq_ok
    {x : Except ε α}
    {f : α → Except ε β}
    {b : β} :
    (x >>= f) = .ok b ↔ ∃ a, x = .ok a ∧ f a = .ok b := by
  cases x with
  | error e =>
      constructor
      · intro h
        cases h
      · rintro ⟨a, h, _⟩
        cases h
  | ok a =>
      constructor
      · intro h
        exact ⟨a, rfl, h⟩
      · rintro ⟨a', h, hf⟩
        cases h
        exact hf

/- What every step keeps holds after all of them. -/
theorem foldlM_keeps
    {P : β → Prop}
    {f : β → α → Except ε β}
    {items : List α}
    (hStep :
      ∀ a ∈ items, ∀ b b', P b → f b a = .ok b' → P b')
    {b b' : β}
    (h : P b)
    (hRun : items.foldlM f b = .ok b') :
    P b' := by
  induction items generalizing b with
  | nil =>
      cases hRun
      exact h
  | cons a items ih =>
      rw [List.foldlM_cons, bind_eq_ok] at hRun
      rcases hRun with ⟨b₁, hFirst, hRest⟩
      rw [List.forall_mem_cons] at hStep
      exact ih hStep.2 (hStep.1 b b₁ h hFirst) hRest

end

namespace Schema

/-
  Whatever holds of the prelude and is kept by every
  declaration holds of a schema that is then only completed.
-/
theorem exists_assembled
    {P : Schema → Prop}
    {declarations : List Declaration}
    {schema : Schema}
    (h : assemble declarations = .ok schema)
    (hInitial : P initial)
    (hType :
      ∀ t, .typeDefinition t ∈ declarations → ∀ s s',
        P s → addType s t = .ok s' → P s')
    (hExtension :
      ∀ t, .typeExtension t ∈ declarations → ∀ s s',
        P s → addExtension s t = .ok s' → P s')
    (hDirective :
      ∀ d, .directiveDefinition d ∈ declarations → ∀ s s',
        P s → addDirective s d = .ok s' → P s')
    (hRoot :
      ∀ s operation name, P s → P (s.withRoot operation name)) :
    ∃ s, P s ∧ schema = s.attach.addIntrospection := by
  have hEntry (entry : RootEntry) (s s' : Schema) (hs : P s)
      (hRun : addRoot s entry = .ok s') : P s' := by
    rcases bind_eq_ok.mp hRun with ⟨_, _, hRun⟩
    cases hRun
    exact hRoot s _ _ hs
  have hEntries (declaration : RootDeclaration) (s s' : Schema)
      (hs : P s) (hRun : addRoots s declaration = .ok s') :
      P s' := by
    rcases bind_eq_ok.mp hRun with ⟨s₁, hFold, hRun⟩
    rcases bind_eq_ok.mp hRun with ⟨_, _, hRun⟩
    cases hRun
    exact foldlM_keeps (fun entry _ => hEntry entry) hs hFold
  have hUsual (s : Schema) (hs : P s) :
      P (usualRoots.foldl addUsualRoot s) := by
    have hOne (s : Schema) (root : Operation × String)
        (hs : P s) : P (s.addUsualRoot root) := by
      unfold addUsualRoot
      split
      · exact hRoot s _ _ hs
      · exact hs
    exact hOne _ _ (hOne _ _ (hOne _ _ hs))
  unfold assemble at h
  dsimp only at h
  rcases bind_eq_ok.mp h with ⟨s₁, hTypes, h⟩
  rcases bind_eq_ok.mp h with ⟨s₂, hExtensions, h⟩
  rcases bind_eq_ok.mp h with ⟨s₃, hDirectives, h⟩
  have hDirected : P s₃ := by
    refine foldlM_keeps ?_ (foldlM_keeps ?_ (foldlM_keeps ?_
      hInitial hTypes) hExtensions) hDirectives
    · intro d hd
      rcases List.mem_filterMap.mp hd with ⟨x, hx, hSome⟩
      cases x
      case directiveDefinition =>
        cases hSome
        exact hDirective d hx
      all_goals cases hSome
    · intro t ht
      rcases List.mem_filterMap.mp ht with ⟨x, hx, hSome⟩
      cases x
      case typeExtension =>
        cases hSome
        exact hExtension t hx
      all_goals cases hSome
    · intro t ht
      rcases List.mem_filterMap.mp ht with ⟨x, hx, hSome⟩
      cases x
      case typeDefinition =>
        cases hSome
        exact hType t hx
      all_goals cases hSome
  split at h
  · cases h
  · rcases bind_eq_ok.mp h with ⟨s₄, hRoots, h⟩
    rcases bind_eq_ok.mp h with ⟨s₅, hMore, h⟩
    rcases bind_eq_ok.mp h with ⟨_, _, h⟩
    cases h
    have hRooted : P s₅ :=
      foldlM_keeps (fun r _ => hEntries r)
        (foldlM_keeps (fun r _ => hEntries r) hDirected hRoots)
        hMore
    refine ⟨_, ?_, rfl⟩
    split
    · exact hUsual s₅ hRooted
    · exact hRooted

/- A text is read, and then its declarations are assembled. -/
theorem load_eq_ok_iff
    {file : String}
    {text : List Char}
    {schema : Schema} :
    load file text = .ok schema ↔
      ∃ declarations,
        Declaration.parse file text = .ok declarations ∧
          assemble declarations = .ok schema := by
  unfold load
  cases Declaration.parse file text with
  | error e => simp
  | ok declarations =>
      dsimp only
      cases hSchema : assemble declarations with
      | error e => simp [hSchema]
      | ok result => simp [hSchema]

------------------------------------------------------------
-- Names in a Loaded Schema
------------------------------------------------------------

/-
  A schema whose fields, directives and arguments have names,
  and whose directives have different ones.
-/
structure WellNamed
    (s : Schema) : Prop where
  types : ∀ t ∈ s.types, t.Named
  directives : ∀ d ∈ s.directives, d.Named
  distinct : (s.directives.map DirectiveDefinition.name).Nodup

theorem initial_wellNamed :
    initial.WellNamed := by
  refine ⟨?_, ?_, ?_⟩
  · unfold TypeDefinition.Named FieldDefinition.Named
    decide +kernel
  · unfold DirectiveDefinition.Named
    decide +kernel
  · decide +kernel

variable {s s' : Schema}

theorem WellNamed.addType
    (h : s.WellNamed)
    {t : TypeDefinition}
    (ht : t.Named)
    (hRun : s.addType t = .ok s') :
    s'.WellNamed := by
  rcases bind_eq_ok.mp hRun with ⟨_, _, hRun⟩
  cases hRun
  refine ⟨?_, h.directives, h.distinct⟩
  rw [List.forall_mem_append]
  exact ⟨h.types, List.forall_mem_singleton.mpr ht⟩

/- Types may be given more fields that have names. -/
theorem WellNamed.mapType
    (h : s.WellNamed)
    (name : String)
    {f : TypeDefinition → TypeDefinition}
    (hf : ∀ t, t.Named → (f t).Named) :
    (s.mapType name f).WellNamed := by
  refine ⟨?_, h.directives, h.distinct⟩
  intro t ht
  rcases List.mem_map.mp ht with ⟨t₀, ht₀, rfl⟩
  split
  · exact hf t₀ (h.types t₀ ht₀)
  · exact h.types t₀ ht₀

theorem WellNamed.addExtension
    (h : s.WellNamed)
    {t : TypeDefinition}
    (ht : t.Named)
    (hRun : s.addExtension t = .ok s') :
    s'.WellNamed := by
  unfold Schema.addExtension at hRun
  cases hBase : s.type? t.name with
  | none =>
      rw [hBase] at hRun
      cases hRun
      refine ⟨?_, h.directives, h.distinct⟩
      rw [List.forall_mem_append]
      exact ⟨h.types, List.forall_mem_singleton.mpr ht⟩
  | some base =>
      rw [hBase] at hRun
      rcases bind_eq_ok.mp hRun with ⟨_, _, hRun⟩
      cases hRun
      refine h.mapType t.name fun t₀ ht₀ => ?_
      unfold TypeDefinition.Named extendType
      rw [List.forall_mem_append]
      exact ⟨ht₀, ht⟩

/- A directive takes the place of one with the same name. -/
theorem WellNamed.addDirective
    (h : s.WellNamed)
    {d : DirectiveDefinition}
    (hd : d.Named)
    (hRun : s.addDirective d = .ok s') :
    s'.WellNamed := by
  rcases bind_eq_ok.mp hRun with ⟨_, _, hRun⟩
  cases hRun
  refine ⟨h.types, ?_, ?_⟩
  · rw [List.forall_mem_append]
    refine ⟨?_, List.forall_mem_singleton.mpr hd⟩
    intro e he
    exact h.directives e (List.mem_filter.mp he).1
  · rw [List.map_append, List.map_singleton,
      List.nodup_append]
    refine ⟨?_, List.pairwise_singleton _ d.name, ?_⟩
    · exact h.distinct.sublist (List.filter_sublist.map _)
    · intro name hName other hOther
      rcases List.mem_map.mp hName with ⟨e, he, rfl⟩
      rw [List.mem_singleton.mp hOther]
      exact of_decide_eq_true (List.mem_filter.mp he).2

theorem WellNamed.withRoot
    (h : s.WellNamed)
    (operation : Operation)
    (name : String) :
    (s.withRoot operation name).WellNamed := by
  cases operation
  all_goals exact ⟨h.types, h.directives, h.distinct⟩

theorem forall_mem_map_of
    {α : Type}
    {P : α → Prop}
    {f : α → α}
    {items : List α}
    (h : ∀ a ∈ items, P a)
    (hf : ∀ a, P a → P (f a)) :
    ∀ a ∈ items.map f, P a := by
  rw [List.forall_mem_map]
  intro a ha
  exact hf a (h a ha)

theorem WellNamed.attach
    (h : s.WellNamed) :
    s.attach.WellNamed := by
  refine ⟨?_, ?_, ?_⟩
  · intro t ht
    rcases List.mem_map.mp ht with ⟨t₀, ht₀, rfl⟩
    exact forall_mem_map_of (h.types t₀ ht₀) fun f hf =>
      ⟨hf.1, forall_mem_map_of hf.2 fun a ha => ha⟩
  · intro d hd
    rcases List.mem_map.mp hd with ⟨d₀, hd₀, rfl⟩
    have hNamed := h.directives d₀ hd₀
    exact ⟨hNamed.1, forall_mem_map_of hNamed.2 fun a ha => ha⟩
  · have hNames :
        s.attach.directives.map DirectiveDefinition.name =
          s.directives.map DirectiveDefinition.name :=
      List.map_map
    rw [hNames]
    exact h.distinct

theorem WellNamed.addIntrospection
    (h : s.WellNamed) :
    s.addIntrospection.WellNamed := by
  unfold Schema.addIntrospection
  cases s.query with
  | none => exact h
  | some name =>
      refine h.mapType name fun t ht => ?_
      unfold TypeDefinition.Named
      rw [List.forall_mem_append]
      refine ⟨ht, ?_⟩
      unfold FieldDefinition.Named
      decide

/- The names of every schema that is loaded. -/
theorem load_wellNamed
    {file : String}
    {text : List Char}
    {schema : Schema}
    (h : load file text = .ok schema) :
    schema.WellNamed := by
  rcases load_eq_ok_iff.mp h with
    ⟨declarations, hParse, hSchema⟩
  have hNames := Declaration.parse_named hParse
  rcases exists_assembled hSchema initial_wellNamed
      (fun t ht _ _ hs => hs.addType (hNames _ ht))
      (fun t ht _ _ hs => hs.addExtension (hNames _ ht))
      (fun d hd _ _ hs => hs.addDirective (hNames _ hd))
      (fun _ operation name hs =>
        hs.withRoot operation name) with
    ⟨s, hs, rfl⟩
  exact hs.attach.addIntrospection

end Schema

end QueryHover
