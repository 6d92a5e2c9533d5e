import QueryHover.Proofs.Admission

/-
  Documents are the texts whose tokens spell definitions.

  Selections and definitions are admitted where they are
  spelled, like their parts. So the tokens of a text that
  spell definitions make it a document, and the document has
  just the nodes that they spell.

  Main declarations:
    * `Grammar.NestsUpTo`
    * `Grammar.selection_admits`
    * `Grammar.definition_admits`
    * `Document.parse_of_spells`
-/

namespace QueryHover

namespace Grammar

open TokenStream (Begins Avoids)

variable {s : TokenStream}
variable {ts : List Token}
variable {ns : List Node}

------------------------------------------------------------
-- Selections
------------------------------------------------------------

/- The name of a field without an alias. -/
theorem fieldName_admits
    (hName : s.head.kind = .name)
    (hOther : s.tail.head.kind ≠ .colon) :
    fieldName s = .ok ((), s.tail) ∧
      Node.Reading.fieldName s =
        (("", s.head.value, s.head.span), s.tail) := by
  constructor
  · unfold fieldName
    rw [Parser.bind_of_ok (Parser.expect_run hName),
      Parser.bind_of_ok (Parser.skip_run_other hOther)]
    rfl
  · unfold Node.Reading.fieldName
    simp only [Node.Reading.bind_apply,
      Node.Reading.name_apply, Node.Reading.skip_apply,
      if_neg hOther]
    rfl

/- The name of a field after its alias. -/
theorem aliasedName_admits
    (hAlias : s.head.kind = .name)
    (hColon : s.tail.head.kind = .colon)
    (hName : s.tail.tail.head.kind = .name) :
    fieldName s = .ok ((), s.tail.tail.tail) ∧
      Node.Reading.fieldName s =
        ((s.head.value, s.tail.tail.head.value,
          s.tail.tail.head.span), s.tail.tail.tail) := by
  constructor
  · unfold fieldName
    rw [Parser.bind_of_ok (Parser.expect_run hAlias),
      Parser.bind_of_ok (Parser.skip_run hColon)]
    simp only [if_true]
    rw [Parser.bind_of_ok (Parser.expect_run hName)]
    rfl
  · unfold Node.Reading.fieldName
    simp only [Node.Reading.bind_apply,
      Node.Reading.name_apply, Node.Reading.skip_apply,
      if_pos hColon]
    rfl

/- What both do with nested selections of so many tokens. -/
structure NestsUpTo
    (bound : Nat)
    (g : Parser Unit)
    (r : Node.Reading (Option Node)) : Prop where
  admits :
    AdmitsUpTo bound .selectionSet g r Option.toList
  absent :
    ∀ s : TokenStream, s.head.kind ≠ .braceL →
      r s = (none, s)

section

variable {bound : Nat}
variable {g : Parser Unit}
variable {r : Node.Reading (Option Node)}

/- Nested selections that need not be there. -/
theorem NestsUpTo.optional
    (hNests : NestsUpTo bound g r) :
    AdmitsUpTo bound (.optional .selectionSet)
      (do
        if (← Parser.peek).kind = .braceL then
          g)
      r Option.toList := by
  intro s ts ns hSpells hBound hs hNext
  rw [Parser.bind_of_ok (Parser.peek_run s)]
  cases hSpells with
  | absent =>
      have hOther : s.head.kind ≠ .braceL := by
        simpa [Avoids, Phrase.goesOn, Phrase.firsts,
          TokenStream.past] using hNext
      rw [if_neg hOther]
      exact ⟨⟨_, rfl⟩, none, hNests.absent s hOther, rfl⟩
  | present hSelections =>
      have hResult := hNests.admits hSelections hBound hs
        (by simp [Avoids, Phrase.goesOn])
      cases hSelections with
      | selectionSet hOpen hItems hSome hClose =>
      have hKind := hs.head_kind hOpen
      rw [if_pos hKind]
      exact hResult

/- A field, from its name on. -/
theorem fieldParts_admits
    {us as ds ss : List Token}
    {ans dns sns : List Node}
    {aliasName name : String}
    {nameSpan : Span}
    (hNests : NestsUpTo bound g r)
    (hName :
      fieldName s = .ok ((), s.past us) ∧
        Node.Reading.fieldName s =
          ((aliasName, name, nameSpan), s.past us))
    (hSome : us ≠ [])
    (hArguments : Phrase.arguments.Spells as ans)
    (hDirectives : Phrase.directives.Spells ds dns)
    (hSelections :
      (Phrase.optional .selectionSet).Spells ss sns)
    (hBound : ss.length ≤ bound)
    (hs : s.Begins (us ++ (as ++ (ds ++ ss))))
    (hNext :
      (s.past (us ++ (as ++ (ds ++ ss)))).Avoids
        Phrase.selection.goesOn) :
    (∃ a, field g s =
        .ok (a, s.past (us ++ (as ++ (ds ++ ss))))) ∧
      Node.Reading.field r s =
        (Node.over (us ++ (as ++ (ds ++ ss)))
          { kind := .field
            name := name
            nameSpan := nameSpan
            aliasName := aliasName
            children := ans ++ dns ++ sns },
          s.past (us ++ (as ++ (ds ++ ss)))) := by
  have hClose := Node.Reading.close_past hs (by simp [hSome])
    { kind := .field
      name := name
      nameSpan := nameSpan
      aliasName := aliasName
      children := ans ++ dns ++ sns }
  rw [TokenStream.past_append, TokenStream.past_append,
    TokenStream.past_append] at hNext hClose ⊢
  have hRest := hs.right
  have hNext₂ :
      (((s.past us).past as).past ds).Avoids
        [.atSign, .parenL] :=
    hRest.right.right.avoids hSelections (by decide)
      (hNext.mono (by decide))
  have hNext₁ : ((s.past us).past as).Avoids [.parenL] :=
    hRest.right.left.avoids hDirectives (by decide)
      (hNext₂.mono (by decide))
  rcases arguments_admits hArguments hRest.left hNext₁ with
    ⟨⟨l, hTake₁⟩, _, hRead₁, hNode⟩
  cases hNode
  rcases directives_admits hDirectives hRest.right.left
      hNext₂ with
    ⟨⟨l', hTake₂⟩, _, hRead₂, hNode⟩
  cases hNode
  rcases hNests.optional hSelections hBound hRest.right.right
      (hNext.mono (by decide)) with
    ⟨hTake₃, o, hRead₃, hNode⟩
  cases hNode
  constructor
  · unfold field
    rw [Parser.bind_of_ok hName.1, Parser.bind_of_ok hTake₁,
      Parser.bind_of_ok hTake₂]
    exact hTake₃
  · unfold Node.Reading.field
    simp only [Node.Reading.bind_apply,
      Node.Reading.start_apply, hName.2, hRead₁, hRead₂,
      hRead₃]
    exact hClose

/- The spread of a named fragment. -/
theorem fragmentSpread_admits
    {e t : Token}
    {ds : List Token}
    {dns : List Node}
    (hSpread : e.kind = .spread)
    (hName : t.kind = .name)
    (hWord : t.value ≠ "on")
    (hDirectives : Phrase.directives.Spells ds dns)
    (hs : s.Begins (e :: t :: ds))
    (hNext :
      (s.past (e :: t :: ds)).Avoids Phrase.selection.goesOn) :
    (∃ a, selection g s = .ok (a, s.past (e :: t :: ds))) ∧
      Node.Reading.selection r s =
        (Node.over (e :: t :: ds)
          { kind := .fragmentSpread
            name := t.value
            nameSpan := t.span
            children := dns }, s.past (e :: t :: ds)) := by
  have hKind := hs.head_kind hSpread
  have hHead := hs.tail.head
  have hOwn :
      (decide (s.tail.head.kind = .name) &&
        decide (s.tail.head.value ≠ "on")) = true := by
    simp [hHead, hName, hWord]
  rcases directives_admits hDirectives hs.tail.tail
      (hNext.mono (by decide)) with
    ⟨⟨l, hTake⟩, _, hRead, hNode⟩
  cases hNode
  constructor
  · unfold selection fragment
    rw [Parser.bind_of_ok (Parser.peek_run s), if_pos hKind,
      Parser.bind_of_ok (Parser.expect_run hKind),
      Parser.bind_of_ok (Parser.peek_run _), if_pos hOwn,
      Parser.bind_of_ok (Parser.next_run _),
      Parser.bind_of_ok hTake]
    exact ⟨_, rfl⟩
  · unfold Node.Reading.selection
    rw [Node.Reading.bind_apply, Node.Reading.peek_apply,
      if_pos hKind]
    change (if (decide (s.tail.head.kind = .name) &&
      decide (s.tail.head.value ≠ "on")) = true then _ else _ :
        Node.Reading Node) s.tail = _
    rw [if_pos hOwn]
    unfold Node.Reading.fragmentSpread
    simp only [Node.Reading.bind_apply,
      Node.Reading.name_apply, hRead, hHead]
    exact Node.Reading.close_past hs (by simp) _

/- Directives and selections start with no word. -/
theorem body_first
    {ds ss : List Token}
    {dns : List Node}
    {n : Node}
    (hDirectives : Phrase.directives.Spells ds dns)
    (hSelections : Phrase.selectionSet.Spells ss [n])
    (hs : s.Begins (ds ++ ss)) :
    s.Avoids [.name, .parenL] ∧ s.head.value ≠ "on" := by
  have hKind : s.head.kind = .atSign ∨ s.head.kind = .braceL := by
    have hFirst := hDirectives.first_kind
    cases ds with
    | nil =>
        cases hSelections with
        | selectionSet hOpen hItems hSome hClose =>
        rw [hs.head, hOpen]
        exact .inr rfl
    | cons d ds =>
        rw [hs.head]
        exact .inl (by simpa [Phrase.firsts] using hFirst)
  have hSome : s.ahead ≠ [] := by
    apply hs.mirrors.ahead_ne_nil
    all_goals rcases hKind with h | h
    all_goals simp [h]
  have hMem : s.head ∈ s.ahead := by
    rw [(TokenStream.reads_head hSome).ahead]
    simp
  have hProper := hs.mirrors.proper s.head hMem
  have hValue : s.head.value = "" := by
    rcases hKind with h | h
    all_goals simpa [Token.Proper, h] using hProper
  rcases hKind with h | h
  all_goals simp [Avoids, h, hValue]

/- Directives and selections, one after the other. -/
theorem body_admits
    {ds ss : List Token}
    {dns : List Node}
    {n : Node}
    (hNests : NestsUpTo bound g r)
    (hDirectives : Phrase.directives.Spells ds dns)
    (hSelections : Phrase.selectionSet.Spells ss [n])
    (hBound : ss.length ≤ bound)
    (hs : s.Begins (ds ++ ss)) :
    (∃ l a,
        directives false s = .ok (l, s.past ds) ∧
          g (s.past ds) = .ok (a, s.past (ds ++ ss))) ∧
      Node.Reading.directives s = (dns, s.past ds) ∧
      r (s.past ds) = (some n, s.past (ds ++ ss)) := by
  rw [TokenStream.past_append]
  have hFirst : (s.past ds).Avoids [.atSign, .parenL] := by
    cases hSelections with
    | selectionSet hOpen hItems hSome hClose =>
    unfold Avoids
    rw [hs.right.head, hOpen]
    decide
  rcases directives_admits hDirectives hs.left hFirst with
    ⟨⟨l, hTake₁⟩, _, hRead₁, hNode⟩
  cases hNode
  rcases hNests.admits hSelections hBound hs.right
      (by simp [Avoids, Phrase.goesOn]) with
    ⟨⟨a, hTake₂⟩, o, hRead₂, hNode⟩
  cases Option.toList_eq_singleton_iff.mp hNode
  exact ⟨⟨l, a, hTake₁, hTake₂⟩, hRead₁, hRead₂⟩

/-
  An inline fragment, given what both do with its type
  condition.
-/
theorem inlineFragment_admits
    {e : Token}
    {cs ds ss : List Token}
    {o : Option Node}
    {dns : List Node}
    {n : Node}
    (hNests : NestsUpTo bound g r)
    (hSpread : e.kind = .spread)
    (hOwn :
      ¬(decide (s.tail.head.kind = .name) &&
        decide (s.tail.head.value ≠ "on")) = true)
    (hCondition :
      condition s.tail = .ok ((), s.tail.past cs) ∧
        Node.Reading.condition s.tail = (o, s.tail.past cs))
    (hDirectives : Phrase.directives.Spells ds dns)
    (hSelections : Phrase.selectionSet.Spells ss [n])
    (hBound : ss.length ≤ bound)
    (hs : s.Begins (e :: (cs ++ (ds ++ ss)))) :
    (∃ a, selection g s =
        .ok (a, s.past (e :: (cs ++ (ds ++ ss))))) ∧
      Node.Reading.selection r s =
        (Node.over (e :: (cs ++ (ds ++ ss)))
          { kind := .inlineFragment
            name := (o.map Node.name).getD ""
            nameSpan := (o.map Node.nameSpan).getD {}
            children := o.toList ++ dns ++ [n] },
          s.past (e :: (cs ++ (ds ++ ss)))) := by
  have hKind := hs.head_kind hSpread
  have hClose := Node.Reading.close_past hs (by simp)
    { kind := .inlineFragment
      name := (o.map Node.name).getD ""
      nameSpan := (o.map Node.nameSpan).getD {}
      children := o.toList ++ dns ++ [n] }
  have hPast :
      s.past (e :: (cs ++ (ds ++ ss))) =
        (s.tail.past cs).past (ds ++ ss) :=
    TokenStream.past_append s.tail cs (ds ++ ss)
  rw [hPast] at hClose ⊢
  rcases body_admits hNests hDirectives hSelections hBound
      hs.tail.right with
    ⟨⟨l, a, hTake₁, hTake₂⟩, hRead₁, hRead₂⟩
  constructor
  · unfold selection fragment
    rw [Parser.bind_of_ok (Parser.peek_run s), if_pos hKind,
      Parser.bind_of_ok (Parser.expect_run hKind),
      Parser.bind_of_ok (Parser.peek_run _),
      if_neg hOwn, Parser.bind_of_ok hCondition.1,
      Parser.bind_of_ok hTake₁]
    exact ⟨a, hTake₂⟩
  · unfold Node.Reading.selection
    rw [Node.Reading.bind_apply, Node.Reading.peek_apply,
      if_pos hKind]
    change (if (decide (s.tail.head.kind = .name) &&
      decide (s.tail.head.value ≠ "on")) = true then _ else _ :
        Node.Reading Node) s.tail = _
    rw [if_neg hOwn]
    unfold Node.Reading.inlineFragment
    simp only [Node.Reading.bind_apply, hCondition.2, hRead₁,
      hRead₂]
    exact hClose

/- A fragment has no condition where no word stands. -/
theorem condition_absent
    (h : s.head.value ≠ "on") :
    condition s = .ok ((), s) ∧
      Node.Reading.condition s = (none, s) := by
  constructor
  · unfold condition
    rw [Parser.bind_of_ok (Parser.peek_run s), if_neg h]
    rfl
  · unfold Node.Reading.condition
    rw [Node.Reading.bind_apply, Node.Reading.peek_apply,
      if_neg h]
    rfl

theorem condition_admits
    {o t : Token}
    (hOn : o.value = "on")
    (hName : t.kind = .name)
    (hs : s.Begins [o, t]) :
    condition s = .ok ((), s.past [o, t]) ∧
      Node.Reading.condition s =
        (some (Node.over [t]
          { kind := .namedType
            name := t.value
            nameSpan := t.span }), s.past [o, t]) := by
  have hValue : s.head.value = "on" := by
    rw [hs.head, hOn]
  have hKind := hs.tail.head_kind hName
  constructor
  · unfold condition
    rw [Parser.bind_of_ok (Parser.peek_run s), if_pos hValue,
      Parser.bind_of_ok (Parser.next_run s),
      Parser.bind_of_ok (Parser.expect_run hKind)]
    rfl
  · unfold Node.Reading.condition
    rw [Node.Reading.bind_apply, Node.Reading.peek_apply,
      if_pos hValue]
    simp only [Node.Reading.bind_apply,
      Node.Reading.next_apply, namedType_admits hs.tail]
    rfl

/- A field without an alias. -/
theorem field_admits
    {t : Token}
    {as ds ss : List Token}
    {ans dns sns : List Node}
    (hNests : NestsUpTo bound g r)
    (hName : t.kind = .name)
    (hArguments : Phrase.arguments.Spells as ans)
    (hDirectives : Phrase.directives.Spells ds dns)
    (hSelections :
      (Phrase.optional .selectionSet).Spells ss sns)
    (hBound : ss.length ≤ bound)
    (hs : s.Begins (t :: (as ++ (ds ++ ss))))
    (hNext :
      (s.past (t :: (as ++ (ds ++ ss)))).Avoids
        Phrase.selection.goesOn) :
    (∃ a, field g s =
        .ok (a, s.past (t :: (as ++ (ds ++ ss))))) ∧
      Node.Reading.field r s =
        (Node.over (t :: (as ++ (ds ++ ss)))
          { kind := .field
            name := t.value
            nameSpan := t.span
            children := ans ++ dns ++ sns },
          s.past (t :: (as ++ (ds ++ ss)))) := by
  have hKind := hs.head_kind hName
  -- A colon would make the name an alias.
  have hLast :
      (((s.tail.past as).past ds).past ss).Avoids
        Phrase.selection.goesOn := by
    rw [← TokenStream.past_append, ← TokenStream.past_append]
    exact hNext
  have hRest := hs.tail
  have hNext₂ : ((s.tail.past as).past ds).Avoids [.colon] :=
    hRest.right.right.avoids hSelections (by decide)
      (hLast.mono (by decide))
  have hNext₁ : (s.tail.past as).Avoids [.colon] :=
    hRest.right.left.avoids hDirectives (by decide) hNext₂
  have hOther : s.tail.Avoids [.colon] :=
    hRest.left.avoids hArguments (by decide) hNext₁
  have hOwn := fieldName_admits hKind
    (by simpa [Avoids] using hOther)
  rw [hs.head] at hOwn
  exact fieldParts_admits hNests hOwn (List.cons_ne_nil t [])
    hArguments hDirectives hSelections hBound hs hNext

/- A field after its alias. -/
theorem aliasedField_admits
    {a c t : Token}
    {as ds ss : List Token}
    {ans dns sns : List Node}
    (hNests : NestsUpTo bound g r)
    (hAlias : a.kind = .name)
    (hColon : c.kind = .colon)
    (hName : t.kind = .name)
    (hArguments : Phrase.arguments.Spells as ans)
    (hDirectives : Phrase.directives.Spells ds dns)
    (hSelections :
      (Phrase.optional .selectionSet).Spells ss sns)
    (hBound : ss.length ≤ bound)
    (hs : s.Begins (a :: c :: t :: (as ++ (ds ++ ss))))
    (hNext :
      (s.past (a :: c :: t :: (as ++ (ds ++ ss)))).Avoids
        Phrase.selection.goesOn) :
    (∃ b, field g s =
        .ok (b, s.past (a :: c :: t :: (as ++ (ds ++ ss))))) ∧
      Node.Reading.field r s =
        (Node.over (a :: c :: t :: (as ++ (ds ++ ss)))
          { kind := .field
            name := t.value
            nameSpan := t.span
            aliasName := a.value
            children := ans ++ dns ++ sns },
          s.past (a :: c :: t :: (as ++ (ds ++ ss)))) := by
  have hOwn := aliasedName_admits (hs.head_kind hAlias)
    (hs.tail.head_kind hColon) (hs.tail.tail.head_kind hName)
  rw [hs.head, hs.tail.tail.head] at hOwn
  exact fieldParts_admits hNests hOwn
    (List.cons_ne_nil a [c, t]) hArguments hDirectives
    hSelections hBound hs hNext

/- A name starts a field. -/
theorem selection_of_name
    (hKind : s.head.kind = .name) :
    selection g s = field g s ∧
      Node.Reading.selection r s =
        Node.Reading.field r s := by
  have hOther : s.head.kind ≠ .spread := by
    rw [hKind]
    decide
  constructor
  · unfold selection
    rw [Parser.bind_of_ok (Parser.peek_run s), if_neg hOther]
  · unfold Node.Reading.selection
    rw [Node.Reading.bind_apply, Node.Reading.peek_apply,
      if_neg hOther]

/- A selection is admitted if what is nested in it is. -/
theorem selection_admits
    (hNests : NestsUpTo bound g r) :
    AdmitsUpTo bound .selection (selection g)
      (Node.Reading.selection r) one := by
  intro s ts ns hSpells hBound hs hNext
  cases hSpells with
  | field hName hArguments hDirectives hSelections =>
      simp only [List.length_cons, List.length_append] at hBound
      have hStart := selection_of_name (g := g) (r := r)
        (hs.head_kind hName)
      rw [hStart.1, hStart.2]
      have hResult := field_admits hNests hName hArguments
        hDirectives hSelections (by omega) hs hNext
      exact ⟨hResult.1, _, hResult.2, rfl⟩
  | aliasedField hAlias hColon hName hArguments hDirectives
      hSelections =>
      simp only [List.length_cons, List.length_append] at hBound
      have hStart := selection_of_name (g := g) (r := r)
        (hs.head_kind hAlias)
      rw [hStart.1, hStart.2]
      have hResult := aliasedField_admits hNests hAlias hColon
        hName hArguments hDirectives hSelections (by omega) hs
        hNext
      exact ⟨hResult.1, _, hResult.2, rfl⟩
  | fragmentSpread hSpread hName hWord hDirectives =>
      have hResult := fragmentSpread_admits hSpread hName
        hWord hDirectives hs hNext (g := g) (r := r)
      exact ⟨hResult.1, _, hResult.2, rfl⟩
  | @inlineFragment e ds ss n dns hSpread hDirectives
      hSelections =>
      simp only [List.length_cons, List.length_append] at hBound
      rcases body_first hDirectives hSelections hs.tail with
        ⟨hKind, hValue⟩
      have hOther : s.tail.head.kind ≠ .name := by
        intro hName
        exact hKind (by simp [hName])
      have hNone : condition s.tail = .ok ((), s.tail.past []) ∧
          Node.Reading.condition s.tail =
            (none, s.tail.past []) :=
        condition_absent hValue
      have hResult := inlineFragment_admits hNests hSpread
        (by simp [hOther]) hNone hDirectives hSelections
        (by omega) hs
      exact ⟨hResult.1, _, hResult.2, rfl⟩
  | @typedFragment e o cs ds ss n m dns hSpread hOn hCondition
      hDirectives hSelections =>
      cases hCondition with
      | @namedType t hName =>
      simp only [List.length_cons, List.length_append] at hBound
      have hHead := hs.tail.head
      have hOwn : s.tail.Begins [o, t] := hs.tail.left
      have hResult := inlineFragment_admits hNests hSpread
        (by simp [hHead, hOn])
        (condition_admits hOn hName hOwn) hDirectives
        hSelections (by omega) hs
      exact ⟨hResult.1, _, hResult.2, rfl⟩

end

/- Selections are admitted at every depth. -/
theorem selectionSetWithin_nestsUpTo
    (depth : Nat) :
    NestsUpTo depth (selectionSetWithin depth)
      (Node.Reading.selectionSetWithin depth) := by
  induction depth with
  | zero =>
      refine ⟨?_, fun _ _ => rfl⟩
      intro s ts ns hSpells hBound
      cases hSpells
      simp at hBound
  | succ depth ih =>
      constructor
      · intro s ts ns hSpells hBound hs _
        cases hSpells with
        | @selectionSet o c ts ns hOpen hItems hSome hClose =>
        have hKind := hs.head_kind hOpen
        have hApart : Apart .selection c.kind := by
          rw [hClose]
          decide
        have hFirst :=
          first_ne_close hItems hSome hApart.1 hs.tail
        rcases bracketed_admits (selection_admits ih) hApart
            hItems hBound hs
            (fun ns =>
              { kind := .selectionSet, children := ns }) with
          ⟨as, hTakes, hReads⟩
        rw [hClose] at hFirst hTakes hReads
        unfold selectionSetWithin
          Node.Reading.selectionSetWithin
        refine ⟨?_, some _, ?_, rfl⟩
        · rw [Parser.bind_of_ok (Parser.peek_run s),
            if_pos hKind,
            Parser.bind_of_ok
              (nonEmptyList_run hKind hFirst hTakes)]
          exact ⟨_, rfl⟩
        · rw [Node.Reading.bind_apply,
            Node.Reading.start_apply,
            Node.Reading.bind_apply, Node.Reading.skip_apply,
            if_pos hKind]
          have hResult := congrArg
            (fun x : Node × TokenStream => (some x.1, x.2))
            hReads
          exact hResult
      · intro s hOther
        unfold Node.Reading.selectionSetWithin
        rw [Node.Reading.bind_apply,
          Node.Reading.start_apply, Node.Reading.bind_apply,
          Node.Reading.skip_apply, if_neg hOther]
        rfl

/- Selections are admitted. -/
theorem selectionSet_nestsUpTo
    (bound : Nat) :
    NestsUpTo bound selectionSet Node.Reading.selectionSet := by
  constructor
  · intro s ts ns hSpells _ hs hNext
    exact (selectionSetWithin_nestsUpTo _).admits hSpells
      hs.length_le hs hNext
  · intro s hOther
    exact (selectionSetWithin_nestsUpTo _).absent s hOther

------------------------------------------------------------
-- Definitions
------------------------------------------------------------

/- The name of an operation, if it has one. -/
theorem operationName_admits
    {name : Option Token}
    (hName : ∀ t ∈ name, t.kind = .name)
    (hs : s.Begins name.toList)
    (hNext : (s.past name.toList).Avoids [.name]) :
    operationName s = .ok ((), s.past name.toList) ∧
      Node.Reading.operationName s =
        ((name.map Token.value).getD "",
          s.past name.toList) := by
  unfold operationName Node.Reading.operationName
  rw [Parser.bind_of_ok (Parser.peek_run s),
    Node.Reading.bind_apply, Node.Reading.peek_apply]
  cases name with
  | none =>
      have hOther : s.head.kind ≠ .name := by
        simpa [Avoids, TokenStream.past] using hNext
      rw [if_neg hOther, if_neg hOther]
      exact ⟨rfl, rfl⟩
  | some t =>
      have hHead : s.head = t := hs.head
      have hKind : s.head.kind = .name := by
        rw [hHead]
        exact hName t rfl
      rw [if_pos hKind, if_pos hKind, ← hHead]
      exact ⟨rfl, rfl⟩

/- An operation that starts with its keyword. -/
theorem operationDefinition_admits
    {k : Token}
    {name : Option Token}
    {vs ds ss : List Token}
    {operation : Operation}
    {n : Node}
    {vns dns : List Node}
    (hKeyword : k.kind = .name)
    (hOperation :
      Operation.ofKeyword? k.value = some operation)
    (hName : ∀ t ∈ name, t.kind = .name)
    (hVariables : Phrase.variableDefinitions.Spells vs vns)
    (hDirectives : Phrase.directives.Spells ds dns)
    (hSelections : Phrase.selectionSet.Spells ss [n])
    (hs :
      s.Begins (k :: (name.toList ++ (vs ++ (ds ++ ss))))) :
    (∃ a, operationDefinition s =
        .ok (a,
          s.past (k :: (name.toList ++ (vs ++ (ds ++ ss)))))) ∧
      Node.Reading.operationDefinition s =
        (Node.over (k :: (name.toList ++ (vs ++ (ds ++ ss))))
          { kind := .operationDefinition
            name := (name.map Token.value).getD ""
            operation := some operation
            children := vns ++ dns ++ [n] },
          s.past (k :: (name.toList ++ (vs ++ (ds ++ ss))))) := by
  have hKind := hs.head_kind hKeyword
  have hWord :
      Operation.ofKeyword? s.head.value = some operation := by
    rw [hs.head, hOperation]
  have hClose := Node.Reading.close_past hs (by simp)
    { kind := .operationDefinition
      name := (name.map Token.value).getD ""
      operation := some operation
      children := vns ++ dns ++ [n] }
  have hPast :
      s.past (k :: (name.toList ++ (vs ++ (ds ++ ss)))) =
        ((s.tail.past name.toList).past vs).past
          (ds ++ ss) := by
    rw [← TokenStream.past_append, ← TokenStream.past_append]
    rfl
  rw [hPast] at hClose ⊢
  have hRest := hs.tail.right
  have hBody := (body_first hDirectives hSelections
    hRest.right).1
  rcases operationName_admits hName hs.tail.left
      (hRest.left.avoids hVariables (by decide)
        (hBody.mono (by decide))) with
    ⟨hTake₁, hRead₁⟩
  rcases variableDefinitions_admits hVariables hRest.left
      (hBody.mono (by decide)) with
    ⟨⟨_, hTake₂⟩, _, hRead₂, hNode⟩
  cases hNode
  rcases body_admits (selectionSet_nestsUpTo ss.length)
      hDirectives hSelections (Nat.le_refl _)
      hRest.right with
    ⟨⟨l, a, hTake₃, hTake₄⟩, hRead₃, hRead₄⟩
  constructor
  · unfold operationDefinition
    rw [Parser.bind_of_ok (Parser.next_run s),
      Parser.bind_of_ok hTake₁, Parser.bind_of_ok hTake₂,
      Parser.bind_of_ok hTake₃]
    exact ⟨a, hTake₄⟩
  · unfold Node.Reading.operationDefinition
    rw [Node.Reading.bind_apply, Node.Reading.start_apply,
      Node.Reading.bind_apply, Node.Reading.peek_apply,
      if_pos hKind]
    simp only [Node.Reading.bind_apply,
      Node.Reading.next_apply, hRead₁, hRead₂, hRead₃, hRead₄,
      hWord]
    exact hClose

theorem fragmentName_run
    (hName : s.head.kind = .name)
    (hWord : s.head.value ≠ "on") :
    fragmentName s = .ok ((), s.tail) := by
  unfold fragmentName
  rw [Parser.bind_of_ok (Parser.peek_run s), if_neg hWord,
    Parser.bind_of_ok (Parser.expect_run hName)]
  rfl

/- A fragment definition. -/
theorem fragmentDefinition_admits
    {f t o c : Token}
    {vs ds ss : List Token}
    {n : Node}
    {vns dns : List Node}
    (hKeyword : f.isWord "fragment")
    (hName : t.kind = .name)
    (hWord : t.value ≠ "on")
    (hVariables : Phrase.variableDefinitions.Spells vs vns)
    (hOn : o.isWord "on")
    (hCondition : c.kind = .name)
    (hDirectives : Phrase.directives.Spells ds dns)
    (hSelections : Phrase.selectionSet.Spells ss [n])
    (hs :
      s.Begins (f :: t :: (vs ++ o :: ([c] ++ (ds ++ ss))))) :
    (∃ a, fragmentDefinition s =
        .ok (a,
          s.past
            (f :: t :: (vs ++ o :: ([c] ++ (ds ++ ss)))))) ∧
      Node.Reading.fragmentDefinition s =
        (Node.over (f :: t :: (vs ++ o :: ([c] ++ (ds ++ ss))))
          { kind := .fragmentDefinition
            name := t.value
            nameSpan := t.span
            children :=
              vns ++
                Node.over [c]
                  { kind := .namedType
                    name := c.value
                    nameSpan := c.span } :: dns ++ [n] },
          s.past
            (f :: t :: (vs ++ o :: ([c] ++ (ds ++ ss))))) := by
  have hClose := Node.Reading.close_past hs (by simp)
    { kind := .fragmentDefinition
      name := t.value
      nameSpan := t.span
      children :=
        vns ++
          Node.over [c]
            { kind := .namedType
              name := c.value
              nameSpan := c.span } :: dns ++ [n] }
  have hPast :
      s.past (f :: t :: (vs ++ o :: ([c] ++ (ds ++ ss)))) =
        (s.tail.tail.past vs).tail.tail.past (ds ++ ss) :=
    TokenStream.past_append s.tail.tail vs _
  rw [hPast] at hClose ⊢
  have hOwn := hs.tail.head
  have hRest := hs.tail.tail.right
  have hFirst : (s.tail.tail.past vs).Avoids [.parenL] := by
    unfold Avoids
    rw [hRest.head, isWord_kind hOn]
    decide
  rcases variableDefinitions_admits hVariables
      hs.tail.tail.left hFirst with
    ⟨⟨_, hTake₁⟩, _, hRead₁, hNode⟩
  cases hNode
  rcases body_admits (selectionSet_nestsUpTo ss.length)
      hDirectives hSelections (Nat.le_refl _)
      hRest.tail.tail with
    ⟨⟨l, a, hTake₂, hTake₃⟩, hRead₂, hRead₃⟩
  have hKeyword' : s.head.isWord "fragment" := by
    rw [hs.head]
    exact hKeyword
  have hOn' : (s.tail.tail.past vs).head.isWord "on" := by
    rw [hRest.head]
    exact hOn
  have hCondition' :
      (s.tail.tail.past vs).tail.head.kind = .name := by
    rw [hRest.tail.head, hCondition]
  have hRead₄ :
      Node.Reading.namedType (s.tail.tail.past vs).tail =
        (Node.over [c]
          { kind := .namedType
            name := c.value
            nameSpan := c.span },
          (s.tail.tail.past vs).tail.tail) :=
    namedType_admits hRest.tail.left
  constructor
  · unfold fragmentDefinition
    rw [Parser.bind_of_ok (Parser.word_run hKeyword'),
      Parser.bind_of_ok
        (fragmentName_run (by rw [hOwn, hName])
          (by rwa [hOwn])),
      Parser.bind_of_ok hTake₁,
      Parser.bind_of_ok (Parser.word_run hOn'),
      Parser.bind_of_ok (Parser.expect_run hCondition'),
      Parser.bind_of_ok hTake₂]
    exact ⟨a, hTake₃⟩
  · unfold Node.Reading.fragmentDefinition
    simp only [Node.Reading.bind_apply,
      Node.Reading.start_apply, Node.Reading.next_apply,
      Node.Reading.name_apply, hOwn, hRead₁, hRead₂, hRead₃,
      hRead₄]
    exact hClose

/- Definitions are admitted. -/
theorem definition_admits :
    Admits .definition definition Node.Reading.definition
      one := by
  intro s ts ns hSpells hs _
  unfold definition Node.Reading.definition
  rw [Parser.bind_of_ok (Parser.peek_run s),
    Node.Reading.bind_apply, Node.Reading.peek_apply]
  cases hSpells with
  | shorthand hSelections =>
      rcases (selectionSet_nestsUpTo ts.length).admits
          hSelections (Nat.le_refl _) hs
          (by simp [Avoids, Phrase.goesOn]) with
        ⟨hTake, o, hRead, hNode⟩
      cases Option.toList_eq_singleton_iff.mp hNode
      have hSome := hSelections.ne_nil (by simp)
      have hKind : s.head.kind = .braceL := by
        cases hSelections with
        | selectionSet hOpen hItems hSome hClose =>
        rw [hs.head, hOpen]
      have hOther : s.head.kind ≠ .name := by
        rw [hKind]
        decide
      have hWord : ¬ s.head.isWord "fragment" :=
        fun hWord => hOther (isWord_kind hWord)
      refine ⟨?_, _, ?_, rfl⟩
      · rw [hKind]
        exact hTake
      · rw [if_neg hWord]
        unfold Node.Reading.operationDefinition
        rw [Node.Reading.bind_apply,
          Node.Reading.start_apply, Node.Reading.bind_apply,
          Node.Reading.peek_apply, if_neg hOther,
          Node.Reading.bind_apply, hRead]
        exact Node.Reading.close_past hs hSome _
  | operation hKeyword hOperation hName hVariables hDirectives
      hSelections =>
      have hKind := hs.head_kind hKeyword
      have hIs : (Operation.ofKeyword? s.head.value).isSome := by
        rw [hs.head, hOperation]
        rfl
      have hWord : ¬ s.head.isWord "fragment" := by
        rw [hs.head]
        exact not_isWord_fragment hOperation
      have hResult := operationDefinition_admits hKeyword
        hOperation hName hVariables hDirectives hSelections hs
      rw [hKind, if_neg hWord]
      dsimp only
      rw [if_pos hIs]
      exact ⟨hResult.1, _, hResult.2, rfl⟩
  | fragmentDefinition hKeyword hName hWord hVariables hOn
      hCondition hDirectives hSelections =>
      cases hCondition with
      | namedType hCondition =>
      have hFirst : s.head.isWord "fragment" := by
        rw [hs.head]
        exact hKeyword
      have hKind := isWord_kind hFirst
      have hValue : s.head.value = "fragment" := by
        simp only [Token.isWord, Bool.and_eq_true,
          decide_eq_true_eq] at hFirst
        exact hFirst.2
      have hOther :
          ¬ (Operation.ofKeyword? s.head.value).isSome := by
        rw [hValue]
        decide
      have hResult := fragmentDefinition_admits hKeyword hName
        hWord hVariables hOn hCondition hDirectives
        hSelections hs
      rw [hKind, if_pos hFirst]
      dsimp only
      rw [if_neg hOther, if_pos hValue]
      exact ⟨hResult.1, _, hResult.2, rfl⟩

end Grammar

------------------------------------------------------------
-- Documents
------------------------------------------------------------

namespace Document

/- Tokens that spell definitions make a text a document. -/
theorem parse_of_spells
    {text : List Char}
    {ns : List Node}
    (hSpells :
      (Phrase.many .definition).Spells (tokens text).ahead ns)
    (hEof : (tokens text).last.kind = .eof) :
    parse text =
      .ok
        { kind := .document
          span := ⟨0, text.length⟩
          children := ns } := by
  have hs : (tokens text).Begins (tokens text).ahead :=
    ⟨TokenStream.ofText_mirrors "input" text,
      List.prefix_refl _⟩
  have hReads := hs.reads
  have hNil :
      ((tokens text).past (tokens text).ahead).ahead = [] := by
    have hAhead := hReads.ahead
    simpa using hAhead
  have hHead :
      ((tokens text).past (tokens text).ahead).head.kind =
        .eof := by
    unfold TokenStream.head
    rw [hNil, hReads.last]
    exact hEof
  rcases Grammar.readWhile_admits
      (fun t => decide (t.kind ≠ .eof))
      (fun t => decide (t.kind ≠ .eof))
      (Grammar.definition_admits.upTo _)
      (by
        intro t ht
        have hOther : t.kind ≠ .eof := by
          intro hKind
          rw [hKind] at ht
          exact absurd ht (by decide)
        simp [hOther])
      (by decide) hSpells (Nat.le_refl _) hs
      (by simp [hHead])
      (by simp [TokenStream.Avoids, Phrase.goesOn]) with
    ⟨as, hTakes, hIterates⟩
  rw [parse_eq_ok_iff]
  constructor
  · have hDocument :
        Grammar.document (tokens text) =
          .ok ((),
            (tokens text).past (tokens text).ahead) := by
      unfold Grammar.document
      rw [Parser.bind_of_ok hTakes]
      rfl
    unfold Grammar.check StateT.run'
    rw [hDocument]
    rfl
  · rw [← children_of_iterates hIterates text.length]
    rfl

end Document

end QueryHover
