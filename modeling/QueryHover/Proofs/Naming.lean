import QueryHover.Proofs.Kinds
import QueryHover.TypeRef

/-
  Names in a tree.

  The name of a type is never empty. An inline fragment bears
  the name of its type condition, and so has a name exactly if
  it has a condition. A type that is written somewhere in the
  tree names a type under all its wrappers.

  Main declarations:
    * `Node.WellNamed`
    * `Phrase.Spells.wellNamed`
    * `Document.parse_wellNamed`
    * `Node.WellNamed.name_eq_empty_iff`
    * `Node.WellNamed.typeRef?_baseName`
-/

namespace QueryHover

------------------------------------------------------------
-- Names That Fit
------------------------------------------------------------

namespace Node

/- A name as the kind of its node demands it. -/
def NameFits
    (n : Node) : Prop :=
  match n.kind with
  | .namedType => n.name ≠ ""
  | .inlineFragment =>
      n.name =
        ((n.childOfKind? .namedType).map Node.name).getD ""
  | _ => True

/- A tree in which every name fits. -/
def WellNamed
    (root : Node) : Prop :=
  ∀ n, root.Holds n → n.NameFits

variable {root n : Node}

/- Most kinds demand nothing. -/
theorem nameFits_of_ne
    (hType : n.kind ≠ .namedType)
    (hFragment : n.kind ≠ .inlineFragment) :
    n.NameFits := by
  unfold NameFits
  split
  · next hKind => exact absurd hKind hType
  · next hKind => exact absurd hKind hFragment
  · trivial

theorem WellNamed.of_holds
    (h : root.WellNamed)
    (hn : root.Holds n) :
    n.WellNamed :=
  fun m hm => h m (Relation.ReflTransGen.trans hn hm)

theorem WellNamed.nameFits
    (h : n.WellNamed) :
    n.NameFits :=
  h n Relation.ReflTransGen.refl

theorem WellNamed.child
    {c : Node}
    (h : n.WellNamed)
    (hc : c ∈ n.children) :
    c.WellNamed :=
  h.of_holds (Relation.ReflTransGen.single hc)

/- A tree is well named if its root and its branches are. -/
theorem wellNamed_of_children
    (hName : n.NameFits)
    (hChildren : ∀ c ∈ n.children, c.WellNamed) :
    n.WellNamed := by
  intro m hm
  rcases Relation.ReflTransGen.cases_head hm with
    rfl | ⟨c, hc, hHolds⟩
  · exact hName
  · exact hChildren c hc m hHolds

/- A single node over some tokens. -/
theorem wellNamed_over
    {ts : List Token}
    (hName : (Node.over ts n).NameFits)
    (hChildren : ∀ c ∈ n.children, c.WellNamed) :
    ∀ m ∈ [Node.over ts n], m.WellNamed :=
  List.forall_mem_singleton.mpr
    (wellNamed_of_children hName hChildren)

theorem forall_wellNamed_append
    {ns ms : List Node}
    (hLeft : ∀ c ∈ ns, c.WellNamed)
    (hRight : ∀ c ∈ ms, c.WellNamed) :
    ∀ c ∈ ns ++ ms, c.WellNamed :=
  List.forall_mem_append.mpr ⟨hLeft, hRight⟩

end Node

------------------------------------------------------------
-- Names of Phrases
------------------------------------------------------------

namespace Phrase

open Node (nameFits_of_ne wellNamed_over
  forall_wellNamed_append)

/- A phrase whose nodes are of other kinds has none of one. -/
theorem Spells.childOfKind?_eq_none
    {p : Phrase}
    {ts : List Token}
    {ns : List Node}
    (h : Spells p ts ns)
    (kind : Node.Kind)
    (hKind : kind ∉ p.kinds) :
    ns.find? (fun c => c.kind = kind) = none := by
  apply List.find?_eq_none.mpr
  intro c hc
  have hMem := h.mem_kinds c hc
  simp only [decide_eq_true_eq]
  rintro rfl
  exact hKind hMem

/- Tokens between two others are proper if all are. -/
theorem proper_inside
    {o c : Token}
    {ts : List Token}
    (h : ∀ t ∈ o :: ts ++ [c], t.Proper) :
    ∀ t ∈ ts, t.Proper := by
  rw [List.forall_mem_append, List.forall_mem_cons] at h
  exact h.1.2

/- The nodes of a phrase are well named. -/
theorem Spells.wellNamed
    {p : Phrase}
    {ts : List Token}
    {ns : List Node}
    (h : Spells p ts ns)
    (hTokens : ∀ t ∈ ts, t.Proper) :
    ∀ n ∈ ns, n.WellNamed := by
  induction h with
  | nil | absent =>
      intro n hn
      cases hn
  | cons hItem hRest ihItem ihRest =>
      rw [List.forall_mem_append] at hTokens
      exact forall_wellNamed_append (ihItem hTokens.1)
        (ihRest hTokens.2)
  | present hItem ih => exact ih hTokens
  | parens hOpen hItems hSome hClose ih =>
      exact ih (proper_inside hTokens)
  | plainType hType ih => exact ih hTokens
  | nullable hType ih => exact ih hTokens
  | reference hVariable ih => exact ih hTokens
  | initial hEquals hValue ih =>
      exact ih (List.forall_mem_cons.mp hTokens).2
  | namedType hName =>
      rename_i t
      have hProper := hTokens t (by simp)
      simp only [Token.Proper, hName] at hProper
      exact wellNamed_over hProper (by simp)
  | variableUse hDollar hName =>
      exact wellNamed_over trivial (by simp)
  | scalar hScalar =>
      rename_i t
      have hKind := scalarKind_mem t
      refine wellNamed_over (nameFits_of_ne ?_ ?_) (by simp)
      · intro hSame
        change Node.Reading.scalarKind t = _ at hSame
        rw [hSame] at hKind
        exact absurd hKind (by decide)
      · intro hSame
        change Node.Reading.scalarKind t = _ at hSame
        rw [hSame] at hKind
        exact absurd hKind (by decide)
  | listType hOpen hElement hClose ih =>
      exact wellNamed_over trivial (ih (proper_inside hTokens))
  | nonNull hType hBang ih =>
      rw [List.forall_mem_append] at hTokens
      exact wellNamed_over trivial (ih hTokens.1)
  | list hOpen hItems hClose ih =>
      exact wellNamed_over trivial (ih (proper_inside hTokens))
  | object hOpen hItems hClose ih =>
      exact wellNamed_over trivial (ih (proper_inside hTokens))
  | entry hKind hName hColon hValue ih =>
      simp only [List.forall_mem_cons] at hTokens
      have hChildren := ih hTokens.2.2
      simp only [Node.Kind.entries, List.mem_cons,
        List.not_mem_nil, or_false] at hKind
      rcases hKind with rfl | rfl
      · exact wellNamed_over trivial hChildren
      · exact wellNamed_over trivial hChildren
  | directive hAt hName hArguments ih =>
      simp only [List.forall_mem_cons] at hTokens
      exact wellNamed_over trivial (ih hTokens.2.2)
  | variableDefinition hVariable hColon hType hInitial
      hDirectives ihVariable ihType ihInitial ihDirectives =>
      simp only [List.forall_mem_cons, List.forall_mem_append]
        at hTokens
      rcases hTokens with ⟨hV, _, hT, hI, hD⟩
      exact wellNamed_over trivial
        (forall_wellNamed_append
          (forall_wellNamed_append (ihVariable hV)
            (forall_wellNamed_append (ihType hT)
              (ihInitial hI)))
          (ihDirectives hD))
  | selectionSet hOpen hItems hSome hClose ih =>
      exact wellNamed_over trivial (ih (proper_inside hTokens))
  | field hName hArguments hDirectives hSelections ihArguments
      ihDirectives ihSelections =>
      simp only [List.forall_mem_cons, List.forall_mem_append]
        at hTokens
      rcases hTokens with ⟨_, hA, hD, hS⟩
      exact wellNamed_over trivial
        (forall_wellNamed_append
          (forall_wellNamed_append (ihArguments hA)
            (ihDirectives hD))
          (ihSelections hS))
  | aliasedField hAlias hColon hName hArguments hDirectives
      hSelections ihArguments ihDirectives ihSelections =>
      simp only [List.forall_mem_cons, List.forall_mem_append]
        at hTokens
      rcases hTokens with ⟨_, _, _, hA, hD, hS⟩
      exact wellNamed_over trivial
        (forall_wellNamed_append
          (forall_wellNamed_append (ihArguments hA)
            (ihDirectives hD))
          (ihSelections hS))
  | fragmentSpread hSpread hName hWord hDirectives ih =>
      simp only [List.forall_mem_cons] at hTokens
      exact wellNamed_over trivial (ih hTokens.2.2)
  | inlineFragment hSpread hDirectives hSelections ihDirectives
      ihSelections =>
      simp only [List.forall_mem_cons, List.forall_mem_append]
        at hTokens
      rcases hTokens with ⟨_, hD, hS⟩
      refine wellNamed_over ?_
        (forall_wellNamed_append (ihDirectives hD)
          (ihSelections hS))
      -- Directives and selections are no type condition.
      have hNone := hDirectives.childOfKind?_eq_none
        .namedType (by decide)
      have hNone' := hSelections.childOfKind?_eq_none
        .namedType (by decide)
      simp only [Node.NameFits, Node.over,
        Node.childOfKind?, List.find?_append, hNone, hNone']
      rfl
  | typedFragment hSpread hOn hCondition hDirectives
      hSelections ihCondition ihDirectives ihSelections =>
      simp only [List.forall_mem_cons, List.forall_mem_append]
        at hTokens
      rcases hTokens with ⟨_, _, hC, hD, hS⟩
      refine wellNamed_over ?_
        (forall_wellNamed_append
          (forall_wellNamed_append (ihCondition hC)
            (ihDirectives hD))
          (ihSelections hS))
      have hKind := hCondition.mem_kinds _ List.mem_cons_self
      simp only [kinds, List.mem_singleton] at hKind
      simp [Node.NameFits, Node.over, Node.childOfKind?, hKind]
  | shorthand hSelections ih =>
      exact wellNamed_over trivial (ih hTokens)
  | operation hKeyword hOperation hName hVariables hDirectives
      hSelections ihVariables ihDirectives ihSelections =>
      simp only [List.forall_mem_cons, List.forall_mem_append]
        at hTokens
      rcases hTokens with ⟨_, _, hV, hD, hS⟩
      exact wellNamed_over trivial
        (forall_wellNamed_append
          (forall_wellNamed_append (ihVariables hV)
            (ihDirectives hD))
          (ihSelections hS))
  | fragmentDefinition hKeyword hName hWord hVariables hOn
      hCondition hDirectives hSelections ihVariables
      ihCondition ihDirectives ihSelections =>
      simp only [List.forall_mem_cons, List.forall_mem_append]
        at hTokens
      rcases hTokens with ⟨_, _, hV, _, hC, hD, hS⟩
      exact wellNamed_over trivial
        (forall_wellNamed_append
          (forall_wellNamed_append (ihVariables hV)
            (forall_wellNamed_append (ihCondition hC)
              (ihDirectives hD)))
          (ihSelections hS))

end Phrase

/- The tree of a text is well named. -/
theorem Document.parse_wellNamed
    {text : List Char}
    {root : Node}
    (h : parse text = .ok root) :
    root.WellNamed := by
  rcases parse_spells h with ⟨hKind, _, hSpells⟩
  have hTokens : ∀ t ∈ (tokens text).ahead, t.Proper :=
    fun t ht => (TokenStream.ofText_proper "input" text ht).1
  apply Node.wellNamed_of_children
  · apply Node.nameFits_of_ne
    · rw [hKind]
      decide
    · rw [hKind]
      decide
  · exact hSpells.wellNamed hTokens

------------------------------------------------------------
-- Types and Type Conditions
------------------------------------------------------------

namespace Node

variable {n : Node}

theorem WellNamed.name_ne_empty
    (h : n.WellNamed)
    (hKind : n.kind = .namedType) :
    n.name ≠ "" := by
  have hName := h.nameFits
  simpa only [NameFits, hKind] using hName

/- The type condition of a fragment has a name. -/
theorem WellNamed.condition_name_ne_empty
    {condition : Node}
    (h : n.WellNamed)
    (hCondition : n.childOfKind? .namedType = some condition) :
    condition.name ≠ "" := by
  have hKind : condition.kind = .namedType := by
    simpa using List.find?_some hCondition
  have hc := List.mem_of_find?_eq_some hCondition
  exact (h.child hc).name_ne_empty hKind

/- An inline fragment without a name has no condition. -/
theorem WellNamed.name_eq_empty_iff
    (h : n.WellNamed)
    (hKind : n.kind = .inlineFragment) :
    n.name = "" ↔ n.childOfKind? .namedType = none := by
  have hName := h.nameFits
  simp only [NameFits, hKind] at hName
  cases hCondition : n.childOfKind? .namedType with
  | none =>
      rw [hCondition] at hName
      simpa using hName
  | some condition =>
      rw [hCondition] at hName
      have hSome := h.condition_name_ne_empty hCondition
      simpa [hName] using hSome

/- One with a condition bears the condition's name. -/
theorem WellNamed.name_eq_condition
    {condition : Node}
    (h : n.WellNamed)
    (hKind : n.kind = .inlineFragment)
    (hCondition : n.childOfKind? .namedType = some condition) :
    n.name = condition.name := by
  have hName := h.nameFits
  simp only [NameFits, hKind] at hName
  rw [hName, hCondition]
  rfl

end Node

theorem TypeRef.baseName_required
    (t : TypeRef) :
    t.required.baseName = t.baseName := by
  cases t with
  | named name nonNull => rfl
  | list element nonNull => rfl

namespace Node

mutual

/- A type that is written at a node names a type. -/
theorem WellNamed.typeRef?_baseName
    (n : Node)
    (h : n.WellNamed) :
    ∀ t ∈ n.typeRef?, t.baseName ≠ "" := by
  cases n with
  | mk kind span name nameSpan aliasName operation children =>
      have hHead := headTypeRef?_baseName children
        fun c hc => h.child hc
      have hFirst := firstTypeRef?_baseName children
        fun c hc => h.child hc
      intro t ht
      cases kind
      case namedType =>
        have hName : name ≠ "" := h.nameFits
        cases ht
        exact hName
      case listType =>
        rcases Option.map_eq_some_iff.mp ht with
          ⟨element, hMem, rfl⟩
        exact hHead element hMem
      case nonNullType =>
        rcases Option.map_eq_some_iff.mp ht with
          ⟨element, hMem, rfl⟩
        rw [TypeRef.baseName_required]
        exact hHead element hMem
      case variableDefinition => exact hFirst t ht
      all_goals cases ht

theorem headTypeRef?_baseName
    (ns : List Node)
    (h : ∀ n ∈ ns, n.WellNamed) :
    ∀ t ∈ headTypeRef? ns, t.baseName ≠ "" := by
  cases ns with
  | nil =>
      intro t ht
      cases ht
  | cons n ns =>
      rw [headTypeRef?]
      exact WellNamed.typeRef?_baseName n
        (h n List.mem_cons_self)

theorem firstTypeRef?_baseName
    (ns : List Node)
    (h : ∀ n ∈ ns, n.WellNamed) :
    ∀ t ∈ firstTypeRef? ns, t.baseName ≠ "" := by
  cases ns with
  | nil =>
      intro t ht
      cases ht
  | cons n ns =>
      have hHead := WellNamed.typeRef?_baseName n
        (h n List.mem_cons_self)
      have hTail := firstTypeRef?_baseName ns
        fun m hm => h m (List.mem_cons_of_mem n hm)
      rw [firstTypeRef?]
      cases hType : n.typeRef? with
      | none => exact hTail
      | some type =>
          rw [hType] at hHead
          exact hHead

end

end Node

end QueryHover
