import QueryHover.Proofs.Nesting

/-
  Which kinds of nodes stand below which.

  The grammar fixes the kinds of the children that a node may
  have. A tree that was read from a text keeps to them at all
  its nodes.

  Main declarations:
    * `Node.Kind.childKinds`
    * `Node.WellKinded`
    * `Phrase.Spells.wellKinded`
    * `Document.parse_wellKinded`
-/

namespace QueryHover

namespace Node

/- The kinds of children that a node of a kind may have. -/
def Kind.childKinds :
    Node.Kind → List Node.Kind
  | .document => Kind.definitions
  | .operationDefinition =>
      [.variableDefinition, .directive, .selectionSet]
  | .fragmentDefinition =>
      [ .variableDefinition, .namedType, .directive,
        .selectionSet ]
  | .variableDefinition =>
      .variableUse :: .directive ::
        (Kind.types ++ Kind.constants)
  | .listType | .nonNullType => Kind.types
  | .selectionSet => Kind.selections
  | .field => [.argument, .directive, .selectionSet]
  | .argument | .objectField | .listValue =>
      .variableUse :: Kind.constants
  | .directive => [.argument]
  | .fragmentSpread => [.directive]
  | .inlineFragment => [.namedType, .directive, .selectionSet]
  | .objectValue => [.objectField]
  | _ => []

/- Every child is of a kind that its parent may have. -/
def WellKinded
    (root : Node) : Prop :=
  ∀ n, root.Holds n →
    ∀ c ∈ n.children, c.kind ∈ n.kind.childKinds

theorem WellKinded.child
    {root c : Node}
    (h : root.WellKinded)
    (hc : c ∈ root.children) :
    c.WellKinded :=
  fun n hn => h n (Relation.ReflTransGen.head hc hn)

/- Nodes of certain kinds, with trees that are well kinded. -/
def Fit
    (kinds : List Node.Kind)
    (ns : List Node) : Prop :=
  ∀ c ∈ ns, c.kind ∈ kinds ∧ c.WellKinded

variable {kinds : List Node.Kind}
variable {ns ms : List Node}
variable {n : Node}

theorem Fit.nil :
    Fit kinds [] := by
  intro c hc
  cases hc

theorem Fit.append
    (hLeft : Fit kinds ns)
    (hRight : Fit kinds ms) :
    Fit kinds (ns ++ ms) := by
  intro c hc
  rcases List.mem_append.mp hc with hc | hc
  · exact hLeft c hc
  · exact hRight c hc

/- A tree is well kinded if its root and its branches are. -/
theorem Fit.wellKinded
    (h : Fit n.kind.childKinds n.children) :
    n.WellKinded := by
  intro m hm
  rcases Relation.ReflTransGen.cases_head hm with
    rfl | ⟨c, hc, hHolds⟩
  · intro c hc
    exact (h c hc).1
  · exact (h c hc).2 m hHolds

/- A single node with fitting children is well kinded. -/
theorem Fit.over
    {ts : List Token}
    (kind : Node.Kind)
    (hKind : n.kind = kind)
    (h : Fit kind.childKinds n.children) :
    ∀ m ∈ [Node.over ts n], m.WellKinded := by
  subst hKind
  exact List.forall_mem_singleton.mpr
    (Fit.wellKinded (n := Node.over ts n) h)

end Node

namespace Phrase

open Node (Fit)

theorem Spells.fit
    {p : Phrase}
    {ts : List Token}
    {ns : List Node}
    {kinds : List Node.Kind}
    (h : Spells p ts ns)
    (hTrees : ∀ n ∈ ns, n.WellKinded)
    (hKinds : ∀ kind ∈ p.kinds, kind ∈ kinds) :
    Fit kinds ns :=
  fun c hc =>
    ⟨hKinds c.kind (h.mem_kinds c hc), hTrees c hc⟩

/- The nodes of a phrase are well kinded. -/
theorem Spells.wellKinded
    {p : Phrase}
    {ts : List Token}
    {ns : List Node}
    (h : Spells p ts ns) :
    ∀ n ∈ ns, n.WellKinded := by
  induction h with
  | nil | absent =>
      intro n hn
      cases hn
  | cons hItem hRest ihItem ihRest =>
      intro n hn
      rcases List.mem_cons.mp hn with rfl | hn
      · exact ihItem n (by simp)
      · exact ihRest n hn
  | present hItem ih => exact ih
  | parens hOpen hItems hSome hClose ih => exact ih
  | plainType hType ih => exact ih
  | nullable hType ih => exact ih
  | reference hVariable ih => exact ih
  | initial hEquals hValue ih => exact ih
  | namedType hName =>
      exact Fit.over .namedType rfl Fit.nil
  | variableUse hDollar hName =>
      exact Fit.over .variableUse rfl Fit.nil
  | scalar hScalar =>
      exact List.forall_mem_singleton.mpr Fit.nil.wellKinded
  | listType hOpen hElement hClose ih =>
      exact Fit.over .listType rfl
        (hElement.fit ih (by decide))
  | nonNull hType hBang ih =>
      exact Fit.over .nonNullType rfl
        (hType.fit ih (by decide))
  | list hOpen hItems hClose ih =>
      exact Fit.over .listValue rfl
        (hItems.fit ih (value_kinds _))
  | object hOpen hItems hClose ih =>
      exact Fit.over .objectValue rfl
        (hItems.fit ih fun _ hKind => hKind)
  | entry hKind hName hColon hValue ih =>
      have hFit := hValue.fit ih (value_kinds _)
      simp only [Node.Kind.entries, List.mem_cons,
        List.not_mem_nil, or_false] at hKind
      rcases hKind with rfl | rfl
      · exact Fit.over .argument rfl hFit
      · exact Fit.over .objectField rfl hFit
  | directive hAt hName hArguments ih =>
      exact Fit.over .directive rfl
        (hArguments.fit ih (by decide))
  | variableDefinition hVariable hColon hType hInitial
      hDirectives ihVariable ihType ihInitial ihDirectives =>
      exact Fit.over .variableDefinition rfl
        (((hVariable.fit ihVariable (by decide)).append
          ((hType.fit ihType (by decide)).append
            (hInitial.fit ihInitial (by decide)))).append
          (hDirectives.fit ihDirectives
            (by decide)))
  | selectionSet hOpen hItems hSome hClose ih =>
      exact Fit.over .selectionSet rfl
        (hItems.fit ih (by decide))
  | field hName hArguments hDirectives hSelections ihArguments
      ihDirectives ihSelections =>
      exact Fit.over .field rfl
        (((hArguments.fit ihArguments (by decide)).append
          (hDirectives.fit ihDirectives (by decide))).append
          (hSelections.fit ihSelections
            (by decide)))
  | aliasedField hAlias hColon hName hArguments hDirectives
      hSelections ihArguments ihDirectives ihSelections =>
      exact Fit.over .field rfl
        (((hArguments.fit ihArguments (by decide)).append
          (hDirectives.fit ihDirectives (by decide))).append
          (hSelections.fit ihSelections
            (by decide)))
  | fragmentSpread hSpread hName hWord hDirectives ih =>
      exact Fit.over .fragmentSpread rfl
        (hDirectives.fit ih (by decide))
  | inlineFragment hSpread hDirectives hSelections ihDirectives
      ihSelections =>
      exact Fit.over .inlineFragment rfl
        ((hDirectives.fit ihDirectives (by decide)).append
          (hSelections.fit ihSelections
            (by decide)))
  | typedFragment hSpread hOn hCondition hDirectives
      hSelections ihCondition ihDirectives ihSelections =>
      exact Fit.over .inlineFragment rfl
        (((hCondition.fit ihCondition (by decide)).append
          (hDirectives.fit ihDirectives (by decide))).append
          (hSelections.fit ihSelections
            (by decide)))
  | shorthand hSelections ih =>
      exact Fit.over .operationDefinition rfl
        (hSelections.fit ih (by decide))
  | operation hKeyword hOperation hName hVariables hDirectives
      hSelections ihVariables ihDirectives ihSelections =>
      exact Fit.over .operationDefinition rfl
        (((hVariables.fit ihVariables (by decide)).append
          (hDirectives.fit ihDirectives (by decide))).append
          (hSelections.fit ihSelections
            (by decide)))
  | fragmentDefinition hKeyword hName hWord hVariables hOn
      hCondition hDirectives hSelections ihVariables
      ihCondition ihDirectives ihSelections =>
      exact Fit.over .fragmentDefinition rfl
        (((hVariables.fit ihVariables (by decide)).append
          ((hCondition.fit ihCondition (by decide)).append
            (hDirectives.fit ihDirectives
              (by decide)))).append
          (hSelections.fit ihSelections
            (by decide)))

end Phrase

/- The tree of a text is well kinded. -/
theorem Document.parse_wellKinded
    {text : List Char}
    {root : Node}
    (h : parse text = .ok root) :
    root.WellKinded := by
  rcases parse_spells h with ⟨hKind, _, hSpells⟩
  have hFit : Node.Fit root.kind.childKinds root.children := by
    rw [hKind]
    exact hSpells.fit hSpells.wellKinded fun _ hKind => hKind
  exact hFit.wellKinded

end QueryHover
