import QueryHover.Proofs.Naming

/-
  Variables in a tree.

  A variable definition names its variable and has a type.
  What it gives as a default is constant: no variable is used
  in it. These are facts about single nodes of a tree, and
  every node of a tree stands in some phrase of the grammar.

  Main declarations:
    * `Node.InPhrase`
    * `Node.SpelledIn`
    * `Phrase.Spells.children_spelledIn`
    * `Node.Constant`
    * `Node.Declares`
    * `Document.parse_declares`
-/

namespace QueryHover

------------------------------------------------------------
-- Nodes in Phrases
------------------------------------------------------------

namespace Node

/- The node is one of those that stand for some phrase. -/
def InPhrase
    (n : Node) : Prop :=
  ∃ p ts ns, Phrase.Spells p ts ns ∧ n ∈ ns

/- The node stands for a phrase spelled by some tokens. -/
def SpelledIn
    (ts : List Token)
    (n : Node) : Prop :=
  ∃ p us ns, us <:+: ts ∧ Phrase.Spells p us ns ∧ n ∈ ns

theorem SpelledIn.of_part
    {ts us : List Token}
    {n : Node}
    (h : n.SpelledIn us)
    (hInfix : us <:+: ts) :
    n.SpelledIn ts := by
  rcases h with ⟨p, vs, ns, hPart, hSpells, hn⟩
  exact ⟨p, vs, ns, hPart.trans hInfix, hSpells, hn⟩

end Node

namespace Phrase

variable {p : Phrase}
variable {ts us : List Token}
variable {ns : List Node}

/- Nodes spelled by a part of the tokens. -/
theorem Spells.spelledIn
    (h : Spells p us ns)
    (hInfix : us <:+: ts) :
    ∀ n ∈ ns, n.SpelledIn ts :=
  fun _ hn => ⟨p, us, ns, hInfix, h, hn⟩

/- Nodes of three parts that follow one another. -/
theorem spelledIn_parts
    {q r : Phrase}
    {as bs cs : List Token}
    {ms ks : List Node}
    (front : List Token)
    (hFirst : Spells p as ns)
    (hSecond : Spells q bs ms)
    (hThird : Spells r cs ks) :
    ∀ n ∈ ns ++ ms ++ ks,
      n.SpelledIn (front ++ (as ++ (bs ++ cs))) := by
  refine List.forall_mem_append.mpr
    ⟨List.forall_mem_append.mpr ⟨?_, ?_⟩, ?_⟩
  · exact hFirst.spelledIn ⟨front, bs ++ cs, by simp⟩
  · exact hSecond.spelledIn ⟨front ++ as, cs, by simp⟩
  · exact hThird.spelledIn ⟨front ++ as ++ bs, [], by simp⟩

/-
  The children of a node are spelled by tokens of the node.
  The induction is over the derivation.
-/
theorem Spells.children_spelledIn
    (h : Spells p ts ns) :
    ∀ n ∈ ns, ∀ c ∈ n.children, c.SpelledIn ts := by
  induction h with
  | nil | absent => exact List.forall_mem_nil _
  | cons hItem hRest ihItem ihRest =>
      rw [List.forall_mem_cons]
      constructor
      · intro c hc
        exact (ihItem _ List.mem_cons_self c hc).of_part
          (List.prefix_append _ _).isInfix
      · intro n hn c hc
        exact (ihRest n hn c hc).of_part
          (List.suffix_append _ _).isInfix
  | present hItem ih => exact ih
  | plainType hType ih => exact ih
  | nullable hType ih => exact ih
  | reference hVariable ih => exact ih
  | parens hOpen hItems hSome hClose ih =>
      intro n hn c hc
      exact (ih n hn c hc).of_part ⟨[_], [_], rfl⟩
  | initial hEquals hValue ih =>
      intro n hn c hc
      exact (ih n hn c hc).of_part
        (List.suffix_cons _ _).isInfix
  | namedType | variableUse | scalar =>
      rw [List.forall_mem_singleton]
      exact List.forall_mem_nil _
  | listType hOpen hParts hClose
  | list hOpen hParts hClose
  | object hOpen hParts hClose =>
      rw [List.forall_mem_singleton]
      exact hParts.spelledIn ⟨[_], [_], rfl⟩
  | selectionSet hOpen hItems hSome hClose =>
      rw [List.forall_mem_singleton]
      exact hItems.spelledIn ⟨[_], [_], rfl⟩
  | nonNull hType hBang =>
      rw [List.forall_mem_singleton]
      exact hType.spelledIn (List.prefix_append _ _).isInfix
  | entry hKind hName hColon hValue =>
      rw [List.forall_mem_singleton]
      exact hValue.spelledIn
        (List.suffix_append [_, _] _).isInfix
  | directive hAt hName hArguments =>
      rw [List.forall_mem_singleton]
      exact hArguments.spelledIn
        (List.suffix_append [_, _] _).isInfix
  | fragmentSpread hSpread hName hWord hDirectives =>
      rw [List.forall_mem_singleton]
      exact hDirectives.spelledIn
        (List.suffix_append [_, _] _).isInfix
  | shorthand hSelections =>
      rw [List.forall_mem_singleton]
      exact hSelections.spelledIn List.infix_rfl
  | variableDefinition hVariable hColon hType hInitial
      hDirectives ihVariable ihType ihInitial ihDirectives =>
      rename_i c vs ts is ds v n ins dns
      have hParts := spelledIn_parts (vs ++ [c]) hType hInitial
        hDirectives
      rw [← List.append_cons] at hParts
      rw [List.forall_mem_singleton]
      refine List.forall_mem_cons.mpr ⟨?_, hParts⟩
      exact hVariable.spelledIn
        (List.prefix_append _ _).isInfix v
        (List.mem_singleton_self v)
  | field hName hArguments hDirectives hSelections =>
      rw [List.forall_mem_singleton]
      exact spelledIn_parts [_] hArguments hDirectives
        hSelections
  | aliasedField hAlias hColon hName hArguments hDirectives
      hSelections =>
      rw [List.forall_mem_singleton]
      exact spelledIn_parts [_, _, _] hArguments hDirectives
        hSelections
  | inlineFragment hSpread hDirectives hSelections =>
      rw [List.forall_mem_singleton]
      refine List.forall_mem_append.mpr ⟨?_, ?_⟩
      · exact hDirectives.spelledIn ⟨[_], _, rfl⟩
      · exact hSelections.spelledIn
          (List.suffix_append (_ :: _) _).isInfix
  | typedFragment hSpread hOn hCondition hDirectives
      hSelections =>
      rw [List.forall_mem_singleton]
      exact spelledIn_parts [_, _] hCondition hDirectives
        hSelections
  | operation hKeyword hOperation hName hVariables hDirectives
      hSelections =>
      rw [List.forall_mem_singleton]
      exact spelledIn_parts (_ :: _) hVariables hDirectives
        hSelections
  | fragmentDefinition hKeyword hName hWord hVariables hOn
      hCondition hDirectives hSelections ihVariables
      ihCondition ihDirectives ihSelections =>
      rename_i f t o vs cs ds ss n condition vns dns
      have hParts := spelledIn_parts (f :: t :: (vs ++ [o]))
        hCondition hDirectives hSelections
      rw [List.forall_mem_singleton]
      change ∀ c ∈ vns ++ condition :: dns ++ [n], _
      rw [List.append_assoc]
      refine List.forall_mem_append.mpr ⟨?_, ?_⟩
      · exact hVariables.spelledIn ⟨[f, t], _, rfl⟩
      · simpa using hParts

end Phrase

namespace Document

variable {text : List Char}
variable {root n : Node}

/- Every node below the root is spelled by tokens. -/
theorem parse_spelledIn
    (h : parse text = .ok root)
    (hn : root.Above n) :
    n.SpelledIn (tokens text).ahead := by
  rcases parse_spells h with ⟨_, _, hSpells⟩
  induction hn with
  | single hChild =>
      exact hSpells.spelledIn List.infix_rfl _ hChild
  | tail hAbove hChild ih =>
      rcases ih with ⟨p, us, ns, hInfix, hPart, hMem⟩
      exact (hPart.children_spelledIn _ hMem _
        hChild).of_part hInfix

/- Every node below the root of a tree stands in a phrase. -/
theorem parse_inPhrase
    (h : parse text = .ok root)
    (hn : root.Above n) :
    n.InPhrase := by
  rcases parse_spelledIn h hn with
    ⟨p, us, ns, _, hSpells, hMem⟩
  exact ⟨p, us, ns, hSpells, hMem⟩

end Document

------------------------------------------------------------
-- Constants
------------------------------------------------------------

namespace Node

/- No variable is used in the tree. -/
def Constant
    (root : Node) : Prop :=
  ∀ n, root.Holds n → n.kind ≠ .variableUse

theorem constant_over
    {ts : List Token}
    {n : Node}
    (hKind : n.kind ≠ .variableUse)
    (hChildren : ∀ c ∈ n.children, c.Constant) :
    ∀ m ∈ [Node.over ts n], m.Constant := by
  rw [List.forall_mem_singleton]
  intro m hm
  rcases Relation.ReflTransGen.cases_head hm with
    rfl | ⟨c, hc, hHolds⟩
  · exact hKind
  · exact hChildren c hc m hHolds

end Node

namespace Phrase

/- Phrases in which the grammar admits no variables. -/
def IsConstant :
    Phrase → Prop
  | .many item | .optional item | .parenthesised item =>
      item.IsConstant
  | .value constant | .entry _ constant => constant = true
  | .initial => True
  | _ => False

variable {p : Phrase}
variable {ts : List Token}
variable {ns : List Node}

theorem scalarKind_ne
    {t : Token}
    {kind : Node.Kind}
    (h : kind ∉ Node.Kind.constants) :
    Node.Reading.scalarKind t ≠ kind := by
  rintro rfl
  exact h (scalarKind_mem t)

/- The nodes of such a phrase use no variables. -/
theorem Spells.constant
    (h : Spells p ts ns)
    (hp : p.IsConstant) :
    ∀ n ∈ ns, n.Constant := by
  induction h with
  | nil | absent => exact List.forall_mem_nil _
  | cons hItem hRest ihItem ihRest =>
      exact List.forall_mem_append.mpr ⟨ihItem hp, ihRest hp⟩
  | present hItem ih => exact ih hp
  | parens hOpen hItems hSome hClose ih => exact ih hp
  | initial hEquals hValue ih => exact ih rfl
  | reference => cases hp
  | scalar hScalar =>
      exact Node.constant_over (scalarKind_ne (by decide))
        (List.forall_mem_nil _)
  | list hOpen hItems hClose ih =>
      exact Node.constant_over Node.Kind.noConfusion (ih hp)
  | object hOpen hItems hClose ih =>
      exact Node.constant_over Node.Kind.noConfusion (ih hp)
  | entry hKind hName hColon hValue ih =>
      refine Node.constant_over ?_ (ih hp)
      rintro rfl
      exact absurd hKind (by decide)
  | _ => cases hp

------------------------------------------------------------
-- Variable Definitions
------------------------------------------------------------

/- A type is written wherever the grammar has one. -/
theorem Spells.typeRef?_isSome
    (h : Spells p ts ns)
    (hp : p ∈ [.namedType, .unmarkedType, .typeRef]) :
    ∀ n ∈ ns, n.typeRef?.isSome := by
  induction h with
  | namedType hName =>
      rw [List.forall_mem_singleton]
      rfl
  | plainType hType ih => exact ih (by simp)
  | nullable hType ih => exact ih (by simp)
  | listType hOpen hElement hClose ih =>
      have hSome := List.forall_mem_singleton.mp (ih (by simp))
      rw [List.forall_mem_singleton]
      simpa [Node.over, Node.typeRef?, Node.headTypeRef?]
        using hSome
  | nonNull hType hBang ih =>
      have hSome := List.forall_mem_singleton.mp (ih (by simp))
      rw [List.forall_mem_singleton]
      simpa [Node.over, Node.typeRef?, Node.headTypeRef?]
        using hSome
  | _ => simp at hp

end Phrase

namespace Node

theorem firstTypeRef?_isSome
    {ns : List Node}
    {n : Node}
    (hn : n ∈ ns)
    (h : n.typeRef?.isSome) :
    (firstTypeRef? ns).isSome := by
  induction ns with
  | nil => cases hn
  | cons m ns ih =>
      rw [firstTypeRef?]
      cases hType : m.typeRef? with
      | some type => rfl
      | none =>
          rcases List.mem_cons.mp hn with rfl | hn
          · rw [hType] at h
            cases h
          · exact ih hn

theorem typeRef?_variableDefinition
    {n : Node}
    (hKind : n.kind = .variableDefinition) :
    n.typeRef? = firstTypeRef? n.children := by
  cases n
  cases hKind
  rw [typeRef?]

/-
  A variable definition as the grammar has it: it bears the
  name of its variable, a type is written at it, and its
  default is constant.
-/
structure Declares
    (n : Node) : Prop where
  name : ∀ c ∈ n.children, c.kind = .variableUse → c.name = n.name
  typed : n.typeRef?.isSome
  constant : ∀ c ∈ n.children, c.kind ∈ Kind.constants → c.Constant

end Node

namespace Phrase

variable {p : Phrase}
variable {ts : List Token}
variable {ns : List Node}

/- What the parts of a variable definition make of it. -/
theorem declares_of_parts
    {vs is ds : List Token}
    {v t n : Node}
    {ins dns : List Node}
    (hVariable : Spells .variableUse vs [v])
    (hType : Spells .typeRef ts [t])
    (hInitial : Spells (.optional .initial) is ins)
    (hDirectives : Spells directives ds dns)
    (hKind : n.kind = .variableDefinition)
    (hName : n.name = v.name)
    (hChildren : n.children = v :: t :: ins ++ dns) :
    n.Declares := by
  have hOther {p : Phrase} {us : List Token} {ns : List Node}
      (h : Spells p us ns)
      (hKinds : .variableUse ∉ p.kinds) :
      ∀ c ∈ ns, c.kind = .variableUse → c.name = v.name := by
    intro c hc hSame
    have hMem := h.mem_kinds c hc
    rw [hSame] at hMem
    exact absurd hMem hKinds
  have hVaries {p : Phrase} {us : List Token} {ns : List Node}
      (h : Spells p us ns)
      (hKinds : ∀ kind ∈ p.kinds, kind ∉ Node.Kind.constants) :
      ∀ c ∈ ns, c.kind ∈ Node.Kind.constants → c.Constant :=
    fun c hc hMem =>
      absurd hMem (hKinds c.kind (h.mem_kinds c hc))
  refine ⟨?_, ?_, ?_⟩
  · rw [hChildren, hName]
    refine List.forall_mem_append.mpr
      ⟨List.forall_mem_cons.mpr ⟨fun _ => rfl, ?_⟩,
        hOther hDirectives (by decide)⟩
    exact List.forall_mem_append.mpr
      ⟨hOther hType (by decide), hOther hInitial (by decide)⟩
  · have hSome := hType.typeRef?_isSome (by simp) t
      List.mem_cons_self
    rw [Node.typeRef?_variableDefinition hKind, hChildren]
    exact Node.firstTypeRef?_isSome (by simp) hSome
  · rw [hChildren]
    refine List.forall_mem_append.mpr
      ⟨List.forall_mem_append.mpr
        ⟨hVaries hVariable (by decide), ?_⟩,
        hVaries hDirectives (by decide)⟩
    exact List.forall_mem_append.mpr
      ⟨hVaries hType (by decide),
        fun c hc _ => hInitial.constant trivial c hc⟩

/- A variable definition is made of its four parts. -/
theorem Spells.parts_of_variableDefinition
    (h : Spells p ts ns) :
    ∀ n ∈ ns, n.kind = .variableDefinition →
      ∃ vs us is ds v t ins dns,
        Spells .variableUse vs [v] ∧ Spells .typeRef us [t] ∧
          Spells (.optional .initial) is ins ∧
          Spells directives ds dns ∧ n.name = v.name ∧
          n.children = v :: t :: ins ++ dns := by
  induction h with
  | nil | absent => exact List.forall_mem_nil _
  | cons hItem hRest ihItem ihRest =>
      exact List.forall_mem_append.mpr ⟨ihItem, ihRest⟩
  | present hItem ih => exact ih
  | parens hOpen hItems hSome hClose ih => exact ih
  | plainType hType ih => exact ih
  | nullable hType ih => exact ih
  | reference hVariable ih => exact ih
  | initial hEquals hValue ih => exact ih
  | variableDefinition hVariable hColon hType hInitial
      hDirectives =>
      rw [List.forall_mem_singleton]
      intro _
      exact ⟨_, _, _, _, _, _, _, _, hVariable, hType,
        hInitial, hDirectives, rfl, rfl⟩
  | scalar hScalar =>
      rw [List.forall_mem_singleton]
      intro hKind
      exact absurd hKind (scalarKind_ne (by decide))
  | entry hKind =>
      rw [List.forall_mem_singleton]
      rintro rfl
      exact absurd hKind (by decide)
  | _ =>
      rw [List.forall_mem_singleton]
      intro hKind
      cases hKind

theorem Spells.declares
    (h : Spells p ts ns) :
    ∀ n ∈ ns, n.kind = .variableDefinition → n.Declares := by
  intro n hn hKind
  rcases h.parts_of_variableDefinition n hn hKind with
    ⟨_, _, _, _, _, _, _, _, hVariable, hType, hInitial,
      hDirectives, hName, hChildren⟩
  exact declares_of_parts hVariable hType hInitial hDirectives
    hKind hName hChildren

end Phrase

/- The variable definitions of a text are such. -/
theorem Document.parse_declares
    {text : List Char}
    {root n : Node}
    (h : parse text = .ok root)
    (hn : root.Above n)
    (hKind : n.kind = .variableDefinition) :
    n.Declares := by
  rcases parse_inPhrase h hn with ⟨p, ts, ns, hSpells, hMem⟩
  exact hSpells.declares n hMem hKind

end QueryHover
