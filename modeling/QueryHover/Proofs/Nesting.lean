import Mathlib.Logic.Relation
import QueryHover.Proofs.Agreement

/-
  How the tokens of a text are shared among the nodes of its
  tree.

  Every node has consecutive tokens. Some of them are those
  of its children, in their order; the others are its own.
  Hence the spans of a tree nest: a child lies inside its
  parent, and children follow one another.

  Main declarations:
    * `Node.Tiling`
    * `Phrase.Spells.tiling`
    * `Node.Nested`
    * `Document.parse_nested`
    * `Document.spans_of_parse`
-/

namespace QueryHover

------------------------------------------------------------
-- Extents
------------------------------------------------------------

namespace Token

/- The kinds of tokens that say something of their own. -/
def Kind.targets : List Token.Kind :=
  [.name, .int, .float, .string, .blockString, .spread]

/- Tokens in order may be divided where some of them end. -/
theorem Between.divide_extent
    {lo hi : Nat}
    {ts us : List Token}
    (h : Between lo hi (ts ++ us))
    (hSome : ts ≠ []) :
    ∃ a ∈ ts, ∃ b ∈ ts,
      Token.extent ts = ⟨a.start, b.stop⟩ ∧
        lo ≤ a.start ∧ a.start < b.stop ∧
        Between a.start b.stop ts ∧
        Between b.stop hi us := by
  have hFirst := List.head?_eq_some_head hSome
  have hLast := List.getLast?_eq_some_getLast hSome
  have hFirstMem := List.head_mem hSome
  have hLastMem := List.getLast_mem hSome
  rcases h.divide with ⟨mid, hLeft, hRight⟩
  have hTight := hLeft.tighten hFirst hLast
  have hBounds := hTight.bounds hFirstMem
  refine ⟨_, hFirstMem, _, hLastMem, ?_,
    (hLeft.bounds hFirstMem).1, by omega, hTight, ?_⟩
  · simp [Token.extent, hFirst, hLast]
  · exact hRight.of_le (hLeft.bounds hLastMem).2.2

/- Tokens in order cover what is from the first to the last. -/
theorem Between.exists_extent
    {lo hi : Nat}
    {ts : List Token}
    (h : Between lo hi ts)
    (hSome : ts ≠ []) :
    ∃ a ∈ ts, ∃ b ∈ ts,
      Token.extent ts = ⟨a.start, b.stop⟩ ∧
        lo ≤ a.start ∧ a.start < b.stop ∧ b.stop ≤ hi ∧
        Between a.start b.stop ts := by
  have hAll : Between lo hi (ts ++ []) := by
    rwa [List.append_nil]
  rcases hAll.divide_extent hSome with
    ⟨a, ha, b, hb, hExtent, hLow, hLess, hTight, hEnd⟩
  exact ⟨a, ha, b, hb, hExtent, hLow, hLess, hEnd.le, hTight⟩

/- The tokens of a part of a text are in order as well. -/
theorem Between.part
    {lo hi : Nat}
    {ts us : List Token}
    (h : Between lo hi ts)
    (hInfix : us <:+: ts) :
    ∃ lo' hi', lo ≤ lo' ∧ hi' ≤ hi ∧ Between lo' hi' us := by
  rcases hInfix with ⟨before, after, rfl⟩
  rcases h.divide with ⟨mid, hLeft, hAfter⟩
  rcases hLeft.divide with ⟨low, hBefore, hMiddle⟩
  exact ⟨low, mid, hBefore.le, hAfter.le, hMiddle⟩

end Token

------------------------------------------------------------
-- Tilings
------------------------------------------------------------

namespace Node

/- A node without a name, or named by some of its tokens. -/
def NamedIn
    (ts : List Token)
    (n : Node) : Prop :=
  n.nameSpan = {} ∨
    ∃ us, us <:+: ts ∧ us ≠ [] ∧
      n.nameSpan = Token.extent us

/-
  How consecutive tokens inside a node are shared: each child
  has some that follow one another, the others are the node's
  own. The two flags tell whether a child ends right before
  the tokens, and whether one ends with them. A token that
  follows a child and is not part of another one is a mere
  punctuator.
-/
inductive Tiling :
    Bool → List Token → List Node → Bool → Prop where
  | nil
      {before : Bool} :
      Tiling before [] [] before
  | own
      {before after : Bool} {t : Token}
      {ts : List Token} {ns : List Node}
      (hOwn : before = true → t.kind ∉ Token.Kind.targets)
      (hRest : Tiling false ts ns after) :
      Tiling before (t :: ts) ns after
  | child
      {before after inner : Bool} {n : Node}
      {us ts : List Token} {ns : List Node}
      (hSome : us ≠ [])
      (hSpan : n.span = Token.extent us)
      (hName : n.NamedIn us)
      (hInside : Tiling false us n.children inner)
      (hRest : Tiling true ts ns after) :
      Tiling before (us ++ ts) (n :: ns) after

namespace Tiling

variable {before middle after : Bool}
variable {ts us : List Token}
variable {ns ms : List Node}
variable {t o c : Token}

theorem append
    (hLeft : Tiling before ts ns middle)
    (hRight : Tiling middle us ms after) :
    Tiling before (ts ++ us) (ns ++ ms) after := by
  induction hLeft with
  | nil => exact hRight
  | own hOwn hRest ih => exact .own hOwn (ih hRight)
  | child hSome hSpan hName hInside hRest _ ih =>
      rw [List.append_assoc]
      exact .child hSome hSpan hName hInside (ih hRight)

theorem append₃
    {middle' : Bool}
    {vs : List Token}
    {ks : List Node}
    (hFirst : Tiling before ts ns middle)
    (hSecond : Tiling middle us ms middle')
    (hThird : Tiling middle' vs ks after) :
    Tiling before (ts ++ (us ++ vs)) (ns ++ ms ++ ks)
      after := by
  rw [List.append_assoc]
  exact hFirst.append (hSecond.append hThird)

/- The first token inside a node may be of any kind. -/
theorem first
    (hRest : Tiling false ts ns after) :
    Tiling false (t :: ts) ns after :=
  .own (fun h => Bool.noConfusion h) hRest

/- A punctuator may stand anywhere. -/
theorem mark
    {kind : Token.Kind}
    (hKind : t.kind = kind)
    (hMark : kind ∉ Token.Kind.targets)
    (hRest : Tiling false ts ns after) :
    Tiling before (t :: ts) ns after :=
  .own (fun _ => hKind ▸ hMark) hRest

/- Nodes between two punctuators. -/
theorem enclose
    {opening closing : Token.Kind}
    (hOpen : o.kind = opening)
    (hInside : Tiling false ts ns after)
    (hClose : c.kind = closing)
    (hMarks :
      opening ∉ Token.Kind.targets ∧
        closing ∉ Token.Kind.targets) :
    Tiling before (o :: ts ++ [c]) ns false := by
  have hEnd : Tiling after [c] [] false :=
    .mark hClose hMarks.2 .nil
  have hAll : Tiling before (o :: (ts ++ [c])) (ns ++ [])
      false :=
    .mark hOpen hMarks.1 (hInside.append hEnd)
  rwa [List.append_nil] at hAll

/- A single node with all of the tokens. -/
theorem single
    {n : Node}
    (hSome : ts ≠ [])
    (hName : n.NamedIn ts)
    (hInside : Tiling false ts n.children after) :
    Tiling before ts [Node.over ts n] true := by
  have hAll : Tiling before (ts ++ []) [Node.over ts n] true :=
    .child hSome rfl hName hInside .nil
  rwa [List.append_nil] at hAll

end Tiling

theorem NamedIn.of_mem
    {n : Node}
    {t : Token}
    {ts : List Token}
    (hMem : t ∈ ts)
    (hName : n.nameSpan = t.span) :
    n.NamedIn ts := by
  rcases List.append_of_mem hMem with ⟨as, bs, rfl⟩
  exact .inr ⟨[t], ⟨as, bs, by simp⟩, by simp, hName⟩

end Node

------------------------------------------------------------
-- Phrases as Tilings
------------------------------------------------------------

namespace Phrase

open Node (Tiling NamedIn)

/- Phrases that end with a closing parenthesis of their own. -/
def closes :
    Phrase → Bool
  | .parenthesised _ => true
  | .optional item => item.closes
  | _ => false

theorem Spells.nameSpan_namedType
    {ts : List Token}
    {n : Node}
    (h : Spells .namedType ts [n]) :
    n.nameSpan = Token.extent ts := by
  cases h with
  | namedType hName => rfl

theorem Spells.nameSpan_unmarkedType
    {ts : List Token}
    {n : Node}
    (h : Spells .unmarkedType ts [n]) :
    n.NamedIn ts := by
  cases h with
  | plainType hType =>
      exact .inr ⟨ts, List.infix_rfl, hType.ne_nil (by simp),
        hType.nameSpan_namedType⟩
  | listType hOpen hElement hClose => exact .inl rfl

theorem Spells.nameSpan_variableUse
    {ts : List Token}
    {n : Node}
    (h : Spells .variableUse ts [n]) :
    n.nameSpan = Token.extent ts := by
  cases h with
  | variableUse hDollar hName => rfl

/-
  The tokens of a phrase are shared among its nodes and what
  is around them. The induction is over the derivation.
-/
theorem Spells.tiling
    {p : Phrase}
    {ts : List Token}
    {ns : List Node}
    (h : Spells p ts ns)
    (before : Bool) :
    ∃ after, Tiling before ts ns after ∧
      (p.closes = true → before = false → after = false) := by
  induction h generalizing before with
  | nil => exact ⟨before, .nil, by simp [closes]⟩
  | absent => exact ⟨before, .nil, fun _ h => h⟩
  | cons hItem hRest ihItem ihRest =>
      rcases ihItem before with ⟨middle, hFirst, _⟩
      rcases ihRest middle with ⟨after, hOthers, _⟩
      exact ⟨after, hFirst.append hOthers, by simp [closes]⟩
  | present hItem ih => exact ih before
  | parens hOpen hItems hSome hClose ih =>
      rcases ih false with ⟨_, hInside, _⟩
      exact ⟨false, .enclose hOpen hInside hClose (by decide),
        fun _ _ => rfl⟩
  | namedType hName =>
      exact ⟨true, .single (by simp)
        (.of_mem (by simp) rfl) (.first .nil),
        by simp [closes]⟩
  | plainType hType ih =>
      rcases ih before with ⟨after, hTiling, _⟩
      exact ⟨after, hTiling, by simp [closes]⟩
  | listType hOpen hElement hClose ih =>
      rcases ih false with ⟨_, hInside, _⟩
      exact ⟨true, .single (by simp) (.inl rfl)
        (.enclose hOpen hInside hClose (by decide)),
        by simp [closes]⟩
  | nullable hType ih =>
      rcases ih before with ⟨after, hTiling, _⟩
      exact ⟨after, hTiling, by simp [closes]⟩
  | nonNull hType hBang ih =>
      rename_i b ts n
      rcases ih false with ⟨middle, hInside, _⟩
      have hMark : Tiling middle [b] [] false :=
        .mark hBang (by decide) .nil
      have hName : n.NamedIn (ts ++ [b]) := by
        rcases hType.nameSpan_unmarkedType with
          hNone | ⟨us, hUs, hSome, hSpan⟩
        · exact .inl hNone
        · exact .inr ⟨us, hUs.trans
            (List.prefix_append ts [b]).isInfix, hSome, hSpan⟩
      exact ⟨true, .single (by simp) hName
        (hInside.append hMark), by simp [closes]⟩
  | variableUse hDollar hName =>
      exact ⟨true, .single (by simp)
        (.inr ⟨_, List.infix_rfl, by simp, rfl⟩)
        (.first (.first .nil)), by simp [closes]⟩
  | scalar hScalar =>
      exact ⟨true, .single (by simp)
        (.of_mem (by simp) rfl) (.first .nil),
        by simp [closes]⟩
  | reference hVariable ih =>
      rcases ih before with ⟨after, hTiling, _⟩
      exact ⟨after, hTiling, by simp [closes]⟩
  | list hOpen hItems hClose ih =>
      rcases ih false with ⟨_, hInside, _⟩
      exact ⟨true, .single (by simp) (.inl rfl)
        (.enclose hOpen hInside hClose (by decide)),
        by simp [closes]⟩
  | object hOpen hItems hClose ih =>
      rcases ih false with ⟨_, hInside, _⟩
      exact ⟨true, .single (by simp) (.inl rfl)
        (.enclose hOpen hInside hClose (by decide)),
        by simp [closes]⟩
  | entry hKind hName hColon hValue ih =>
      rcases ih false with ⟨_, hInside, _⟩
      exact ⟨true, .single (by simp)
        (.of_mem List.mem_cons_self rfl)
        (.first (.first hInside)), by simp [closes]⟩
  | directive hAt hName hArguments ih =>
      rcases ih false with ⟨_, hInside, _⟩
      exact ⟨true, .single (by simp) (.of_mem (by simp) rfl)
        (.first (.first hInside)), by simp [closes]⟩
  | initial hEquals hValue ih =>
      rcases ih false with ⟨after, hInside, _⟩
      exact ⟨after, .mark hEquals (by decide) hInside,
        by simp [closes]⟩
  | variableDefinition hVariable hColon hType hInitial
      hDirectives ihVariable ihType ihInitial ihDirectives =>
      rename_i c vs ts is ds v n ins dns
      rcases ihVariable false with ⟨_, hV, _⟩
      rcases ihType false with ⟨middle, hT, _⟩
      rcases ihInitial middle with ⟨middle', hI, _⟩
      rcases ihDirectives middle' with ⟨_, hD, _⟩
      have hInside :=
        hV.append (Tiling.mark hColon (by decide)
          (hT.append (hI.append hD)))
      have hName :
          v.NamedIn (vs ++ c :: (ts ++ (is ++ ds))) :=
        .inr ⟨vs, (List.prefix_append vs _).isInfix,
          hVariable.ne_nil (by simp),
          hVariable.nameSpan_variableUse⟩
      exact ⟨true, .single (by simp) hName hInside,
        by simp [closes]⟩
  | selectionSet hOpen hItems hSome hClose ih =>
      rcases ih false with ⟨_, hInside, _⟩
      exact ⟨true, .single (by simp) (.inl rfl)
        (.enclose hOpen hInside hClose (by decide)),
        by simp [closes]⟩
  | field hName hArguments hDirectives hSelections ihArguments
      ihDirectives ihSelections =>
      rcases ihArguments false with ⟨middle, hA, _⟩
      rcases ihDirectives middle with ⟨middle', hD, _⟩
      rcases ihSelections middle' with ⟨_, hS, _⟩
      exact ⟨true, .single (by simp) (.of_mem (by simp) rfl)
        (.first (hA.append₃ hD hS)), by simp [closes]⟩
  | aliasedField hAlias hColon hName hArguments hDirectives
      hSelections ihArguments ihDirectives ihSelections =>
      rcases ihArguments false with ⟨middle, hA, _⟩
      rcases ihDirectives middle with ⟨middle', hD, _⟩
      rcases ihSelections middle' with ⟨_, hS, _⟩
      exact ⟨true, .single (by simp) (.of_mem (by simp) rfl)
        (.first (.first (.first (hA.append₃ hD hS)))),
        by simp [closes]⟩
  | fragmentSpread hSpread hName hWord hDirectives ih =>
      rcases ih false with ⟨_, hInside, _⟩
      exact ⟨true, .single (by simp) (.of_mem (by simp) rfl)
        (.first (.first hInside)), by simp [closes]⟩
  | inlineFragment hSpread hDirectives hSelections ihDirectives
      ihSelections =>
      rcases ihDirectives false with ⟨middle, hD, _⟩
      rcases ihSelections middle with ⟨_, hS, _⟩
      exact ⟨true, .single (by simp) (.inl rfl)
        (.first (hD.append hS)), by simp [closes]⟩
  | typedFragment hSpread hOn hCondition hDirectives
      hSelections ihCondition ihDirectives ihSelections =>
      rename_i e o cs ds ss n condition dns
      rcases ihCondition false with ⟨middle, hC, _⟩
      rcases ihDirectives middle with ⟨middle', hD, _⟩
      rcases ihSelections middle' with ⟨_, hS, _⟩
      have hName :
          condition.NamedIn
            (e :: o :: (cs ++ (ds ++ ss))) :=
        .inr ⟨cs, ⟨[e, o], ds ++ ss, by simp⟩,
          hCondition.ne_nil (by simp),
          hCondition.nameSpan_namedType⟩
      exact ⟨true, .single (by simp) hName
        (.first (.first (hC.append (hD.append hS)))),
        by simp [closes]⟩
  | shorthand hSelections ih =>
      rcases ih false with ⟨_, hInside, _⟩
      exact ⟨true, .single (hSelections.ne_nil (by simp))
        (.inl rfl) hInside, by simp [closes]⟩
  | operation hKeyword hOperation hName hVariables hDirectives
      hSelections ihVariables ihDirectives ihSelections =>
      rename_i k name vs ds ss operation n vns dns
      rcases ihVariables false with ⟨middle, hV, _⟩
      rcases ihDirectives middle with ⟨middle', hD, _⟩
      rcases ihSelections middle' with ⟨after, hS, _⟩
      have hName :
          Tiling false
            (name.toList ++ (vs ++ (ds ++ ss)))
            (vns ++ dns ++ [n]) after := by
        cases name with
        | none => exact hV.append₃ hD hS
        | some t => exact .first (hV.append₃ hD hS)
      exact ⟨true, .single (by simp) (.inl rfl)
        (.first hName), by simp [closes]⟩
  | fragmentDefinition hKeyword hName hWord hVariables hOn
      hCondition hDirectives hSelections ihVariables
      ihCondition ihDirectives ihSelections =>
      rename_i f t o vs cs ds ss n condition vns dns
      rcases ihVariables false with ⟨middle, hV, hClosed⟩
      have hMiddle : middle = false := hClosed rfl rfl
      subst hMiddle
      rcases ihCondition false with ⟨middle, hC, _⟩
      rcases ihDirectives middle with ⟨middle', hD, _⟩
      rcases ihSelections middle' with ⟨_, hS, _⟩
      have hInside := hV.append
        (Tiling.first (t := o) (hC.append₃ hD hS))
      rw [List.singleton_append, ← List.append_assoc vns]
        at hInside
      exact ⟨true, .single (by simp) (.of_mem (by simp) rfl)
        (.first (.first hInside)), by simp [closes]⟩

end Phrase

------------------------------------------------------------
-- Nodes and Their Tokens
------------------------------------------------------------

namespace Node

/- A node and one of its children. -/
def HasChild
    (n c : Node) : Prop :=
  c ∈ n.children

/- The second node is somewhere below the first one. -/
def Above
    (n m : Node) : Prop :=
  Relation.TransGen HasChild n m

/- The second node is the first one or below it. -/
def Holds
    (n m : Node) : Prop :=
  Relation.ReflTransGen HasChild n m

/- A node made of certain tokens and no others. -/
structure MadeOf
    (n : Node)
    (ts : List Token) : Prop where
  some : ts ≠ []
  span : n.span = Token.extent ts
  name : n.NamedIn ts
  inside : ∃ after, Tiling false ts n.children after

/-
  The children of a node lie inside it, one after the other,
  and none of them is empty.
-/
structure Tidy
    (n : Node) : Prop where
  proper : ∀ c ∈ n.children, c.span.start < c.span.stop
  inside :
    ∀ c ∈ n.children,
      n.span.start ≤ c.span.start ∧
        c.span.stop ≤ n.span.stop
  ordered :
    n.children.Pairwise fun a b =>
      a.span.stop ≤ b.span.start

/- A tree in which every node is tidy. -/
def Nested
    (root : Node) : Prop :=
  ∀ n, root.Holds n → n.Tidy

variable {before after : Bool}
variable {ts : List Token}
variable {ns : List Node}

/- Each child has its part of the tokens. -/
theorem Tiling.madeOf
    (h : Tiling before ts ns after)
    {c : Node}
    (hc : c ∈ ns) :
    ∃ us, us <:+: ts ∧ c.MadeOf us := by
  induction h with
  | nil => cases hc
  | own hOwn hRest ih =>
      rcases ih hc with ⟨us, hUs, hMade⟩
      exact ⟨us, hUs.trans (List.suffix_cons _ _).isInfix,
        hMade⟩
  | child hSome hSpan hName hInside hRest _ ih =>
      rcases List.mem_cons.mp hc with rfl | hc
      · exact ⟨_, (List.prefix_append _ _).isInfix, hSome,
          hSpan, hName, _, hInside⟩
      · rcases ih hc with ⟨us, hUs, hMade⟩
        exact ⟨us, hUs.trans (List.suffix_append _ _).isInfix,
          hMade⟩

/- So has every node further down. -/
theorem Above.madeOf
    {root n : Node}
    (hRoot : Tiling before ts root.children after)
    (h : root.Above n) :
    ∃ us, us <:+: ts ∧ n.MadeOf us := by
  induction h with
  | single hChild => exact hRoot.madeOf hChild
  | tail _ hChild ih =>
      rcases ih with ⟨us, hUs, hMade⟩
      rcases hMade.inside with ⟨_, hInside⟩
      rcases hInside.madeOf hChild with ⟨vs, hVs, hMade'⟩
      exact ⟨vs, hVs.trans hUs, hMade'⟩

/- Nodes that share tokens in order are in order. -/
theorem Tiling.ordered
    (h : Tiling before ts ns after)
    {lo hi : Nat}
    (hTokens : Token.Between lo hi ts) :
    (∀ c ∈ ns, (lo : Int) ≤ c.span.start ∧
      c.span.start < c.span.stop ∧ c.span.stop ≤ hi) ∧
      ns.Pairwise fun a b =>
        a.span.stop ≤ b.span.start := by
  induction h generalizing lo with
  | nil => simp
  | own hOwn hRest ih =>
      have hStart := hTokens.1
      have hStop := hTokens.2.1
      rcases ih hTokens.2.2 with ⟨hBounds, hOrder⟩
      refine ⟨?_, hOrder⟩
      intro c hc
      have hChild := hBounds c hc
      omega
  | child hSome hSpan hName hInside hRest _ ih =>
      rcases hTokens.divide_extent hSome with
        ⟨a, _, b, _, hExtent, hLow, hLess, _, hAfter⟩
      rcases ih hAfter with ⟨hBounds, hOrder⟩
      have hHigh := hAfter.le
      rw [hExtent] at hSpan
      constructor
      · intro c hc
        rcases List.mem_cons.mp hc with rfl | hc
        · rw [hSpan]
          dsimp only
          omega
        · have hChild := hBounds c hc
          omega
      · refine List.pairwise_cons.mpr ⟨?_, hOrder⟩
        intro c hc
        rw [hSpan]
        exact (hBounds c hc).1

/- The tokens of a node start and end where the node does. -/
theorem MadeOf.ends
    {n : Node}
    (h : n.MadeOf ts)
    {lo hi : Nat}
    (hTokens : Token.Between lo hi ts) :
    ∃ a ∈ ts, ∃ b ∈ ts,
      n.span = ⟨a.start, b.stop⟩ ∧ a.start < b.stop ∧
        Token.Between a.start b.stop ts := by
  rcases hTokens.exists_extent h.some with
    ⟨a, ha, b, hb, hExtent, _, hLess, _, hTight⟩
  exact ⟨a, ha, b, hb, h.span.trans hExtent, hLess, hTight⟩

theorem MadeOf.tidy
    {n : Node}
    (h : n.MadeOf ts)
    {lo hi : Nat}
    (hTokens : Token.Between lo hi ts) :
    n.Tidy := by
  rcases h.ends hTokens with ⟨a, _, b, _, hSpan, _, hTight⟩
  rcases h.inside with ⟨_, hInside⟩
  rcases hInside.ordered hTight with ⟨hBounds, hOrder⟩
  refine ⟨?_, ?_, hOrder⟩
  · intro c hc
    exact (hBounds c hc).2.1
  · intro c hc
    rw [hSpan]
    exact ⟨(hBounds c hc).1, (hBounds c hc).2.2⟩

/- The name of a node lies inside the node. -/
theorem MadeOf.nameSpan
    {n : Node}
    (h : n.MadeOf ts)
    {lo hi : Nat}
    (hTokens : Token.Between lo hi ts) :
    n.nameSpan = {} ∨
      (n.span.start ≤ n.nameSpan.start ∧
        n.nameSpan.start < n.nameSpan.stop ∧
        n.nameSpan.stop ≤ n.span.stop) := by
  rcases h.ends hTokens with ⟨a, _, b, _, hSpan, _, hTight⟩
  rcases h.name with hNone | ⟨us, hUs, hSome, hName⟩
  · exact .inl hNone
  · rcases hTight.part hUs with ⟨lo', hi', hLow, hHigh, hPart⟩
    rcases hPart.exists_extent hSome with
      ⟨c, _, d, _, hExtent, hFirst, hLess, hLast, _⟩
    rw [hSpan, hName, hExtent]
    dsimp only
    right
    omega

end Node

------------------------------------------------------------
-- Documents
------------------------------------------------------------

namespace Document

variable {text : List Char}
variable {root : Node}

/- The definitions of a document share all its tokens. -/
theorem parse_tiling
    (h : parse text = .ok root) :
    ∃ after,
      Node.Tiling false (tokens text).ahead root.children
        after := by
  rcases parse_spells h with ⟨_, _, hSpells⟩
  rcases hSpells.tiling false with ⟨after, hTiling, _⟩
  exact ⟨after, hTiling⟩

/- Every node below the root is made of tokens in order. -/
theorem madeOf_of_parse
    (h : parse text = .ok root)
    {n : Node}
    (hn : root.Above n) :
    ∃ ts lo hi,
      ts <:+: (tokens text).ahead ∧ n.MadeOf ts ∧
        Token.Between lo hi ts := by
  rcases parse_tiling h with ⟨_, hTiling⟩
  rcases hn.madeOf hTiling with ⟨ts, hTs, hMade⟩
  have hAll := TokenStream.ofText_between "input" text
  rcases hAll.part hTs with ⟨lo, hi, _, _, hTokens⟩
  exact ⟨ts, lo, hi, hTs, hMade, hTokens⟩

/- The spans of a tree nest. -/
theorem parse_nested
    (h : parse text = .ok root) :
    root.Nested := by
  intro n hn
  rcases Relation.reflTransGen_iff_eq_or_transGen.mp hn with
    rfl | hAbove
  · rcases parse_spells h with ⟨_, hSpan, _⟩
    rcases parse_tiling h with ⟨_, hTiling⟩
    rcases hTiling.ordered
        (TokenStream.ofText_between "input" text) with
      ⟨hBounds, hOrder⟩
    refine ⟨?_, ?_, hOrder⟩
    · intro c hc
      exact (hBounds c hc).2.1
    · intro c hc
      rw [hSpan]
      exact ⟨(hBounds c hc).1, (hBounds c hc).2.2⟩
  · rcases madeOf_of_parse h hAbove with
      ⟨ts, lo, hi, _, hMade, hTokens⟩
    exact hMade.tidy hTokens

/-
  Spans of a tree. The root covers the text. Any other node
  is not empty, starts where a token starts and ends where a
  token ends. Children lie inside their parent, in the order
  of the text and disjoint, and so does a name, if there is
  one, inside the node it names.
-/
theorem spans_of_parse
    (h : parse text = .ok root) :
    root.kind = .document ∧
      root.span = ⟨0, text.length⟩ ∧
      (∀ n, root.Above n →
        n.span.start < n.span.stop ∧
          (∃ t ∈ (tokens text).ahead,
            n.span.start = t.start) ∧
          (∃ t ∈ (tokens text).ahead,
            n.span.stop = t.stop)) ∧
      ∀ n, root.Holds n →
        (∀ c ∈ n.children,
          n.span.start ≤ c.span.start ∧
            c.span.stop ≤ n.span.stop) ∧
          (n.children.Pairwise fun a b =>
            a.span.stop ≤ b.span.start) ∧
          (n.nameSpan = {} ∨
            (n.span.start ≤ n.nameSpan.start ∧
              n.nameSpan.start < n.nameSpan.stop ∧
              n.nameSpan.stop ≤ n.span.stop)) := by
  rcases parse_spells h with ⟨hKind, hSpan, _⟩
  refine ⟨hKind, hSpan, ?_, ?_⟩
  · intro n hn
    rcases madeOf_of_parse h hn with
      ⟨ts, lo, hi, hTs, hMade, hTokens⟩
    rcases hMade.ends hTokens with
      ⟨a, ha, b, hb, hEnds, hLess, _⟩
    rw [hEnds]
    exact ⟨Int.ofNat_lt.mpr hLess,
      ⟨a, hTs.subset ha, rfl⟩, ⟨b, hTs.subset hb, rfl⟩⟩
  · intro n hn
    have hTidy := parse_nested h n hn
    refine ⟨hTidy.inside, hTidy.ordered, ?_⟩
    rcases Relation.reflTransGen_iff_eq_or_transGen.mp hn with
      rfl | hAbove
    · rcases parse_eq_ok_iff.mp h with ⟨_, rfl⟩
      exact .inl rfl
    · rcases madeOf_of_parse h hAbove with
        ⟨ts, lo, hi, _, hMade, hTokens⟩
      exact hMade.nameSpan hTokens

theorem exists_root
    (h : (parse text).toBool = true) :
    ∃ root, parse text = .ok root := by
  cases hParse : parse text with
  | error e =>
      rw [hParse] at h
      cases h
  | ok root => exact ⟨root, rfl⟩

/-
  The field `b:c` of an operation, with its alias inside its
  span and before its name, and with one argument.
-/
theorem spans_of_parse_aliased :
    let text :=
      "query($v:[Int!])\x7bb:c(d:\"é\")\x7d".toList
    ∃ root field argument,
      parse text = .ok root ∧
        root.span = ⟨0, 28⟩ ∧
        root.Above field ∧
        field.kind = .field ∧
        field.span = ⟨17, 27⟩ ∧
        field.nameSpan = ⟨19, 20⟩ ∧
        field.children = [argument] ∧
        (∃ t ∈ (tokens text).ahead, t.start = 17) ∧
        (∃ t ∈ (tokens text).ahead, t.stop = 27) ∧
        17 ≤ argument.span.start ∧
        argument.span.stop ≤ 27 ∧
        ∀ n, root.Above n → n.span.start < n.span.stop := by
  intro text
  have hSeen :
      (parse text).toOption.any (fun root =>
        decide (∃ operation ∈ root.children,
          ∃ set ∈ operation.children,
            ∃ field ∈ set.children,
              field.kind = .field ∧ field.span = ⟨17, 27⟩ ∧
                field.nameSpan = ⟨19, 20⟩ ∧
                field.children.length = 1)) = true := by
    decide +kernel
  have hAdmitted : (parse text).toBool = true := by
    decide +kernel
  rcases exists_root hAdmitted with ⟨root, h⟩
  rw [h] at hSeen
  rcases of_decide_eq_true hSeen with
    ⟨operation, hOperation, set, hSet, field, hField,
      hKind, hSpan, hName, hOne⟩
  rcases List.length_eq_one_iff.mp hOne with
    ⟨argument, hChildren⟩
  have hAbove : root.Above field :=
    ((Relation.TransGen.single hOperation).tail hSet).tail
      hField
  have hArgument : argument ∈ field.children := by
    rw [hChildren]
    exact List.mem_singleton_self argument
  rcases spans_of_parse h with ⟨_, hRoot, hEdges, hInside⟩
  rcases hEdges field hAbove with
    ⟨_, ⟨first, hFirst, hStart⟩, last, hLast, hStop⟩
  have hBounds :=
    (hInside field hAbove.to_reflTransGen).1 argument hArgument
  rw [hSpan] at hStart hStop hBounds
  refine ⟨root, field, argument, h, hRoot, hAbove, hKind,
    hSpan, hName, hChildren, ⟨first, hFirst, ?_⟩,
    ⟨last, hLast, ?_⟩, hBounds.1, hBounds.2,
    fun n hn => (hEdges n hn).1⟩
  · exact (Int.ofNat_inj.mp hStart).symm
  · exact (Int.ofNat_inj.mp hStop).symm

end Document

end QueryHover
