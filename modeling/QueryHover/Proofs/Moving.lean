import QueryHover.Proofs.Erasure
import QueryHover.Proofs.Innermost
import QueryHover.Proofs.Seam

/-
  Trees further on in a text.

  Tokens that are all moved by the same distance spell the
  same nodes, moved by that distance. A descent in a tree
  that was moved meets the nodes that it met before, at an
  offset that was moved with it.

  Main declarations:
    * `Node.shift`
    * `Token.Shifted`
    * `Phrase.Spells.shift`
    * `Node.descend_shift`
-/

namespace QueryHover

------------------------------------------------------------
-- Shifted Trees
------------------------------------------------------------

/- The span of as many characters, further on. -/
def Span.shift
    (d : Int)
    (a : Span) : Span :=
  ⟨a.start + d, a.stop + d⟩

/- A span that is left alone if it is empty. -/
def Span.shiftProper
    (d : Int)
    (a : Span) : Span :=
  if a.start < a.stop then a.shift d else a

namespace Node

mutual

/-
  The same tree, further on in a text. A node without a name
  keeps its empty name span.
-/
def shift
    (d : Int) :
    Node → Node
  | ⟨kind, span, name, nameSpan, aliasName, operation,
      children⟩ =>
      { kind
        span := span.shift d
        name
        nameSpan := nameSpan.shiftProper d
        aliasName, operation
        children := shiftAll d children }

/- The same trees, further on in a text. -/
def shiftAll
    (d : Int) :
    List Node → List Node
  | [] => []
  | n :: ns => shift d n :: shiftAll d ns

end

theorem shiftAll_eq_map
    (d : Int)
    (ns : List Node) :
    shiftAll d ns = ns.map (shift d) := by
  induction ns with
  | nil => rfl
  | cons n ns ih => rw [shiftAll, ih, List.map_cons]

variable (d : Int)
variable (n : Node)

theorem shift_eq :
    n.shift d =
      { n with
        span := n.span.shift d
        nameSpan := n.nameSpan.shiftProper d
        children := n.children.map (shift d) } := by
  cases n
  rw [shift, shiftAll_eq_map]

@[simp]
theorem shift_kind :
    (n.shift d).kind = n.kind := by
  rw [shift_eq]

@[simp]
theorem shift_name :
    (n.shift d).name = n.name := by
  rw [shift_eq]

@[simp]
theorem shift_span :
    (n.shift d).span = n.span.shift d := by
  rw [shift_eq]

@[simp]
theorem shift_nameSpan :
    (n.shift d).nameSpan = n.nameSpan.shiftProper d := by
  rw [shift_eq]

@[simp]
theorem shift_children :
    (n.shift d).children = n.children.map (shift d) := by
  rw [shift_eq]

mutual

/- A tree that was moved differs in its places only. -/
theorem erase_shift
    (d : Int)
    (n : Node) :
    (n.shift d).erase = n.erase := by
  cases n with
  | mk kind span name nameSpan aliasName operation children =>
      have hChildren := eraseAll_shiftAll d children
      rw [shift, erase, erase, hChildren]

theorem eraseAll_shiftAll
    (d : Int)
    (ns : List Node) :
    eraseAll (shiftAll d ns) = eraseAll ns := by
  cases ns with
  | nil => rfl
  | cons n ns =>
      rw [shiftAll, eraseAll, eraseAll, erase_shift d n,
        eraseAll_shiftAll d ns]

end

end Node

------------------------------------------------------------
-- Shifted Tokens
------------------------------------------------------------

namespace Token

/- Tokens in order, and the same ones further on. -/
structure Shifted
    (d : Nat)
    (ts us : List Token) : Prop where
  moved : List.Forall₂ (Moved d) ts us
  ordered : ∃ lo hi, Between lo hi ts

variable {d : Nat}
variable {t u : Token}
variable {ts ts' us : List Token}

/- The first of some tokens is moved, and so are the others. -/
theorem Shifted.uncons
    (h : Shifted d (t :: ts) us) :
    ∃ u us',
      us = u :: us' ∧ t.Moved d u ∧ t.start < t.stop ∧
        Shifted d ts us' := by
  rcases h with ⟨hMoved, lo, hi, _, hProper, hRest⟩
  cases hMoved with
  | @cons _ u _ us' hFirst hOthers =>
  exact ⟨u, us', rfl, hFirst, hProper, hOthers, _, hi, hRest⟩

/- Each of two parts of some tokens is moved. -/
theorem Shifted.unappend
    (h : Shifted d (ts ++ ts') us) :
    ∃ us₁ us₂,
      us = us₁ ++ us₂ ∧ Shifted d ts us₁ ∧
        Shifted d ts' us₂ := by
  induction ts generalizing us with
  | nil =>
      exact ⟨[], us, rfl, ⟨.nil, 0, 0, Nat.le_refl 0⟩, h⟩
  | cons t ts ih =>
      rcases h with ⟨hMoved, lo, hi, hStart, hProper, hRest⟩
      cases hMoved with
      | @cons _ u _ us hFirst hOthers =>
      rcases ih ⟨hOthers, _, hi, hRest⟩ with
        ⟨us₁, us₂, rfl, hLeft, hRight⟩
      rcases hRest.divide with ⟨mid, hBefore, _⟩
      exact ⟨u :: us₁, us₂, rfl,
        ⟨.cons hFirst hLeft.moved, lo, mid, hStart, hProper,
          hBefore⟩, hRight⟩

theorem Shifted.single
    (h : Shifted d [t] us) :
    ∃ u, us = [u] ∧ t.Moved d u ∧ t.start < t.stop := by
  rcases h.uncons with ⟨u, us', rfl, hMoved, hProper, hNil⟩
  cases hNil.moved
  exact ⟨u, rfl, hMoved, hProper⟩

/- Tokens between two others are moved with them. -/
theorem Shifted.brackets
    {o c : Token}
    (h : Shifted d (o :: ts ++ [c]) us) :
    ∃ o' us' c',
      us = o' :: us' ++ [c'] ∧ o.Moved d o' ∧
        Shifted d ts us' ∧ c.Moved d c' := by
  rcases h.uncons with ⟨o', _, rfl, hOpen, _, hTail⟩
  rcases hTail.unappend with ⟨us', _, rfl, hInside, hEnd⟩
  rcases hEnd.single with ⟨c', rfl, hClose, _⟩
  exact ⟨o', us', c', rfl, hOpen, hInside, hClose⟩

/- Each of three parts of some tokens is moved. -/
theorem Shifted.unappend₃
    {ts'' : List Token}
    (h : Shifted d (ts ++ (ts' ++ ts'')) us) :
    ∃ us₁ us₂ us₃,
      us = us₁ ++ (us₂ ++ us₃) ∧ Shifted d ts us₁ ∧
        Shifted d ts' us₂ ∧ Shifted d ts'' us₃ := by
  rcases h.unappend with ⟨us₁, _, rfl, h₁, hRest⟩
  rcases hRest.unappend with ⟨us₂, us₃, rfl, h₂, h₃⟩
  exact ⟨us₁, us₂, us₃, rfl, h₁, h₂, h₃⟩

/- A name that need not be there is moved if it is. -/
theorem Shifted.optionalName
    {name : Option Token}
    (h : Shifted d name.toList us)
    (hName : ∀ t ∈ name, t.kind = .name) :
    ∃ name' : Option Token,
      us = name'.toList ∧
        name'.map Token.value = name.map Token.value ∧
        ∀ u ∈ name', u.kind = .name := by
  cases name with
  | none =>
      cases h.moved
      exact ⟨none, rfl, rfl, by simp⟩
  | some t =>
      rcases h.single with ⟨u, rfl, hMoved, _⟩
      refine ⟨some u, rfl, congrArg some hMoved.value, ?_⟩
      intro v hv
      cases hv
      exact hMoved.kind.trans (hName t rfl)

theorem moved_head
    (h : List.Forall₂ (Moved d) ts us)
    (ht : ts.head? = some t) :
    ∃ u, us.head? = some u ∧ t.Moved d u := by
  cases h with
  | nil => cases ht
  | cons hFirst _ =>
      cases ht
      exact ⟨_, rfl, hFirst⟩

/- What the tokens cover is moved with them. -/
theorem Shifted.extent
    (h : Shifted d ts us)
    (hSome : ts ≠ []) :
    Token.extent us = (Token.extent ts).shift d := by
  have hFirst := List.head?_eq_some_head hSome
  have hLast := List.getLast?_eq_some_getLast hSome
  rcases moved_head h.moved hFirst with ⟨a, ha, hStart⟩
  have hBack := List.forall₂_reverse_iff.mpr h.moved
  rcases moved_head hBack
      (by rw [List.head?_reverse, hLast]) with
    ⟨b, hb, hStop⟩
  rw [List.head?_reverse] at hb
  unfold Token.extent
  rw [hFirst, hLast, ha, hb]
  simp [Span.shift, hStart.start, hStop.stop]

/- It is not empty, so it is moved also as a name. -/
theorem Shifted.extent_proper
    (h : Shifted d ts us)
    (hSome : ts ≠ []) :
    (Token.extent ts).shiftProper d = Token.extent us := by
  rcases h.ordered with ⟨lo, hi, hOrder⟩
  rcases hOrder.exists_extent hSome with
    ⟨a, _, b, _, hExtent, _, hProper, _⟩
  rw [h.extent hSome, hExtent]
  exact if_pos (Int.ofNat_lt.mpr hProper)

/- A token that is not empty is moved with its span. -/
theorem Moved.span
    (h : t.Moved d u)
    (hProper : t.start < t.stop) :
    t.span.shiftProper d = u.span := by
  unfold Span.shiftProper Token.span
  rw [if_pos (Int.ofNat_lt.mpr hProper), h.start, h.stop]
  simp [Span.shift]

end Token

/- A node over tokens is moved with them. -/
theorem Node.shift_over
    {d : Nat}
    {ts us : List Token}
    (h : Token.Shifted d ts us)
    (hSome : ts ≠ [])
    (n : Node) :
    (n.over ts).shift d =
      Node.over us
        { n with
          nameSpan := n.nameSpan.shiftProper d
          children := n.children.map (Node.shift d) } := by
  rw [Node.shift_eq]
  unfold Node.over
  rw [h.extent hSome]

------------------------------------------------------------
-- Shifted Phrases
------------------------------------------------------------

namespace Phrase

open Token (Shifted)

variable {d : Nat}

theorem IsScalar.moved
    {t u : Token}
    (h : IsScalar t)
    (hMoved : t.Moved d u) :
    IsScalar u := by
  unfold IsScalar at h ⊢
  rwa [hMoved.kind]

theorem scalarKind_moved
    {t u : Token}
    (hMoved : t.Moved d u) :
    Node.Reading.scalarKind u = Node.Reading.scalarKind t := by
  unfold Node.Reading.scalarKind
  rw [hMoved.kind, hMoved.value]

theorem isWord_moved
    {t u : Token}
    {text : String}
    (hMoved : t.Moved d u)
    (h : t.isWord text) :
    u.isWord text := by
  unfold Token.isWord at h ⊢
  rwa [hMoved.kind, hMoved.value]

/-
  Moved tokens spell the same phrase, and its nodes are moved
  with them. The induction is over the derivation.
-/
theorem Spells.shift
    {p : Phrase}
    {ts us : List Token}
    {ns : List Node}
    (h : Spells p ts ns)
    (hAll : Shifted d ts us) :
    Spells p us (ns.map (Node.shift d)) := by
  induction h generalizing us with
  | nil =>
      cases hAll.moved
      exact .nil
  | absent =>
      cases hAll.moved
      exact .absent
  | cons hItem hRest ihItem ihRest =>
      rcases hAll.unappend with ⟨us₁, us₂, rfl, h₁, h₂⟩
      exact .cons (ihItem h₁) (ihRest h₂)
  | present hItem ih => exact .present (ih hAll)
  | parens hOpen hItems hSome hClose ih =>
      rcases hAll.brackets with
        ⟨o, us, c, rfl, hO, hInside, hC⟩
      exact .parens (hO.kind.trans hOpen) (ih hInside)
        (by simpa using hSome) (hC.kind.trans hClose)
  | namedType hName =>
      rw [List.map_singleton, Node.shift_over hAll (by simp)]
      rcases hAll.single with ⟨u, rfl, hU, hProper⟩
      dsimp only
      rw [hU.span hProper, ← hU.value]
      exact .namedType (hU.kind.trans hName)
  | plainType hType ih => exact .plainType (ih hAll)
  | listType hOpen hElement hClose ih =>
      rw [List.map_singleton, Node.shift_over hAll (by simp)]
      rcases hAll.brackets with
        ⟨o, us, c, rfl, hO, hInside, hC⟩
      exact .listType (hO.kind.trans hOpen) (ih hInside)
        (hC.kind.trans hClose)
  | nullable hType ih => exact .nullable (ih hAll)
  | nonNull hType hBang ih =>
      rw [List.map_singleton, Node.shift_over hAll (by simp)]
      rcases hAll.unappend with ⟨us₁, _, rfl, h₁, hEnd⟩
      rcases hEnd.single with ⟨b, rfl, hB, _⟩
      have hWhole :=
        Spells.nonNull (ih h₁) (hB.kind.trans hBang)
      rwa [Node.shift_name, Node.shift_nameSpan] at hWhole
  | variableUse hDollar hName =>
      rw [List.map_singleton, Node.shift_over hAll (by simp)]
      dsimp only
      rw [hAll.extent_proper (by simp)]
      rcases hAll.uncons with ⟨o, _, rfl, hO, _, hTail⟩
      rcases hTail.single with ⟨u, rfl, hU, _⟩
      rw [← hU.value]
      exact .variableUse (hO.kind.trans hDollar)
        (hU.kind.trans hName)
  | scalar hScalar =>
      rw [List.map_singleton, Node.shift_over hAll (by simp)]
      rcases hAll.single with ⟨u, rfl, hU, hProper⟩
      dsimp only
      rw [hU.span hProper, ← hU.value, ← scalarKind_moved hU]
      exact .scalar (hScalar.moved hU)
  | reference hVariable ih => exact .reference (ih hAll)
  | list hOpen hItems hClose ih =>
      rw [List.map_singleton, Node.shift_over hAll (by simp)]
      rcases hAll.brackets with
        ⟨o, us, c, rfl, hO, hInside, hC⟩
      exact .list (hO.kind.trans hOpen) (ih hInside)
        (hC.kind.trans hClose)
  | object hOpen hItems hClose ih =>
      rw [List.map_singleton, Node.shift_over hAll (by simp)]
      rcases hAll.brackets with
        ⟨o, us, c, rfl, hO, hInside, hC⟩
      exact .object (hO.kind.trans hOpen) (ih hInside)
        (hC.kind.trans hClose)
  | entry hKind hName hColon hValue ih =>
      rw [List.map_singleton, Node.shift_over hAll (by simp)]
      rcases hAll.uncons with ⟨u, _, rfl, hU, hProper, hTail⟩
      rcases hTail.uncons with ⟨c, us, rfl, hC, _, hRest⟩
      dsimp only
      rw [hU.span hProper, ← hU.value]
      exact .entry hKind (hU.kind.trans hName)
        (hC.kind.trans hColon) (ih hRest)
  | directive hAt hName hArguments ih =>
      rw [List.map_singleton, Node.shift_over hAll (by simp)]
      rcases hAll.uncons with ⟨a, _, rfl, hA, _, hTail⟩
      rcases hTail.uncons with ⟨u, us, rfl, hU, hProper, hRest⟩
      dsimp only
      rw [hU.span hProper, ← hU.value]
      exact .directive (hA.kind.trans hAt)
        (hU.kind.trans hName) (ih hRest)
  | initial hEquals hValue ih =>
      rcases hAll.uncons with ⟨e, us, rfl, hE, _, hRest⟩
      exact .initial (hE.kind.trans hEquals) (ih hRest)
  | variableDefinition hVariable hColon hType hInitial
      hDirectives ihVariable ihType ihInitial ihDirectives =>
      rw [List.map_singleton, Node.shift_over hAll (by simp)]
      rcases hAll.unappend with ⟨vs, _, rfl, hV, hTail⟩
      rcases hTail.uncons with ⟨c, _, rfl, hC, _, hRest⟩
      rcases hRest.unappend₃ with
        ⟨us₁, us₂, us₃, rfl, h₁, h₂, h₃⟩
      have hWhole := Spells.variableDefinition
        (ihVariable hV) (hC.kind.trans hColon) (ihType h₁)
        (ihInitial h₂) (ihDirectives h₃)
      rw [Node.shift_name, Node.shift_nameSpan] at hWhole
      simpa only [List.map_append, List.map_cons] using hWhole
  | selectionSet hOpen hItems hSome hClose ih =>
      rw [List.map_singleton, Node.shift_over hAll (by simp)]
      rcases hAll.brackets with
        ⟨o, us, c, rfl, hO, hInside, hC⟩
      exact .selectionSet (hO.kind.trans hOpen) (ih hInside)
        (by simpa using hSome) (hC.kind.trans hClose)
  | field hName hArguments hDirectives hSelections ihArguments
      ihDirectives ihSelections =>
      rw [List.map_singleton, Node.shift_over hAll (by simp)]
      rcases hAll.uncons with ⟨u, _, rfl, hU, hProper, hTail⟩
      rcases hTail.unappend₃ with
        ⟨us₁, us₂, us₃, rfl, h₁, h₂, h₃⟩
      dsimp only
      rw [hU.span hProper, ← hU.value, List.map_append,
        List.map_append]
      exact .field (hU.kind.trans hName) (ihArguments h₁)
        (ihDirectives h₂) (ihSelections h₃)
  | aliasedField hAlias hColon hName hArguments hDirectives
      hSelections ihArguments ihDirectives ihSelections =>
      rw [List.map_singleton, Node.shift_over hAll (by simp)]
      rcases hAll.uncons with ⟨a, _, rfl, hA, _, hTail⟩
      rcases hTail.uncons with ⟨c, _, rfl, hC, _, hTail⟩
      rcases hTail.uncons with ⟨u, _, rfl, hU, hProper, hTail⟩
      rcases hTail.unappend₃ with
        ⟨us₁, us₂, us₃, rfl, h₁, h₂, h₃⟩
      dsimp only
      rw [hU.span hProper, ← hU.value, ← hA.value,
        List.map_append, List.map_append]
      exact .aliasedField (hA.kind.trans hAlias)
        (hC.kind.trans hColon) (hU.kind.trans hName)
        (ihArguments h₁) (ihDirectives h₂) (ihSelections h₃)
  | fragmentSpread hSpread hName hWord hDirectives ih =>
      rw [List.map_singleton, Node.shift_over hAll (by simp)]
      rcases hAll.uncons with ⟨e, _, rfl, hE, _, hTail⟩
      rcases hTail.uncons with ⟨u, us, rfl, hU, hProper, hRest⟩
      dsimp only
      rw [hU.span hProper, ← hU.value]
      exact .fragmentSpread (hE.kind.trans hSpread)
        (hU.kind.trans hName) (by rwa [hU.value]) (ih hRest)
  | inlineFragment hSpread hDirectives hSelections ihDirectives
      ihSelections =>
      rw [List.map_singleton, Node.shift_over hAll (by simp)]
      rcases hAll.uncons with ⟨e, _, rfl, hE, _, hTail⟩
      rcases hTail.unappend with ⟨us₁, us₂, rfl, h₁, h₂⟩
      dsimp only
      rw [List.map_append]
      exact .inlineFragment (hE.kind.trans hSpread)
        (ihDirectives h₁) (ihSelections h₂)
  | typedFragment hSpread hOn hCondition hDirectives
      hSelections ihCondition ihDirectives ihSelections =>
      rw [List.map_singleton, Node.shift_over hAll (by simp)]
      rcases hAll.uncons with ⟨e, _, rfl, hE, _, hTail⟩
      rcases hTail.uncons with ⟨o, _, rfl, hO, _, hTail⟩
      rcases hTail.unappend₃ with
        ⟨us₁, us₂, us₃, rfl, h₁, h₂, h₃⟩
      have hWhole := Spells.typedFragment
        (hE.kind.trans hSpread) (hO.value.trans hOn)
        (ihCondition h₁) (ihDirectives h₂) (ihSelections h₃)
      rw [Node.shift_name, Node.shift_nameSpan] at hWhole
      simpa only [List.map_append, List.map_cons,
        List.map_nil] using hWhole
  | shorthand hSelections ih =>
      rw [List.map_singleton,
        Node.shift_over hAll (hSelections.ne_nil (by simp))]
      exact .shorthand (ih hAll)
  | operation hKeyword hOperation hName hVariables hDirectives
      hSelections ihVariables ihDirectives ihSelections =>
      rw [List.map_singleton, Node.shift_over hAll (by simp)]
      rcases hAll.uncons with ⟨k, _, rfl, hK, _, hTail⟩
      rcases hTail.unappend with ⟨_, _, rfl, hOption, hRest⟩
      rcases hOption.optionalName hName with
        ⟨name', rfl, hValue, hName'⟩
      rcases hRest.unappend₃ with
        ⟨us₁, us₂, us₃, rfl, h₁, h₂, h₃⟩
      dsimp only
      rw [← hValue, List.map_append, List.map_append]
      exact .operation (hK.kind.trans hKeyword)
        (by rwa [hK.value]) hName' (ihVariables h₁)
        (ihDirectives h₂) (ihSelections h₃)
  | fragmentDefinition hKeyword hName hWord hVariables hOn
      hCondition hDirectives hSelections ihVariables
      ihCondition ihDirectives ihSelections =>
      rw [List.map_singleton, Node.shift_over hAll (by simp)]
      rcases hAll.uncons with ⟨f, _, rfl, hF, _, hTail⟩
      rcases hTail.uncons with ⟨u, _, rfl, hU, hProper, hTail⟩
      rcases hTail.unappend with ⟨vs, _, rfl, hV, hTail⟩
      rcases hTail.uncons with ⟨o, _, rfl, hO, _, hTail⟩
      rcases hTail.unappend₃ with
        ⟨us₁, us₂, us₃, rfl, h₁, h₂, h₃⟩
      dsimp only
      rw [hU.span hProper, ← hU.value]
      have hWhole := Spells.fragmentDefinition
        (isWord_moved hF hKeyword) (hU.kind.trans hName)
        (by rwa [hU.value]) (ihVariables hV)
        (isWord_moved hO hOn) (ihCondition h₁)
        (ihDirectives h₂) (ihSelections h₃)
      simpa only [List.map_append, List.map_cons,
        List.map_nil] using hWhole

end Phrase

------------------------------------------------------------
-- Shifted Chains
------------------------------------------------------------

namespace Node

variable (d : Int)

theorem shift_contains_iff
    (a : Span)
    (offset : Int) :
    (a.shift d).Contains (offset + d) ↔ a.Contains offset := by
  unfold Span.Contains Span.shift
  dsimp only
  omega

theorem shift_stop_iff
    (a : Span)
    (offset : Int) :
    (a.shift d).stop = offset + d ↔ a.stop = offset := by
  unfold Span.shift
  dsimp only
  omega

/- The last of some moved nodes with a property. -/
theorem lastWith?_shift
    {p q : Node → Bool}
    (h : ∀ c : Node, p (c.shift d) = q c)
    (ns : List Node) :
    lastWith? p (ns.map (shift d)) =
      (lastWith? q ns).map (shift d) := by
  have hSame : p ∘ shift d = q := funext h
  unfold lastWith?
  rw [← List.map_reverse, List.find?_map, hSame]

/- The child at an offset is moved with its parent. -/
theorem childAt?_shift
    (n : Node)
    (offset : Int) :
    (n.shift d).childAt? (offset + d) =
      (n.childAt? offset).map (shift d) := by
  have hInside :=
    lastWith?_shift d
      (p := fun c => c.span.Contains (offset + d))
      (q := fun c => c.span.Contains offset)
      (fun c => by simp [shift_contains_iff]) n.children
  have hTouching :=
    lastWith?_shift d
      (p := fun c => c.span.stop = offset + d)
      (q := fun c => c.span.stop = offset)
      (fun c => by simp [shift_stop_iff]) n.children
  unfold childAt?
  rw [shift_children, hInside, hTouching, Option.map_or]

/-
  Where the first child met is moved, the descent meets the
  same nodes, all of them moved.
-/
theorem descend_shift
    {offset : Int}
    (n m : Node)
    (h :
      m.childAt? (offset + d) =
        (n.childAt? offset).map (shift d)) :
    m.descend (offset + d) =
      (n.descend offset).map (shift d) := by
  cases hChild : n.childAt? offset with
  | none =>
      rw [hChild] at h
      rw [descend_of_none hChild, descend_of_none h]
      rfl
  | some c =>
      rw [hChild] at h
      have hc := childAt?_mem hChild
      have hRest :=
        descend_shift c (c.shift d) (childAt?_shift d c offset)
      rw [descend_of_some hChild, descend_of_some h, hRest]
      rfl
termination_by sizeOf n
decreasing_by
  exact sizeOf_lt_of_mem_children hc

end Node

/- So does the chain, below the root. -/
theorem Chain.resolve_shift
    {d offset : Int}
    {n m : Node}
    (h :
      m.childAt? (offset + d) =
        (n.childAt? offset).map (Node.shift d)) :
    resolve m (offset + d) =
      m :: (resolve n offset).tail.map (Node.shift d) := by
  have hKinds :
      (fun c : Node => decide (c.kind = .selectionSet)) ∘
          Node.shift d =
        fun c => decide (c.kind = .selectionSet) := by
    funext c
    simp
  unfold resolve dropSelectionSets
  rw [Node.descend_shift d n m h]
  dsimp only
  rw [← List.map_reverse, List.dropWhile_map, hKinds,
    ← List.map_reverse]
  rfl

end QueryHover
