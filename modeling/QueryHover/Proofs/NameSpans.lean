import QueryHover.Proofs.FieldTyping
import QueryHover.Proofs.Gaps
import QueryHover.Proofs.Ranges
import QueryHover.Proofs.Sources
import QueryHover.Proofs.Variables

/-
  Names and where they stand in a text.

  Most nodes are named by one token, and their name is what
  stands there in the text. A variable is named by a dollar
  sign and a name, with what may be ignored between them. A
  type condition and a type under a mark lend their name to
  the node above them. All other nodes have no place for a
  name.

  Main declarations:
    * `Node.Named`
    * `Phrase.Spells.namedBy`
    * `Node.NamedByText`
    * `Document.names_of_parse`
-/

namespace QueryHover

------------------------------------------------------------
-- Names by Kind
------------------------------------------------------------

/- The characters of a text that a span covers. -/
def Span.sourceIn
    (text : List Char)
    (span : Span) : List Char :=
  (text.drop span.start.toNat).take
    (span.stop - span.start).toNat

namespace Node

/- A node without a name and without a place for one. -/
def Unnamed
    (n : Node) : Prop :=
  n.name = "" ∧ n.nameSpan = {}

/- A node that is named like another one. -/
def NamedLike
    (n m : Node) : Prop :=
  n.name = m.name ∧ n.nameSpan = m.nameSpan

/-
  A name as the kind of the node demands it: a word of the
  text, the name of a variable or the value of a string, as
  they are given; else the name of a child, or none. An
  operation may have a name, but no place for it.
-/
def Named
    (word variableName string : Prop)
    (n : Node) : Prop :=
  match n.kind with
  | .fragmentDefinition | .namedType | .field | .argument
  | .directive | .fragmentSpread | .objectField | .intValue
  | .floatValue | .booleanValue | .nullValue | .enumValue =>
      word
  | .variableUse | .variableDefinition => variableName
  | .stringValue => string
  | .inlineFragment =>
      match n.childOfKind? .namedType with
      | some condition => n.NamedLike condition
      | none => n.Unnamed
  | .nonNullType =>
      ∃ c, n.children = [c] ∧
        (c.kind = .namedType ∧ n.NamedLike c ∨
          c.kind = .listType ∧ n.Unnamed)
  | .listType | .selectionSet | .listValue | .objectValue
  | .document => n.Unnamed
  | .operationDefinition => n.nameSpan = {}
  | .unknown _ => False

theorem Named.imp
    {word word' variableName variableName' string string' : Prop}
    {n : Node}
    (h : n.Named word variableName string)
    (hWord : word → word')
    (hVariable : variableName → variableName')
    (hString : string → string') :
    n.Named word' variableName' string' := by
  unfold Named at h ⊢
  revert h
  cases n.kind
  all_goals intro h
  case variableUse | variableDefinition => exact hVariable h
  case stringValue => exact hString h
  case inlineFragment | nonNullType | listType | selectionSet
      | listValue | objectValue | document
      | operationDefinition | unknown =>
    exact h
  all_goals exact hWord h

/- The tokens that name a node, as its kind demands them. -/
def NamedBy
    (ts : List Token)
    (n : Node) : Prop :=
  n.Named
    (∃ t ∈ ts, t.kind ∈ [.name, .int, .float] ∧
      n.name = t.value ∧ n.nameSpan = t.span)
    (∃ d t, [d, t] <:+: ts ∧ d.kind = .dollar ∧
      t.kind = .name ∧ n.name = t.value ∧
      n.nameSpan = Token.extent [d, t])
    (∃ t ∈ ts, n.name = t.value ∧ n.nameSpan = t.span ∧
      n.span = t.span)

theorem NamedBy.of_part
    {ts us : List Token}
    {n : Node}
    (h : n.NamedBy us)
    (hInfix : us <:+: ts) :
    n.NamedBy ts := by
  refine h.imp ?_ ?_ ?_
  · rintro ⟨t, ht, hName⟩
    exact ⟨t, hInfix.subset ht, hName⟩
  · rintro ⟨d, t, hPart, hName⟩
    exact ⟨d, t, hPart.trans hInfix, hName⟩
  · rintro ⟨t, ht, hName⟩
    exact ⟨t, hInfix.subset ht, hName⟩

end Node

------------------------------------------------------------
-- Names of Phrases
------------------------------------------------------------

namespace Phrase

variable {p : Phrase}
variable {ts : List Token}
variable {ns : List Node}

/- A single token names the value that it is. -/
theorem namedBy_scalar
    {t : Token}
    (h : IsScalar t) :
    (Node.over [t]
      { kind := Node.Reading.scalarKind t
        name := t.value
        nameSpan := t.span }).NamedBy [t] := by
  have hMem : t ∈ [t] := List.mem_singleton_self t
  unfold Node.NamedBy Node.Named Node.over
    Node.Reading.scalarKind
  rcases h with hKind | hKind | hKind | hKind | hKind
  · rw [hKind]
    exact ⟨t, hMem, by simp [hKind], rfl, rfl⟩
  · rw [hKind]
    exact ⟨t, hMem, by simp [hKind], rfl, rfl⟩
  · rw [hKind]
    exact ⟨t, hMem, rfl, rfl, rfl⟩
  · rw [hKind]
    exact ⟨t, hMem, rfl, rfl, rfl⟩
  · rw [hKind]
    dsimp only
    split_ifs
    all_goals exact ⟨t, hMem, by simp [hKind], rfl, rfl⟩

/-
  The nodes of a phrase are named by its tokens. The
  induction is over the derivation.
-/
theorem Spells.namedBy
    (h : Spells p ts ns) :
    ∀ n ∈ ns, n.NamedBy ts := by
  induction h with
  | nil | absent => exact List.forall_mem_nil _
  | cons hItem hRest ihItem ihRest =>
      rw [List.forall_mem_cons]
      constructor
      · exact (ihItem _ List.mem_cons_self).of_part
          (List.prefix_append _ _).isInfix
      · intro n hn
        exact (ihRest n hn).of_part
          (List.suffix_append _ _).isInfix
  | present hItem ih => exact ih
  | plainType hType ih => exact ih
  | nullable hType ih => exact ih
  | reference hVariable ih => exact ih
  | parens hOpen hItems hSome hClose ih =>
      intro n hn
      exact (ih n hn).of_part ⟨[_], [_], rfl⟩
  | initial hEquals hValue ih =>
      intro n hn
      exact (ih n hn).of_part (List.suffix_cons _ _).isInfix
  | namedType hName =>
      rw [List.forall_mem_singleton]
      exact ⟨_, List.mem_cons_self, by simp [hName], rfl, rfl⟩
  | listType | list | object | selectionSet =>
      rw [List.forall_mem_singleton]
      exact ⟨rfl, rfl⟩
  | nonNull hType hBang =>
      rw [List.forall_mem_singleton]
      cases hType with
      | plainType hType =>
          cases hType
          exact ⟨_, rfl, .inl ⟨rfl, rfl, rfl⟩⟩
      | listType => exact ⟨_, rfl, .inr ⟨rfl, rfl, rfl⟩⟩
  | variableUse hDollar hName =>
      rw [List.forall_mem_singleton]
      exact ⟨_, _, List.infix_rfl, hDollar, hName, rfl, rfl⟩
  | scalar hScalar =>
      rw [List.forall_mem_singleton]
      exact namedBy_scalar hScalar
  | shorthand | operation =>
      rw [List.forall_mem_singleton]
      exact rfl
  | entry hKind hName =>
      rw [List.forall_mem_singleton]
      rcases List.mem_pair.mp hKind with rfl | rfl
      all_goals
        exact ⟨_, List.mem_cons_self, by simp [hName], rfl,
          rfl⟩
  | directive hAt hName =>
      rw [List.forall_mem_singleton]
      exact ⟨_, List.mem_cons_of_mem _ List.mem_cons_self,
        by simp [hName], rfl, rfl⟩
  | variableDefinition hVariable =>
      rw [List.forall_mem_singleton]
      cases hVariable with
      | variableUse hDollar hName =>
          exact ⟨_, _, (List.prefix_append _ _).isInfix,
            hDollar, hName, rfl, rfl⟩
  | field hName =>
      rw [List.forall_mem_singleton]
      exact ⟨_, List.mem_cons_self, by simp [hName], rfl, rfl⟩
  | aliasedField hAlias hColon hName =>
      rw [List.forall_mem_singleton]
      exact ⟨_, List.mem_cons_of_mem _
        (List.mem_cons_of_mem _ List.mem_cons_self),
        by simp [hName], rfl, rfl⟩
  | fragmentSpread hSpread hName =>
      rw [List.forall_mem_singleton]
      exact ⟨_, List.mem_cons_of_mem _ List.mem_cons_self,
        by simp [hName], rfl, rfl⟩
  | inlineFragment hSpread hDirectives hSelections =>
      rw [List.forall_mem_singleton]
      have hNone := hDirectives.childOfKind?_eq_none
        .namedType (by decide)
      have hNone' := hSelections.childOfKind?_eq_none
        .namedType (by decide)
      simp only [Node.NamedBy, Node.Named, Node.over,
        Node.childOfKind?, List.find?_append, hNone, hNone']
      exact ⟨rfl, rfl⟩
  | typedFragment hSpread hOn hCondition =>
      rw [List.forall_mem_singleton]
      have hKind := hCondition.mem_kinds _ List.mem_cons_self
      simp only [kinds, List.mem_singleton] at hKind
      simp [Node.NamedBy, Node.Named, Node.over,
        Node.childOfKind?, hKind, Node.NamedLike]
  | fragmentDefinition hKeyword hName =>
      rw [List.forall_mem_singleton]
      exact ⟨_, List.mem_cons_of_mem _ List.mem_cons_self,
        by simp [hName], rfl, rfl⟩

end Phrase

------------------------------------------------------------
-- Names in a Text
------------------------------------------------------------

namespace Token

variable {text : List Char}
variable {d t : Token}

theorem sourceIn_span :
    t.span.sourceIn text = t.sourceIn text := by
  simp [Span.sourceIn, span, sourceIn]

/- A name or a number is written as it is valued. -/
theorem ReadIn.value
    (h : t.ReadIn text)
    (hKind : t.kind ∈ [Kind.name, .int, .float]) :
    t.sourceIn text = t.value.toList := by
  have hRead := h.2
  simp only [List.mem_cons, List.not_mem_nil, or_false]
    at hKind
  rcases hKind with hKind | hKind | hKind
  · rw [hKind] at hRead
    exact hRead.2
  · rw [hKind] at hRead
    exact hRead
  · rw [hKind] at hRead
    exact hRead

/- Two tokens and what stands between them. -/
theorem sourceIn_extent
    {gap : List Char}
    (hFirst : d.start ≤ d.stop)
    (hSecond : t.start ≤ t.stop)
    (hDrop : text.drop d.stop = gap ++ text.drop t.start)
    (hStart : t.start = d.stop + gap.length) :
    (extent [d, t]).sourceIn text =
      d.sourceIn text ++ gap ++ t.sourceIn text := by
  have hTake :
      ((t.stop : Int) - d.start).toNat =
        (d.stop - d.start) +
          (gap.length + (t.stop - t.start)) := by
    omega
  have hDropStop :
      (text.drop d.start).drop (d.stop - d.start) =
        gap ++ text.drop t.start := by
    rw [List.drop_drop, Nat.add_sub_cancel' hFirst, hDrop]
  have hExtent : extent [d, t] = ⟨d.start, t.stop⟩ := rfl
  rw [hExtent, Span.sourceIn, hTake, Int.toNat_natCast,
    List.take_add, hDropStop, List.take_length_add_append,
    List.append_assoc]
  rfl

end Token

/-
  A node that is named by what stands in the text. The name
  of a variable comes after a dollar sign and characters that
  can be ignored. What a string says may be written in many
  ways.
-/
def Node.NamedByText
    (text : List Char)
    (n : Node) : Prop :=
  n.Named
    (n.nameSpan.sourceIn text = n.name.toList)
    (∃ gap, Text.isIgnorable false gap ∧
      n.nameSpan.sourceIn text = '$' :: gap ++ n.name.toList)
    (n.nameSpan = n.span)

namespace Document

variable {text : List Char}
variable {root n : Node}

/- Every node of a tree is named by the tokens of the text. -/
theorem parse_namedBy
    (h : parse text = .ok root)
    (hn : root.Holds n) :
    n.NamedBy (tokens text).ahead := by
  rcases Relation.reflTransGen_iff_eq_or_transGen.mp hn with
    rfl | hAbove
  · rcases parse_eq_ok_iff.mp h with ⟨_, rfl⟩
    exact ⟨rfl, rfl⟩
  · rcases parse_spelledIn h hAbove with
      ⟨_, _, _, hInfix, hSpells, hMem⟩
    exact (hSpells.namedBy n hMem).of_part hInfix

/- What stands between two tokens of a variable. -/
theorem sourceIn_variable
    {d t : Token}
    (hPart : [d, t] <:+: (tokens text).ahead)
    (hDollar : d.kind = .dollar)
    (hName : t.kind = .name) :
    ∃ gap, Text.isIgnorable false gap ∧
      (Token.extent [d, t]).sourceIn text =
        '$' :: gap ++ t.value.toList := by
  have hMem : d ∈ (tokens text).ahead :=
    hPart.subset List.mem_cons_self
  have hMem' : t ∈ (tokens text).ahead :=
    hPart.subset (List.mem_cons_of_mem _ List.mem_cons_self)
  have hBetween := TokenStream.ofText_between "input" text
  have hRead := TokenStream.ofText_readIn "input" text hMem
  have hRead' := TokenStream.ofText_readIn "input" text hMem'
  rcases TokenStream.ofText_gap "input" text hPart
      (by rw [hDollar]; decide) with
    ⟨gap, hGap, hDrop, hStart⟩
  have hSource : d.sourceIn text = ['$'] := by
    have hLabel := hRead.2
    rw [hDollar] at hLabel
    exact hLabel
  refine ⟨gap, hGap, ?_⟩
  rw [Token.sourceIn_extent (hBetween.bounds hMem).2.1.le
    (hBetween.bounds hMem').2.1.le hDrop hStart, hSource,
    hRead'.value (by simp [hName])]
  rfl

/- Every node of a tree is named by what stands in the text. -/
theorem parse_namedByText
    (h : parse text = .ok root)
    (hn : root.Holds n) :
    n.NamedByText text := by
  refine (parse_namedBy h hn).imp ?_ ?_ ?_
  · rintro ⟨t, ht, hKind, hName, hSpan⟩
    rw [hSpan, hName, Token.sourceIn_span]
    exact (TokenStream.ofText_readIn "input" text ht).value
      hKind
  · rintro ⟨d, t, hPart, hDollar, hKind, hName, hSpan⟩
    rw [hSpan, hName]
    exact sourceIn_variable hPart hDollar hKind
  · rintro ⟨t, _, _, hNameSpan, hSpan⟩
    rw [hNameSpan, hSpan]

end Document

------------------------------------------------------------
-- The Place of a Name
------------------------------------------------------------

namespace Node

/- A name that is the value of a token and stands there. -/
def AtToken
    (ts : List Token)
    (n : Node) : Prop :=
  ∃ t ∈ ts, n.name = t.value ∧ n.nameSpan = t.span

/- A name that stands at a dollar sign and the token after. -/
def AtVariable
    (ts : List Token)
    (n : Node) : Prop :=
  ∃ d t, [d, t] <:+: ts ∧ d.kind = .dollar ∧
    t.kind = .name ∧ n.name = t.value ∧
    n.nameSpan = Token.extent [d, t]

/- The place of a name in a text. -/
def StandsAt
    (ts : List Token)
    (n : Node) : Prop :=
  match n.kind with
  | .variableUse | .variableDefinition => n.AtVariable ts
  | _ => n.AtToken ts

theorem AtToken.like
    {ts : List Token}
    {n m : Node}
    (h : m.AtToken ts)
    (hLike : n.NamedLike m) :
    n.AtToken ts := by
  unfold AtToken
  rw [hLike.1, hLike.2]
  exact h

/-
  A name other than that of an operation stands in the text,
  if the names that the children lend do.
-/
theorem NamedBy.standsAt
    {ts : List Token}
    {n : Node}
    (h : n.NamedBy ts)
    (hKind : n.kind ≠ .operationDefinition)
    (hName : n.name ≠ "")
    (hChildren :
      ∀ c ∈ n.children, c.kind = .namedType →
        c.AtToken ts) :
    n.StandsAt ts := by
  unfold NamedBy Named at h
  unfold StandsAt
  revert h
  cases hCase : n.kind
  all_goals intro h
  case operationDefinition => exact absurd hCase hKind
  case unknown => exact h.elim
  case listType | selectionSet | listValue | objectValue
      | document =>
    exact absurd h.1 hName
  case variableUse | variableDefinition => exact h
  case stringValue =>
    rcases h with ⟨t, ht, hValue, hSpan, _⟩
    exact ⟨t, ht, hValue, hSpan⟩
  case inlineFragment =>
    cases hFound : n.childOfKind? .namedType with
    | none =>
        simp only [hFound] at h
        exact absurd h.1 hName
    | some condition =>
        simp only [hFound] at h
        exact (hChildren condition
          (List.mem_of_find?_eq_some hFound)
          (by simpa using List.find?_some hFound)).like h
  case nonNullType =>
    rcases h with ⟨c, hOnly, ⟨hType, hLike⟩ | ⟨_, hNone⟩⟩
    · exact (hChildren c (by simp [hOnly]) hType).like hLike
    · exact absurd hNone.1 hName
  all_goals
    rcases h with ⟨t, ht, _, hValue, hSpan⟩
    exact ⟨t, ht, hValue, hSpan⟩

theorem StandsAt.atToken_or
    {ts : List Token}
    {n : Node}
    (h : n.StandsAt ts) :
    n.AtToken ts ∨ n.AtVariable ts := by
  unfold StandsAt at h
  split at h
  · exact .inr h
  · exact .inr h
  · exact .inl h

end Node

namespace Document

variable {text : List Char}
variable {root n : Node}

/- The names of a tree stand in the text. -/
theorem parse_standsAt
    (h : parse text = .ok root)
    (hn : root.Holds n)
    (hKind : n.kind ≠ .operationDefinition)
    (hName : n.name ≠ "") :
    n.StandsAt (tokens text).ahead := by
  refine (parse_namedBy h hn).standsAt hKind hName ?_
  intro c hc hType
  have hBy := parse_namedBy h (hn.tail hc)
  unfold Node.NamedBy Node.Named at hBy
  rw [hType] at hBy
  rcases hBy with ⟨t, ht, _, hValue, hSpan⟩
  exact ⟨t, ht, hValue, hSpan⟩

/- A name that stands in a short text is not empty there. -/
theorem target_of_standsAt
    (hStands : n.StandsAt (tokens text).ahead)
    (hLength : text.length < UInt64.size / 2) :
    n.target = n.nameSpan := by
  have hBetween := TokenStream.ofText_between "input" text
  have hOrder :
      n.nameSpan.start < n.nameSpan.stop ∧
        n.nameSpan.stop - n.nameSpan.start ≤ text.length := by
    rcases hStands.atToken_or with
      ⟨t, ht, _, hSpan⟩ | ⟨d, t, hPart, _, _, _, hSpan⟩
    · have hBounds := hBetween.bounds ht
      rw [hSpan]
      simp only [Token.span]
      omega
    · rcases hBetween.part hPart with
        ⟨lo, hi, _, hHigh, _, hFirst, hNext, hSecond, hLast⟩
      have hEnd : t.stop ≤ hi := hLast
      have hExtent :
          Token.extent [d, t] = ⟨d.start, t.stop⟩ := rfl
      rw [hSpan, hExtent]
      dsimp only
      omega
  have hShort :
      n.nameSpan.stop - n.nameSpan.start <
        (UInt64.size / 2 : Nat) := by
    omega
  have hExact := Span.length_eq (Int.le_of_lt hOrder.1) hShort
  unfold Node.target
  rw [if_pos (by omega)]

/-
  Names and their places. Every node of a tree is named by
  what stands in the text, as its kind demands. What is
  marked for a node with a name, operations apart, is the
  place of that name: a token, or the two of a variable.
-/
theorem names_of_parse
    (h : parse text = .ok root)
    (hn : root.Holds n) :
    n.NamedByText text ∧
      (text.length < UInt64.size / 2 →
        n.kind ≠ .operationDefinition → n.name ≠ "" →
        n.target = n.nameSpan ∧
          n.StandsAt (tokens text).ahead) := by
  refine ⟨parse_namedByText h hn, ?_⟩
  intro hLength hKind hName
  have hStands := parse_standsAt h hn hKind hName
  exact ⟨target_of_standsAt hStands hLength, hStands⟩

/- A variable with a comment between its two tokens. -/
theorem names_of_parse_variable :
    let text := "\x7bf(a:$ #b\n,c)\x7d".toList
    ∃ root n,
      parse text = .ok root ∧ root.Holds n ∧
        text.length < UInt64.size / 2 ∧
        n.kind = .variableUse ∧ n.name = "c" ∧
        n.nameSpan = ⟨5, 12⟩ ∧
        n.nameSpan.sourceIn text = "$ #b\n,c".toList ∧
        n.NamedByText text ∧ n.target = ⟨5, 12⟩ ∧
        n.AtVariable (tokens text).ahead := by
  intro text
  rcases exists_leaf text 7
      (fun leaf _ => (leaf.kind, leaf.name, leaf.nameSpan))
      (show _ = some
        (Node.Kind.variableUse, "c", (⟨5, 12⟩ : Span)) by
        decide +kernel) with
    ⟨root, n, ancestors, h, hChain, hView⟩
  simp only [Prod.mk.injEq] at hView
  rcases hView with ⟨hKind, hName, hSpan⟩
  have hHolds : root.Holds n :=
    (Chain.leads_resolve root 7).holds (by simp [hChain])
  have hLength : text.length < UInt64.size / 2 := by
    decide
  rcases names_of_parse h hHolds with ⟨hNamed, hTarget⟩
  rcases hTarget hLength (by rw [hKind]; decide)
    (by rw [hName]; decide) with ⟨hMarked, hStands⟩
  unfold Node.StandsAt at hStands
  rw [hKind] at hStands
  refine ⟨root, n, h, hHolds, hLength, hKind, hName, hSpan, ?_,
    hNamed, by rw [hMarked, hSpan], hStands⟩
  rw [hSpan]
  decide +kernel

end Document

end QueryHover
