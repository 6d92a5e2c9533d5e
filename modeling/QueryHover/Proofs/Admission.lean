import Mathlib.Data.List.Basic
import QueryHover.Proofs.Agreement

/-
  What is spelled is admitted.

  Where the next tokens of a stream spell a phrase, and what
  follows them does not go on with it, the grammar admits
  them and the reading yields the nodes that they spell. Both
  stop right after these tokens. This holds of repetitions,
  and from them of types, values, directives and variables.

  Main declarations:
    * `Phrase.firsts`
    * `Phrase.goesOn`
    * `TokenStream.Begins`
    * `Grammar.AdmitsUpTo`
    * `Grammar.readWhile_admits`
    * `Grammar.value_admits`
    * `Grammar.directives_admits`
    * `Grammar.variableDefinitions_admits`
-/

namespace QueryHover

------------------------------------------------------------
-- First and Following Tokens
------------------------------------------------------------

namespace Phrase

/- The kinds of tokens that a phrase may start with. -/
def firsts :
    Phrase → List Token.Kind
  | .many p | .optional p => p.firsts
  | .parenthesised _ => [.parenL]
  | .namedType => [.name]
  | .unmarkedType | .typeRef => [.name, .bracketL]
  | .variableUse | .variableDefinition => [.dollar]
  | .value _ =>
      [ .int, .float, .string, .blockString, .name, .dollar,
        .bracketL, .braceL ]
  | .entry _ _ => [.name]
  | .directive => [.atSign]
  | .initial => [.equals]
  | .selectionSet => [.braceL]
  | .selection => [.name, .spread]
  | .definition => [.braceL, .name]

/- The kinds of tokens that would go on with a phrase. -/
def goesOn :
    Phrase → List Token.Kind
  | .many p | .optional p => p.firsts ++ p.goesOn
  | .typeRef => [.bang]
  | .directive => [.parenL]
  | .variableDefinition =>
      [.bang, .equals, .atSign, .parenL]
  | .selection => [.colon, .parenL, .atSign, .braceL]
  | _ => []

/- The first token of a phrase is of a kind to start it. -/
theorem Spells.first_kind
    {p : Phrase}
    {ts : List Token}
    {ns : List Node}
    (h : Spells p ts ns) :
    ∀ t ∈ ts.head?, t.kind ∈ p.firsts := by
  induction h with
  | nil | absent =>
      intro t ht
      cases ht
  | cons hItem hRest ihItem ihRest =>
      intro t ht
      rw [List.head?_append_of_ne_nil _
        (hItem.ne_nil (by simp))] at ht
      exact ihItem t ht
  | present hItem ih => exact ih
  | plainType hType ih =>
      intro t ht
      have hKind := ih t ht
      simp only [firsts, List.mem_singleton] at hKind
      simp [firsts, hKind]
  | nullable hType ih => exact ih
  | nonNull hType hBang ih =>
      intro t ht
      rw [List.head?_append_of_ne_nil _
        (hType.ne_nil (by simp))] at ht
      exact ih t ht
  | scalar hScalar =>
      intro t ht
      cases ht
      rcases hScalar with h | h | h | h | h
      all_goals simp [firsts, h]
  | reference hVariable ih =>
      intro t ht
      have hKind := ih t ht
      simp only [firsts, List.mem_singleton] at hKind
      simp [firsts, hKind]
  | variableDefinition hVariable hColon hType hInitial
      hDirectives ihVariable ihType ihInitial ihDirectives =>
      intro t ht
      rw [List.head?_append_of_ne_nil _
        (hVariable.ne_nil (by simp))] at ht
      exact ihVariable t ht
  | shorthand hSelections ih =>
      intro t ht
      have hKind := ih t ht
      simp only [firsts, List.mem_singleton] at hKind
      simp [firsts, hKind]
  | fragmentDefinition hKeyword =>
      intro t ht
      cases ht
      simp [firsts, Grammar.isWord_kind hKeyword]
  | _ =>
      intro t ht
      cases ht
      simp [firsts, *]

end Phrase

------------------------------------------------------------
-- Streams That Begin With Some Tokens
------------------------------------------------------------

namespace TokenStream

/- The stream after as many tokens as are listed. -/
def past
    (s : TokenStream) :
    List Token → TokenStream
  | [] => s
  | _ :: ts => s.tail.past ts

theorem past_append
    (s : TokenStream)
    (ts us : List Token) :
    s.past (ts ++ us) = (s.past ts).past us := by
  induction ts generalizing s with
  | nil => rfl
  | cons t ts ih => exact ih s.tail

/- A stream of a text whose next tokens are the given ones. -/
structure Begins
    (s : TokenStream)
    (ts : List Token) : Prop where
  mirrors : s.Mirrors s
  ahead : ts <+: s.ahead

/- A stream whose next token is of none of some kinds. -/
def Avoids
    (s : TokenStream)
    (kinds : List Token.Kind) : Prop :=
  s.head.kind ∉ kinds

variable {s : TokenStream}
variable {t : Token}
variable {ts us : List Token}
variable {kinds kinds' : List Token.Kind}

theorem Begins.head
    (h : s.Begins (t :: ts)) :
    s.head = t := by
  rcases h.ahead with ⟨rest, hAhead⟩
  unfold TokenStream.head
  rw [← hAhead]
  rfl

theorem Begins.head_kind
    {kind : Token.Kind}
    (h : s.Begins (t :: ts))
    (hKind : t.kind = kind) :
    s.head.kind = kind := by
  rw [h.head, hKind]

theorem Begins.tail
    (h : s.Begins (t :: ts)) :
    s.tail.Begins ts := by
  refine ⟨h.mirrors.tail, ?_⟩
  rcases h.ahead with ⟨rest, hAhead⟩
  unfold TokenStream.tail
  rw [← hAhead]
  exact List.prefix_append ts rest

theorem Begins.left
    (h : s.Begins (ts ++ us)) :
    s.Begins ts :=
  ⟨h.mirrors, (List.prefix_append ts us).trans h.ahead⟩

theorem Begins.right
    (h : s.Begins (ts ++ us)) :
    (s.past ts).Begins us := by
  induction ts generalizing s with
  | nil => exact h
  | cons t ts ih => exact ih h.tail

theorem Begins.reads
    (h : s.Begins ts) :
    s.Reads ts (s.past ts) := by
  induction ts generalizing s with
  | nil => exact Reads.refl s
  | cons t ts ih =>
      have hAhead : s.ahead ≠ [] := by
        rcases h.ahead with ⟨rest, hRest⟩
        rw [← hRest]
        simp
      have hFirst := reads_head hAhead
      rw [h.head] at hFirst
      exact hFirst.trans (ih h.tail)

theorem Begins.length_le
    (h : s.Begins ts) :
    ts.length ≤ s.ahead.length :=
  h.ahead.length_le

theorem Avoids.mono
    (h : s.Avoids kinds)
    (hSub : ∀ kind ∈ kinds', kind ∈ kinds) :
    s.Avoids kinds' :=
  fun hKind => h (hSub _ hKind)

/- A phrase that may be empty, and what follows it. -/
theorem Begins.avoids
    {p : Phrase}
    {ns : List Node}
    (h : s.Begins ts)
    (hSpells : p.Spells ts ns)
    (hFirst : ∀ kind ∈ p.firsts, kind ∉ kinds)
    (hNext : (s.past ts).Avoids kinds) :
    s.Avoids kinds := by
  have hKind := hSpells.first_kind
  cases ts with
  | nil => exact hNext
  | cons t ts =>
      unfold Avoids
      rw [h.head]
      exact hFirst t.kind (hKind t rfl)

end TokenStream

/- A node that is closed covers the tokens read for it. -/
theorem Node.Reading.close_past
    {s : TokenStream}
    {ts : List Token}
    (h : s.Begins ts)
    (hSome : ts ≠ [])
    (n : Node) :
    close s.head.start n (s.past ts) = (n.over ts, s.past ts) :=
  close_apply h.mirrors h.reads hSome n

namespace Parser

variable {α β : Type}
variable {s s' : TokenStream}
variable {kind : Token.Kind}

/- A parser goes on after a part that succeeds. -/
theorem bind_of_ok
    {x : Parser α}
    {a : α}
    (h : x s = .ok (a, s'))
    (f : α → Parser β) :
    (x >>= f) s = f a s' := by
  change (x s >>= fun r => f r.1 r.2) = _
  rw [h]
  rfl

theorem peek_run
    (s : TokenStream) :
    peek s = .ok (s.head, s) :=
  rfl

theorem next_run
    (s : TokenStream) :
    next s = .ok (s.head, s.tail) :=
  rfl

theorem place_run
    (t : Token)
    (s : TokenStream) :
    place t s = .ok (t.location s.file, s) :=
  rfl

theorem skip_run
    (h : s.head.kind = kind) :
    skip kind s = .ok (true, s.tail) :=
  skip_ok.mpr (.inl ⟨h, rfl, rfl⟩)

theorem skip_run_other
    (h : s.head.kind ≠ kind) :
    skip kind s = .ok (false, s) :=
  skip_ok.mpr (.inr ⟨h, rfl, rfl⟩)

theorem expect_run
    (h : s.head.kind = kind) :
    expect kind s = .ok (s.head, s.tail) :=
  expect_ok.mpr ⟨h, rfl, rfl⟩

theorem name_run
    (h : s.head.kind = .name) :
    Parser.name s = .ok (s.head.value, s.tail) :=
  name_ok.mpr ⟨h, rfl, rfl⟩

theorem word_run
    {text : String}
    (h : s.head.isWord text) :
    word text s = .ok ((), s.tail) :=
  word_ok.mpr ⟨h, rfl⟩

end Parser

------------------------------------------------------------
-- Admission
------------------------------------------------------------

namespace Grammar

open TokenStream (Begins Avoids Iterates)

variable {α β : Type}
variable {s : TokenStream}
variable {ts : List Token}
variable {ns : List Node}

/-
  Where a phrase of at most so many tokens is spelled, and
  what follows does not go on with it, the grammar admits it
  and the reading yields its nodes. Both stop after it.
-/
def AdmitsUpTo
    (bound : Nat)
    (p : Phrase)
    (g : Parser α)
    (r : Node.Reading β)
    (nodes : β → List Node) : Prop :=
  ∀ {s : TokenStream} {ts : List Token} {ns : List Node},
    p.Spells ts ns → ts.length ≤ bound → s.Begins ts →
      (s.past ts).Avoids p.goesOn →
      (∃ a, g s = .ok (a, s.past ts)) ∧
        ∃ b, r s = (b, s.past ts) ∧ nodes b = ns

/- The same for phrases of any number of tokens. -/
def Admits
    (p : Phrase)
    (g : Parser α)
    (r : Node.Reading β)
    (nodes : β → List Node) : Prop :=
  ∀ {s : TokenStream} {ts : List Token} {ns : List Node},
    p.Spells ts ns → s.Begins ts →
      (s.past ts).Avoids p.goesOn →
      (∃ a, g s = .ok (a, s.past ts)) ∧
        ∃ b, r s = (b, s.past ts) ∧ nodes b = ns

theorem Admits.upTo
    {p : Phrase}
    {g : Parser α}
    {r : Node.Reading β}
    {nodes : β → List Node}
    (h : Admits p g r nodes)
    (bound : Nat) :
    AdmitsUpTo bound p g r nodes :=
  fun hSpells _ hs hNext => h hSpells hs hNext

/- One step of a repetition that the grammar admits. -/
theorem readWhile_step
    {starts : Token → Bool}
    {g : Parser α}
    {s' s'' : TokenStream}
    {a : α}
    {as : List α}
    (hStart : starts s.head = true)
    (hItem : g s = .ok (a, s'))
    (hProgress : s'.ahead.length < s.ahead.length)
    (hRest : TokenStream.readWhile starts g s' = .ok (as, s'')) :
    TokenStream.readWhile starts g s = .ok (a :: as, s'') := by
  rw [TokenStream.readWhile, if_pos hStart, hItem]
  change (if _h : s'.ahead.length < s.ahead.length then _
    else _) = _
  rw [dif_pos hProgress, hRest]
  rfl

/-
  A repetition of items, each followed by the first token of
  the next one, up to a token that starts none.
-/
theorem readWhile_admits
    {bound : Nat}
    {p : Phrase}
    {g : Parser α}
    {r : Node.Reading Node}
    (starts starts' : Token → Bool)
    (hItem : AdmitsUpTo bound p g r one)
    (hStarts :
      ∀ t : Token, t.kind ∈ p.firsts →
        starts t = true ∧ starts' t = true)
    (hFollow : ∀ kind ∈ p.firsts, kind ∉ p.goesOn)
    (hSpells : (Phrase.many p).Spells ts ns)
    (hBound : ts.length ≤ bound)
    (hs : s.Begins ts)
    (hEnd :
      starts (s.past ts).head = false ∧
        starts' (s.past ts).head = false)
    (hNext : (s.past ts).Avoids p.goesOn) :
    ∃ as,
      TokenStream.readWhile starts g s =
          .ok (as, s.past ts) ∧
        Iterates starts' r s ns (s.past ts) := by
  induction ns generalizing s ts with
  | nil =>
      cases hSpells
      refine ⟨[], ?_, .done hEnd.2⟩
      rw [TokenStream.readWhile, TokenStream.past,
        if_neg (by simpa [TokenStream.past] using hEnd.1)]
      rfl
  | cons n ns ih =>
      cases hSpells with
      | @cons _ ts us _ _ hFirst hRest =>
      rw [TokenStream.past_append] at hEnd hNext ⊢
      rw [List.length_append] at hBound
      have hLater := hs.right
      have hSome : ts ≠ [] := hFirst.ne_nil (by simp)
      have hAvoids : (s.past ts).Avoids p.goesOn :=
        hLater.avoids hRest hFollow hNext
      rcases hItem hFirst (by omega) hs.left hAvoids with
        ⟨⟨a, hTake⟩, b, hRead, hNode⟩
      cases hNode
      have hProgress := hs.left.reads.length_lt hSome
      have hKind : s.head.kind ∈ p.firsts := by
        apply hFirst.first_kind
        exact hs.left.reads.head?_eq hSome
      rcases ih hRest (by omega) hLater hEnd hNext with
        ⟨as, hTakes, hReads⟩
      exact ⟨a :: as,
        readWhile_step (hStarts _ hKind).1 hTake hProgress
          hTakes,
        .step (hStarts _ hKind).2 hRead hProgress hReads⟩

/-
  Items that neither a closing token nor the end of the text
  starts or goes on with, nor the next item.
-/
abbrev Apart
    (p : Phrase)
    (close : Token.Kind) : Prop :=
  close ∉ p.firsts ∧ close ∉ p.goesOn ∧ .eof ∉ p.firsts ∧
    ∀ kind ∈ p.firsts, kind ∉ p.goesOn

/- Items up to the token that closes their list. -/
theorem itemsUntil_admits
    {bound : Nat}
    {p : Phrase}
    {g : Parser α}
    {r : Node.Reading Node}
    {c : Token}
    (hItem : AdmitsUpTo bound p g r one)
    (hApart : Apart p c.kind)
    (hSpells : (Phrase.many p).Spells ts ns)
    (hBound : ts.length ≤ bound)
    (hs : s.Begins (ts ++ [c])) :
    ∃ as,
      Parser.itemsUntil c.kind g s =
          .ok (as, s.past (ts ++ [c])) ∧
        Node.Reading.itemsUntil c.kind r s =
          (ns, s.past (ts ++ [c])) := by
  rcases hApart with ⟨hClose, hNext, hEof, hFollow⟩
  have hHead := hs.right.head
  rcases readWhile_admits
      (fun t => decide (t.kind ≠ c.kind))
      (fun t =>
        decide (t.kind ≠ c.kind) && decide (t.kind ≠ .eof))
      hItem
      (by
        intro t ht
        have hOther : t.kind ≠ c.kind :=
          fun hKind => hClose (hKind ▸ ht)
        have hInside : t.kind ≠ .eof :=
          fun hKind => hEof (hKind ▸ ht)
        simp [hOther, hInside])
      hFollow hSpells hBound hs.left
      (by simp [hHead])
      (by
        unfold Avoids
        rw [hHead]
        exact hNext) with
    ⟨as, hTakes, hReads⟩
  rw [TokenStream.past_append]
  refine ⟨as, ?_, ?_⟩
  · unfold Parser.itemsUntil
    rw [Parser.bind_of_ok hTakes,
      Parser.bind_of_ok (Parser.next_run _)]
    rfl
  · unfold Node.Reading.itemsUntil
    rw [Node.Reading.bind_apply, hReads.readWhile_eq]
    rfl

/- The first of some items does not close their list. -/
theorem first_ne_close
    {p : Phrase}
    {c : Token}
    (hSpells : (Phrase.many p).Spells ts ns)
    (hSome : ns ≠ [])
    (hClose : c.kind ∉ p.firsts)
    (hs : s.Begins (ts ++ [c])) :
    s.head.kind ≠ c.kind := by
  have hTokens := hSpells.ne_nil hSome
  have hMem := hSpells.first_kind s.head
    (hs.left.reads.head?_eq hTokens)
  exact fun hSame => hClose (hSame ▸ hMem)

theorem nonEmptyList_run
    {opening close : Token.Kind}
    {g : Parser α}
    {as : List α}
    {s' : TokenStream}
    (hOpen : s.head.kind = opening)
    (hFirst : s.tail.head.kind ≠ close)
    (hItems :
      Parser.itemsUntil close g s.tail = .ok (as, s')) :
    Parser.nonEmptyList opening close g s = .ok (as, s') := by
  unfold Parser.nonEmptyList
  rw [Parser.bind_of_ok (Parser.skip_run hOpen)]
  simp only [if_true]
  rw [Parser.bind_of_ok (Parser.peek_run _), if_neg hFirst]
  exact hItems

/- A list in parentheses, if it is there. -/
theorem parenthesised_admits
    {p : Phrase}
    {g : Parser α}
    {r : Node.Reading Node}
    (hItem : Admits p g r one)
    (hApart : Apart p .parenR) :
    Admits (.optional (.parenthesised p))
      (Parser.nonEmptyList .parenL .parenR g)
      (do
        if ← TokenStream.skip .parenL then
          Node.Reading.itemsUntil .parenR r
        else
          pure [])
      id := by
  intro s ts ns hSpells hs hNext
  cases hSpells with
  | absent =>
      have hOther : s.head.kind ≠ .parenL := by
        simpa [Avoids, Phrase.goesOn, Phrase.firsts,
          TokenStream.past] using hNext
      refine ⟨?_, [], ?_, rfl⟩
      · unfold Parser.nonEmptyList
        rw [Parser.bind_of_ok (Parser.skip_run_other hOther)]
        exact ⟨_, rfl⟩
      · rw [Node.Reading.bind_apply, Node.Reading.skip_apply,
          if_neg hOther]
        rfl
  | present hParens =>
      cases hParens with
      | @parens _ o c ts _ hOpen hItems hSome hClose =>
      have hKind := hs.head_kind hOpen
      have hTail := hs.tail
      rw [← hClose] at hApart ⊢
      have hFirst :=
        first_ne_close hItems hSome hApart.1 hTail
      rcases itemsUntil_admits (hItem.upTo ts.length) hApart
          hItems (Nat.le_refl _) hTail with
        ⟨as, hTakes, hReads⟩
      refine ⟨⟨as, nonEmptyList_run hKind hFirst hTakes⟩, ns,
        ?_, rfl⟩
      rw [Node.Reading.bind_apply, Node.Reading.skip_apply,
        if_pos hKind]
      exact hReads

------------------------------------------------------------
-- Types
------------------------------------------------------------

/- The name of a type is one token. -/
theorem namedType_admits
    {t : Token}
    (hs : s.Begins [t]) :
    Node.Reading.namedType s =
      (Node.over [t]
        { kind := .namedType
          name := t.value
          nameSpan := t.span }, s.past [t]) := by
  have hClose := Node.Reading.close_past hs (by simp)
    { kind := .namedType, name := t.value, nameSpan := t.span }
  rw [← hClose, ← hs.head]
  rfl

/- A mark after a type belongs to it. -/
theorem marked_admits
    (hSpells : Phrase.typeRef.Spells ts ns)
    (hs : s.Begins ts)
    (hNext : (s.past ts).Avoids [.bang]) :
    ∃ us m n b,
      ns = [n] ∧ Phrase.unmarkedType.Spells us [m] ∧
        s.Begins us ∧ us.length ≤ ts.length ∧
        Parser.skip .bang (s.past us) = .ok (b, s.past ts) ∧
        Node.Reading.marked s.head.start m (s.past us) =
          (n, s.past ts) := by
  cases hSpells with
  | @nullable ts n hType =>
      have hOther : (s.past ts).head.kind ≠ .bang := by
        simpa [Avoids] using hNext
      refine ⟨ts, n, n, false, rfl, hType, hs, Nat.le_refl _,
        Parser.skip_run_other hOther, ?_⟩
      unfold Node.Reading.marked
      rw [Node.Reading.bind_apply, Node.Reading.skip_apply,
        if_neg hOther]
      rfl
  | @nonNull b us m hType hBang =>
      have hMark := hs.right.head_kind hBang
      have hClose := Node.Reading.close_past hs (by simp)
        { kind := .nonNullType
          name := m.name
          nameSpan := m.nameSpan
          children := [m] }
      rw [TokenStream.past_append] at hClose ⊢
      refine ⟨us, m, _, true, rfl, hType, hs.left, by simp,
        Parser.skip_run hMark, ?_⟩
      unfold Node.Reading.marked
      rw [Node.Reading.bind_apply, Node.Reading.skip_apply,
        if_pos hMark]
      exact hClose

/- Type references are admitted at every depth. -/
theorem typeRefWithin_admits
    (depth : Nat) :
    AdmitsUpTo depth .typeRef (typeRefWithin depth)
      (Node.Reading.typeRefWithin depth) one := by
  induction depth with
  | zero =>
      intro s ts ns hSpells hBound hs hNext
      rcases marked_admits hSpells hs hNext with
        ⟨us, m, n, b, rfl, _, _, _⟩
      have hSome := hSpells.ne_nil (by simp)
      exact absurd (List.length_eq_zero_iff.mp
        (Nat.le_zero.mp hBound)) hSome
  | succ depth ih =>
      intro s ts ns hSpells hBound hs hNext
      rcases marked_admits hSpells hs hNext with
        ⟨us, m, n, b, rfl, hType, hs', hLength, hSkip, hMark⟩
      unfold typeRefWithin Node.Reading.typeRefWithin
      rw [Node.Reading.bind_apply, Node.Reading.start_apply,
        Node.Reading.bind_apply, Node.Reading.skip_apply]
      cases hType with
      | plainType hNamed =>
          cases hNamed with
          | @namedType t hName =>
          have hKind : s.head.kind = .name := by
            rw [hs'.head, hName]
          have hOther : s.head.kind ≠ .bracketL := by
            rw [hKind]
            decide
          have hSkip' :
              Parser.skip .bang s.tail = .ok (b, s.past ts) :=
            hSkip
          refine ⟨?_, n, ?_, rfl⟩
          · rw [Parser.bind_of_ok
              (Parser.skip_run_other hOther)]
            unfold namedTypeRef
            simp only [Bool.false_eq_true, if_false]
            rw [Parser.bind_of_ok (Parser.peek_run s),
              Parser.bind_of_ok (Parser.place_run _ s),
              Parser.bind_of_ok (Parser.name_run hKind),
              Parser.bind_of_ok hSkip']
            exact ⟨_, rfl⟩
          · rw [if_neg hOther]
            simp only [Bool.false_eq_true, if_false]
            rw [Node.Reading.bind_apply, namedType_admits hs']
            exact hMark
      | @listType o c us m hOpen hElement hClose =>
          have hKind : s.head.kind = .bracketL := by
            rw [hs'.head, hOpen]
          have hTail := hs'.tail
          have hKind' := hTail.right.head_kind hClose
          have hAfter : (s.tail.past us).Avoids [.bang] := by
            simp [Avoids, hKind']
          have hPast :
              s.past (o :: us ++ [c]) = (s.tail.past us).tail :=
            TokenStream.past_append s.tail us [c]
          simp only [List.length_append, List.length_cons]
            at hLength
          rcases ih hElement (by omega) hTail.left hAfter with
            ⟨⟨⟨l, e⟩, hTake⟩, _, hRead, hNode⟩
          cases hNode
          have hList := Node.Reading.close_past hs' (by simp)
            { kind := .listType, children := [m] }
          rw [hPast] at hSkip hMark hList
          refine ⟨?_, n, ?_, rfl⟩
          · rw [Parser.bind_of_ok (Parser.skip_run hKind)]
            simp only [if_true]
            rw [Parser.bind_of_ok (Parser.peek_run _),
              Parser.bind_of_ok (Parser.place_run _ _),
              Parser.bind_of_ok hTake,
              Parser.bind_of_ok (Parser.expect_run hKind'),
              Parser.bind_of_ok hSkip]
            exact ⟨_, rfl⟩
          · rw [if_pos hKind]
            simp only [if_true]
            rw [Node.Reading.bind_apply, hRead,
              Node.Reading.bind_apply, Node.Reading.next_apply,
              Node.Reading.bind_apply, hList]
            exact hMark

/- Type references are admitted. -/
theorem typeRef_admits :
    Admits .typeRef typeRef Node.Reading.typeRef
      one := by
  intro s ts ns hSpells hs hNext
  exact typeRefWithin_admits s.ahead.length hSpells
    hs.length_le hs hNext

------------------------------------------------------------
-- Values
------------------------------------------------------------

theorem scalarValue_run
    (h : Phrase.IsScalar s.head) :
    ∃ l, scalarValue s = .ok (l, s.tail) := by
  unfold scalarValue
  rw [Parser.bind_of_ok (Parser.peek_run s)]
  rcases h with h | h | h | h | h
  · rw [h]
    exact ⟨_, rfl⟩
  · rw [h]
    exact ⟨_, rfl⟩
  · rw [h]
    exact ⟨_, rfl⟩
  · rw [h]
    exact ⟨_, rfl⟩
  · rw [h]
    dsimp only
    rw [Parser.bind_of_ok (Parser.next_run s)]
    split_ifs
    · exact ⟨_, rfl⟩
    · exact ⟨_, rfl⟩

theorem scalarValue_reads
    {t : Token}
    (hs : s.Begins [t]) :
    Node.Reading.scalarValue s =
      (Node.over [t]
        { kind := Node.Reading.scalarKind t
          name := t.value
          nameSpan := t.span }, s.past [t]) := by
  have hClose := Node.Reading.close_past hs (by simp)
    { kind := Node.Reading.scalarKind t
      name := t.value
      nameSpan := t.span }
  rw [← hClose, ← hs.head]
  rfl

/- A variable is a dollar sign and a name. -/
theorem variableUse_admits
    {d t : Token}
    (hs : s.Begins [d, t]) :
    Node.Reading.variableUse s =
      (Node.over [d, t]
        { kind := .variableUse
          name := t.value
          nameSpan := Token.extent [d, t] }, s.past [d, t]) := by
  have hClose :
      Node.Reading.close s.head.start
          { kind := .variableUse, name := t.value }
          s.tail.tail =
        (Node.over [d, t]
          { kind := .variableUse, name := t.value },
          s.tail.tail) :=
    Node.Reading.close_past hs (by simp) _
  unfold Node.Reading.variableUse
  simp only [Node.Reading.bind_apply,
    Node.Reading.start_apply, Node.Reading.next_apply,
    Node.Reading.name_apply, hs.tail.head]
  rw [hClose]
  rfl

/- A name, a colon and a value. -/
theorem entry_reads
    {r : Node.Reading Node}
    {t c : Token}
    {n : Node}
    (kind : Node.Kind)
    (hColon : c.kind = .colon)
    (hs : s.Begins (t :: c :: ts))
    (hRead : r s.tail.tail = (n, s.tail.tail.past ts)) :
    Node.Reading.namedValue kind r s =
      (Node.over (t :: c :: ts)
        { kind := kind
          name := t.value
          nameSpan := t.span
          children := [n] }, s.past (t :: c :: ts)) := by
  have hKind := hs.tail.head_kind hColon
  unfold Node.Reading.namedValue
  simp only [Node.Reading.bind_apply,
    Node.Reading.start_apply, Node.Reading.name_apply,
    Node.Reading.skip_apply, if_pos hKind, hRead]
  have hClose := Node.Reading.close_past hs (by simp)
    { kind := kind
      name := t.value
      nameSpan := t.span
      children := [n] }
  rw [← hClose, hs.head]
  rfl

/- Brackets around items. -/
theorem bracketed_admits
    {bound : Nat}
    {p : Phrase}
    {g : Parser α}
    {r : Node.Reading Node}
    {o c : Token}
    (hItem : AdmitsUpTo bound p g r one)
    (hApart : Apart p c.kind)
    (hSpells : (Phrase.many p).Spells ts ns)
    (hBound : (o :: ts ++ [c]).length ≤ bound + 1)
    (hs : s.Begins (o :: ts ++ [c]))
    (n : List Node → Node) :
    ∃ as,
      Parser.itemsUntil c.kind g s.tail =
          .ok (as, s.past (o :: ts ++ [c])) ∧
        (do
          let _ ← TokenStream.next
          let items ← Node.Reading.itemsUntil c.kind r
          Node.Reading.close s.head.start (n items) :
            Node.Reading Node) s =
          ((n ns).over (o :: ts ++ [c]),
            s.past (o :: ts ++ [c])) := by
  simp only [List.length_append, List.length_cons] at hBound
  rcases itemsUntil_admits hItem hApart hSpells (by omega)
      hs.tail with
    ⟨as, hTakes, hReads⟩
  refine ⟨as, hTakes, ?_⟩
  simp only [Node.Reading.bind_apply,
    Node.Reading.next_apply, hReads]
  exact Node.Reading.close_past hs (by simp) _

theorem list_run
    {opening close : Token.Kind}
    {g : Parser α}
    {as : List α}
    {s' : TokenStream}
    (hOpen : s.head.kind = opening)
    (hItems :
      Parser.itemsUntil close g s.tail = .ok (as, s')) :
    Parser.list opening close g s = .ok (as, s') := by
  unfold Parser.list
  rw [Parser.bind_of_ok (Parser.skip_run hOpen)]
  exact hItems

/- A field of an object whose value is admitted. -/
theorem objectField_admits
    {constant : Bool}
    {bound : Nat}
    {g : Parser Literal}
    {r : Node.Reading Node}
    (hValue : AdmitsUpTo bound (.value constant) g r one) :
    AdmitsUpTo bound (.entry .objectField constant)
      (do
        let _ ← Parser.name
        let _ ← Parser.expect .colon
        g)
      (Node.Reading.namedValue .objectField r) one := by
  intro s ts ns hSpells hBound hs hNext
  cases hSpells with
  | @entry _ _ t c ts n hEntry hName hColon hItem =>
  have hKind := hs.head_kind hName
  have hKind' := hs.tail.head_kind hColon
  simp only [List.length_cons] at hBound
  rcases hValue hItem (by omega) hs.tail.tail hNext with
    ⟨⟨l, hTake⟩, _, hRead, hNode⟩
  cases hNode
  refine ⟨?_, _, entry_reads .objectField hColon hs hRead, rfl⟩
  rw [Parser.bind_of_ok (Parser.name_run hKind),
    Parser.bind_of_ok (Parser.expect_run hKind')]
  exact ⟨l, hTake⟩

/- Values are admitted at every depth. -/
theorem valueWithin_admits
    (constant : Bool)
    (depth : Nat) :
    AdmitsUpTo depth (.value constant)
      (valueWithin constant depth)
      (Node.Reading.valueWithin depth) one := by
  induction depth with
  | zero =>
      intro s ts ns hSpells hBound hs hNext
      have hSome : ts ≠ [] := by
        cases hSpells with
        | reference hVariable =>
            exact hVariable.ne_nil (by simp)
        | _ => simp
      exact absurd (List.length_eq_zero_iff.mp
        (Nat.le_zero.mp hBound)) hSome
  | succ depth ih =>
      intro s ts ns hSpells hBound hs hNext
      unfold valueWithin Node.Reading.valueWithin
      rw [Parser.bind_of_ok (Parser.peek_run s),
        Node.Reading.bind_apply, Node.Reading.start_apply,
        Node.Reading.bind_apply, Node.Reading.peek_apply]
      cases hSpells with
      | @scalar _ t hScalar =>
          have hHead := hs.head
          have hRead := scalarValue_reads hs
          rw [← hHead] at hScalar
          have hRun := scalarValue_run hScalar
          rcases hScalar with h | h | h | h | h
          all_goals
            rw [h]
            exact ⟨hRun, _, hRead, rfl⟩
      | reference hVariable =>
          cases hVariable with
          | @variableUse d t hDollar hName =>
          have hKind := hs.head_kind hDollar
          have hKind' := hs.tail.head_kind hName
          rw [hKind]
          refine ⟨?_, _, variableUse_admits hs, rfl⟩
          simp only [Bool.false_eq_true, if_false]
          rw [Parser.bind_of_ok (Parser.next_run s),
            Parser.bind_of_ok (Parser.name_run hKind')]
          exact ⟨_, rfl⟩
      | @list _ o c ts ns hOpen hItems hClose =>
          have hKind := hs.head_kind hOpen
          rcases bracketed_admits ih
              (by
                rw [hClose]
                simp [Apart, Phrase.firsts, Phrase.goesOn])
              hItems hBound hs
              (fun ns =>
                { kind := .listValue, children := ns }) with
            ⟨as, hTakes, hReads⟩
          rw [hClose] at hTakes hReads
          rw [hKind]
          refine ⟨?_, _, hReads, rfl⟩
          dsimp only
          rw [Parser.bind_of_ok (list_run hKind hTakes)]
          exact ⟨_, rfl⟩
      | @object _ o c ts ns hOpen hItems hClose =>
          have hKind := hs.head_kind hOpen
          rcases bracketed_admits (objectField_admits ih)
              (by
                rw [hClose]
                simp [Apart, Phrase.firsts, Phrase.goesOn])
              hItems hBound hs
              (fun ns =>
                { kind := .objectValue, children := ns }) with
            ⟨as, hTakes, hReads⟩
          rw [hClose] at hTakes hReads
          rw [hKind]
          refine ⟨?_, _, hReads, rfl⟩
          dsimp only
          rw [Parser.bind_of_ok (list_run hKind hTakes)]
          exact ⟨_, rfl⟩

/- Values are admitted. -/
theorem value_admits
    (constant : Bool) :
    Admits (.value constant) (value constant)
      Node.Reading.value one := by
  intro s ts ns hSpells hs hNext
  exact valueWithin_admits constant s.ahead.length hSpells
    hs.length_le hs hNext

------------------------------------------------------------
-- Arguments, Directives and Variables
------------------------------------------------------------

theorem argument_admits :
    Admits (.entry .argument false)
      (argument false)
      (Node.Reading.namedValue .argument Node.Reading.value)
      one := by
  intro s ts ns hSpells hs hNext
  cases hSpells with
  | @entry _ _ t c ts n hEntry hName hColon hValue =>
  have hKind := hs.head_kind hName
  have hKind' := hs.tail.head_kind hColon
  rcases value_admits false hValue hs.tail.tail hNext with
    ⟨⟨l, hTake⟩, _, hRead, hNode⟩
  cases hNode
  refine ⟨?_, _, entry_reads .argument hColon hs hRead, rfl⟩
  unfold argument
  rw [Parser.bind_of_ok (Parser.peek_run s),
    Parser.bind_of_ok (Parser.place_run _ s),
    Parser.bind_of_ok (Parser.name_run hKind),
    Parser.bind_of_ok (Parser.expect_run hKind'),
    Parser.bind_of_ok hTake]
  exact ⟨_, rfl⟩

theorem arguments_admits :
    Admits .arguments (arguments false)
      Node.Reading.arguments id :=
  parenthesised_admits argument_admits (by decide)

theorem directive_admits :
    Admits .directive (directive false)
      Node.Reading.directive one := by
  intro s ts ns hSpells hs hNext
  cases hSpells with
  | @directive a t ts ns hAt hName hArguments =>
  have hKind := hs.tail.head_kind hName
  rcases arguments_admits hArguments hs.tail.tail hNext with
    ⟨⟨as, hTake⟩, _, hRead, hNode⟩
  cases hNode
  refine ⟨?_, _, ?_, rfl⟩
  · unfold directive
    rw [Parser.bind_of_ok (Parser.next_run s),
      Parser.bind_of_ok (Parser.peek_run _),
      Parser.bind_of_ok (Parser.place_run _ _),
      Parser.bind_of_ok (Parser.name_run hKind),
      Parser.bind_of_ok hTake]
    exact ⟨_, rfl⟩
  · unfold Node.Reading.directive
    simp only [Node.Reading.bind_apply,
      Node.Reading.start_apply, Node.Reading.next_apply,
      Node.Reading.name_apply, hRead, hs.tail.head]
    exact Node.Reading.close_past hs (by simp) _

theorem directives_admits :
    Admits .directives (directives false)
      Node.Reading.directives id := by
  intro s ts ns hSpells hs hNext
  have hEnd : (s.past ts).head.kind ≠ .atSign := by
    intro hKind
    exact hNext (by simp [hKind, Phrase.goesOn, Phrase.firsts])
  rcases readWhile_admits
      (fun t => decide (t.kind = .atSign))
      (fun t => decide (t.kind = .atSign))
      (directive_admits.upTo ts.length)
      (by
        intro t ht
        simpa [Phrase.firsts] using ht)
      (by decide) hSpells (Nat.le_refl _) hs
      (by simp [hEnd])
      (hNext.mono (by decide)) with
    ⟨as, hTakes, hReads⟩
  exact ⟨⟨as, hTakes⟩, ns, hReads.readWhile_eq, rfl⟩

/- The default of a variable, if it has one. -/
theorem initial_admits :
    Admits (.optional .initial) initial
      Node.Reading.initial id := by
  intro s ts ns hSpells hs hNext
  unfold initial Node.Reading.initial
  rw [Node.Reading.bind_apply, Node.Reading.skip_apply]
  cases hSpells with
  | absent =>
      have hOther : s.head.kind ≠ .equals := by
        simpa [Avoids, Phrase.goesOn, Phrase.firsts,
          TokenStream.past] using hNext
      refine ⟨?_, [], ?_, rfl⟩
      · rw [Parser.bind_of_ok (Parser.skip_run_other hOther)]
        exact ⟨_, rfl⟩
      · rw [if_neg hOther]
        rfl
  | present hInitial =>
      cases hInitial with
      | @initial e ts ns hEquals hValue =>
      have hKind := hs.head_kind hEquals
      rcases value_admits true hValue hs.tail
          (by simp [Avoids, Phrase.goesOn]) with
        ⟨⟨l, hTake⟩, n, hRead, hNode⟩
      refine ⟨?_, [n], ?_, hNode⟩
      · rw [Parser.bind_of_ok (Parser.skip_run hKind)]
        simp only [if_true]
        rw [Parser.bind_of_ok hTake]
        exact ⟨_, rfl⟩
      · rw [if_pos hKind]
        simp only [if_true, Node.Reading.bind_apply, hRead]
        rfl

theorem variableDefinition_admits :
    Admits .variableDefinition variableDefinition
      Node.Reading.variableDefinition one := by
  intro s ts ns hSpells hs hNext
  cases hSpells with
  | @variableDefinition c vs ts is ds v n ins dns hVariable
      hColon hType hInitial hDirectives =>
  cases hVariable with
  | @variableUse d t hDollar hName =>
  have hKind := hs.head_kind hDollar
  have hKind₁ := hs.tail.head_kind hName
  have hKind₂ := hs.tail.tail.head_kind hColon
  have hRest := hs.tail.tail.tail
  have hPast :
      s.past ([d, t] ++ c :: (ts ++ (is ++ ds))) =
        ((s.tail.tail.tail.past ts).past is).past ds := by
    rw [← TokenStream.past_append, ← TokenStream.past_append]
    rfl
  have hClose := Node.Reading.close_past hs (by simp)
    { kind := .variableDefinition
      name := t.value
      nameSpan := Token.extent [d, t]
      children :=
        Node.over [d, t]
          { kind := .variableUse
            name := t.value
            nameSpan := Token.extent [d, t] } ::
          n :: ins ++ dns }
  rw [hPast] at hNext hClose ⊢
  -- What follows a part does not go on with it.
  have hNext₂ :
      ((s.tail.tail.tail.past ts).past is).Avoids
        [.bang, .equals] :=
    hRest.right.right.avoids hDirectives (by decide)
      (hNext.mono (by decide))
  have hNext₁ : (s.tail.tail.tail.past ts).Avoids [.bang] :=
    hRest.right.left.avoids hInitial (by decide)
      (hNext₂.mono (by decide))
  rcases typeRef_admits hType hRest.left hNext₁ with
    ⟨⟨l, hTake₁⟩, _, hRead₁, hNode⟩
  cases hNode
  rcases initial_admits hInitial hRest.right.left
      (hNext₂.mono (by decide)) with
    ⟨⟨a, hTake₂⟩, _, hRead₂, hNode⟩
  cases hNode
  rcases directives_admits hDirectives hRest.right.right
      (hNext.mono (by decide)) with
    ⟨⟨b, hTake₃⟩, _, hRead₃, hNode⟩
  cases hNode
  have hUse :
      Node.Reading.variableUse s =
        (Node.over [d, t]
          { kind := .variableUse
            name := t.value
            nameSpan := Token.extent [d, t] },
          s.tail.tail) :=
    variableUse_admits hs.left
  refine ⟨?_, _, ?_, rfl⟩
  · unfold variableDefinition
    rw [Parser.bind_of_ok (Parser.expect_run hKind),
      Parser.bind_of_ok (Parser.expect_run hKind₁),
      Parser.bind_of_ok (Parser.expect_run hKind₂),
      Parser.bind_of_ok hTake₁, Parser.bind_of_ok hTake₂,
      Parser.bind_of_ok hTake₃]
    exact ⟨_, rfl⟩
  · unfold Node.Reading.variableDefinition
    simp only [Node.Reading.bind_apply,
      Node.Reading.start_apply, hUse,
      Node.Reading.skip_apply, if_pos hKind₂, hRead₁, hRead₂,
      hRead₃]
    exact hClose

theorem variableDefinitions_admits :
    Admits .variableDefinitions variableDefinitions
      Node.Reading.variableDefinitions id := by
  intro s ts ns hSpells hs hNext
  rcases parenthesised_admits variableDefinition_admits
      (by decide) hSpells hs hNext with
    ⟨⟨as, hTake⟩, hRead⟩
  refine ⟨?_, hRead⟩
  unfold variableDefinitions
  rw [Parser.bind_of_ok hTake]
  exact ⟨_, rfl⟩

end Grammar

end QueryHover
