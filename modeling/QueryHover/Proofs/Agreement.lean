import Mathlib.Tactic.SplitIfs
import QueryHover.Node.Reading
import QueryHover.Proofs.Streams

/-
  The grammar and the reading of trees agree.

  Wherever the grammar admits a phrase, the reading takes the
  same tokens and yields the nodes that these tokens spell.
  The two need not run on the same stream: it is enough that
  the tokens they meet have the same words, wherever these
  stand in their texts.

  Main declarations:
    * `Grammar.AgreesAt`
    * `Grammar.definition_agrees`
    * `Grammar.check_spells`
    * `Document.parse_eq_ok_iff`
    * `Document.parse_spells`
-/

namespace QueryHover

------------------------------------------------------------
-- Agreement
------------------------------------------------------------

namespace Grammar

open TokenStream (Mirrors Reads Iterates)

variable {α β : Type}
variable {s u : TokenStream}

/-
  Where the grammar admits a phrase on one stream, the
  reading takes as many tokens of the other, and yields the
  nodes that they spell.
-/
def AgreesAt
    (g : Parser α)
    (r : Node.Reading β)
    (nodes : β → List Node)
    (p : Phrase)
    (s u : TokenStream) : Prop :=
  ∀ a s', g s = .ok (a, s') →
    ∃ b u' ts,
      r u = (b, u') ∧ u.Reads ts u' ∧ s'.Mirrors u' ∧
        p.Spells ts (nodes b)

/- A reading of one node. -/
abbrev one
    (n : Node) : List Node :=
  [n]

/-
  A repetition of items on which grammar and reading agree.
  The reading may also end at the end of the text, which
  starts no item.
-/
theorem readWhile_agrees
    {starts : Token → Bool}
    (starts' : Token → Bool)
    {g : Parser α}
    {r : Node.Reading Node}
    {p : Phrase}
    (hStarts :
      ∀ t v : Token, t.kind = v.kind → v.kind ≠ .eof →
        starts t = true → starts' v = true)
    (hEnds :
      ∀ t v : Token, t.kind = v.kind →
        starts t = false → starts' v = false)
    (hItem :
      ∀ s u : TokenStream, s.Mirrors u →
        starts s.head = true → AgreesAt g r one p s u)
    {s u s' : TokenStream}
    {as : List α}
    (h : s.Mirrors u)
    (hRun : TokenStream.readWhile starts g s = .ok (as, s')) :
    ∃ ns u' ts,
      Iterates starts' r u ns u' ∧ u.Reads ts u' ∧
        s'.Mirrors u' ∧ starts s'.head = false ∧
        (starts s.head = true → ns ≠ []) ∧
        (Phrase.many p).Spells ts ns := by
  rw [TokenStream.readWhile] at hRun
  by_cases hStart : starts s.head = true
  · rw [if_pos hStart] at hRun
    cases hFirst : g s with
    | error e =>
        rw [hFirst] at hRun
        cases hRun
    | ok first =>
        rcases first with ⟨a, s₁⟩
        rcases hItem s u h hStart a s₁ hFirst with
          ⟨n, u₁, ts, hRead, hReads, hNext, hSpells⟩
        have hSome : ts ≠ [] := hSpells.ne_nil (by simp)
        have hProgress := hReads.length_lt hSome
        have hProgress' :
            s₁.ahead.length < s.ahead.length := by
          rw [h.length_eq, hNext.length_eq]
          exact hProgress
        have hAhead : u.ahead ≠ [] := by
          rw [hReads.ahead]
          simp [hSome]
        have hEof := h.head_kind_ne_eof hAhead
        have hStart' : starts' u.head = true :=
          hStarts s.head u.head h.head_kind.symm hEof hStart
        rw [hFirst] at hRun
        change (if _h : s₁.ahead.length < s.ahead.length
          then _ else _) = _ at hRun
        rw [dif_pos hProgress'] at hRun
        cases hRest : TokenStream.readWhile starts g s₁ with
        | error e =>
            rw [hRest] at hRun
            cases hRun
        | ok rest =>
            rcases rest with ⟨as', s₂⟩
            rw [hRest] at hRun
            cases hRun
            rcases readWhile_agrees starts' hStarts hEnds
                hItem hNext hRest with
              ⟨ns, u₂, us, hIterates, hReads', hLast, hEnd,
                _, hMany⟩
            exact ⟨n :: ns, u₂, ts ++ us,
              .step hStart' hRead hProgress hIterates,
              hReads.trans hReads', hLast, hEnd, by simp,
              .cons hSpells hMany⟩
  · have hStop : starts s.head = false := by
      simpa using hStart
    rw [if_neg hStart] at hRun
    cases hRun
    exact ⟨[], u, [],
      .done (hEnds s.head u.head h.head_kind.symm hStop),
      Reads.refl u, h, hStop,
      fun hStart' => absurd hStart' hStart, .nil⟩
termination_by s.ahead.length

/-
  Items up to the token that closes their list. The closing
  token is read, too.
-/
theorem itemsUntil_agrees
    {close : Token.Kind}
    {g : Parser α}
    {r : Node.Reading Node}
    {p : Phrase}
    (hMark : close ≠ .eof ∧ close ≠ .invalid)
    (hItem :
      ∀ s u : TokenStream, s.Mirrors u →
        s.head.kind ≠ close → AgreesAt g r one p s u)
    (h : s.Mirrors u)
    {as : List α}
    {s' : TokenStream}
    (hRun : Parser.itemsUntil close g s = .ok (as, s')) :
    ∃ ns u' ts c,
      Node.Reading.itemsUntil close r u = (ns, u') ∧
        u.Reads (ts ++ [c]) u' ∧ c.kind = close ∧
        s'.Mirrors u' ∧
        (s.head.kind ≠ close → ns ≠ []) ∧
        (Phrase.many p).Spells ts ns := by
  simp only [Parser.itemsUntil, Parser.bind_ok,
    Parser.next_ok, Parser.pure_ok] at hRun
  rcases hRun with
    ⟨items, s₁, hItems, t, s₂, ⟨rfl, rfl⟩, rfl, rfl⟩
  rcases readWhile_agrees
      (fun t =>
        decide (t.kind ≠ close) && decide (t.kind ≠ .eof))
      (by
        intro t v hKind hEof hStart
        simp_all)
      (by
        intro t v hKind hEnd
        simp_all)
      (by
        intro s u hMirrors hStart
        exact hItem s u hMirrors (by simpa using hStart))
      h hItems with
    ⟨ns, u₁, ts, hIterates, hReads, hNext, hEnd, hSome,
      hSpells⟩
  have hClose : s₁.head.kind = close := by
    simpa using hEnd
  refine ⟨ns, u₁.tail, ts, u₁.head, ?_,
    hReads.trans (hNext.reads hClose hMark), ?_,
    hNext.tail, ?_, hSpells⟩
  · unfold Node.Reading.itemsUntil
    rw [Node.Reading.bind_apply, hIterates.readWhile_eq]
    rfl
  · rw [hNext.head_kind, hClose]
  · intro hFirst
    exact hSome (by simpa using hFirst)

/- A list that is opened has a first item. -/
theorem nonEmptyList_ok
    {opening close : Token.Kind}
    {g : Parser α}
    {as : List α}
    {s' : TokenStream}
    (hRun :
      Parser.nonEmptyList opening close g s = .ok (as, s')) :
    (s.head.kind = opening ∧ s.tail.head.kind ≠ close ∧
        Parser.itemsUntil close g s.tail = .ok (as, s')) ∨
      (s.head.kind ≠ opening ∧ as = [] ∧ s' = s) := by
  simp only [Parser.nonEmptyList, Parser.bind_ok,
    Parser.skip_ok] at hRun
  rcases hRun with
    ⟨b, s₁, ⟨hOpen, rfl, rfl⟩ | ⟨hOther, rfl, rfl⟩, hRun⟩
  · simp only [if_true, Parser.bind_ok,
      Parser.peek_ok] at hRun
    rcases hRun with ⟨t, s₂, ⟨rfl, rfl⟩, hRun⟩
    split_ifs at hRun with hEmpty
    · exact absurd hRun (by simp [Parser.refuse_ok])
    · exact .inl ⟨hOpen, hEmpty, hRun⟩
  · exact .inr ⟨hOther, Parser.pure_ok.mp hRun⟩

/- A list in parentheses that has items if it is there. -/
theorem parenthesised_agrees
    {g : Parser α}
    {r : Node.Reading Node}
    {p : Phrase}
    (hItem :
      ∀ s u : TokenStream, s.Mirrors u →
        AgreesAt g r one p s u)
    (h : s.Mirrors u) :
    AgreesAt (Parser.nonEmptyList .parenL .parenR g)
      (do
        if ← TokenStream.skip .parenL then
          Node.Reading.itemsUntil .parenR r
        else
          pure [])
      id (.optional (.parenthesised p)) s u := by
  intro as s' hRun
  rcases nonEmptyList_ok hRun with
    ⟨hOpen, hFirst, hItems⟩ | ⟨hOther, rfl, rfl⟩
  · rcases itemsUntil_agrees (by decide)
        (fun s u hMirrors _ => hItem s u hMirrors)
        h.tail hItems with
      ⟨ns, u', ts, c, hRead, hReads, hClose, hNext, hSome,
        hSpells⟩
    have hKind : u.head.kind = .parenL := by
      rw [h.head_kind, hOpen]
    refine ⟨ns, u', u.head :: (ts ++ [c]), ?_,
      (h.reads hOpen).trans hReads, hNext,
      .present (.parens hKind hSpells (hSome hFirst)
        hClose)⟩
    rw [Node.Reading.bind_apply, Node.Reading.skip_apply,
      if_pos hKind]
    exact hRead
  · have hKind : u.head.kind ≠ .parenL := by
      rw [h.head_kind]
      exact hOther
    refine ⟨[], u, [], ?_, Reads.refl u, h, .absent⟩
    rw [Node.Reading.bind_apply, Node.Reading.skip_apply,
      if_neg hKind]
    rfl

------------------------------------------------------------
-- Types
------------------------------------------------------------

/- The name of a type is one token. -/
theorem namedType_reads
    (h : s.Mirrors u)
    (hName : s.head.kind = .name) :
    ∃ n,
      Node.Reading.namedType u = (n, u.tail) ∧
        u.Reads [u.head] u.tail ∧
        Phrase.namedType.Spells [u.head] [n] := by
  have hReads := h.reads hName
  have hKind : u.head.kind = .name := by
    rw [h.head_kind, hName]
  refine ⟨_, ?_, hReads, .namedType hKind⟩
  exact Node.Reading.close_apply h hReads (by simp) _

/- A mark after a type belongs to it. -/
theorem marked_agrees
    {s₁ u₁ s' : TokenStream}
    {ts : List Token}
    {n : Node}
    {b : Bool}
    (h : s.Mirrors u)
    (hReads : u.Reads ts u₁)
    (hNext : s₁.Mirrors u₁)
    (hSpells : Phrase.unmarkedType.Spells ts [n])
    (hSkip : Parser.skip .bang s₁ = .ok (b, s')) :
    ∃ n' u' ts',
      Node.Reading.marked u.head.start n u₁ = (n', u') ∧
        u.Reads ts' u' ∧ s'.Mirrors u' ∧
        Phrase.typeRef.Spells ts' [n'] := by
  unfold Node.Reading.marked
  rw [Node.Reading.bind_apply, Node.Reading.skip_apply,
    hNext.head_kind]
  rcases Parser.skip_ok.mp hSkip with
    ⟨hBang, rfl, rfl⟩ | ⟨hOther, rfl, rfl⟩
  · have hKind : u₁.head.kind = .bang := by
      rw [hNext.head_kind, hBang]
    have hReads' := hReads.trans (hNext.reads hBang)
    refine ⟨_, u₁.tail, _, ?_, hReads', hNext.tail,
      .nonNull hSpells hKind⟩
    rw [if_pos hBang]
    exact Node.Reading.close_apply h hReads' (by simp) _
  · refine ⟨n, u₁, ts, ?_, hReads, hNext,
      .nullable hSpells⟩
    rw [if_neg hOther]
    rfl

/- A type reference that is a name. -/
theorem namedTypeRef_agrees
    (h : s.Mirrors u) :
    AgreesAt namedTypeRef
      (do
        let start ← Node.Reading.start
        Node.Reading.marked start (← Node.Reading.namedType))
      one .typeRef s u := by
  intro a s' hRun
  simp only [namedTypeRef, Parser.bind_ok, Parser.peek_ok,
    Parser.place_ok, Parser.name_ok, Parser.pure_ok] at hRun
  rcases hRun with
    ⟨t, s₁, ⟨rfl, rfl⟩, l, s₂, ⟨rfl, rfl⟩, v, s₃,
      ⟨hName, rfl, rfl⟩, b, s₄, hSkip, rfl, rfl⟩
  rcases namedType_reads h hName with
    ⟨n, hRead, hReads, hSpells⟩
  rcases marked_agrees h hReads h.tail (.plainType hSpells)
      hSkip with
    ⟨n', u', ts, hMarked, hReads', hNext, hSpells'⟩
  refine ⟨n', u', ts, ?_, hReads', hNext, hSpells'⟩
  rw [Node.Reading.bind_apply, Node.Reading.start_apply,
    Node.Reading.bind_apply, hRead]
  exact hMarked

/- Type references agree at every depth. -/
theorem typeRefWithin_agrees
    (depth : Nat)
    (h : s.Mirrors u) :
    AgreesAt (typeRefWithin depth)
      (Node.Reading.typeRefWithin depth) one .typeRef s u := by
  induction depth generalizing s u with
  | zero => exact namedTypeRef_agrees h
  | succ depth ih =>
      intro a s' hRun
      simp only [typeRefWithin, Parser.bind_ok,
        Parser.skip_ok] at hRun
      unfold Node.Reading.typeRefWithin
      rw [Node.Reading.bind_apply, Node.Reading.start_apply,
        Node.Reading.bind_apply, Node.Reading.skip_apply,
        h.head_kind]
      rcases hRun with
        ⟨b, s₁, ⟨hOpen, rfl, rfl⟩ | ⟨hOther, rfl, rfl⟩, hRun⟩
      · simp only [if_true, Parser.bind_ok, Parser.peek_ok,
          Parser.place_ok, Parser.expect_ok, Parser.skip_ok,
          Parser.pure_ok] at hRun
        rcases hRun with
          ⟨t, s₁, ⟨rfl, rfl⟩, l, s₂, ⟨rfl, rfl⟩, e, s₃,
            hElement, c, s₄, ⟨hClose, rfl, rfl⟩, b, s₅,
            hSkip, rfl, rfl⟩
        rcases ih h.tail e s₃ hElement with
          ⟨n, u₁, ts, hRead, hReads, hNext, hSpells⟩
        have hKind : u.head.kind = .bracketL := by
          rw [h.head_kind, hOpen]
        have hKind' : u₁.head.kind = .bracketR := by
          rw [hNext.head_kind, hClose]
        have hReads' :=
          (h.reads hOpen).trans
            (hReads.trans (hNext.reads hClose))
        rcases marked_agrees h hReads' hNext.tail
            (.listType hKind hSpells hKind')
            (Parser.skip_ok.mpr hSkip) with
          ⟨n', u', ts', hMarked, hReads'', hLast, hSpells'⟩
        refine ⟨n', u', ts', ?_, hReads'', hLast, hSpells'⟩
        rw [if_pos hOpen]
        simp only [if_true]
        rw [Node.Reading.bind_apply, hRead,
          Node.Reading.bind_apply, Node.Reading.next_apply,
          Node.Reading.bind_apply,
          Node.Reading.close_apply h hReads' (by simp)]
        exact hMarked
      · rw [if_neg hOther]
        exact namedTypeRef_agrees h a s' hRun

/- Type references agree. -/
theorem typeRef_agrees
    (h : s.Mirrors u) :
    AgreesAt typeRef Node.Reading.typeRef one .typeRef
      s u := by
  intro a s' hRun
  simp only [typeRef, Parser.bind_ok, Parser.get_ok] at hRun
  rcases hRun with ⟨t, s₁, ⟨rfl, rfl⟩, hRun⟩
  unfold Node.Reading.typeRef
  rw [Node.Reading.bind_apply, Node.Reading.get_apply,
    ← h.length_eq]
  exact typeRefWithin_agrees _ h a s' hRun

------------------------------------------------------------
-- Values
------------------------------------------------------------

/- A value that is a single token. -/
theorem scalarValue_ok
    {l : Literal}
    {s' : TokenStream}
    (hRun : scalarValue s = .ok (l, s')) :
    Phrase.IsScalar s.head ∧ s' = s.tail := by
  simp only [scalarValue, Parser.bind_ok,
    Parser.peek_ok] at hRun
  rcases hRun with ⟨t, s₁, ⟨rfl, rfl⟩, hRun⟩
  unfold Phrase.IsScalar
  cases hKind : s₁.head.kind
  case int | float | string | blockString =>
    simp only [hKind, Parser.bind_ok, Parser.next_ok,
      Parser.pure_ok] at hRun
    rcases hRun with ⟨t, s₂, ⟨rfl, rfl⟩, rfl, rfl⟩
    simp
  case name =>
    simp only [hKind, Parser.bind_ok, Parser.next_ok] at hRun
    rcases hRun with ⟨t, s₂, ⟨rfl, rfl⟩, hRun⟩
    split_ifs at hRun
    · rcases Parser.pure_ok.mp hRun with ⟨_, rfl⟩
      simp
    · rcases Parser.pure_ok.mp hRun with ⟨_, rfl⟩
      simp
  all_goals
    simp only [hKind, Parser.refuse_ok] at hRun

theorem scalarValue_agrees
    (constant : Bool)
    (h : s.Mirrors u) :
    AgreesAt scalarValue Node.Reading.scalarValue one
      (.value constant) s u := by
  intro a s' hRun
  rcases scalarValue_ok hRun with ⟨hScalar, rfl⟩
  have hAhead : u.ahead ≠ [] := by
    apply h.ahead_ne_nil
    · intro hKind
      simp [Phrase.IsScalar, hKind] at hScalar
    · intro hKind
      simp [Phrase.IsScalar, hKind] at hScalar
  have hReads := TokenStream.reads_head hAhead
  have hScalar' : Phrase.IsScalar u.head := by
    unfold Phrase.IsScalar
    rw [h.head_kind]
    exact hScalar
  refine ⟨_, u.tail, _, ?_, hReads, h.tail,
    .scalar hScalar'⟩
  exact Node.Reading.close_apply h hReads (by simp) _

/- A variable is a dollar sign and a name. -/
theorem variableUse_reads
    (h : s.Mirrors u)
    (hDollar : s.head.kind = .dollar)
    (hName : s.tail.head.kind = .name) :
    ∃ n,
      Node.Reading.variableUse u = (n, u.tail.tail) ∧
        u.Reads [u.head, u.tail.head] u.tail.tail ∧
        Phrase.variableUse.Spells
          [u.head, u.tail.head] [n] := by
  have hReads := (h.reads hDollar).trans (h.tail.reads hName)
  have hKind : u.head.kind = .dollar := by
    rw [h.head_kind, hDollar]
  have hKind' : u.tail.head.kind = .name := by
    rw [h.tail.head_kind, hName]
  refine ⟨_, ?_, hReads, .variableUse hKind hKind'⟩
  unfold Node.Reading.variableUse
  simp only [Node.Reading.bind_apply,
    Node.Reading.start_apply, Node.Reading.next_apply,
    Node.Reading.name_apply]
  rw [Node.Reading.close_apply h hReads (by simp)]
  rfl

/- A name, a colon and a value on which both agree. -/
theorem entry_agrees
    {g : Parser α}
    {r : Node.Reading Node}
    {constant : Bool}
    {s' : TokenStream}
    {a : α}
    {kind : Node.Kind}
    (hEntry : kind ∈ Node.Kind.entries)
    (hValue :
      ∀ s u : TokenStream, s.Mirrors u →
        AgreesAt g r one (.value constant) s u)
    (h : s.Mirrors u)
    (hName : s.head.kind = .name)
    (hColon : s.tail.head.kind = .colon)
    (hRun : g s.tail.tail = .ok (a, s')) :
    ∃ n u' ts,
      Node.Reading.namedValue kind r u = (n, u') ∧
        u.Reads ts u' ∧ s'.Mirrors u' ∧
        (Phrase.entry kind constant).Spells ts [n] := by
  rcases hValue _ _ h.tail.tail a s' hRun with
    ⟨n, u', ts, hRead, hReads, hNext, hSpells⟩
  have hReads' :
      u.Reads (u.head :: u.tail.head :: ts) u' :=
    (h.reads hName).trans
      ((h.tail.reads hColon).trans hReads)
  have hKind : u.head.kind = .name := by
    rw [h.head_kind, hName]
  have hKind' : u.tail.head.kind = .colon := by
    rw [h.tail.head_kind, hColon]
  refine ⟨_, u', _, ?_, hReads', hNext,
    .entry hEntry hKind hKind' hSpells⟩
  unfold Node.Reading.namedValue
  simp only [Node.Reading.bind_apply,
    Node.Reading.start_apply, Node.Reading.name_apply,
    Node.Reading.skip_apply, if_pos hKind', hRead]
  exact Node.Reading.close_apply h hReads' (by simp) _

/- A list that is opened goes on with its items. -/
theorem list_ok
    {opening close : Token.Kind}
    {g : Parser α}
    {as : List α}
    {s' : TokenStream}
    (hOpen : s.head.kind = opening)
    (hRun : Parser.list opening close g s = .ok (as, s')) :
    Parser.itemsUntil close g s.tail = .ok (as, s') := by
  simp only [Parser.list, Parser.bind_ok,
    Parser.skip_ok] at hRun
  rcases hRun with
    ⟨b, s₁, ⟨_, rfl, rfl⟩ | ⟨hOther, _, _⟩, hRun⟩
  · exact hRun
  · exact absurd hOpen hOther

/- Brackets around items that both read. -/
theorem bracketed_agrees
    {opening close : Token.Kind}
    {g : Parser α}
    {r : Node.Reading Node}
    {p : Phrase}
    {as : List α}
    {s' : TokenStream}
    (hMark :
      (opening ≠ .eof ∧ opening ≠ .invalid) ∧
        close ≠ .eof ∧ close ≠ .invalid)
    (hItem :
      ∀ s u : TokenStream, s.Mirrors u →
        AgreesAt g r one p s u)
    (h : s.Mirrors u)
    (hOpen : s.head.kind = opening)
    (hRun :
      Parser.itemsUntil close g s.tail = .ok (as, s'))
    (n : List Node → Node) :
    ∃ ns u' ts c,
      (do
        let _ ← TokenStream.next
        let items ← Node.Reading.itemsUntil close r
        Node.Reading.close u.head.start (n items) :
          Node.Reading Node) u =
          ((n ns).over (u.head :: ts ++ [c]), u') ∧
        u.Reads (u.head :: ts ++ [c]) u' ∧
        u.head.kind = opening ∧ c.kind = close ∧
        s'.Mirrors u' ∧
        (s.tail.head.kind ≠ close → ns ≠ []) ∧
        (Phrase.many p).Spells ts ns := by
  rcases itemsUntil_agrees hMark.2
      (fun s u hMirrors _ => hItem s u hMirrors)
      h.tail hRun with
    ⟨ns, u', ts, c, hRead, hReads, hClose, hNext, hSome,
      hSpells⟩
  have hReads' : u.Reads (u.head :: ts ++ [c]) u' :=
    (h.reads hOpen hMark.1).trans hReads
  have hKind : u.head.kind = opening := by
    rw [h.head_kind, hOpen]
  refine ⟨ns, u', ts, c, ?_, hReads', hKind, hClose, hNext,
    hSome, hSpells⟩
  simp only [Node.Reading.bind_apply,
    Node.Reading.next_apply, hRead]
  exact Node.Reading.close_apply h hReads' (by simp) _

/- Values agree at every depth. -/
theorem valueWithin_agrees
    (constant : Bool)
    (depth : Nat)
    (h : s.Mirrors u) :
    AgreesAt (valueWithin constant depth)
      (Node.Reading.valueWithin depth) one
      (.value constant) s u := by
  induction depth generalizing s u with
  | zero => exact scalarValue_agrees constant h
  | succ depth ih =>
      intro a s' hRun
      simp only [valueWithin, Parser.bind_ok,
        Parser.peek_ok] at hRun
      rcases hRun with ⟨t, s₁, ⟨rfl, rfl⟩, hRun⟩
      have hHead := h.head_kind
      cases hKind : s₁.head.kind
      case bracketL =>
        rw [hKind] at hHead
        simp only [hKind, Parser.bind_ok,
          Parser.pure_ok] at hRun
        rcases hRun with ⟨items, s₂, hItems, rfl, rfl⟩
        rcases bracketed_agrees (by decide)
            (fun s u hMirrors => ih hMirrors) h hKind
            (list_ok hKind hItems)
            (fun ns =>
              { kind := .listValue, children := ns }) with
          ⟨ns, u', ts, c, hRead, hReads, hOpen, hClose,
            hNext, _, hSpells⟩
        refine ⟨_, u', _, ?_, hReads, hNext,
          .list hOpen hSpells hClose⟩
        simp only [Node.Reading.valueWithin,
          Node.Reading.bind_apply, Node.Reading.start_apply,
          Node.Reading.peek_apply, hHead]
        exact hRead
      case braceL =>
        rw [hKind] at hHead
        simp only [hKind, Parser.bind_ok,
          Parser.pure_ok] at hRun
        rcases hRun with ⟨items, s₂, hItems, rfl, rfl⟩
        have hItem :
            ∀ s u : TokenStream, s.Mirrors u →
              AgreesAt
                (do
                  let _ ← Parser.name
                  let _ ← Parser.expect .colon
                  valueWithin constant depth)
                (Node.Reading.namedValue .objectField
                  (Node.Reading.valueWithin depth))
                one (.entry .objectField constant) s u := by
          intro s u hMirrors a s' hRun
          simp only [Parser.bind_ok, Parser.name_ok,
            Parser.expect_ok] at hRun
          rcases hRun with
            ⟨v, s₁, ⟨hName, rfl, rfl⟩, t, s₂,
              ⟨hColon, rfl, rfl⟩, hRun⟩
          exact entry_agrees (by decide)
            (fun s u hMirrors => ih hMirrors)
            hMirrors hName hColon hRun
        rcases bracketed_agrees (by decide) hItem h hKind
            (list_ok hKind hItems)
            (fun ns =>
              { kind := .objectValue, children := ns }) with
          ⟨ns, u', ts, c, hRead, hReads, hOpen, hClose,
            hNext, _, hSpells⟩
        refine ⟨_, u', _, ?_, hReads, hNext,
          .object hOpen hSpells hClose⟩
        simp only [Node.Reading.valueWithin,
          Node.Reading.bind_apply, Node.Reading.start_apply,
          Node.Reading.peek_apply, hHead]
        exact hRead
      case dollar =>
        rw [hKind] at hHead
        simp only [hKind] at hRun
        split_ifs at hRun with hConstant
        · exact absurd hRun (by simp [Parser.unexpected_ok])
        · simp only [Parser.bind_ok, Parser.next_ok,
            Parser.name_ok, Parser.pure_ok] at hRun
          rcases hRun with
            ⟨t, s₂, ⟨rfl, rfl⟩, v, s₃, ⟨hName, rfl, rfl⟩,
              rfl, rfl⟩
          rcases variableUse_reads h hKind hName with
            ⟨n, hRead, hReads, hSpells⟩
          have hFree : constant = false := by
            simpa using hConstant
          subst hFree
          refine ⟨n, _, _, ?_, hReads, h.tail.tail,
            .reference hSpells⟩
          simp only [Node.Reading.valueWithin,
            Node.Reading.bind_apply,
            Node.Reading.start_apply,
            Node.Reading.peek_apply, hHead]
          exact hRead
      all_goals
        rw [hKind] at hHead
        simp only [hKind] at hRun
        simp only [Node.Reading.valueWithin,
          Node.Reading.bind_apply, Node.Reading.start_apply,
          Node.Reading.peek_apply, hHead]
        exact scalarValue_agrees constant h a s' hRun

/- Values agree. -/
theorem value_agrees
    (constant : Bool)
    (h : s.Mirrors u) :
    AgreesAt (value constant) Node.Reading.value one
      (.value constant) s u := by
  intro a s' hRun
  simp only [value, Parser.bind_ok, Parser.get_ok] at hRun
  rcases hRun with ⟨t, s₁, ⟨rfl, rfl⟩, hRun⟩
  unfold Node.Reading.value
  rw [Node.Reading.bind_apply, Node.Reading.get_apply,
    ← h.length_eq]
  exact valueWithin_agrees constant _ h a s' hRun

------------------------------------------------------------
-- Arguments, Directives and Variables
------------------------------------------------------------

theorem argument_agrees
    (h : s.Mirrors u) :
    AgreesAt (argument false)
      (Node.Reading.namedValue .argument Node.Reading.value)
      one (.entry .argument false) s u := by
  intro a s' hRun
  simp only [argument, Parser.bind_ok, Parser.peek_ok,
    Parser.place_ok, Parser.name_ok, Parser.expect_ok,
    Parser.pure_ok] at hRun
  rcases hRun with
    ⟨t, s₁, ⟨rfl, rfl⟩, l, s₂, ⟨rfl, rfl⟩, v, s₃,
      ⟨hName, rfl, rfl⟩, c, s₄, ⟨hColon, rfl, rfl⟩, w, s₅,
      hValue, rfl, rfl⟩
  exact entry_agrees (by decide)
    (fun s u hMirrors => value_agrees false hMirrors)
    h hName hColon hValue

theorem arguments_agree
    (h : s.Mirrors u) :
    AgreesAt (arguments false) Node.Reading.arguments id
      .arguments s u :=
  parenthesised_agrees
    (fun _ _ hMirrors => argument_agrees hMirrors) h

/- A directive is read where its sign stands. -/
theorem directive_agrees
    (h : s.Mirrors u)
    (hAt : s.head.kind = .atSign) :
    AgreesAt (directive false) Node.Reading.directive one
      .directive s u := by
  intro a s' hRun
  simp only [directive, Parser.bind_ok, Parser.next_ok,
    Parser.peek_ok, Parser.place_ok, Parser.name_ok,
    Parser.pure_ok] at hRun
  rcases hRun with
    ⟨t, s₁, ⟨rfl, rfl⟩, v, s₂, ⟨rfl, rfl⟩, l, s₃,
      ⟨rfl, rfl⟩, w, s₄, ⟨hName, rfl, rfl⟩, as, s₅,
      hArguments, rfl, rfl⟩
  rcases arguments_agree h.tail.tail as s' hArguments with
    ⟨ns, u', ts, hRead, hReads, hNext, hSpells⟩
  have hReads' :
      u.Reads (u.head :: u.tail.head :: ts) u' :=
    (h.reads hAt).trans ((h.tail.reads hName).trans hReads)
  have hKind : u.head.kind = .atSign := by
    rw [h.head_kind, hAt]
  have hKind' : u.tail.head.kind = .name := by
    rw [h.tail.head_kind, hName]
  refine ⟨_, u', _, ?_, hReads', hNext,
    .directive hKind hKind' hSpells⟩
  simp only [Node.Reading.directive,
    Node.Reading.bind_apply, Node.Reading.start_apply,
    Node.Reading.next_apply, Node.Reading.name_apply, hRead]
  exact Node.Reading.close_apply h hReads' (by simp) _

theorem directives_agree
    (h : s.Mirrors u) :
    AgreesAt (directives false) Node.Reading.directives id
      .directives s u := by
  intro as s' hRun
  rcases readWhile_agrees (fun t => decide (t.kind = .atSign))
      (by
        intro t v hKind _ hStart
        simpa [hKind] using hStart)
      (by
        intro t v hKind hEnd
        simpa [hKind] using hEnd)
      (by
        intro s u hMirrors hStart
        exact directive_agrees hMirrors
          (by simpa using hStart))
      h hRun with
    ⟨ns, u', ts, hIterates, hReads, hNext, _, _, hSpells⟩
  exact ⟨ns, u', ts, hIterates.readWhile_eq, hReads, hNext,
    hSpells⟩

/- The default of a variable, if it has one. -/
theorem initial_agrees
    (h : s.Mirrors u) :
    AgreesAt initial Node.Reading.initial id
      (.optional .initial) s u := by
  intro a s' hRun
  simp only [initial, Parser.bind_ok,
    Parser.skip_ok] at hRun
  unfold Node.Reading.initial
  rw [Node.Reading.bind_apply, Node.Reading.skip_apply,
    h.head_kind]
  rcases hRun with
    ⟨b, s₁, ⟨hEquals, rfl, rfl⟩ | ⟨hOther, rfl, rfl⟩, hRun⟩
  · simp only [if_true, Parser.bind_ok,
      Parser.pure_ok] at hRun
    rcases hRun with ⟨w, s₂, hValue, _, rfl⟩
    rcases value_agrees true h.tail w s' hValue with
      ⟨n, u', ts, hRead, hReads, hNext, hSpells⟩
    have hKind : u.head.kind = .equals := by
      rw [h.head_kind, hEquals]
    refine ⟨[n], u', u.head :: ts, ?_,
      (h.reads hEquals).trans hReads, hNext,
      .present (.initial hKind hSpells)⟩
    rw [if_pos hEquals]
    simp only [if_true, Node.Reading.bind_apply, hRead]
    rfl
  · rcases Parser.pure_ok.mp hRun with ⟨rfl, rfl⟩
    refine ⟨[], u, [], ?_, Reads.refl u, h, .absent⟩
    rw [if_neg hOther]
    rfl

theorem variableDefinition_agrees
    (h : s.Mirrors u) :
    AgreesAt variableDefinition
      Node.Reading.variableDefinition one
      .variableDefinition s u := by
  intro a s' hRun
  simp only [variableDefinition, Parser.bind_ok,
    Parser.expect_ok, Parser.pure_ok] at hRun
  rcases hRun with
    ⟨d, s₁, ⟨hDollar, rfl, rfl⟩, t, s₂, ⟨hName, rfl, rfl⟩,
      c, s₃, ⟨hColon, rfl, rfl⟩, l, s₄, hType, i, s₅,
      hInitial, ds, s₆, hDirectives, _, rfl⟩
  rcases variableUse_reads h hDollar hName with
    ⟨v, hRead, hReads, hSpells⟩
  have hNext := h.tail.tail
  have hKind : u.tail.tail.head.kind = .colon := by
    rw [hNext.head_kind, hColon]
  rcases typeRef_agrees hNext.tail l s₄ hType with
    ⟨n, u₁, ts, hRead₁, hReads₁, hNext₁, hSpells₁⟩
  rcases initial_agrees hNext₁ i s₅ hInitial with
    ⟨ins, u₂, is, hRead₂, hReads₂, hNext₂, hSpells₂⟩
  rcases directives_agree hNext₂ ds s' hDirectives with
    ⟨dns, u', us, hRead₃, hReads₃, hNext₃, hSpells₃⟩
  have hReads' :
      u.Reads
        ([u.head, u.tail.head] ++
          u.tail.tail.head :: (ts ++ (is ++ us))) u' :=
    hReads.trans ((hNext.reads hColon).trans
      (hReads₁.trans (hReads₂.trans hReads₃)))
  refine ⟨_, u', _, ?_, hReads', hNext₃,
    .variableDefinition hSpells hKind hSpells₁ hSpells₂
      hSpells₃⟩
  simp only [Node.Reading.variableDefinition,
    Node.Reading.bind_apply, Node.Reading.start_apply, hRead,
    Node.Reading.skip_apply, if_pos hKind, hRead₁, hRead₂,
    hRead₃]
  exact Node.Reading.close_apply h hReads' (by simp) _

theorem variableDefinitions_agree
    (h : s.Mirrors u) :
    AgreesAt variableDefinitions
      Node.Reading.variableDefinitions id
      .variableDefinitions s u := by
  intro a s' hRun
  simp only [variableDefinitions, Parser.bind_ok,
    Parser.pure_ok] at hRun
  rcases hRun with ⟨items, s₁, hRun, _, rfl⟩
  exact parenthesised_agrees
    (fun _ _ hMirrors => variableDefinition_agrees hMirrors)
    h items s' hRun

------------------------------------------------------------
-- Selections
------------------------------------------------------------

/- A name of a field, and an alias before it. -/
theorem fieldName_agrees
    {a : Unit}
    {s' : TokenStream}
    (h : s.Mirrors u)
    (hRun : fieldName s = .ok (a, s')) :
    ∃ aliasName t u' ts,
      Node.Reading.fieldName u =
          ((aliasName, t.value, t.span), u') ∧
        u.Reads ts u' ∧ s'.Mirrors u' ∧ t.kind = .name ∧
        ((ts = [t] ∧ aliasName = "") ∨
          ∃ a c, ts = [a, c, t] ∧ a.kind = .name ∧
            c.kind = .colon ∧ aliasName = a.value) := by
  simp only [fieldName, Parser.bind_ok, Parser.expect_ok,
    Parser.skip_ok] at hRun
  rcases hRun with
    ⟨t, s₁, ⟨hName, rfl, rfl⟩, b, s₂,
      ⟨hColon, rfl, rfl⟩ | ⟨hOther, rfl, rfl⟩, hRun⟩
  · simp only [if_true, Parser.bind_ok, Parser.expect_ok,
      Parser.pure_ok] at hRun
    rcases hRun with ⟨v, s₃, ⟨hField, rfl, rfl⟩, _, rfl⟩
    have hKind : u.head.kind = .name := by
      rw [h.head_kind, hName]
    have hKind' : u.tail.head.kind = .colon := by
      rw [h.tail.head_kind, hColon]
    have hReads :=
      (h.reads hName).trans ((h.tail.reads hColon).trans
        (h.tail.tail.reads hField))
    refine ⟨u.head.value, u.tail.tail.head, _, _, ?_, hReads,
      h.tail.tail.tail, ?_,
      .inr ⟨u.head, u.tail.head, rfl, hKind, hKind', rfl⟩⟩
    · simp only [Node.Reading.fieldName,
        Node.Reading.bind_apply, Node.Reading.name_apply,
        Node.Reading.skip_apply, if_pos hKind']
      rfl
    · rw [h.tail.tail.head_kind, hField]
  · rcases Parser.pure_ok.mp hRun with ⟨_, rfl⟩
    have hKind' : u.tail.head.kind ≠ .colon := by
      rw [h.tail.head_kind]
      exact hOther
    refine ⟨"", u.head, _, _, ?_, h.reads hName, h.tail, ?_,
      .inl ⟨rfl, rfl⟩⟩
    · simp only [Node.Reading.fieldName,
        Node.Reading.bind_apply, Node.Reading.name_apply,
        Node.Reading.skip_apply, if_neg hKind']
      rfl
    · rw [h.head_kind, hName]

/-
  What both do with nested selections: they agree where there
  are any, and the reading takes nothing where there are none.
-/
structure Nests
    (g : Parser Unit)
    (r : Node.Reading (Option Node)) : Prop where
  agrees :
    ∀ (s u s' : TokenStream) (a : Unit), s.Mirrors u →
      g s = .ok (a, s') →
      ∃ n u' ts,
        r u = (some n, u') ∧ u.Reads ts u' ∧
          s'.Mirrors u' ∧ Phrase.selectionSet.Spells ts [n]
  absent :
    ∀ u : TokenStream, u.head.kind ≠ .braceL →
      r u = (none, u)

/- Nested selections that need not be there. -/
theorem Nests.optional
    {g : Parser Unit}
    {r : Node.Reading (Option Node)}
    (hNests : Nests g r)
    (h : s.Mirrors u) :
    AgreesAt
      (do
        if (← Parser.peek).kind = .braceL then
          g)
      r Option.toList (.optional .selectionSet) s u := by
  intro a s' hRun
  simp only [Parser.bind_ok, Parser.peek_ok] at hRun
  rcases hRun with ⟨t, s₁, ⟨rfl, rfl⟩, hRun⟩
  split_ifs at hRun with hOpen
  · rcases hNests.agrees s₁ u s' a h hRun with
      ⟨n, u', ts, hRead, hReads, hNext, hSpells⟩
    exact ⟨some n, u', ts, hRead, hReads, hNext,
      .present hSpells⟩
  · rcases Parser.pure_ok.mp hRun with ⟨_, rfl⟩
    refine ⟨none, u, [], ?_, Reads.refl u, h, .absent⟩
    apply hNests.absent
    rw [h.head_kind]
    exact hOpen

theorem field_agrees
    {g : Parser Unit}
    {r : Node.Reading (Option Node)}
    (hNests : Nests g r)
    (h : s.Mirrors u) :
    AgreesAt (field g) (Node.Reading.field r) one .selection
      s u := by
  intro a s' hRun
  simp only [field] at hRun
  rcases Parser.bind_ok.mp hRun with ⟨b, s₁, hName, hRun⟩
  rcases Parser.bind_ok.mp hRun with ⟨as, s₂, hArgs, hRun⟩
  rcases Parser.bind_ok.mp hRun with ⟨ds, s₃, hDirs, hRun⟩
  rcases fieldName_agrees h hName with
    ⟨aliasName, t, u₁, ts, hRead, hReads, hNext, hKind,
      hShape⟩
  rcases arguments_agree hNext as s₂ hArgs with
    ⟨ans, u₂, us, hRead₁, hReads₁, hNext₁, hSpells₁⟩
  rcases directives_agree hNext₁ ds s₃ hDirs with
    ⟨dns, u₃, vs, hRead₂, hReads₂, hNext₂, hSpells₂⟩
  rcases hNests.optional hNext₂ a s' hRun with
    ⟨n, u', ws, hRead₃, hReads₃, hNext₃, hSpells₃⟩
  have hReads' :=
    hReads.trans (hReads₁.trans (hReads₂.trans hReads₃))
  have hSome : ts ++ (us ++ (vs ++ ws)) ≠ [] := by
    rcases hShape with ⟨rfl, _⟩ | ⟨_, _, rfl, _⟩
    · simp
    · simp
  have hRun :
      Node.Reading.field r u =
        (Node.over (ts ++ (us ++ (vs ++ ws)))
          { kind := .field
            name := t.value
            nameSpan := t.span
            aliasName := aliasName
            children := ans ++ dns ++ n.toList }, u') := by
    simp only [Node.Reading.field, Node.Reading.bind_apply,
      Node.Reading.start_apply, hRead, hRead₁, hRead₂,
      hRead₃]
    exact Node.Reading.close_apply h hReads' hSome _
  refine ⟨_, u', _, hRun, hReads', hNext₃, ?_⟩
  rcases hShape with ⟨rfl, rfl⟩ | ⟨x, c, rfl, hx, hc, rfl⟩
  · have hField := Phrase.Spells.field hKind hSpells₁
      hSpells₂ hSpells₃
    exact hField
  · have hField := Phrase.Spells.aliasedField hx hc hKind
      hSpells₁ hSpells₂ hSpells₃
    exact hField

/- The spread of a named fragment. -/
theorem fragmentSpread_agrees
    {ds : List DirectiveUse}
    {s' : TokenStream}
    (h : s.Mirrors u)
    (hSpread : s.head.kind = .spread)
    (hName : s.tail.head.kind = .name)
    (hWord : s.tail.head.value ≠ "on")
    (hRun : directives false s.tail.tail = .ok (ds, s')) :
    ∃ n u' ts,
      Node.Reading.fragmentSpread u.head.start u.tail =
          (n, u') ∧
        u.Reads ts u' ∧ s'.Mirrors u' ∧
        Phrase.selection.Spells ts [n] := by
  rcases directives_agree h.tail.tail ds s' hRun with
    ⟨dns, u', us, hRead, hReads, hNext, hSpells⟩
  have hReads' :
      u.Reads (u.head :: u.tail.head :: us) u' :=
    (h.reads hSpread).trans
      ((h.tail.reads hName).trans hReads)
  have hKind : u.head.kind = .spread := by
    rw [h.head_kind, hSpread]
  have hKind' : u.tail.head.kind = .name := by
    rw [h.tail.head_kind, hName]
  have hValue : u.tail.head.value ≠ "on" := by
    rw [h.tail.head_value]
    exact hWord
  refine ⟨_, u', _, ?_, hReads', hNext,
    .fragmentSpread hKind hKind' hValue hSpells⟩
  simp only [Node.Reading.fragmentSpread,
    Node.Reading.bind_apply, Node.Reading.name_apply, hRead]
  exact Node.Reading.close_apply h hReads' (by simp) _

/-
  The condition of a fragment is there exactly if the next
  token has the value `on`.
-/
theorem condition_agrees
    {a : Unit}
    {s' : TokenStream}
    (h : s.Mirrors u)
    (hRun : condition s = .ok (a, s')) :
    ∃ o u' ts,
      Node.Reading.condition u = (o, u') ∧
        u.Reads ts u' ∧ s'.Mirrors u' ∧
        ((o = none ∧ ts = []) ∨
          ∃ n t cs, o = some n ∧ ts = t :: cs ∧
            t.value = "on" ∧
            Phrase.namedType.Spells cs [n]) := by
  simp only [condition, Parser.bind_ok,
    Parser.peek_ok] at hRun
  rcases hRun with ⟨t, s₁, ⟨rfl, rfl⟩, hRun⟩
  unfold Node.Reading.condition
  rw [Node.Reading.bind_apply, Node.Reading.peek_apply]
  split_ifs at hRun with hOn
  · simp only [Parser.bind_ok, Parser.next_ok,
      Parser.expect_ok, Parser.pure_ok] at hRun
    rcases hRun with
      ⟨t, s₂, ⟨rfl, rfl⟩, v, s₃, ⟨hName, rfl, rfl⟩, _, rfl⟩
    have hValue : u.head.value = "on" := by
      rw [h.head_value, hOn]
    have hAhead : u.ahead ≠ [] :=
      h.ahead_ne_nil_of_value (by simp [hValue])
    rcases namedType_reads h.tail hName with
      ⟨n, hRead, hReads, hSpells⟩
    refine ⟨some n, u.tail.tail, _, ?_,
      (TokenStream.reads_head hAhead).trans hReads,
      h.tail.tail, .inr ⟨n, _, _, rfl, rfl, hValue, hSpells⟩⟩
    rw [if_pos hValue]
    simp only [Node.Reading.bind_apply,
      Node.Reading.next_apply, hRead]
    rfl
  · rcases Parser.pure_ok.mp hRun with ⟨_, rfl⟩
    have hValue : u.head.value ≠ "on" := by
      rw [h.head_value]
      exact hOn
    refine ⟨none, u, [], ?_, Reads.refl u, h,
      .inl ⟨rfl, rfl⟩⟩
    rw [if_neg hValue]
    rfl

theorem inlineFragment_agrees
    {g : Parser Unit}
    {r : Node.Reading (Option Node)}
    {s₁ s₂ s' : TokenStream}
    {ds : List DirectiveUse}
    {a c : Unit}
    (hNests : Nests g r)
    (h : s.Mirrors u)
    (hSpread : s.head.kind = .spread)
    (hCondition : condition s.tail = .ok (c, s₁))
    (hDirectives : directives false s₁ = .ok (ds, s₂))
    (hNested : g s₂ = .ok (a, s')) :
    ∃ n u' ts,
      Node.Reading.inlineFragment u.head.start r u.tail =
          (n, u') ∧
        u.Reads ts u' ∧ s'.Mirrors u' ∧
        Phrase.selection.Spells ts [n] := by
  rcases condition_agrees h.tail hCondition with
    ⟨o, u₁, ts, hRead, hReads, hNext, hShape⟩
  rcases directives_agree hNext ds s₂ hDirectives with
    ⟨dns, u₂, us, hRead₁, hReads₁, hNext₁, hSpells₁⟩
  rcases hNests.agrees s₂ u₂ s' a hNext₁ hNested with
    ⟨n, u', vs, hRead₂, hReads₂, hNext₂, hSpells₂⟩
  have hKind : u.head.kind = .spread := by
    rw [h.head_kind, hSpread]
  have hReads' : u.Reads (u.head :: (ts ++ (us ++ vs))) u' :=
    (h.reads hSpread).trans
      (hReads.trans (hReads₁.trans hReads₂))
  have hRun :
      Node.Reading.inlineFragment u.head.start r u.tail =
        (Node.over (u.head :: (ts ++ (us ++ vs)))
          { kind := .inlineFragment
            name := (o.map Node.name).getD ""
            nameSpan := (o.map Node.nameSpan).getD {}
            children := o.toList ++ dns ++ [n] }, u') := by
    simp only [Node.Reading.inlineFragment,
      Node.Reading.bind_apply, hRead, hRead₁, hRead₂]
    exact Node.Reading.close_apply h hReads' (by simp) _
  refine ⟨_, u', _, hRun, hReads', hNext₂, ?_⟩
  rcases hShape with
    ⟨rfl, rfl⟩ | ⟨m, t, cs, rfl, rfl, hOn, hSpells⟩
  · have hFragment := Phrase.Spells.inlineFragment hKind
      hSpells₁ hSpells₂
    exact hFragment
  · have hFragment := Phrase.Spells.typedFragment hKind hOn
      hSpells hSpells₁ hSpells₂
    exact hFragment

/- A selection is a fragment or a field. -/
theorem selection_agrees
    {g : Parser Unit}
    {r : Node.Reading (Option Node)}
    (hNests : Nests g r)
    (h : s.Mirrors u) :
    AgreesAt (selection g) (Node.Reading.selection r) one
      .selection s u := by
  intro a s' hRun
  simp only [selection, Parser.bind_ok,
    Parser.peek_ok] at hRun
  rcases hRun with ⟨t, s₁, ⟨rfl, rfl⟩, hRun⟩
  unfold Node.Reading.selection
  rw [Node.Reading.bind_apply, Node.Reading.peek_apply,
    h.head_kind]
  split_ifs at hRun with hSpread
  · rw [if_pos hSpread]
    simp only [fragment, Parser.bind_ok, Parser.expect_ok,
      Parser.peek_ok] at hRun
    rcases hRun with
      ⟨e, s₂, ⟨_, rfl, rfl⟩, t, s₃, ⟨rfl, rfl⟩, hRun⟩
    simp only [Node.Reading.bind_apply,
      Node.Reading.start_apply, Node.Reading.next_apply,
      Node.Reading.peek_apply, h.tail.head_kind,
      h.tail.head_value]
    split_ifs at hRun with hName
    · rw [if_pos hName]
      simp only [Bool.and_eq_true,
        decide_eq_true_eq] at hName
      simp only [Parser.bind_ok, Parser.next_ok,
        Parser.pure_ok] at hRun
      rcases hRun with
        ⟨v, s₄, ⟨rfl, rfl⟩, ds, s₅, hDirectives, _, rfl⟩
      exact fragmentSpread_agrees h hSpread hName.1 hName.2
        hDirectives
    · rw [if_neg hName]
      rcases Parser.bind_ok.mp hRun with
        ⟨c, s₄, hCondition, hRun⟩
      rcases Parser.bind_ok.mp hRun with
        ⟨ds, s₅, hDirectives, hNested⟩
      exact inlineFragment_agrees hNests h hSpread hCondition
        hDirectives hNested
  · rw [if_neg hSpread]
    exact field_agrees hNests h a s' hRun

/- Selections in braces agree at every depth. -/
theorem selectionSetWithin_nests
    (depth : Nat) :
    Nests (selectionSetWithin depth)
      (Node.Reading.selectionSetWithin depth) := by
  induction depth with
  | zero =>
      constructor
      · intro s u s' a h hRun
        simp only [selectionSetWithin, Parser.bind_ok,
          Parser.refuse_ok] at hRun
        rcases hRun with ⟨_, _, _, hFalse⟩
        exact hFalse.elim
      · intro u _
        rfl
  | succ depth ih =>
      constructor
      · intro s u s' a h hRun
        simp only [selectionSetWithin, Parser.bind_ok,
          Parser.peek_ok] at hRun
        rcases hRun with ⟨t, s₁, ⟨rfl, rfl⟩, hRun⟩
        split_ifs at hRun with hOpen
        · simp only [Parser.bind_ok, Parser.pure_ok] at hRun
          rcases hRun with ⟨items, s₂, hItems, _, rfl⟩
          have hList := (nonEmptyList_ok hItems).resolve_right
            fun hNone => hNone.1 hOpen
          rcases hList with ⟨_, hFirst, hItems'⟩
          rcases bracketed_agrees (by decide)
              (fun s u hMirrors =>
                selection_agrees ih hMirrors)
              h hOpen hItems'
              (fun ns =>
                { kind := .selectionSet
                  children := ns }) with
            ⟨ns, u', ts, c, hRead, hReads, hBrace, hClose,
              hNext, hSome, hSpells⟩
          refine ⟨_, u', _, ?_, hReads, hNext,
            .selectionSet hBrace hSpells (hSome hFirst)
              hClose⟩
          unfold Node.Reading.selectionSetWithin
          rw [Node.Reading.bind_apply,
            Node.Reading.start_apply,
            Node.Reading.bind_apply, Node.Reading.skip_apply,
            if_pos hBrace]
          have hResult := congrArg
            (fun x : Node × TokenStream => (some x.1, x.2))
            hRead
          exact hResult
        · exact absurd hRun (by simp [Parser.refuse_ok])
      · intro u hOther
        unfold Node.Reading.selectionSetWithin
        rw [Node.Reading.bind_apply,
          Node.Reading.start_apply, Node.Reading.bind_apply,
          Node.Reading.skip_apply, if_neg hOther]
        rfl

/- Selections in braces agree. -/
theorem selectionSet_agrees
    {s' : TokenStream}
    {a : Unit}
    (h : s.Mirrors u)
    (hRun : selectionSet s = .ok (a, s')) :
    ∃ n u' ts,
      Node.Reading.selectionSet u = (some n, u') ∧
        u.Reads ts u' ∧ s'.Mirrors u' ∧
        Phrase.selectionSet.Spells ts [n] := by
  simp only [selectionSet, Parser.bind_ok,
    Parser.get_ok] at hRun
  rcases hRun with ⟨t, s₁, ⟨rfl, rfl⟩, hRun⟩
  unfold Node.Reading.selectionSet
  rw [Node.Reading.bind_apply, Node.Reading.get_apply,
    ← h.length_eq]
  exact (selectionSetWithin_nests _).agrees _ _ _ _ h hRun

------------------------------------------------------------
-- Definitions
------------------------------------------------------------

/- An operation without a keyword. -/
theorem shorthand_agrees
    {s' : TokenStream}
    {a : Unit}
    (h : s.Mirrors u)
    (hOpen : s.head.kind = .braceL)
    (hRun : selectionSet s = .ok (a, s')) :
    ∃ n u' ts,
      Node.Reading.operationDefinition u = (n, u') ∧
        u.Reads ts u' ∧ s'.Mirrors u' ∧
        Phrase.definition.Spells ts [n] := by
  rcases selectionSet_agrees h hRun with
    ⟨n, u', ts, hRead, hReads, hNext, hSpells⟩
  have hKind : u.head.kind ≠ .name := by
    rw [h.head_kind, hOpen]
    decide
  refine ⟨_, u', ts, ?_, hReads, hNext, .shorthand hSpells⟩
  unfold Node.Reading.operationDefinition
  rw [Node.Reading.bind_apply, Node.Reading.start_apply,
    Node.Reading.bind_apply, Node.Reading.peek_apply,
    if_neg hKind, Node.Reading.bind_apply, hRead]
  exact Node.Reading.close_apply h hReads
    (hSpells.ne_nil (by simp)) _

/- The name of an operation, if it has one. -/
theorem operationName_agrees
    {s' : TokenStream}
    {a : Unit}
    (h : s.Mirrors u)
    (hRun : operationName s = .ok (a, s')) :
    ∃ (o : Option Token) (u' : TokenStream),
      Node.Reading.operationName u =
          ((o.map Token.value).getD "", u') ∧
        u.Reads o.toList u' ∧ s'.Mirrors u' ∧
        ∀ t ∈ o, t.kind = .name := by
  simp only [operationName, Parser.bind_ok,
    Parser.peek_ok] at hRun
  rcases hRun with ⟨t, s₁, ⟨rfl, rfl⟩, hRun⟩
  unfold Node.Reading.operationName
  rw [Node.Reading.bind_apply, Node.Reading.peek_apply]
  split_ifs at hRun with hName
  · simp only [Parser.bind_ok, Parser.next_ok,
      Parser.pure_ok] at hRun
    rcases hRun with ⟨t, s₂, ⟨rfl, rfl⟩, _, rfl⟩
    have hKind : u.head.kind = .name := by
      rw [h.head_kind, hName]
    refine ⟨some u.head, u.tail, ?_, h.reads hName, h.tail,
      by simpa using hKind⟩
    rw [if_pos hKind]
    rfl
  · rcases Parser.pure_ok.mp hRun with ⟨_, rfl⟩
    have hKind : u.head.kind ≠ .name := by
      rw [h.head_kind]
      exact hName
    refine ⟨none, u, ?_, Reads.refl u, h, by simp⟩
    rw [if_neg hKind]
    rfl

/- An operation that starts with its keyword. -/
theorem operationDefinition_agrees
    {s' : TokenStream}
    {a : Unit}
    {operation : Operation}
    (h : s.Mirrors u)
    (hName : s.head.kind = .name)
    (hOperation :
      Operation.ofKeyword? s.head.value = some operation)
    (hRun : operationDefinition s = .ok (a, s')) :
    ∃ n u' ts,
      Node.Reading.operationDefinition u = (n, u') ∧
        u.Reads ts u' ∧ s'.Mirrors u' ∧
        Phrase.definition.Spells ts [n] := by
  simp only [operationDefinition, Parser.bind_ok,
    Parser.next_ok] at hRun
  rcases hRun with
    ⟨t, s₁, ⟨rfl, rfl⟩, b, s₂, hOwn, c, s₃, hVariables, ds,
      s₄, hDirectives, hSelections⟩
  rcases operationName_agrees h.tail hOwn with
    ⟨o, u₁, hRead, hReads, hNext, hNames⟩
  rcases variableDefinitions_agree hNext c s₃ hVariables with
    ⟨vns, u₂, vs, hRead₁, hReads₁, hNext₁, hSpells₁⟩
  rcases directives_agree hNext₁ ds s₄ hDirectives with
    ⟨dns, u₃, us, hRead₂, hReads₂, hNext₂, hSpells₂⟩
  rcases selectionSet_agrees hNext₂ hSelections with
    ⟨n, u', ws, hRead₃, hReads₃, hNext₃, hSpells₃⟩
  have hKind : u.head.kind = .name := by
    rw [h.head_kind, hName]
  have hKeyword :
      Operation.ofKeyword? u.head.value = some operation := by
    rw [h.head_value, hOperation]
  have hReads' :
      u.Reads (u.head :: (o.toList ++ (vs ++ (us ++ ws))))
        u' :=
    (h.reads hName).trans (hReads.trans
      (hReads₁.trans (hReads₂.trans hReads₃)))
  refine ⟨_, u', _, ?_, hReads', hNext₃,
    .operation hKind hKeyword hNames hSpells₁ hSpells₂
      hSpells₃⟩
  unfold Node.Reading.operationDefinition
  rw [Node.Reading.bind_apply, Node.Reading.start_apply,
    Node.Reading.bind_apply, Node.Reading.peek_apply,
    if_pos hKind]
  simp only [Node.Reading.bind_apply,
    Node.Reading.next_apply, hRead, hRead₁, hRead₂, hRead₃,
    hKeyword]
  exact Node.Reading.close_apply h hReads' (by simp) _

/- The name of a fragment is not the word `on`. -/
theorem fragmentName_ok
    {a : Unit}
    {s' : TokenStream}
    (hRun : fragmentName s = .ok (a, s')) :
    s.head.kind = .name ∧ s.head.value ≠ "on" ∧
      s' = s.tail := by
  simp only [fragmentName, Parser.bind_ok,
    Parser.peek_ok] at hRun
  rcases hRun with ⟨t, s₁, ⟨rfl, rfl⟩, hRun⟩
  split_ifs at hRun with hOn
  · exact absurd hRun (by simp [Parser.unexpected_ok])
  · simp only [Parser.bind_ok, Parser.expect_ok,
      Parser.pure_ok] at hRun
    rcases hRun with ⟨t, s₂, ⟨hName, rfl, rfl⟩, _, rfl⟩
    exact ⟨hName, hOn, rfl⟩

theorem isWord_kind
    {t : Token}
    {text : String}
    (h : t.isWord text) :
    t.kind = .name := by
  simp only [Token.isWord, Bool.and_eq_true,
    decide_eq_true_eq] at h
  exact h.1

theorem isWord_of_mirrors
    {text : String}
    (h : s.Mirrors u)
    (hWord : s.head.isWord text) :
    u.head.isWord text := by
  unfold Token.isWord
  rw [h.head_kind, h.head_value]
  exact hWord

/- A fragment definition. -/
theorem fragmentDefinition_agrees
    (h : s.Mirrors u) :
    AgreesAt fragmentDefinition
      Node.Reading.fragmentDefinition one .definition
      s u := by
  intro a s' hRun
  simp only [fragmentDefinition, Parser.bind_ok,
    Parser.word_ok, Parser.expect_ok] at hRun
  rcases hRun with
    ⟨_, s₁, ⟨hKeyword, rfl⟩, _, s₂, hOwn, b, s₃, hVariables,
      _, s₄, ⟨hOn, rfl⟩, t, s₅, ⟨hCondition, rfl, rfl⟩, ds,
      s₆, hDirectives, hSelections⟩
  rcases fragmentName_ok hOwn with ⟨hName, hWord, rfl⟩
  rcases variableDefinitions_agree h.tail.tail b s₃
      hVariables with
    ⟨vns, u₁, vs, hRead₁, hReads₁, hNext₁, hSpells₁⟩
  rcases namedType_reads hNext₁.tail hCondition with
    ⟨condition, hRead₂, hReads₂, hSpells₂⟩
  rcases directives_agree hNext₁.tail.tail ds s₆
      hDirectives with
    ⟨dns, u₂, us, hRead₃, hReads₃, hNext₃, hSpells₃⟩
  rcases selectionSet_agrees hNext₃ hSelections with
    ⟨n, u', ws, hRead₄, hReads₄, hNext₄, hSpells₄⟩
  have hKind : u.tail.head.kind = .name := by
    rw [h.tail.head_kind, hName]
  have hValue : u.tail.head.value ≠ "on" := by
    rw [h.tail.head_value]
    exact hWord
  have hReads' :
      u.Reads
        (u.head :: u.tail.head ::
          (vs ++ u₁.head ::
            ([u₁.tail.head] ++ (us ++ ws)))) u' :=
    (h.reads (isWord_kind hKeyword)).trans
      ((h.tail.reads hName).trans (hReads₁.trans
        ((hNext₁.reads (isWord_kind hOn)).trans
          (hReads₂.trans (hReads₃.trans hReads₄)))))
  refine ⟨_, u', _, ?_, hReads', hNext₄,
    .fragmentDefinition (isWord_of_mirrors h hKeyword) hKind
      hValue hSpells₁ (isWord_of_mirrors hNext₁ hOn) hSpells₂
      hSpells₃ hSpells₄⟩
  simp only [Node.Reading.fragmentDefinition,
    Node.Reading.bind_apply, Node.Reading.start_apply,
    Node.Reading.next_apply, Node.Reading.name_apply, hRead₁,
    hRead₂, hRead₃, hRead₄]
  exact Node.Reading.close_apply h hReads' (by simp) _

/- A keyword of an operation does not start a fragment. -/
theorem not_isWord_fragment
    {t : Token}
    {operation : Operation}
    (h : Operation.ofKeyword? t.value = some operation) :
    ¬ t.isWord "fragment" := by
  intro hWord
  simp only [Token.isWord, Bool.and_eq_true,
    decide_eq_true_eq] at hWord
  rw [hWord.2] at h
  simp [Operation.ofKeyword?] at h

/- One definition of a document. -/
theorem definition_agrees
    (h : s.Mirrors u) :
    AgreesAt definition Node.Reading.definition one
      .definition s u := by
  intro a s' hRun
  simp only [definition, Parser.bind_ok,
    Parser.peek_ok] at hRun
  rcases hRun with ⟨t, s₁, ⟨rfl, rfl⟩, hRun⟩
  unfold Node.Reading.definition
  rw [Node.Reading.bind_apply, Node.Reading.peek_apply]
  cases hKind : s₁.head.kind
  case braceL =>
    simp only [hKind] at hRun
    have hOther : ¬ u.head.isWord "fragment" := by
      intro hWord
      have hName := isWord_kind hWord
      rw [h.head_kind, hKind] at hName
      exact absurd hName (by decide)
    rw [if_neg hOther]
    exact shorthand_agrees h hKind hRun
  case name =>
    simp only [hKind] at hRun
    split_ifs at hRun with hOperation hFragment
    · rcases Option.isSome_iff_exists.mp hOperation with
        ⟨operation, hKeyword⟩
      have hOther : ¬ u.head.isWord "fragment" := by
        apply not_isWord_fragment
        rw [h.head_value, hKeyword]
      rw [if_neg hOther]
      exact operationDefinition_agrees h hKind hKeyword hRun
    · have hWord : u.head.isWord "fragment" := by
        unfold Token.isWord
        rw [h.head_kind, h.head_value, hKind, hFragment]
        decide
      rw [if_pos hWord]
      exact fragmentDefinition_agrees h a s' hRun
    · exact absurd hRun (by simp [Parser.unexpected_ok])
  all_goals
    simp only [hKind, Parser.unexpected_ok] at hRun

/-
  A document that the grammar admits is read to its end: its
  definitions are spelled by all tokens there are, and none
  of them is read without taking a token.
-/
theorem check_spells
    (h : s.Mirrors u)
    (hCheck : check s = .ok ()) :
    ∃ ns u',
      Iterates (fun t => decide (t.kind ≠ .eof))
          Node.Reading.definition u ns u' ∧
        u'.ahead = [] ∧ u'.head.kind = .eof ∧
        u.last.kind = .eof ∧
        (Phrase.many .definition).Spells u.ahead ns := by
  have hDocument : ∃ s', document s = .ok ((), s') := by
    unfold check StateT.run' at hCheck
    cases hRun : document s with
    | error e =>
        rw [hRun] at hCheck
        cases hCheck
    | ok result => exact ⟨result.2, rfl⟩
  rcases hDocument with ⟨s', hDocument⟩
  simp only [document, Parser.bind_ok,
    Parser.pure_ok] at hDocument
  rcases hDocument with ⟨items, s₁, hItems, _, rfl⟩
  rcases readWhile_agrees (fun t => decide (t.kind ≠ .eof))
      (by
        intro t v hKind _ hStart
        simpa [hKind] using hStart)
      (by
        intro t v hKind hEnd
        simpa [hKind] using hEnd)
      (fun s u hMirrors _ => definition_agrees hMirrors)
      h hItems with
    ⟨ns, u', ts, hIterates, hReads, hNext, hEnd, _, hSpells⟩
  have hEof : u'.head.kind = .eof := by
    rw [hNext.head_kind]
    simpa using hEnd
  have hNil : u'.ahead = [] := by
    apply Decidable.byContradiction
    intro hSome
    exact hNext.head_kind_ne_eof hSome hEof
  have hLast : u.last.kind = .eof := by
    rw [← hReads.last, ← hEof]
    unfold TokenStream.head
    rw [hNil]
    rfl
  have hAll : u.ahead = ts := by
    rw [hReads.ahead, hNil, List.append_nil]
  rw [hAll]
  exact ⟨ns, u', hIterates, hNil, hEof, hLast, hSpells⟩

end Grammar

------------------------------------------------------------
-- Documents
------------------------------------------------------------

namespace Document

/- The tokens of a text. -/
abbrev tokens
    (text : List Char) : TokenStream :=
  TokenStream.ofText "input" text

/- A text is read only after the grammar admits it. -/
theorem parse_eq
    (text : List Char) :
    parse text =
      Grammar.check (tokens text) >>= fun _ =>
        .ok (Node.Reading.document text.length
          (tokens text)) :=
  rfl

/- A tree comes from tokens that the grammar admits. -/
theorem parse_eq_ok_iff
    {text : List Char}
    {root : Node} :
    parse text = .ok root ↔
      Grammar.check (tokens text) = .ok () ∧
        root =
          Node.Reading.document text.length (tokens text) := by
  rw [parse_eq]
  cases Grammar.check (tokens text) with
  | error e =>
      constructor
      · intro h
        cases h
      · rintro ⟨h, _⟩
        cases h
  | ok a =>
      constructor
      · intro h
        cases h
        exact ⟨rfl, rfl⟩
      · rintro ⟨_, rfl⟩
        rfl

/- The children of a tree are the definitions read. -/
theorem children_of_iterates
    {s u : TokenStream}
    {ns : List Node}
    (h :
      TokenStream.Iterates (fun t => decide (t.kind ≠ .eof))
        Node.Reading.definition s ns u)
    (length : Nat) :
    (Node.Reading.document length s).children = ns :=
  congrArg Prod.fst h.readWhile_eq

/- The definitions of a tree are spelled by all tokens. -/
theorem parse_spells
    {text : List Char}
    {root : Node}
    (h : parse text = .ok root) :
    root.kind = .document ∧
      root.span = ⟨0, text.length⟩ ∧
      (Phrase.many .definition).Spells (tokens text).ahead
        root.children := by
  rcases parse_eq_ok_iff.mp h with ⟨hCheck, rfl⟩
  rcases Grammar.check_spells
      (TokenStream.ofText_mirrors "input" text) hCheck with
    ⟨ns, u', hIterates, _, _, _, hSpells⟩
  rw [children_of_iterates hIterates]
  exact ⟨rfl, rfl, hSpells⟩

/- The tokens of a document are followed by its end. -/
theorem last_of_parse
    {text : List Char}
    {root : Node}
    (h : parse text = .ok root) :
    (tokens text).last.word = (.eof, "") ∧
      (tokens text).last.start = text.length ∧
      (tokens text).fault = none := by
  rcases parse_eq_ok_iff.mp h with ⟨hCheck, _⟩
  rcases Grammar.check_spells
      (TokenStream.ofText_mirrors "input" text) hCheck with
    ⟨_, _, _, _, _, hEof, _⟩
  rcases TokenStream.ofText_last "input" text with
    ⟨hValue, hEnd | hInvalid⟩
  · refine ⟨?_, hEnd.2.1, hEnd.2.2.2⟩
    rw [Token.word, hEof, hValue]
  · rw [hInvalid.1] at hEof
    cases hEof

end Document

end QueryHover
