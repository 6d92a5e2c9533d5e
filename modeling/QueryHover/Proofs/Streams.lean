import QueryHover.Grammar.Parser
import QueryHover.Proofs.Phrases
import QueryHover.Proofs.Scanning

/-
  Streams with the same words, and single moves on them.

  A parser and a reading of nodes each move along a stream.
  What a parser needs for one move that succeeds is stated
  here by its result, what a reading does by an equation.

  Main declarations:
    * `TokenStream.Mirrors`
    * `TokenStream.Reads`
    * `TokenStream.Iterates`
    * `Parser.bind_ok`
    * `Node.Reading.close_apply`
-/

namespace QueryHover

------------------------------------------------------------
-- Streams with the Same Words
------------------------------------------------------------

/- The kind and the value of a token. -/
abbrev Word :=
  Token.Kind × String

/- What a token says, wherever it stands. -/
def Token.word
    (t : Token) : Word :=
  (t.kind, t.value)

namespace TokenStream

/-
  Two streams with the same words ahead. The places of the
  second one are in order, and what follows its last token is
  a mark without a value.
-/
structure Mirrors
    (s u : TokenStream) : Prop where
  words : s.ahead.map Token.word = u.ahead.map Token.word
  last : s.last.word = u.last.word
  value : u.last.value = ""
  closed : u.last.kind = .eof ∨ u.last.kind = .invalid
  proper : ∀ t ∈ u.ahead, t.Proper
  between : ∃ hi, Token.Between u.readTo hi u.ahead

/- The tokens of a text mirror themselves. -/
theorem ofText_mirrors
    (file : String)
    (text : List Char) :
    (ofText file text).Mirrors (ofText file text) := by
  have hLast := ofText_last file text
  refine ⟨rfl, rfl, hLast.1, ?_, ?_, ?_⟩
  · rcases hLast.2 with hEnd | hInvalid
    · exact .inl hEnd.1
    · exact .inr hInvalid.1
  · intro t ht
    exact (ofText_proper file text ht).1
  · exact ⟨text.length, ofText_between file text⟩

/- Reading some tokens takes one stream to another. -/
structure Reads
    (u : TokenStream)
    (ts : List Token)
    (u' : TokenStream) : Prop where
  ahead : u.ahead = ts ++ u'.ahead
  readTo :
    u'.readTo = (ts.getLast?.map Token.stop).getD u.readTo
  last : u'.last = u.last

theorem Reads.refl
    (u : TokenStream) :
    u.Reads [] u :=
  ⟨rfl, rfl, rfl⟩

theorem Reads.trans
    {u v w : TokenStream}
    {ts us : List Token}
    (hLeft : u.Reads ts v)
    (hRight : v.Reads us w) :
    u.Reads (ts ++ us) w := by
  constructor
  · rw [hLeft.ahead, hRight.ahead, List.append_assoc]
  · rw [hRight.readTo, hLeft.readTo, List.getLast?_append]
    cases us.getLast? with
    | none => rfl
    | some t => rfl
  · exact hRight.last.trans hLeft.last

variable {s u : TokenStream}

namespace Mirrors

theorem head_word
    (h : s.Mirrors u) :
    s.head.word = u.head.word := by
  have hWords := h.words
  unfold head
  cases hs : s.ahead with
  | nil =>
      rw [hs] at hWords
      have hu : u.ahead = [] := by
        simpa using hWords.symm
      rw [hu]
      exact h.last
  | cons t ts =>
      rw [hs] at hWords
      cases hu : u.ahead with
      | nil =>
          rw [hu] at hWords
          simp at hWords
      | cons t' ts' =>
          rw [hu] at hWords
          simp only [List.map_cons, List.cons.injEq] at hWords
          exact hWords.1

theorem head_kind
    (h : s.Mirrors u) :
    u.head.kind = s.head.kind :=
  congrArg Prod.fst h.head_word.symm

theorem head_value
    (h : s.Mirrors u) :
    u.head.value = s.head.value :=
  congrArg Prod.snd h.head_word.symm

theorem length_eq
    (h : s.Mirrors u) :
    s.ahead.length = u.ahead.length := by
  have hLength := congrArg List.length h.words
  simpa using hLength

/- Both streams may go on by one token. -/
theorem tail
    (h : s.Mirrors u) :
    s.tail.Mirrors u.tail := by
  have hWords := h.words
  unfold TokenStream.tail
  cases hs : s.ahead with
  | nil =>
      rw [hs] at hWords
      have hu : u.ahead = [] := by
        simpa using hWords.symm
      rw [hu]
      exact h
  | cons t ts =>
      rw [hs] at hWords
      cases hu : u.ahead with
      | nil =>
          rw [hu] at hWords
          simp at hWords
      | cons t' ts' =>
          rw [hu] at hWords
          simp only [List.map_cons, List.cons.injEq] at hWords
          rcases h.between with ⟨hi, hBetween⟩
          rw [hu] at hBetween
          refine ⟨hWords.2, h.last, h.value, h.closed, ?_,
            hi, hBetween.2.2⟩
          intro x hx
          apply h.proper
          rw [hu]
          exact List.mem_cons_of_mem t' hx

/-
  The next token is there unless the mark that follows the
  last one has its kind.
-/
theorem ahead_ne_nil
    (h : s.Mirrors u)
    (hEof : s.head.kind ≠ .eof)
    (hInvalid : s.head.kind ≠ .invalid) :
    u.ahead ≠ [] := by
  intro hNil
  have hHead : u.head = u.last := by
    unfold head
    rw [hNil]
    rfl
  have hKind := h.head_kind
  rw [hHead] at hKind
  rcases h.closed with hClosed | hClosed
  · exact hEof (hKind.symm.trans hClosed)
  · exact hInvalid (hKind.symm.trans hClosed)

/- A token that has a value is there. -/
theorem ahead_ne_nil_of_value
    (h : s.Mirrors u)
    (hValue : u.head.value ≠ "") :
    u.ahead ≠ [] := by
  intro hNil
  apply hValue
  unfold head
  rw [hNil]
  exact h.value

end Mirrors

/- Reading the next token. -/
theorem reads_head
    (h : u.ahead ≠ []) :
    u.Reads [u.head] u.tail := by
  unfold head tail
  cases hu : u.ahead with
  | nil => exact absurd hu h
  | cons t ts => exact ⟨hu, rfl, rfl⟩

/- The next token of a kind that marks no end is there. -/
theorem Mirrors.reads
    (h : s.Mirrors u)
    {kind : Token.Kind}
    (hKind : s.head.kind = kind)
    (hMark : kind ≠ .eof ∧ kind ≠ .invalid := by decide) :
    u.Reads [u.head] u.tail := by
  apply reads_head
  apply h.ahead_ne_nil
  · rw [hKind]
    exact hMark.1
  · rw [hKind]
    exact hMark.2

/- The next token is the first of those that are read. -/
theorem Reads.head?_eq
    {u' : TokenStream}
    {ts : List Token}
    (h : u.Reads ts u')
    (hSome : ts ≠ []) :
    ts.head? = some u.head := by
  cases ts with
  | nil => exact absurd rfl hSome
  | cons t ts =>
      unfold head
      rw [h.ahead]
      rfl

/- Reading a token leaves fewer of them. -/
theorem Reads.length_lt
    {u' : TokenStream}
    {ts : List Token}
    (h : u.Reads ts u')
    (hSome : ts ≠ []) :
    u'.ahead.length < u.ahead.length := by
  rw [h.ahead, List.length_append]
  have hPos := List.length_pos_iff.mpr hSome
  omega

/- A token that is there is not the end of the text. -/
theorem Mirrors.head_kind_ne_eof
    (h : s.Mirrors u)
    (hAhead : u.ahead ≠ []) :
    u.head.kind ≠ .eof := by
  intro hKind
  have hMem : u.head ∈ u.ahead := by
    rw [(reads_head hAhead).ahead]
    simp
  have hProper := h.proper u.head hMem
  simp [Token.Proper, hKind] at hProper

end TokenStream

------------------------------------------------------------
-- Runs of the Grammar
------------------------------------------------------------

namespace Parser

variable {α β : Type}
variable {s s' : TokenStream}

theorem bind_ok
    {x : Parser α}
    {f : α → Parser β}
    {b : β} :
    (x >>= f) s = .ok (b, s') ↔
      ∃ a s₁, x s = .ok (a, s₁) ∧ f a s₁ = .ok (b, s') := by
  change (x s >>= fun r => f r.1 r.2) = .ok (b, s') ↔ _
  cases x s with
  | error e =>
      constructor
      · intro h
        cases h
      · rintro ⟨a, s₁, h, _⟩
        cases h
  | ok r =>
      constructor
      · intro h
        exact ⟨r.1, r.2, rfl, h⟩
      · rintro ⟨a, s₁, h, hf⟩
        cases h
        exact hf

theorem ok_eq_ok
    {a b : α} :
    (Except.ok (a, s) : Except SyntaxError _) =
        .ok (b, s') ↔
      b = a ∧ s' = s := by
  constructor
  · intro h
    cases h
    exact ⟨rfl, rfl⟩
  · rintro ⟨rfl, rfl⟩
    rfl

theorem pure_ok
    {a b : α} :
    (pure a : Parser α) s = .ok (b, s') ↔ b = a ∧ s' = s :=
  ok_eq_ok

theorem peek_ok
    {t : Token} :
    peek s = .ok (t, s') ↔ t = s.head ∧ s' = s :=
  ok_eq_ok

theorem next_ok
    {t : Token} :
    next s = .ok (t, s') ↔ t = s.head ∧ s' = s.tail :=
  ok_eq_ok

theorem get_ok
    {t : TokenStream} :
    (get : Parser TokenStream) s = .ok (t, s') ↔
      t = s ∧ s' = s :=
  ok_eq_ok

theorem place_ok
    {t : Token}
    {l : Location} :
    place t s = .ok (l, s') ↔
      l = t.location s.file ∧ s' = s :=
  ok_eq_ok

theorem refuse_ok
    {cause : SyntaxError.Cause}
    {t : Token}
    {a : α} :
    (refuse cause t : Parser α) s = .ok (a, s') ↔
      False := by
  constructor
  · intro h
    cases h
  · exact False.elim

theorem unexpected_ok
    {a : α} :
    (unexpected : Parser α) s = .ok (a, s') ↔ False := by
  constructor
  · intro h
    cases h
  · exact False.elim

theorem skip_ok
    {kind : Token.Kind}
    {b : Bool} :
    skip kind s = .ok (b, s') ↔
      (s.head.kind = kind ∧ b = true ∧ s' = s.tail) ∨
        (s.head.kind ≠ kind ∧ b = false ∧ s' = s) := by
  by_cases hKind : s.head.kind = kind
  · have hSkip : skip kind s = .ok (true, s.tail) := by
      change (if s.head.kind = kind then _ else _ :
        Parser Bool) s = _
      rw [if_pos hKind]
      rfl
    rw [hSkip, ok_eq_ok]
    simp [hKind]
  · have hSkip : skip kind s = .ok (false, s) := by
      change (if s.head.kind = kind then _ else _ :
        Parser Bool) s = _
      rw [if_neg hKind]
      rfl
    rw [hSkip, ok_eq_ok]
    simp [hKind]

theorem expect_ok
    {kind : Token.Kind}
    {t : Token} :
    expect kind s = .ok (t, s') ↔
      s.head.kind = kind ∧ t = s.head ∧ s' = s.tail := by
  by_cases hKind : s.head.kind = kind
  · have hExpect : expect kind s = .ok (s.head, s.tail) := by
      change (if s.head.kind = kind then _ else _ :
        Parser Token) s = _
      rw [if_pos hKind]
      rfl
    rw [hExpect, ok_eq_ok]
    simp [hKind]
  · have hExpect :
        expect kind s =
          (refuse (.expectedKind kind) s.head :
            Parser Token) s := by
      change (if s.head.kind = kind then _ else _ :
        Parser Token) s = _
      rw [if_neg hKind]
    rw [hExpect, refuse_ok]
    simp [hKind]

theorem name_ok
    {value : String} :
    Parser.name s = .ok (value, s') ↔
      s.head.kind = .name ∧ value = s.head.value ∧
        s' = s.tail := by
  unfold Parser.name
  simp only [bind_ok, expect_ok, pure_ok]
  constructor
  · rintro ⟨t, s₁, ⟨hKind, rfl, rfl⟩, rfl, rfl⟩
    exact ⟨hKind, rfl, rfl⟩
  · rintro ⟨hKind, rfl, rfl⟩
    exact ⟨_, _, ⟨hKind, rfl, rfl⟩, rfl, rfl⟩

theorem word_ok
    {text : String}
    {a : Unit} :
    word text s = .ok (a, s') ↔
      s.head.isWord text ∧ s' = s.tail := by
  by_cases hWord : s.head.isWord text
  · have hTake : word text s = .ok ((), s.tail) := by
      change (if s.head.isWord text then _ else _ :
        Parser Unit) s = _
      rw [if_pos hWord]
      rfl
    rw [hTake, ok_eq_ok]
    simp [hWord]
  · have hRefuse :
        word text s =
          (refuse (.expectedWord text) s.head :
            Parser Unit) s := by
      change (if s.head.isWord text then _ else _ :
        Parser Unit) s = _
      rw [if_neg hWord]
    rw [hRefuse, refuse_ok]
    simp [hWord]

end Parser

------------------------------------------------------------
-- Runs of the Reading
------------------------------------------------------------

namespace TokenStream

/-
  A repetition of items that each take a token, up to a token
  that starts no item.
-/
inductive Iterates
    {α : Type}
    (starts : Token → Bool)
    (item : Node.Reading α) :
    TokenStream → List α → TokenStream → Prop where
  | done
      {u : TokenStream}
      (hEnd : starts u.head = false) :
      Iterates starts item u [] u
  | step
      {u v w : TokenStream} {a : α} {as : List α}
      (hStart : starts u.head = true)
      (hItem : item u = (a, v))
      (hProgress : v.ahead.length < u.ahead.length)
      (hRest : Iterates starts item v as w) :
      Iterates starts item u (a :: as) w

/- Such a repetition is what `readWhile` yields. -/
theorem Iterates.readWhile_eq
    {α : Type}
    {starts : Token → Bool}
    {item : Node.Reading α}
    {u w : TokenStream}
    {as : List α}
    (h : Iterates starts item u as w) :
    (readWhile starts item : Node.Reading (List α)) u =
      (as, w) := by
  induction h with
  | done hEnd =>
      rw [readWhile, if_neg (by simp [hEnd])]
      rfl
  | @step u v w a as hStart hItem hProgress hRest ih =>
      rw [readWhile, if_pos hStart, hItem]
      change (if _h : v.ahead.length < u.ahead.length then _
        else _ : Id _) = _
      rw [dif_pos hProgress, ih]
      rfl

end TokenStream

namespace Node.Reading

open TokenStream (peek next skip readWhile)

variable {α β : Type}

theorem bind_apply
    (x : Reading α)
    (f : α → Reading β)
    (u : TokenStream) :
    (x >>= f) u = f (x u).1 (x u).2 :=
  rfl

theorem get_apply
    (u : TokenStream) :
    (get : Reading TokenStream) u = (u, u) :=
  rfl

theorem peek_apply
    (u : TokenStream) :
    (peek : Reading Token) u = (u.head, u) :=
  rfl

theorem next_apply
    (u : TokenStream) :
    (next : Reading Token) u = (u.head, u.tail) :=
  rfl

theorem start_apply
    (u : TokenStream) :
    start u = (u.head.start, u) :=
  rfl

theorem name_apply
    (u : TokenStream) :
    name u = ((u.head.value, u.head.span), u.tail) :=
  rfl

theorem skip_apply
    (kind : Token.Kind)
    (u : TokenStream) :
    (skip kind : Reading Bool) u =
      if u.head.kind = kind then (true, u.tail)
      else (false, u) := by
  by_cases hKind : u.head.kind = kind
  · rw [if_pos hKind]
    change (if u.head.kind = kind then _ else _ :
      Reading Bool) u = _
    rw [if_pos hKind]
    rfl
  · rw [if_neg hKind]
    change (if u.head.kind = kind then _ else _ :
      Reading Bool) u = _
    rw [if_neg hKind]
    rfl

/- A node that is closed covers the tokens read for it. -/
theorem close_apply
    {s u u' : TokenStream}
    {ts : List Token}
    (h : s.Mirrors u)
    (hReads : u.Reads ts u')
    (hSome : ts ≠ [])
    (n : Node) :
    close u.head.start n u' = (n.over ts, u') := by
  have hFirst := hReads.head?_eq hSome
  have hLast := List.getLast?_eq_some_getLast hSome
  rcases h.between with ⟨hi, hBetween⟩
  rw [hReads.ahead] at hBetween
  rcases hBetween.divide with ⟨mid, hOwn, _⟩
  have hTight := hOwn.tighten hFirst hLast
  have hOrder := hTight.le
  have hRead : u'.readTo = (ts.getLast hSome).stop := by
    rw [hReads.readTo, hLast]
    rfl
  change ({ n with span := _ }, u') = _
  unfold Node.over Token.extent
  rw [hFirst, hLast, hRead]
  simp only [Option.map_some, Option.getD_some]
  rw [Int.max_eq_right (Int.ofNat_le.mpr hOrder)]

end Node.Reading

end QueryHover
