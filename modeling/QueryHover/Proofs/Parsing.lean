import QueryHover.Grammar.Value
import QueryHover.Proofs.Streams

/-
  What parsers promise.

  A parser that is given tokens of a kind ends in one of two
  ways. It yields a value and leaves tokens of that kind, or
  it blames one of them. The promises of single tokens and of
  lists are put together, for types, values and directives,
  in the order in which the grammar reads them.

  Main declarations:
    * `TokenStream.Of`
    * `SyntaxError.Blames`
    * `Parser.Ends`
    * `Parser.Yields`
    * `Parser.Yields.bind`
    * `Parser.yields_readWhile`
    * `Grammar.yields_value`
    * `Grammar.yields_directives`
-/

namespace QueryHover

------------------------------------------------------------
-- Streams and Errors
------------------------------------------------------------

/- All tokens of a stream are of a kind. -/
structure TokenStream.Of
    (T : Token → Prop)
    (s : TokenStream) : Prop where
  ahead : ∀ t ∈ s.ahead, T t
  last : T s.last
  comments : ∀ t ∈ s.comments, T t

/-
  An error about a token of a kind. What is wrong with the
  characters of a text is said only of its invalid mark.
-/
def SyntaxError.Blames
    (T : Token → Prop)
    (e : SyntaxError) : Prop :=
  T e.found ∧
    ∀ fault, e.cause = .unreadable fault →
      e.found.kind = .invalid

namespace TokenStream.Of

variable {T : Token → Prop}
variable {s : TokenStream}

theorem head
    (h : s.Of T) :
    T s.head := by
  unfold TokenStream.head
  cases hAhead : s.ahead with
  | nil => exact h.last
  | cons t ts =>
      apply h.ahead
      rw [hAhead]
      exact List.mem_cons_self

theorem tail
    (h : s.Of T) :
    s.tail.Of T := by
  unfold TokenStream.tail
  cases hAhead : s.ahead with
  | nil => exact h
  | cons t ts =>
      refine ⟨?_, h.last, h.comments⟩
      intro u hu
      apply h.ahead
      rw [hAhead]
      exact List.mem_cons_of_mem t hu

/- What stands for a description that is refused. -/
theorem commentBetween
    {first : Token}
    (h : s.Of T)
    (hFirst : T first)
    (t : Token) :
    T ((s.commentBetween? first t).getD first) := by
  cases hComment : s.commentBetween? first t with
  | none => exact hFirst
  | some comment =>
      apply h.comments
      exact (List.mem_filter.mp
        (List.mem_of_getLast? hComment)).1

end TokenStream.Of

------------------------------------------------------------
-- Promises
------------------------------------------------------------

namespace Parser

variable {α β : Type}

/-
  A value with a property was read, and tokens of a kind are
  left; or else one of them is blamed.
-/
def Ends
    (T : Token → Prop)
    (P : α → Prop) :
    Except SyntaxError (α × TokenStream) → Prop
  | .ok (a, s) => s.Of T ∧ P a
  | .error e => e.Blames T

/- How a parser ends from tokens of a kind. -/
def Yields
    (T : Token → Prop)
    (x : Parser α)
    (P : α → Prop) : Prop :=
  ∀ s : TokenStream, s.Of T → Ends T P (x s)

variable {T : Token → Prop}
variable {x : Parser α}
variable {P : α → Prop}
variable {Q : β → Prop}

theorem Yields.of_ok
    {s s' : TokenStream}
    {a : α}
    (h : Yields T x P)
    (hs : s.Of T)
    (hRun : x s = .ok (a, s')) :
    s'.Of T ∧ P a := by
  have hEnd := h s hs
  rwa [hRun] at hEnd

theorem Yields.of_error
    {s : TokenStream}
    {e : SyntaxError}
    (h : Yields T x P)
    (hs : s.Of T)
    (hRun : x s = .error e) :
    e.Blames T := by
  have hEnd := h s hs
  rwa [hRun] at hEnd

theorem Yields.pure
    {a : α}
    (h : P a) :
    Yields T (Pure.pure a) P :=
  fun _ hs => ⟨hs, h⟩

theorem Yields.bind
    {f : α → Parser β}
    (hx : Yields T x P)
    (hf : ∀ a, P a → Yields T (f a) Q) :
    Yields T (x >>= f) Q := by
  intro s hs
  have hFirst := hx s hs
  change Ends T Q (x s >>= fun r => f r.1 r.2)
  cases hRun : x s with
  | error e =>
      rw [hRun] at hFirst
      exact hFirst
  | ok r =>
      rw [hRun] at hFirst
      exact hf r.1 hFirst.2 r.2 hFirst.1

theorem Yields.pure_bind
    {a : α}
    {f : α → Parser β}
    (h : Yields T (f a) Q) :
    Yields T (Pure.pure a >>= f) Q :=
  h

theorem Yields.ite
    {c : Prop}
    [Decidable c]
    {y : Parser α}
    (hx : Yields T x P)
    (hy : Yields T y P) :
    Yields T (if c then x else y) P := by
  split
  · exact hx
  · exact hy

------------------------------------------------------------
-- Single Tokens
------------------------------------------------------------

theorem yields_peek :
    Yields T peek T :=
  fun _ hs => ⟨hs, hs.head⟩

theorem yields_next :
    Yields T next T :=
  fun _ hs => ⟨hs.tail, hs.head⟩

theorem yields_get :
    Yields T (get : Parser TokenStream) (TokenStream.Of T) :=
  fun _ hs => ⟨hs, hs⟩

theorem yields_place
    (t : Token) :
    Yields T (place t) fun _ => True :=
  fun _ hs => ⟨hs, trivial⟩

/- A token may be refused for what is wrong with its place. -/
theorem yields_refuse
    {cause : SyntaxError.Cause}
    {t : Token}
    (h : T t)
    (hCause : ∀ fault, cause ≠ .unreadable fault) :
    Yields T (refuse cause t) P :=
  fun _ _ => ⟨h, fun fault hFault =>
    absurd hFault (hCause fault)⟩

theorem yields_unexpected :
    Yields T unexpected P :=
  yields_peek.bind fun _ ht => yields_refuse ht (by simp)

theorem yields_skip
    (kind : Token.Kind) :
    Yields T (skip kind) fun _ => True := by
  refine yields_peek.bind fun t _ => ?_
  refine .ite ?_ (.pure trivial)
  exact yields_next.bind fun _ _ => .pure trivial

theorem yields_expect
    (kind : Token.Kind) :
    Yields T (expect kind) T := by
  refine yields_peek.bind fun t ht => ?_
  exact .ite yields_next (yields_refuse ht (by simp))

theorem yields_word
    (text : String) :
    Yields T (word text) fun _ => True := by
  refine yields_peek.bind fun t ht => ?_
  refine .ite ?_ (yields_refuse ht (by simp))
  exact yields_next.bind fun _ _ => .pure trivial

theorem yields_name :
    Yields T Parser.name fun _ => True :=
  (yields_expect .name).bind fun _ _ => .pure trivial

theorem yields_take :
    Yields T take T := by
  refine yields_next.bind fun t ht => ?_
  refine yields_get.bind fun s _ => ?_
  split
  · rename_i fault hKind _
    exact fun _ _ => ⟨ht, fun _ _ => hKind⟩
  · exact .pure ht

------------------------------------------------------------
-- Lists
------------------------------------------------------------

/- A repetition yields what its items promise. -/
theorem yields_readWhile
    (starts : Token → Bool)
    (h : Yields T x P) :
    Yields T (TokenStream.readWhile starts x)
      fun items => ∀ a ∈ items, P a := by
  intro s hs
  have hItem := h s hs
  rw [TokenStream.readWhile]
  by_cases hStarts : starts s.head = true
  case neg =>
    rw [if_neg hStarts]
    exact ⟨hs, List.forall_mem_nil P⟩
  case pos =>
    rw [if_pos hStarts]
    cases hFirst : x s with
    | error e =>
        rw [hFirst] at hItem
        exact hItem
    | ok first =>
        rw [hFirst] at hItem
        rcases first with ⟨a, s₁⟩
        rcases hItem with ⟨hs₁, ha⟩
        change Ends T _
          (if _h : s₁.ahead.length < s.ahead.length
            then _ else _)
        by_cases hShorter : s₁.ahead.length < s.ahead.length
        case neg =>
          rw [dif_neg hShorter]
          exact ⟨hs₁, List.forall_mem_singleton.mpr ha⟩
        case pos =>
          rw [dif_pos hShorter]
          have hRest := yields_readWhile starts h s₁ hs₁
          cases hOthers : TokenStream.readWhile starts x s₁ with
          | error e =>
              rw [hOthers] at hRest
              exact hRest
          | ok others =>
              rw [hOthers] at hRest
              exact ⟨hRest.1,
                List.forall_mem_cons.mpr ⟨ha, hRest.2⟩⟩
termination_by s => s.ahead.length

theorem yields_itemsUntil
    (close : Token.Kind)
    (h : Yields T x P) :
    Yields T (itemsUntil close x)
      fun items => ∀ a ∈ items, P a := by
  refine (yields_readWhile _ h).bind fun items hItems => ?_
  exact yields_next.bind fun _ _ => .pure hItems

theorem yields_list
    (opening close : Token.Kind)
    (h : Yields T x P) :
    Yields T (list opening close x)
      fun items => ∀ a ∈ items, P a := by
  refine (yields_skip opening).bind fun _ _ => ?_
  exact .ite (yields_itemsUntil close h)
    (.pure (List.forall_mem_nil P))

theorem yields_nonEmptyList
    (opening close : Token.Kind)
    (h : Yields T x P) :
    Yields T (nonEmptyList opening close x)
      fun items => ∀ a ∈ items, P a := by
  refine (yields_skip opening).bind fun _ _ => ?_
  refine .ite ?_ (.pure (List.forall_mem_nil P))
  refine yields_peek.bind fun t ht => ?_
  exact .ite (yields_refuse ht (by simp))
    (yields_itemsUntil close h)

theorem yields_separated
    (separator : Token.Kind)
    (h : Yields T x P) :
    Yields T (separated separator x)
      fun items => ∀ a ∈ items, P a := by
  refine (yields_skip separator).bind fun _ _ => ?_
  refine h.bind fun first hFirst => ?_
  refine (yields_readWhile _
    (yields_next.bind fun _ _ => h)).bind fun others hOthers => ?_
  exact .pure (List.forall_mem_cons.mpr ⟨hFirst, hOthers⟩)

end Parser

------------------------------------------------------------
-- Types, Values and Directives
------------------------------------------------------------

namespace Grammar

open QueryHover.Parser

variable {T : Token → Prop}

theorem yields_namedTypeRef :
    Yields T namedTypeRef fun _ => True := by
  refine yields_peek.bind fun t _ => ?_
  refine (yields_place t).bind fun _ _ => ?_
  refine yields_name.bind fun _ _ => ?_
  exact (yields_skip .bang).bind fun _ _ => .pure trivial

theorem yields_typeRefWithin
    (depth : Nat) :
    Yields T (typeRefWithin depth) fun _ => True := by
  induction depth with
  | zero => exact yields_namedTypeRef
  | succ depth ih =>
      refine (yields_skip .bracketL).bind fun _ _ => ?_
      refine .ite ?_ yields_namedTypeRef
      refine yields_peek.bind fun t _ => ?_
      refine (yields_place t).bind fun _ _ => ?_
      refine ih.bind fun _ _ => ?_
      refine (yields_expect .bracketR).bind fun _ _ => ?_
      exact (yields_skip .bang).bind fun _ _ => .pure trivial

theorem yields_typeRef :
    Yields T typeRef fun _ => True :=
  yields_get.bind fun _ _ => yields_typeRefWithin _

theorem yields_scalarValue :
    Yields T scalarValue fun _ => True := by
  refine yields_peek.bind fun t ht => ?_
  cases t.kind
  case int | float | string | blockString =>
    exact yields_next.bind fun _ _ => .pure trivial
  case name =>
    refine yields_next.bind fun _ _ => ?_
    exact .ite (.pure trivial) (.pure trivial)
  all_goals exact yields_refuse ht (by simp)

theorem yields_valueWithin
    (constant : Bool)
    (depth : Nat) :
    Yields T (valueWithin constant depth) fun _ => True := by
  induction depth with
  | zero => exact yields_scalarValue
  | succ depth ih =>
      refine yields_peek.bind fun t _ => ?_
      cases t.kind
      case bracketL =>
        refine (yields_list .bracketL .bracketR ih).bind ?_
        exact fun _ _ => .pure trivial
      case braceL =>
        have hEntry :
            Yields T
              (do
                let _ ← Parser.name
                let _ ← expect .colon
                valueWithin constant depth)
              fun _ => True := by
          refine yields_name.bind fun _ _ => ?_
          exact (yields_expect .colon).bind fun _ _ => ih
        refine (yields_list .braceL .braceR hEntry).bind ?_
        exact fun _ _ => .pure trivial
      case dollar =>
        refine .ite yields_unexpected ?_
        refine yields_next.bind fun _ _ => ?_
        exact yields_name.bind fun _ _ => .pure trivial
      all_goals exact yields_scalarValue

theorem yields_value
    (constant : Bool) :
    Yields T (value constant) fun _ => True :=
  yields_get.bind fun _ _ => yields_valueWithin constant _

theorem yields_argument
    (constant : Bool) :
    Yields T (argument constant) fun _ => True := by
  refine yields_peek.bind fun t _ => ?_
  refine (yields_place t).bind fun _ _ => ?_
  refine yields_name.bind fun _ _ => ?_
  refine (yields_expect .colon).bind fun _ _ => ?_
  exact (yields_value constant).bind fun _ _ => .pure trivial

theorem yields_arguments
    (constant : Bool) :
    Yields T (arguments constant)
      fun items => ∀ item ∈ items, True :=
  yields_nonEmptyList .parenL .parenR (yields_argument constant)

theorem yields_directive
    (constant : Bool) :
    Yields T (directive constant) fun _ => True := by
  refine yields_next.bind fun _ _ => ?_
  refine yields_peek.bind fun t _ => ?_
  refine (yields_place t).bind fun _ _ => ?_
  refine yields_name.bind fun _ _ => ?_
  exact (yields_arguments constant).bind fun _ _ =>
    .pure trivial

theorem yields_directives
    (constant : Bool) :
    Yields T (directives constant)
      fun uses => ∀ use ∈ uses, True :=
  yields_readWhile _ (yields_directive constant)

end Grammar

end QueryHover
