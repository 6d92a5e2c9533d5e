import QueryHover.Proofs.Nesting
import QueryHover.Proofs.Scanning

/-
  The edges of tokens.

  A token may hold line ends, if it is a block string, but
  its first and its last character are none. So what is
  marked for a node neither starts nor ends with the end of a
  line.

  Main declarations:
    * `Text.ShowsAt`
    * `Token.EdgedIn`
    * `Scanner.step_edgedIn`
    * `TokenStream.ofText_edgedIn`
    * `Document.target_edges`
-/

namespace QueryHover

------------------------------------------------------------
-- Characters That Show
------------------------------------------------------------

namespace Text

/- A character of a text that does not end a line. -/
def ShowsAt
    (text : List Char)
    (i : Nat) : Prop :=
  ∃ c ∈ text[i]?, c ≠ '\n' ∧ c ≠ '\r'

variable {text : List Char}
variable {c : Char}

theorem ShowsAt.append
    {i : Nat}
    (h : ShowsAt text i)
    (cs : List Char) :
    ShowsAt (text ++ cs) i := by
  rcases h with ⟨c, hc, hShows⟩
  refine ⟨c, ?_, hShows⟩
  rw [List.getElem?_append_left
    (List.getElem?_eq_some_iff.mp hc).1]
  exact hc

theorem showsAt_last
    (h : c ≠ '\n' ∧ c ≠ '\r') :
    ShowsAt (text ++ [c]) text.length :=
  ⟨c, List.getElem?_concat_length, h⟩

/- No character that passes a test ends a line. -/
theorem shows_of_test
    {p : Char → Prop}
    (hNewline : ¬ p '\n')
    (hReturn : ¬ p '\r')
    (h : p c) :
    c ≠ '\n' ∧ c ≠ '\r' := by
  refine ⟨?_, ?_⟩
  · rintro rfl
    exact hNewline h
  · rintro rfl
    exact hReturn h

end Text

open Text (ShowsAt showsAt_last shows_of_test)

/- A token that neither starts nor ends with a line end. -/
def Token.EdgedIn
    (text : List Char)
    (t : Token) : Prop :=
  ShowsAt text t.start ∧ ShowsAt text (t.stop - 1)

theorem Token.EdgedIn.append
    {text : List Char}
    {t : Token}
    (h : t.EdgedIn text)
    (cs : List Char) :
    t.EdgedIn (text ++ cs) :=
  ⟨h.1.append cs, h.2.append cs⟩

------------------------------------------------------------
-- Single Steps
------------------------------------------------------------

namespace Scanner

/-
  The first character of the token being read shows. So does
  the last one that was read, where the token may end before
  the next, and each of the quotes that may close a block.
-/
def Mode.EdgedIn
    (text : List Char) :
    Mode → Prop
  | .blank | .blankAfterReturn => True
  | .comment start _ | .name start _ | .number start _ _
  | .quotes start _ =>
      ShowsAt text start ∧ ShowsAt text (text.length - 1)
  | .dots start _ | .string start _ _
  | .stringEscape start _ | .stringCode start _ _ _
  | .block start _ | .blockAfterReturn start _
  | .blockEscape start _ _ => ShowsAt text start
  | .blockQuotes start _ count =>
      ShowsAt text start ∧
        ∀ i, text.length ≤ i + count → i < text.length →
          ShowsAt text i

/- A step to the end of a text, by tokens with such edges. -/
abbrev Step.EdgedIn
    (text : List Char) :
    Step → Prop :=
  Step.Keeps (Mode.EdgedIn text) (Token.EdgedIn text)
    text.length

variable {s : Scanner}
variable {front : List Char}
variable {c : Char}

/- A token whose last character has just been read. -/
theorem emit_edgedIn
    (hOffset : s.offset = front.length)
    {t : Token}
    (hStart : ShowsAt (front ++ [c]) t.start)
    (hStop : t.stop = s.offset + 1)
    (hShows : c ≠ '\n' ∧ c ≠ '\r') :
    (s.emit t).EdgedIn (front ++ [c]) := by
  refine emit_keeps (next_offset hOffset) trivial ⟨hStart, ?_⟩
  rw [hStop, hOffset]
  exact showsAt_last hShows

/- The last character read shows, if it is no line end. -/
theorem last_of_shows
    (h : c ≠ '\n' ∧ c ≠ '\r') :
    ShowsAt (front ++ [c]) ((front ++ [c]).length - 1) := by
  rw [List.length_append, List.length_singleton,
    Nat.add_sub_cancel]
  exact showsAt_last h

theorem stepBlank_edgedIn
    (hOffset : s.offset = front.length) :
    (s.stepBlank c).EdgedIn (front ++ [c]) := by
  have hEnd : s.offset + 1 = (front ++ [c]).length :=
    next_offset hOffset
  unfold stepBlank
  refine iteInduction (fun _ => goOn_keeps hEnd trivial)
    fun _ => ?_
  refine iteInduction (fun _ => newLine_keeps hEnd trivial)
    fun hNewline => ?_
  refine iteInduction (fun _ => newLine_keeps hEnd trivial)
    fun hReturn => ?_
  have hShows : c ≠ '\n' ∧ c ≠ '\r' := ⟨hNewline, hReturn⟩
  have hFirst : ShowsAt (front ++ [c]) s.offset :=
    hOffset ▸ showsAt_last hShows
  have hBoth :
      ShowsAt (front ++ [c]) s.offset ∧
        ShowsAt (front ++ [c]) ((front ++ [c]).length - 1) :=
    ⟨hFirst, last_of_shows hShows⟩
  refine iteInduction (fun _ => goOn_keeps hEnd hBoth)
    fun _ => ?_
  refine iteInduction (fun _ => goOn_keeps hEnd hBoth)
    fun _ => ?_
  refine iteInduction (fun _ => goOn_keeps hEnd hBoth)
    fun _ => ?_
  refine iteInduction (fun _ => goOn_keeps hEnd hBoth)
    fun _ => ?_
  refine iteInduction (fun _ => goOn_keeps hEnd hBoth)
    fun _ => ?_
  refine iteInduction (fun _ => goOn_keeps hEnd hFirst)
    fun _ => ?_
  refine iteInduction (fun _ => goOn_keeps hEnd hBoth)
    fun _ => ?_
  cases punctuator? c with
  | none => exact stopAt_keeps _ _
  | some kind => exact emit_edgedIn hOffset hFirst rfl hShows

/- A token that ends with what has been read before. -/
theorem edgedIn_of_read
    {t : Token}
    {start : Nat}
    (hOffset : s.offset = front.length)
    (hRead :
      ShowsAt front start ∧ ShowsAt front (front.length - 1))
    (hStart : t.start = start)
    (hStop : t.stop = s.offset) :
    t.EdgedIn front := by
  refine ⟨hStart ▸ hRead.1, ?_⟩
  rw [hStop, hOffset]
  exact hRead.2

/- The third of the closing quotes of a block string. -/
theorem edgedIn_block
    {start quotes : Nat}
    {read : List Char}
    (hOffset : s.offset = front.length)
    (hValid : start + quotes < s.offset)
    (hMode :
      (Mode.blockQuotes start read quotes).EdgedIn front)
    (hQuotes : 3 ≤ quotes) :
    (s.blockToken start read quotes).EdgedIn front := by
  refine ⟨hMode.1, hMode.2 _ ?_ ?_⟩
  · change front.length ≤
      s.offset - quotes + 3 - 1 + quotes
    omega
  · change s.offset - quotes + 3 - 1 < front.length
    omega

/- No character that goes on with a number ends a line. -/
theorem NumberPart.shows_of_next?
    {part after : NumberPart}
    (h : part.next? c = some after) :
    c ≠ '\n' ∧ c ≠ '\r' := by
  refine shows_of_test (p := fun d => part.next? d ≠ none)
    ?_ ?_ (by simp [h])
  · cases part
    all_goals decide
  · cases part
    all_goals decide

theorem stepNumber_edgedIn
    {start : Nat}
    (hOffset : s.offset = front.length)
    (hRead :
      ShowsAt front start ∧ ShowsAt front (front.length - 1))
    (read : List Char)
    (part : NumberPart) :
    (s.stepNumber start read part c).EdgedIn
      (front ++ [c]) := by
  have hEnd : s.offset + 1 = (front ++ [c]).length :=
    next_offset hOffset
  unfold stepNumber
  cases hNext : part.next? c with
  | some after =>
      exact goOn_keeps hEnd
        ⟨hRead.1.append _, last_of_shows
          (NumberPart.shows_of_next? hNext)⟩
  | none =>
      refine iteInduction (fun _ => stopAt_keeps _ _)
        fun _ => ?_
      cases part.kind? with
      | none => exact stopAt_keeps _ _
      | some kind =>
          exact (stepBlank_edgedIn hOffset).after
            ((edgedIn_of_read hOffset hRead rfl rfl).append _)

theorem stepString_edgedIn
    {start : Nat}
    (hOffset : s.offset = front.length)
    (hStart : ShowsAt front start)
    (read : List Char) :
    (s.stepString start read c).EdgedIn (front ++ [c]) := by
  have hEnd : s.offset + 1 = (front ++ [c]).length :=
    next_offset hOffset
  have hOpen := hStart.append [c]
  unfold stepString
  refine iteInduction ?_ fun _ => ?_
  · rintro rfl
    exact emit_edgedIn hOffset hOpen rfl (by decide)
  refine iteInduction (fun _ => goOn_keeps hEnd hOpen)
    fun _ => ?_
  exact iteInduction (fun _ => stopAt_keeps _ _) fun _ =>
    goOn_keeps hEnd hOpen

theorem stepBlock_edgedIn
    {start : Nat}
    (hOffset : s.offset = front.length)
    (hStart : ShowsAt front start)
    (read : List Char) :
    (s.stepBlock start read c).EdgedIn (front ++ [c]) := by
  have hEnd : s.offset + 1 = (front ++ [c]).length :=
    next_offset hOffset
  have hOpen := hStart.append [c]
  unfold stepBlock
  refine iteInduction ?_ fun _ => ?_
  · rintro rfl
    refine goOn_keeps hEnd ⟨hOpen, fun i hFrom hTo => ?_⟩
    simp only [List.length_append, List.length_singleton]
      at hFrom hTo
    have hLast : i = front.length := by
      omega
    rw [hLast]
    exact showsAt_last (by decide)
  refine iteInduction (fun _ => goOn_keeps hEnd hOpen)
    fun _ => ?_
  refine iteInduction (fun _ => newLine_keeps hEnd hOpen)
    fun _ => ?_
  refine iteInduction (fun _ => newLine_keeps hEnd hOpen)
    fun _ => ?_
  exact iteInduction (fun _ => stopAt_keeps _ _) fun _ =>
    goOn_keeps hEnd hOpen

/- One more of the quotes that may close a block string. -/
theorem blockQuotes_edgedIn
    {start quotes : Nat}
    {read : List Char}
    (h : (Mode.blockQuotes start read quotes).EdgedIn front) :
    (Mode.blockQuotes start read (quotes + 1)).EdgedIn
      (front ++ ['"']) := by
  refine ⟨h.1.append _, fun i hFrom hTo => ?_⟩
  simp only [List.length_append, List.length_singleton]
    at hFrom hTo
  by_cases hLast : i = front.length
  · rw [hLast]
    exact showsAt_last (by decide)
  · exact (h.2 i (by omega) (by omega)).append _

/- Every step keeps the edges of tokens. -/
theorem step_edgedIn
    (hOffset : s.offset = front.length)
    (hValid : s.mode.ValidAt s.offset)
    (hMode : s.mode.EdgedIn front)
    (c : Char) :
    (s.step c).EdgedIn (front ++ [c]) := by
  have hEnd : s.offset + 1 = (front ++ [c]).length :=
    next_offset hOffset
  unfold step
  cases hCase : s.mode
  all_goals
    rw [hCase] at hMode hValid
  case blank => exact stepBlank_edgedIn hOffset
  case blankAfterReturn =>
    exact iteInduction (fun _ => goOn_keeps hEnd trivial)
      fun _ => stepBlank_edgedIn hOffset
  case comment start read =>
    refine iteInduction (fun _ => ?_) fun hControl => ?_
    · exact (stepBlank_edgedIn hOffset).after
        ((edgedIn_of_read hOffset hMode rfl rfl).append _)
    · exact goOn_keeps hEnd
        ⟨hMode.1.append _, last_of_shows
          (shows_of_test (p := fun d => ¬ isControl d)
            (by decide) (by decide) hControl)⟩
  case name start read =>
    refine iteInduction (fun hPart => ?_) fun _ => ?_
    · exact goOn_keeps hEnd
        ⟨hMode.1.append _, last_of_shows
          (shows_of_test (p := fun d => isNamePart d)
            (by decide) (by decide) hPart)⟩
    · exact (stepBlank_edgedIn hOffset).after
        ((edgedIn_of_read hOffset hMode rfl rfl).append _)
  case number start read part =>
    exact stepNumber_edgedIn hOffset hMode read part
  case dots start count =>
    have hOpen := Text.ShowsAt.append hMode [c]
    refine iteInduction ?_ fun _ => stopAt_keeps _ _
    rintro rfl
    exact iteInduction (fun _ => goOn_keeps hEnd hOpen)
      fun _ => emit_edgedIn hOffset hOpen rfl (by decide)
  case quotes start count =>
    refine iteInduction (fun _ => ?_) fun _ => ?_
    · refine iteInduction ?_ fun _ =>
        stepString_edgedIn hOffset hMode.1 []
      rintro rfl
      exact goOn_keeps hEnd
        ⟨hMode.1.append _, last_of_shows (by decide)⟩
    · refine iteInduction
        (fun _ => goOn_keeps hEnd (hMode.1.append _))
        fun _ => ?_
      exact (stepBlank_edgedIn hOffset).after
        ((edgedIn_of_read hOffset hMode rfl rfl).append _)
  case string start read escape =>
    exact stepString_edgedIn hOffset hMode read
  case stringEscape start read =>
    have hOpen := Text.ShowsAt.append hMode [c]
    refine iteInduction (fun _ => goOn_keeps hEnd hOpen)
      fun _ => ?_
    cases unescape? c with
    | some d => exact goOn_keeps hEnd hOpen
    | none => exact stopAt_keeps _ _
  case stringCode start read escape digits =>
    have hOpen := Text.ShowsAt.append hMode [c]
    refine iteInduction (fun _ => stopAt_keeps _ _)
      fun _ => ?_
    exact iteInduction (fun _ => goOn_keeps hEnd hOpen)
      fun _ => goOn_keeps hEnd hOpen
  case block start read =>
    exact stepBlock_edgedIn hOffset hMode read
  case blockAfterReturn start read =>
    refine iteInduction (fun _ => ?_) fun _ =>
      stepBlock_edgedIn hOffset hMode read
    exact ⟨List.forall_mem_nil _,
      Text.ShowsAt.append hMode [c], by simp [hOffset]⟩
  case blockEscape start read quotes =>
    have hOpen := Text.ShowsAt.append hMode [c]
    refine iteInduction (fun _ => ?_) fun _ =>
      stepBlock_edgedIn hOffset hMode _
    exact iteInduction (fun _ => goOn_keeps hEnd hOpen)
      fun _ => goOn_keeps hEnd hOpen
  case blockQuotes start read quotes =>
    refine iteInduction ?_ fun _ => ?_
    · rintro rfl
      exact goOn_keeps hEnd (blockQuotes_edgedIn hMode)
    · refine iteInduction
        (fun _ => stepBlock_edgedIn hOffset hMode.1 _)
        fun hClosed => ?_
      exact (stepBlank_edgedIn hOffset).after
        ((edgedIn_block hOffset hValid hMode
          (Nat.le_of_not_lt hClosed)).append _)

------------------------------------------------------------
-- Whole Texts
------------------------------------------------------------

theorem finish_edgedIn
    (hOffset : s.offset = front.length)
    (hValid : s.mode.ValidAt s.offset)
    (hMode : s.mode.EdgedIn front) :
    ∀ t ∈ s.finish.tokens, t.EdgedIn front := by
  unfold finish
  cases hCase : s.mode with
  | comment start read | name start read =>
      rw [hCase] at hMode
      exact List.forall_mem_singleton.mpr
        (edgedIn_of_read hOffset hMode rfl rfl)
  | number start read part =>
      rw [hCase] at hMode
      dsimp only
      cases part.kind? with
      | none => exact List.forall_mem_nil _
      | some kind =>
          exact List.forall_mem_singleton.mpr
            (edgedIn_of_read hOffset hMode rfl rfl)
  | quotes start count =>
      rw [hCase] at hMode
      dsimp only
      split_ifs
      · exact List.forall_mem_nil _
      · exact List.forall_mem_singleton.mpr
          (edgedIn_of_read hOffset hMode rfl rfl)
  | blockQuotes start read quotes =>
      rw [hCase] at hMode hValid
      dsimp only
      split_ifs with hOpen
      · exact List.forall_mem_nil _
      · exact List.forall_mem_singleton.mpr
          (edgedIn_block hOffset hValid hMode
            (Nat.le_of_not_lt hOpen))
  | string start read escape =>
      cases escape with
      | none => exact List.forall_mem_nil _
      | some code => exact List.forall_mem_nil _
  | _ => exact List.forall_mem_nil _

end Scanner

/- No token of a text starts or ends with a line end. -/
theorem TokenStream.ofText_edgedIn
    (file : String)
    (text : List Char)
    {t : Token}
    (ht : t ∈ (ofText file text).ahead) :
    t.EdgedIn text := by
  refine ofText_keeps (P := Scanner.Mode.EdgedIn)
    (Q := Token.EdgedIn) ?_ ?_ ?_ trivial file text ht
  · intro text cs t h
    exact h.append cs
  · intro s front c hOffset hValid hMode
    exact Scanner.step_edgedIn hOffset hValid hMode c
  · intro s front hOffset hValid hMode
    exact Scanner.finish_edgedIn hOffset hValid hMode

------------------------------------------------------------
-- The Edges of What Is Marked
------------------------------------------------------------

namespace Document

variable {text : List Char}
variable {root n : Node}

/- What is marked for a node goes from a token to a token. -/
theorem exists_target
    (h : parse text = .ok root)
    (hn : root.Above n) :
    ∃ a ∈ (tokens text).ahead, ∃ b ∈ (tokens text).ahead,
      n.target = ⟨a.start, b.stop⟩ := by
  rcases madeOf_of_parse h hn with
    ⟨ts, lo, hi, hTs, hMade, hTokens⟩
  unfold Node.target
  by_cases hPositive : 0 < n.nameSpan.length
  · rw [if_pos hPositive]
    rcases hMade.name with hNone | ⟨us, hUs, hSome, hExtent⟩
    · rw [hNone] at hPositive
      exact absurd hPositive (by decide)
    · rcases hTokens.part hUs with ⟨_, _, _, _, hInner⟩
      rcases hInner.exists_extent hSome with
        ⟨a, ha, b, hb, hEnds, _⟩
      exact ⟨a, hTs.subset (hUs.subset ha), b,
        hTs.subset (hUs.subset hb), hExtent.trans hEnds⟩
  · rw [if_neg hPositive]
    rcases hMade.ends hTokens with ⟨a, ha, b, hb, hEnds, _⟩
    exact ⟨a, hTs.subset ha, b, hTs.subset hb, hEnds⟩

/- Neither edge of what is marked is a line end. -/
theorem target_edges
    (h : parse text = .ok root)
    (hn : root.Above n) :
    Text.ShowsAt text n.target.start.toNat ∧
      Text.ShowsAt text (n.target.stop - 1).toNat := by
  rcases exists_target h hn with ⟨a, ha, b, hb, hTarget⟩
  rw [hTarget]
  have hFirst := TokenStream.ofText_edgedIn "input" text ha
  have hLast := TokenStream.ofText_edgedIn "input" text hb
  refine ⟨hFirst.1, ?_⟩
  have hIndex : ((b.stop : Int) - 1).toNat = b.stop - 1 := by
    omega
  dsimp only
  rw [hIndex]
  exact hLast.2

end Document

end QueryHover
