import Mathlib.Tactic.SplitIfs
import QueryHover.Token.Stream

/-
  What the scanner emits.

  The tokens of a text stand one after the other, none of
  them empty, between the two ends of the text. A punctuator
  has no value, a name is not empty, and a number has a digit
  or a sign. The mark after the last token is the end of the
  text exactly when nothing was wrong.

  Main declarations:
    * `Token.Proper`
    * `Token.Between`
    * `Token.Between.tighten`
    * `Scanner.step_sound`
    * `Scanner.run_sound`
    * `Scanner.run_keeps`
    * `TokenStream.ofText_between`
    * `TokenStream.ofText_last`
-/

namespace QueryHover

------------------------------------------------------------
-- Tokens in Order
------------------------------------------------------------

namespace Token

/- A token that can be read: its value fits its kind. -/
def Proper
    (t : Token) : Prop :=
  match t.kind with
  | .name => t.value ≠ ""
  | .int | .float =>
      ∃ c ∈ t.value.toList, c = '-' ∨ c.isDigit
  | .string | .blockString | .comment => True
  | .eof | .invalid => False
  | _ => t.value = ""

/-
  Tokens that stand one after the other, none of them empty,
  between two offsets.
-/
def Between :
    Nat → Nat → List Token → Prop
  | lo, hi, [] => lo ≤ hi
  | lo, hi, t :: ts =>
      lo ≤ t.start ∧ t.start < t.stop ∧ Between t.stop hi ts

theorem Between.le
    {lo hi : Nat}
    {ts : List Token}
    (h : Between lo hi ts) :
    lo ≤ hi := by
  induction ts generalizing lo with
  | nil => exact h
  | cons t ts ih =>
      have hRest := ih h.2.2
      have hStart := h.1
      have hStop := h.2.1
      omega

/- Tokens may be taken to start earlier than they do. -/
theorem Between.of_le
    {lo lo' hi : Nat}
    {ts : List Token}
    (hLe : lo' ≤ lo)
    (h : Between lo hi ts) :
    Between lo' hi ts := by
  cases ts with
  | nil => exact Nat.le_trans hLe h
  | cons t ts =>
      exact ⟨Nat.le_trans hLe h.1, h.2.1, h.2.2⟩

theorem Between.append
    {lo mid hi : Nat}
    {ts us : List Token}
    (hLeft : Between lo mid ts)
    (hRight : Between mid hi us) :
    Between lo hi (ts ++ us) := by
  induction ts generalizing lo with
  | nil => exact hRight.of_le hLeft
  | cons t ts ih =>
      exact ⟨hLeft.1, hLeft.2.1, ih hLeft.2.2⟩

/- Leaving tokens out keeps the others in order. -/
theorem Between.filter
    {lo hi : Nat}
    {ts : List Token}
    (p : Token → Bool)
    (h : Between lo hi ts) :
    Between lo hi (ts.filter p) := by
  induction ts generalizing lo with
  | nil => exact h
  | cons t ts ih =>
      have hRest := ih h.2.2
      by_cases hKeep : p t = true
      · rw [List.filter_cons_of_pos hKeep]
        exact ⟨h.1, h.2.1, hRest⟩
      · rw [List.filter_cons_of_neg hKeep]
        apply hRest.of_le
        have hStart := h.1
        have hStop := h.2.1
        omega

/- Tokens in order may be divided anywhere. -/
theorem Between.divide
    {lo hi : Nat}
    {ts us : List Token}
    (h : Between lo hi (ts ++ us)) :
    ∃ mid, Between lo mid ts ∧ Between mid hi us := by
  induction ts generalizing lo with
  | nil => exact ⟨lo, Nat.le_refl lo, h⟩
  | cons t ts ih =>
      rcases ih h.2.2 with ⟨mid, hLeft, hRight⟩
      exact ⟨mid, ⟨h.1, h.2.1, hLeft⟩, hRight⟩

/- Each of the tokens stands between the two offsets. -/
theorem Between.bounds
    {lo hi : Nat}
    {ts : List Token}
    {t : Token}
    (h : Between lo hi ts)
    (ht : t ∈ ts) :
    lo ≤ t.start ∧ t.start < t.stop ∧ t.stop ≤ hi := by
  rcases List.append_of_mem ht with ⟨before, after, rfl⟩
  rcases h.divide with ⟨mid, hBefore, hStart, hStop, hAfter⟩
  have hLow := hBefore.le
  have hHigh := hAfter.le
  exact ⟨Nat.le_trans hLow hStart, hStop, hHigh⟩

/- Tokens in order end where the last one ends. -/
theorem Between.tighten
    {lo hi : Nat}
    {ts : List Token}
    {a b : Token}
    (h : Between lo hi ts)
    (hFirst : ts.head? = some a)
    (hLast : ts.getLast? = some b) :
    Between a.start b.stop ts := by
  rcases List.getLast?_eq_some_iff.mp hLast with ⟨init, rfl⟩
  rcases h.divide with ⟨mid, hInit, hStart, hStop, _⟩
  have hUpper : Between lo b.stop (init ++ [b]) :=
    hInit.append ⟨hStart, hStop, Nat.le_refl _⟩
  rcases List.head?_eq_some_iff.mp hFirst with ⟨rest, hRest⟩
  rw [hRest] at hUpper ⊢
  exact ⟨Nat.le_refl _, hUpper.2⟩

end Token

------------------------------------------------------------
-- Single Steps
------------------------------------------------------------

namespace Scanner

/-
  Where the token being read starts: what has been emitted
  so far ends there or before.
-/
def Mode.floor
    (offset : Nat) :
    Mode → Nat
  | .blank => offset
  | .blankAfterReturn => offset
  | .comment start _ => start
  | .name start _ => start
  | .number start _ _ => start
  | .dots start _ => start
  | .quotes start _ => start
  | .string start _ _ => start
  | .stringEscape start _ => start
  | .stringCode start _ _ _ => start
  | .block start _ => start
  | .blockAfterReturn start _ => start
  | .blockEscape start _ _ => start
  | .blockQuotes start _ _ => start

/-
  What a mode remembers was read: a token being read starts
  before the current offset, names and numbers have their
  first character, and closing quotes follow the opening
  ones.
-/
def Mode.ValidAt
    (offset : Nat) :
    Mode → Prop
  | .blank | .blankAfterReturn => True
  | .name start read => start < offset ∧ read ≠ []
  | .number start read _ =>
      start < offset ∧ ∃ c ∈ read, c = '-' ∨ c.isDigit
  | .blockQuotes start _ count => start + count < offset
  | .comment start _ | .dots start _ | .quotes start _
  | .string start _ _ | .stringEscape start _
  | .stringCode start _ _ _ | .block start _
  | .blockAfterReturn start _ | .blockEscape start _ _ =>
      start < offset

/-
  A step that emits proper tokens in order, all of them
  after an offset, and moves to the next one.
-/
def Step.Sound
    (lo hi : Nat) :
    Step → Prop
  | .next tokens s =>
      Token.Between lo (s.mode.floor s.offset) tokens ∧
        (∀ t ∈ tokens, t.Proper) ∧
        s.mode.ValidAt s.offset ∧ s.offset = hi
  | .stop tokens last _ =>
      Token.Between lo hi tokens ∧
        (∀ t ∈ tokens, t.Proper) ∧
        last.kind = .invalid ∧ last.value = ""

variable (s : Scanner)

theorem goOn_sound
    {lo : Nat}
    {mode : Mode}
    (hFloor : lo ≤ mode.floor (s.offset + 1))
    (hValid : mode.ValidAt (s.offset + 1)) :
    (s.goOn mode).Sound lo (s.offset + 1) :=
  ⟨hFloor, by simp, hValid, rfl⟩

theorem newLine_sound
    {lo : Nat}
    {mode : Mode}
    (hFloor : lo ≤ mode.floor (s.offset + 1))
    (hValid : mode.ValidAt (s.offset + 1)) :
    (s.newLine mode).Sound lo (s.offset + 1) :=
  ⟨hFloor, by simp, hValid, rfl⟩

theorem emit_sound
    {lo : Nat}
    {t : Token}
    (hStart : lo ≤ t.start)
    (hStop : t.start < t.stop)
    (hEnd : t.stop ≤ s.offset + 1)
    (hProper : t.Proper) :
    (s.emit t).Sound lo (s.offset + 1) := by
  refine ⟨⟨hStart, hStop, hEnd⟩, ?_, trivial, rfl⟩
  intro u hu
  rw [List.mem_singleton.mp hu]
  exact hProper

theorem stopAt_sound
    {lo hi : Nat}
    (hLe : lo ≤ hi)
    (offset : Nat)
    (fault : Fault) :
    (s.stopAt offset fault).Sound lo hi :=
  ⟨hLe, by simp, rfl, rfl⟩

/- A token may be emitted before what a step emits. -/
theorem Step.Sound.after
    {lo mid hi : Nat}
    {step : Step}
    {t : Token}
    (hStart : lo ≤ t.start)
    (hStop : t.start < t.stop)
    (hEnd : t.stop ≤ mid)
    (hProper : t.Proper)
    (hStep : step.Sound mid hi) :
    (step.after t).Sound lo hi := by
  cases step with
  | next tokens scanner =>
      rcases hStep with ⟨hTokens, hAll, hValid, hOffset⟩
      refine ⟨⟨hStart, hStop, hTokens.of_le hEnd⟩, ?_,
        hValid, hOffset⟩
      intro u hu
      rcases List.mem_cons.mp hu with rfl | hu
      · exact hProper
      · exact hAll u hu
  | stop tokens last fault =>
      rcases hStep with ⟨hTokens, hAll, hLast⟩
      refine ⟨⟨hStart, hStop, hTokens.of_le hEnd⟩, ?_, hLast⟩
      intro u hu
      rcases List.mem_cons.mp hu with rfl | hu
      · exact hProper
      · exact hAll u hu

/- A punctuator has no value. -/
theorem proper_punctuator
    {c : Char}
    {kind : Token.Kind}
    (h : punctuator? c = some kind)
    (start stop : Nat) :
    (s.token kind [] start stop).Proper := by
  unfold punctuator? at h
  split at h
  all_goals
    first
      | (obtain rfl := Option.some.inj h; exact rfl)
      | exact absurd h (by simp)

/- The first character of a token emits a punctuator. -/
theorem stepBlank_sound
    (c : Char) :
    (s.stepBlank c).Sound s.offset (s.offset + 1) := by
  have hNext : s.offset < s.offset + 1 := Nat.lt_succ_self _
  have hLe : s.offset ≤ s.offset + 1 := Nat.le_succ _
  have hEq : s.offset ≤ s.offset := Nat.le_refl _
  unfold stepBlank
  refine iteInduction (fun _ => s.goOn_sound hLe trivial)
    fun _ => ?_
  refine iteInduction (fun _ => s.newLine_sound hLe trivial)
    fun _ => ?_
  refine iteInduction (fun _ => s.newLine_sound hLe trivial)
    fun _ => ?_
  refine iteInduction (fun _ => s.goOn_sound hEq hNext)
    fun _ => ?_
  refine iteInduction
    (fun _ => s.goOn_sound hEq ⟨hNext, by simp⟩)
    fun _ => ?_
  -- The three ways in which a number may start.
  refine iteInduction (fun hMinus => s.goOn_sound hEq
    ⟨hNext, by simp [hMinus]⟩) fun _ => ?_
  refine iteInduction (fun hZero => s.goOn_sound hEq
    ⟨hNext, by simp [hZero]⟩) fun _ => ?_
  refine iteInduction (fun hDigit => s.goOn_sound hEq
    ⟨hNext, by simp [hDigit]⟩) fun _ => ?_
  refine iteInduction (fun _ => s.goOn_sound hEq hNext)
    fun _ => ?_
  refine iteInduction (fun _ => s.goOn_sound hEq hNext)
    fun _ => ?_
  cases hKind : punctuator? c with
  | none => exact s.stopAt_sound hLe _ _
  | some kind =>
      exact s.emit_sound hEq hNext (Nat.le_refl _)
        (s.proper_punctuator hKind _ _)

/- A number that ends has a digit or a sign. -/
theorem proper_number
    {part : NumberPart}
    {kind : Token.Kind}
    {read : List Char}
    (hKind : part.kind? = some kind)
    (hRead : ∃ c ∈ read, c = '-' ∨ c.isDigit)
    (start stop : Nat) :
    (s.token kind read.reverse start stop).Proper := by
  have hValue :
      ∃ c ∈ (String.ofList read.reverse).toList,
        c = '-' ∨ c.isDigit := by
    simpa using hRead
  cases part
  all_goals
    first
      | (obtain rfl := Option.some.inj hKind; exact hValue)
      | exact absurd hKind (by simp [NumberPart.kind?])

theorem proper_name
    {read : List Char}
    (hRead : read ≠ [])
    (start stop : Nat) :
    (s.token .name read.reverse start stop).Proper := by
  have hValue : String.ofList read.reverse ≠ "" := by
    intro hEmpty
    have hChars := congrArg String.toList hEmpty
    simp at hChars
    exact hRead hChars
  exact hValue

theorem stepNumber_sound
    {start : Nat}
    {read : List Char}
    (hStart : start < s.offset)
    (hRead : ∃ c ∈ read, c = '-' ∨ c.isDigit)
    (part : NumberPart)
    (c : Char) :
    (s.stepNumber start read part c).Sound start
      (s.offset + 1) := by
  unfold stepNumber
  cases part.next? c with
  | some after =>
      rcases hRead with ⟨d, hd, hDigit⟩
      exact s.goOn_sound (Nat.le_refl _)
        ⟨Nat.lt_succ_of_lt hStart,
          d, List.mem_cons_of_mem c hd, hDigit⟩
  | none =>
      have hLe : start ≤ s.offset + 1 := by omega
      dsimp only
      split_ifs
      · exact s.stopAt_sound hLe _ _
      · cases hKind : part.kind? with
        | none => exact s.stopAt_sound hLe _ _
        | some kind =>
            exact (s.stepBlank_sound c).after
              (Nat.le_refl start) hStart
              (Nat.le_refl s.offset)
              (s.proper_number hKind hRead _ _)

theorem stepString_sound
    {start : Nat}
    (hStart : start < s.offset)
    (read : List Char)
    (c : Char) :
    (s.stepString start read c).Sound start
      (s.offset + 1) := by
  have hNext : start < s.offset + 1 := by omega
  unfold stepString
  split_ifs
  · exact s.emit_sound (Nat.le_refl start) hNext
      (Nat.le_refl (s.offset + 1)) trivial
  · exact s.goOn_sound (Nat.le_refl _) hNext
  · exact s.stopAt_sound (Nat.le_of_lt hNext) _ _
  · exact s.goOn_sound (Nat.le_refl _) hNext

theorem stepBlock_sound
    {start : Nat}
    (hStart : start < s.offset)
    (read : List Char)
    (c : Char) :
    (s.stepBlock start read c).Sound start
      (s.offset + 1) := by
  have hNext : start < s.offset + 1 := by omega
  unfold stepBlock
  split_ifs
  · exact s.goOn_sound (Nat.le_refl _)
      (Nat.succ_lt_succ hStart)
  · exact s.goOn_sound (Nat.le_refl _) hNext
  · exact s.newLine_sound (Nat.le_refl _) hNext
  · exact s.newLine_sound (Nat.le_refl _) hNext
  · exact s.stopAt_sound (Nat.le_of_lt hNext) _ _
  · exact s.goOn_sound (Nat.le_refl _) hNext

/- A block string ends after its start. -/
theorem blockToken_start_lt_stop
    {start quotes : Nat}
    (h : start + quotes < s.offset)
    (read : List Char) :
    (s.blockToken start read quotes).start <
      (s.blockToken start read quotes).stop := by
  change start < s.offset - quotes + 3
  omega

/- Every step is sound: one case for each mode. -/
theorem step_sound
    (hValid : s.mode.ValidAt s.offset)
    (c : Char) :
    (s.step c).Sound (s.mode.floor s.offset)
      (s.offset + 1) := by
  unfold step
  cases hMode : s.mode with
  | blank => exact s.stepBlank_sound c
  | blankAfterReturn =>
      dsimp only
      split_ifs
      · exact s.goOn_sound (Nat.le_succ _) trivial
      · exact s.stepBlank_sound c
  | comment start read =>
      rw [hMode] at hValid
      have hStart : start < s.offset := hValid
      dsimp only
      split_ifs
      · exact (s.stepBlank_sound c).after (Nat.le_refl start)
          hStart (Nat.le_refl s.offset) trivial
      · exact s.goOn_sound (Nat.le_refl _)
          (Nat.lt_succ_of_lt hStart)
  | name start read =>
      rw [hMode] at hValid
      rcases hValid with ⟨hStart, hRead⟩
      dsimp only
      split_ifs
      · exact s.goOn_sound (Nat.le_refl _)
          ⟨Nat.lt_succ_of_lt hStart, by simp⟩
      · exact (s.stepBlank_sound c).after (Nat.le_refl start)
          hStart (Nat.le_refl s.offset)
          (s.proper_name hRead _ _)
  | number start read part =>
      rw [hMode] at hValid
      exact s.stepNumber_sound hValid.1 hValid.2 part c
  | dots start count =>
      rw [hMode] at hValid
      have hNext : start < s.offset + 1 :=
        Nat.lt_succ_of_lt hValid
      dsimp only
      split_ifs
      · exact s.goOn_sound (Nat.le_refl _) hNext
      · exact s.emit_sound (Nat.le_refl start) hNext
          (Nat.le_refl (s.offset + 1)) rfl
      · exact s.stopAt_sound (Nat.le_of_lt hNext) _ _
  | quotes start count =>
      rw [hMode] at hValid
      have hStart : start < s.offset := hValid
      dsimp only
      split_ifs
      · exact s.goOn_sound (Nat.le_refl _)
          (Nat.lt_succ_of_lt hStart)
      · exact s.stepString_sound hStart [] c
      · exact s.goOn_sound (Nat.le_refl _)
          (Nat.lt_succ_of_lt hStart)
      · exact (s.stepBlank_sound c).after (Nat.le_refl start)
          hStart (Nat.le_refl s.offset) trivial
  | string start read escape =>
      rw [hMode] at hValid
      exact s.stepString_sound hValid read c
  | stringEscape start read =>
      rw [hMode] at hValid
      have hNext : start < s.offset + 1 :=
        Nat.lt_succ_of_lt hValid
      dsimp only
      split_ifs
      · exact s.goOn_sound (Nat.le_refl _) hNext
      · cases unescape? c with
        | some d => exact s.goOn_sound (Nat.le_refl _) hNext
        | none =>
            exact s.stopAt_sound (Nat.le_of_lt hNext) _ _
  | stringCode start read escape digits =>
      rw [hMode] at hValid
      have hNext : start < s.offset + 1 :=
        Nat.lt_succ_of_lt hValid
      dsimp only
      split_ifs
      · exact s.stopAt_sound (Nat.le_of_lt hNext) _ _
      · exact s.goOn_sound (Nat.le_refl _) hNext
      · exact s.goOn_sound (Nat.le_refl _) hNext
  | block start read =>
      rw [hMode] at hValid
      exact s.stepBlock_sound hValid read c
  | blockAfterReturn start read =>
      rw [hMode] at hValid
      dsimp only
      split_ifs
      · exact ⟨Nat.le_refl start, by simp,
          Nat.lt_succ_of_lt hValid, rfl⟩
      · exact s.stepBlock_sound hValid read c
  | blockEscape start read quotes =>
      rw [hMode] at hValid
      have hNext : start < s.offset + 1 :=
        Nat.lt_succ_of_lt hValid
      dsimp only
      split_ifs
      · exact s.goOn_sound (Nat.le_refl _) hNext
      · exact s.goOn_sound (Nat.le_refl _) hNext
      · exact s.stepBlock_sound hValid _ c
  | blockQuotes start read quotes =>
      rw [hMode] at hValid
      have hQuotes : start + quotes < s.offset := hValid
      dsimp only
      split_ifs with hQuote hFew
      · exact s.goOn_sound (Nat.le_refl _)
          (Nat.succ_lt_succ hQuotes)
      · have hStart : start < s.offset := by omega
        exact s.stepBlock_sound hStart _ c
      · apply (s.stepBlank_sound c).after
          (Nat.le_refl start)
          (s.blockToken_start_lt_stop hQuotes read)
        · change s.offset - quotes + 3 ≤ s.offset
          omega
        · trivial

------------------------------------------------------------
-- Whole Texts
------------------------------------------------------------

/-
  A scan of proper tokens in order between two offsets. It
  is closed by the end of the text at the second of them, or
  by a mark for what is wrong.
-/
structure Scan.Sound
    (lo hi : Nat)
    (scan : Scan) : Prop where
  between : Token.Between lo hi scan.tokens
  proper : ∀ t ∈ scan.tokens, t.Proper
  value : scan.last.value = ""
  closed :
    (scan.last.kind = .eof ∧ scan.last.start = hi ∧
        scan.last.stop = hi ∧ scan.fault = none) ∨
      (scan.last.kind = .invalid ∧ scan.fault ≠ none)

theorem ended_sound
    {lo : Nat}
    {tokens : List Token}
    (hBetween : Token.Between lo s.offset tokens)
    (hProper : ∀ t ∈ tokens, t.Proper) :
    (s.ended tokens).Sound lo s.offset :=
  ⟨hBetween, hProper, rfl, .inl ⟨rfl, rfl, rfl, rfl⟩⟩

theorem ended_one_sound
    {lo : Nat}
    {t : Token}
    (hStart : lo ≤ t.start)
    (hStop : t.start < t.stop)
    (hEnd : t.stop ≤ s.offset)
    (hProper : t.Proper) :
    (s.ended [t]).Sound lo s.offset := by
  apply s.ended_sound
  · exact ⟨hStart, hStop, hEnd⟩
  · intro u hu
    rw [List.mem_singleton.mp hu]
    exact hProper

theorem stopped_sound
    {lo hi : Nat}
    (hLe : lo ≤ hi)
    (offset : Nat)
    (fault : Fault) :
    (s.stopped offset fault).Sound lo hi :=
  ⟨hLe, by simp [stopped], rfl, .inr ⟨rfl, by simp [stopped]⟩⟩

/- What is emitted at the end of the text is in order. -/
theorem finish_sound
    (hValid : s.mode.ValidAt s.offset) :
    s.finish.Sound (s.mode.floor s.offset) s.offset := by
  unfold finish
  cases hMode : s.mode with
  | blank => exact s.ended_sound (Nat.le_refl _) (by simp)
  | blankAfterReturn =>
      exact s.ended_sound (Nat.le_refl _) (by simp)
  | comment start read =>
      rw [hMode] at hValid
      exact s.ended_one_sound (Nat.le_refl start) hValid
        (Nat.le_refl s.offset) trivial
  | name start read =>
      rw [hMode] at hValid
      exact s.ended_one_sound (Nat.le_refl start) hValid.1
        (Nat.le_refl s.offset) (s.proper_name hValid.2 _ _)
  | number start read part =>
      rw [hMode] at hValid
      dsimp only
      cases hKind : part.kind? with
      | none =>
          exact s.stopped_sound (Nat.le_of_lt hValid.1) _ _
      | some kind =>
          exact s.ended_one_sound (Nat.le_refl start)
            hValid.1 (Nat.le_refl s.offset)
            (s.proper_number hKind hValid.2 _ _)
  | dots start count =>
      rw [hMode] at hValid
      exact s.stopped_sound (Nat.le_of_lt hValid) _ _
  | quotes start count =>
      rw [hMode] at hValid
      dsimp only
      split_ifs
      · exact s.stopped_sound (Nat.le_of_lt hValid) _ _
      · exact s.ended_one_sound (Nat.le_refl start) hValid
          (Nat.le_refl s.offset) trivial
  | string start read escape =>
      rw [hMode] at hValid
      cases escape with
      | none =>
          exact s.stopped_sound (Nat.le_of_lt hValid) _ _
      | some code =>
          exact s.stopped_sound (Nat.le_of_lt hValid) _ _
  | stringEscape start read =>
      rw [hMode] at hValid
      exact s.stopped_sound (Nat.le_of_lt hValid) _ _
  | stringCode start read escape digits =>
      rw [hMode] at hValid
      exact s.stopped_sound (Nat.le_of_lt hValid) _ _
  | block start read =>
      rw [hMode] at hValid
      exact s.stopped_sound (Nat.le_of_lt hValid) _ _
  | blockAfterReturn start read =>
      rw [hMode] at hValid
      exact s.stopped_sound (Nat.le_of_lt hValid) _ _
  | blockEscape start read quotes =>
      rw [hMode] at hValid
      exact s.stopped_sound (Nat.le_of_lt hValid) _ _
  | blockQuotes start read quotes =>
      rw [hMode] at hValid
      have hQuotes : start + quotes < s.offset := hValid
      have hStart : start ≤ s.offset := by omega
      dsimp only
      split_ifs with hFew
      · exact s.stopped_sound hStart _ _
      · apply s.ended_one_sound (Nat.le_refl start)
          (s.blockToken_start_lt_stop hQuotes read)
        · change s.offset - quotes + 3 ≤ s.offset
          omega
        · trivial

/- The tokens of the rest of a text are in order. -/
theorem run_sound
    (hValid : s.mode.ValidAt s.offset)
    (cs : List Char) :
    (run s cs).Sound (s.mode.floor s.offset)
      (s.offset + cs.length) := by
  induction cs generalizing s with
  | nil => exact s.finish_sound hValid
  | cons c cs ih =>
      have hStep := s.step_sound hValid c
      have hLength :
          s.offset + (c :: cs).length =
            s.offset + 1 + cs.length := by
        rw [List.length_cons]
        omega
      rw [hLength]
      unfold run
      cases hNext : s.step c with
      | next tokens s' =>
          rw [hNext] at hStep
          rcases hStep with
            ⟨hTokens, hProper, hValid', hOffset⟩
          have hRest := ih s' hValid'
          rw [hOffset] at hRest hTokens
          refine ⟨hTokens.append hRest.between, ?_,
            hRest.value, hRest.closed⟩
          intro t ht
          rcases List.mem_append.mp ht with ht | ht
          · exact hProper t ht
          · exact hRest.proper t ht
      | stop tokens last fault =>
          rw [hNext] at hStep
          rcases hStep with
            ⟨hTokens, hProper, hKind, hValue⟩
          have hEnd :
              Token.Between (s.offset + 1)
                (s.offset + 1 + cs.length) [] :=
            Nat.le_add_right _ _
          refine ⟨?_, hProper, hValue,
            .inr ⟨hKind, by simp⟩⟩
          have hAll := hTokens.append hEnd
          rwa [List.append_nil] at hAll

/- The tokens of a whole text are in order. -/
theorem run_text_sound
    (text : List Char) :
    (run {} text).Sound 0 text.length := by
  have hBlank : Mode.ValidAt 0 .blank := trivial
  have hRun := run_sound {} hBlank text
  rwa [Nat.zero_add] at hRun

------------------------------------------------------------
-- What Every Step Keeps
------------------------------------------------------------

/- A step to an offset, by tokens and to a mode of a kind. -/
def Step.Keeps
    (P : Mode → Prop)
    (Q : Token → Prop)
    (offset : Nat) :
    Step → Prop
  | .next tokens s =>
      (∀ t ∈ tokens, Q t) ∧ P s.mode ∧ s.offset = offset
  | .stop tokens _ _ => ∀ t ∈ tokens, Q t

section

variable {P : Mode → Prop}
variable {Q : Token → Prop}
variable {s : Scanner}
variable {offset : Nat}

/- A step from the end of a text reads one character more. -/
theorem next_offset
    {front : List Char}
    {c : Char}
    (hOffset : s.offset = front.length) :
    s.offset + 1 = (front ++ [c]).length := by
  simp [hOffset]

theorem goOn_keeps
    (hOffset : s.offset + 1 = offset)
    {mode : Mode}
    (hMode : P mode) :
    (s.goOn mode).Keeps P Q offset :=
  ⟨List.forall_mem_nil _, hMode, hOffset⟩

theorem newLine_keeps
    (hOffset : s.offset + 1 = offset)
    {mode : Mode}
    (hMode : P mode) :
    (s.newLine mode).Keeps P Q offset :=
  ⟨List.forall_mem_nil _, hMode, hOffset⟩

theorem emit_keeps
    (hOffset : s.offset + 1 = offset)
    (hBlank : P .blank)
    {t : Token}
    (hToken : Q t) :
    (s.emit t).Keeps P Q offset :=
  ⟨List.forall_mem_singleton.mpr hToken, hBlank, hOffset⟩

theorem stopAt_keeps
    (place : Nat)
    (fault : Fault) :
    (s.stopAt place fault).Keeps P Q offset :=
  List.forall_mem_nil _

theorem Step.Keeps.after
    {step : Step}
    {t : Token}
    (hStep : step.Keeps P Q offset)
    (hToken : Q t) :
    (step.after t).Keeps P Q offset := by
  cases step with
  | next tokens s =>
      exact ⟨List.forall_mem_cons.mpr ⟨hToken, hStep.1⟩,
        hStep.2⟩
  | stop tokens last fault =>
      exact List.forall_mem_cons.mpr ⟨hToken, hStep⟩

end

/-
  What every step keeps of the text read so far holds of all
  tokens of the text. The induction is over what is left to
  read.
-/
theorem run_keeps
    {P : List Char → Mode → Prop}
    {Q : List Char → Token → Prop}
    (hAppend :
      ∀ text cs t, Q text t → Q (text ++ cs) t)
    (hStep :
      ∀ (s : Scanner) (front : List Char) (c : Char),
        s.offset = front.length → s.mode.ValidAt s.offset →
        P front s.mode →
        (s.step c).Keeps (P (front ++ [c])) (Q (front ++ [c]))
          (front ++ [c]).length)
    (hFinish :
      ∀ (s : Scanner) (front : List Char),
        s.offset = front.length → s.mode.ValidAt s.offset →
        P front s.mode → ∀ t ∈ s.finish.tokens, Q front t)
    {s : Scanner}
    {front : List Char}
    (hOffset : s.offset = front.length)
    (hValid : s.mode.ValidAt s.offset)
    (hMode : P front s.mode)
    (cs : List Char) :
    ∀ t ∈ (run s cs).tokens, Q (front ++ cs) t := by
  induction cs generalizing s front with
  | nil =>
      rw [List.append_nil]
      exact hFinish s front hOffset hValid hMode
  | cons c cs ih =>
      have hSound := s.step_sound hValid c
      have hKeeps := hStep s front c hOffset hValid hMode
      rw [List.append_cons]
      unfold run
      cases hNext : s.step c with
      | next tokens s' =>
          rw [hNext] at hSound hKeeps
          have hRest := ih hKeeps.2.2 hSound.2.2.1 hKeeps.2.1
          refine List.forall_mem_append.mpr ⟨?_, hRest⟩
          intro t ht
          exact hAppend _ cs t (hKeeps.1 t ht)
      | stop tokens last fault =>
          rw [hNext] at hKeeps
          intro t ht
          exact hAppend _ cs t (hKeeps t ht)

end Scanner

namespace TokenStream

/- The tokens of a text stand in order inside the text. -/
theorem ofText_between
    (file : String)
    (text : List Char) :
    Token.Between 0 text.length (ofText file text).ahead := by
  have hScan := Scanner.run_text_sound text
  have hTokens := hScan.between.filter
    (fun t => decide (t.kind ≠ .comment))
  exact hTokens

/- Every token of a text is proper, and no comment. -/
theorem ofText_proper
    (file : String)
    (text : List Char)
    {t : Token}
    (ht : t ∈ (ofText file text).ahead) :
    t.Proper ∧ t.kind ≠ .comment := by
  have hScan := Scanner.run_text_sound text
  rcases List.mem_filter.mp ht with ⟨hMem, hKind⟩
  exact ⟨hScan.proper t hMem, by simpa using hKind⟩

/-
  What follows the last token is the end of the text, or a
  mark for what is wrong.
-/
theorem ofText_last
    (file : String)
    (text : List Char) :
    (ofText file text).last.value = "" ∧
      (((ofText file text).last.kind = .eof ∧
          (ofText file text).last.start = text.length ∧
          (ofText file text).last.stop = text.length ∧
          (ofText file text).fault = none) ∨
        ((ofText file text).last.kind = .invalid ∧
          (ofText file text).fault ≠ none)) := by
  have hScan := Scanner.run_text_sound text
  exact ⟨hScan.value, hScan.closed⟩

/- What every step keeps holds of the tokens of a text. -/
theorem ofText_keeps
    {P : List Char → Scanner.Mode → Prop}
    {Q : List Char → Token → Prop}
    (hAppend :
      ∀ text cs t, Q text t → Q (text ++ cs) t)
    (hStep :
      ∀ (s : Scanner) (front : List Char) (c : Char),
        s.offset = front.length → s.mode.ValidAt s.offset →
        P front s.mode →
        (s.step c).Keeps (P (front ++ [c])) (Q (front ++ [c]))
          (front ++ [c]).length)
    (hFinish :
      ∀ (s : Scanner) (front : List Char),
        s.offset = front.length → s.mode.ValidAt s.offset →
        P front s.mode → ∀ t ∈ s.finish.tokens, Q front t)
    (hBlank : P [] .blank)
    (file : String)
    (text : List Char)
    {t : Token}
    (ht : t ∈ (ofText file text).ahead) :
    Q text t := by
  have hValid : Scanner.Mode.ValidAt 0 .blank := trivial
  have hRun :
      ∀ u ∈ (Scanner.run {} text).tokens, Q ([] ++ text) u :=
    Scanner.run_keeps (s := {}) hAppend hStep hFinish rfl
      hValid hBlank text
  exact hRun t (List.mem_filter.mp ht).1

end TokenStream

end QueryHover
