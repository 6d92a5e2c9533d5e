import Mathlib.Data.List.Forall2
import QueryHover.Proofs.Agreement

/-
  Texts joined by the end of a line.

  A newline ends whatever token may end there, just as the
  end of the text does. So the tokens of two texts with a
  newline between them are those of the first, and then those
  of the second, each of them moved by the same distance.
  Lines and columns are not compared: a return at the end of
  the first text changes how the columns are counted.

  Main declarations:
    * `Token.Moved`
    * `Scanner.step_moved`
    * `Scanner.run_moved`
    * `Scanner.run_newline`
    * `Document.tokens_join`
-/

namespace QueryHover

------------------------------------------------------------
-- Moved Tokens and Scanners
------------------------------------------------------------

/- The same token, further on in a text. -/
structure Token.Moved
    (d : Nat)
    (t u : Token) : Prop where
  word : u.word = t.word
  start : u.start = t.start + d
  stop : u.stop = t.stop + d

theorem Token.Moved.kind
    {d : Nat}
    {t u : Token}
    (h : t.Moved d u) :
    u.kind = t.kind :=
  congrArg Prod.fst h.word

theorem Token.Moved.value
    {d : Nat}
    {t u : Token}
    (h : t.Moved d u) :
    u.value = t.value :=
  congrArg Prod.snd h.word

namespace Scanner

/- What is remembered of the same token further on. -/
def Mode.move
    (d : Nat) :
    Mode → Mode
  | .blank => .blank
  | .blankAfterReturn => .blankAfterReturn
  | .comment start read => .comment (start + d) read
  | .name start read => .name (start + d) read
  | .number start read part => .number (start + d) read part
  | .dots start count => .dots (start + d) count
  | .quotes start count => .quotes (start + d) count
  | .string start read escape =>
      .string (start + d) read
        (escape.map fun code => (code.1 + d, code.2))
  | .stringEscape start read => .stringEscape (start + d) read
  | .stringCode start read escape digits =>
      .stringCode (start + d) read (escape + d) digits
  | .block start read => .block (start + d) read
  | .blockAfterReturn start read =>
      .blockAfterReturn (start + d) read
  | .blockEscape start read count =>
      .blockEscape (start + d) read count
  | .blockQuotes start read count =>
      .blockQuotes (start + d) read count

/- The same state of a scanner, further on in a text. -/
structure Moved
    (d : Nat)
    (s s' : Scanner) : Prop where
  offset : s'.offset = s.offset + d
  mode : s'.mode = s.mode.move d

/- The same step, further on in a text. -/
inductive Step.Moved
    (d : Nat) :
    Step → Step → Prop where
  | next
      {ts us : List Token} {s s' : Scanner}
      (hTokens : List.Forall₂ (Token.Moved d) ts us)
      (hNext : s.Moved d s') :
      Step.Moved d (.next ts s) (.next us s')
  | stop
      {ts us : List Token} {t u : Token} {fault : Fault}
      (hTokens : List.Forall₂ (Token.Moved d) ts us)
      (hLast : t.Moved d u) :
      Step.Moved d (.stop ts t fault) (.stop us u fault)

/- The same scan, further on in a text. -/
structure Scan.Moved
    (d : Nat)
    (scan scan' : Scan) : Prop where
  tokens :
    List.Forall₂ (Token.Moved d) scan.tokens scan'.tokens
  last : scan.last.Moved d scan'.last
  fault : scan'.fault = scan.fault

section

variable {d : Nat}
variable {s s' : Scanner}

theorem token_moved
    (kind : Token.Kind)
    (value : List Char)
    (start stop : Nat) :
    (s.token kind value start stop).Moved d
      (s'.token kind value (start + d) (stop + d)) :=
  ⟨rfl, rfl, rfl⟩

theorem stringToken_moved
    (value : List Char)
    (start stop : Nat) :
    (s.stringToken value start stop).Moved d
      (s'.stringToken value (start + d) (stop + d)) :=
  ⟨rfl, rfl, rfl⟩

theorem blockToken_moved
    (h : s.Moved d s')
    {quotes : Nat}
    (hQuotes : quotes ≤ s.offset)
    (start : Nat)
    (read : List Char) :
    (s.blockToken start read quotes).Moved d
      (s'.blockToken (start + d) read quotes) := by
  refine ⟨rfl, rfl, ?_⟩
  change s'.offset - quotes + 3 = s.offset - quotes + 3 + d
  have hOffset := h.offset
  omega

------------------------------------------------------------
-- Moved Steps
------------------------------------------------------------

theorem goOn_moved
    (h : s.Moved d s')
    (mode : Mode) :
    (s.goOn mode).Moved d (s'.goOn (mode.move d)) := by
  refine .next .nil ⟨?_, rfl⟩
  change s'.offset + 1 = s.offset + 1 + d
  have hOffset := h.offset
  omega

theorem newLine_moved
    (h : s.Moved d s')
    (mode : Mode) :
    (s.newLine mode).Moved d (s'.newLine (mode.move d)) := by
  refine .next .nil ⟨?_, rfl⟩
  change s'.offset + 1 = s.offset + 1 + d
  have hOffset := h.offset
  omega

theorem emit_moved
    {t u : Token}
    (h : s.Moved d s')
    (hToken : t.Moved d u) :
    (s.emit t).Moved d (s'.emit u) := by
  refine .next (.cons hToken .nil) ⟨?_, rfl⟩
  change s'.offset + 1 = s.offset + 1 + d
  have hOffset := h.offset
  omega

theorem stopAt_moved
    (offset : Nat)
    (fault : Fault) :
    (s.stopAt offset fault).Moved d
      (s'.stopAt (offset + d) fault) :=
  .stop .nil (token_moved _ _ _ _)

/- A token emitted before what a step emits moves with it. -/
theorem Step.Moved.after
    {x y : Step}
    {t u : Token}
    (h : x.Moved d y)
    (hToken : t.Moved d u) :
    (x.after t).Moved d (y.after u) := by
  cases h with
  | next hTokens hNext =>
      exact .next (.cons hToken hTokens) hNext
  | stop hTokens hLast =>
      exact .stop (.cons hToken hTokens) hLast

/- A step that depends on a test moves on both sides. -/
theorem Step.Moved.ite
    {p : Prop}
    [Decidable p]
    {x y x' y' : Step}
    (hThen : x.Moved d x')
    (hElse : y.Moved d y') :
    (if p then x else y).Moved d (if p then x' else y') := by
  split_ifs
  · exact hThen
  · exact hElse

theorem stepBlank_moved
    (h : s.Moved d s')
    (c : Char) :
    (s.stepBlank c).Moved d (s'.stepBlank c) := by
  unfold stepBlank
  rw [h.offset]
  refine .ite (goOn_moved h _) ?_
  refine .ite (newLine_moved h _) ?_
  refine .ite (newLine_moved h _) ?_
  refine .ite (goOn_moved h (.comment s.offset _)) ?_
  refine .ite (goOn_moved h (.name s.offset _)) ?_
  refine .ite (goOn_moved h (.number s.offset _ _)) ?_
  refine .ite (goOn_moved h (.number s.offset _ _)) ?_
  refine .ite (goOn_moved h (.number s.offset _ _)) ?_
  refine .ite (goOn_moved h (.dots s.offset _)) ?_
  refine .ite (goOn_moved h (.quotes s.offset _)) ?_
  cases punctuator? c with
  | none => exact stopAt_moved _ _
  | some kind =>
      apply emit_moved h
      rw [Nat.add_right_comm]
      exact token_moved _ _ _ _

theorem stepNumber_moved
    (h : s.Moved d s')
    (start : Nat)
    (read : List Char)
    (part : NumberPart)
    (c : Char) :
    (s.stepNumber start read part c).Moved d
      (s'.stepNumber (start + d) read part c) := by
  unfold stepNumber
  rw [h.offset]
  cases part.next? c with
  | some after => exact goOn_moved h (.number start _ _)
  | none =>
      refine .ite (stopAt_moved _ _) ?_
      cases part.kind? with
      | none => exact stopAt_moved _ _
      | some kind =>
          exact (stepBlank_moved h c).after
            (token_moved _ _ _ _)

theorem stepString_moved
    (h : s.Moved d s')
    (start : Nat)
    (read : List Char)
    (c : Char) :
    (s.stepString start read c).Moved d
      (s'.stepString (start + d) read c) := by
  unfold stepString
  rw [h.offset]
  refine .ite ?_ ?_
  · apply emit_moved h
    rw [Nat.add_right_comm]
    exact stringToken_moved _ _ _
  · exact .ite (goOn_moved h (.stringEscape start _))
      (.ite (stopAt_moved _ _)
        (goOn_moved h (.string start _ none)))

theorem stepBlock_moved
    (h : s.Moved d s')
    (start : Nat)
    (read : List Char)
    (c : Char) :
    (s.stepBlock start read c).Moved d
      (s'.stepBlock (start + d) read c) := by
  unfold stepBlock
  rw [h.offset]
  refine .ite (goOn_moved h (.blockQuotes start _ _)) ?_
  refine .ite (goOn_moved h (.blockEscape start _ _)) ?_
  refine .ite (newLine_moved h (.block start _)) ?_
  refine .ite (newLine_moved h (.blockAfterReturn start _)) ?_
  exact .ite (stopAt_moved _ _) (goOn_moved h (.block start _))

/- Every step moves with its scanner: a case for each mode. -/
theorem step_moved
    (h : s.Moved d s')
    (hValid : s.mode.ValidAt s.offset)
    (c : Char) :
    (s.step c).Moved d (s'.step c) := by
  unfold step
  rw [h.mode]
  cases hMode : s.mode with
  | blank => exact stepBlank_moved h c
  | blankAfterReturn =>
      exact .ite (goOn_moved h .blank) (stepBlank_moved h c)
  | comment start read =>
      dsimp only [Mode.move]
      rw [h.offset]
      exact .ite
        ((stepBlank_moved h c).after (token_moved _ _ _ _))
        (goOn_moved h (.comment start _))
  | name start read =>
      dsimp only [Mode.move]
      rw [h.offset]
      exact .ite (goOn_moved h (.name start _))
        ((stepBlank_moved h c).after (token_moved _ _ _ _))
  | number start read part =>
      exact stepNumber_moved h start read part c
  | dots start count =>
      dsimp only [Mode.move]
      rw [h.offset, Nat.add_right_comm]
      exact .ite
        (.ite (goOn_moved h (.dots start _))
          (emit_moved h (token_moved _ _ _ _)))
        (stopAt_moved _ _)
  | quotes start count =>
      dsimp only [Mode.move]
      rw [h.offset]
      exact .ite
        (.ite (goOn_moved h (.quotes start _))
          (stepString_moved h start [] c))
        (.ite (goOn_moved h (.block start _))
          ((stepBlank_moved h c).after
            (stringToken_moved _ _ _)))
  | string start read escape =>
      exact stepString_moved h start read c
  | stringEscape start read =>
      dsimp only [Mode.move]
      rw [h.offset]
      refine .ite (goOn_moved h (.stringCode start _ _ _)) ?_
      cases unescape? c with
      | some e => exact goOn_moved h (.string start _ none)
      | none => exact stopAt_moved _ _
  | stringCode start read escape digits =>
      exact .ite (stopAt_moved _ _)
        (.ite (goOn_moved h (.stringCode start _ escape _))
          (goOn_moved h
            (.string start _ (some (escape, c :: digits)))))
  | block start read => exact stepBlock_moved h start read c
  | blockAfterReturn start read =>
      refine .ite (.next .nil ⟨?_, rfl⟩)
        (stepBlock_moved h start read c)
      change s'.offset + 1 = s.offset + 1 + d
      have hOffset := h.offset
      omega
  | blockEscape start read quotes =>
      exact .ite
        (.ite (goOn_moved h (.blockEscape start _ _))
          (goOn_moved h (.block start _)))
        (stepBlock_moved h start _ c)
  | blockQuotes start read quotes =>
      rw [hMode] at hValid
      have hQuotes : start + quotes < s.offset := hValid
      exact .ite (goOn_moved h (.blockQuotes start _ _))
        (.ite (stepBlock_moved h start _ c)
          ((stepBlank_moved h c).after
            (blockToken_moved h (by omega) start read)))

------------------------------------------------------------
-- Moved Texts
------------------------------------------------------------

theorem ended_moved
    {ts us : List Token}
    (h : s.Moved d s')
    (hTokens : List.Forall₂ (Token.Moved d) ts us) :
    (s.ended ts).Moved d (s'.ended us) :=
  ⟨hTokens, ⟨rfl, h.offset, h.offset⟩, rfl⟩

theorem stopped_moved
    (offset : Nat)
    (fault : Fault) :
    (s.stopped offset fault).Moved d
      (s'.stopped (offset + d) fault) :=
  ⟨.nil, token_moved _ _ _ _, rfl⟩

theorem finish_moved
    (h : s.Moved d s')
    (hValid : s.mode.ValidAt s.offset) :
    s.finish.Moved d s'.finish := by
  unfold finish
  rw [h.mode, h.offset]
  cases hMode : s.mode with
  | blank => exact ended_moved h .nil
  | blankAfterReturn => exact ended_moved h .nil
  | comment start read =>
      exact ended_moved h (.cons (token_moved _ _ _ _) .nil)
  | name start read =>
      exact ended_moved h (.cons (token_moved _ _ _ _) .nil)
  | number start read part =>
      dsimp only [Mode.move]
      cases part.kind? with
      | none => exact stopped_moved _ _
      | some kind =>
          exact ended_moved h
            (.cons (token_moved _ _ _ _) .nil)
  | dots start count => exact stopped_moved _ _
  | quotes start count =>
      dsimp only [Mode.move]
      split_ifs
      · exact stopped_moved _ _
      · exact ended_moved h
          (.cons (stringToken_moved _ _ _) .nil)
  | string start read escape =>
      cases escape with
      | none => exact stopped_moved _ _
      | some code => exact stopped_moved _ _
  | stringEscape start read => exact stopped_moved _ _
  | stringCode start read escape digits =>
      exact stopped_moved _ _
  | block start read => exact stopped_moved _ _
  | blockAfterReturn start read => exact stopped_moved _ _
  | blockEscape start read quotes => exact stopped_moved _ _
  | blockQuotes start read quotes =>
      rw [hMode] at hValid
      have hQuotes : start + quotes < s.offset := hValid
      dsimp only [Mode.move]
      split_ifs
      · exact stopped_moved _ _
      · exact ended_moved h (.cons
          (blockToken_moved h (by omega) start read) .nil)

/- The rest of a text is scanned alike wherever it stands. -/
theorem run_moved
    (h : s.Moved d s')
    (hValid : s.mode.ValidAt s.offset)
    (cs : List Char) :
    (run s cs).Moved d (run s' cs) := by
  induction cs generalizing s s' with
  | nil => exact finish_moved h hValid
  | cons c cs ih =>
      have hSound := s.step_sound hValid c
      have hStep := step_moved h hValid c
      unfold run
      generalize s.step c = x at hSound hStep
      generalize s'.step c = y at hStep
      cases hStep with
      | next hTokens hNext =>
          have hRest := ih hNext hSound.2.2.1
          exact ⟨List.rel_append hTokens hRest.tokens,
            hRest.last, hRest.fault⟩
      | stop hTokens hLast => exact ⟨hTokens, hLast, rfl⟩

end

------------------------------------------------------------
-- The End of a Line
------------------------------------------------------------

/- No part of a number goes on with a newline. -/
theorem NumberPart.next?_newline
    (part : NumberPart) :
    part.next? '\n' = none := by
  cases part
  all_goals rfl

/-
  Where a text may end, a newline emits the same tokens, and
  nothing is being read after it.
-/
theorem step_newline
    (s : Scanner)
    (h : s.finish.fault = none) :
    ∃ s',
      s.step '\n' = .next s.finish.tokens s' ∧
        s'.mode = .blank ∧ s'.offset = s.offset + 1 := by
  unfold finish at h ⊢
  unfold step
  cases hMode : s.mode with
  | blank => exact ⟨_, rfl, rfl, rfl⟩
  | blankAfterReturn => exact ⟨_, rfl, rfl, rfl⟩
  | comment start read => exact ⟨_, rfl, rfl, rfl⟩
  | name start read => exact ⟨_, rfl, rfl, rfl⟩
  | number start read part =>
      rw [hMode] at h
      dsimp only at h ⊢
      unfold stepNumber
      rw [part.next?_newline]
      cases hKind : part.kind? with
      | none =>
          rw [hKind] at h
          cases h
      | some kind =>
          cases part
          all_goals exact ⟨_, rfl, rfl, rfl⟩
  | quotes start count =>
      rw [hMode] at h
      dsimp only at h ⊢
      split_ifs at h with hOne
      · cases h
      · rw [if_neg hOne, if_neg hOne]
        exact ⟨_, rfl, rfl, rfl⟩
  | blockQuotes start read quotes =>
      rw [hMode] at h
      dsimp only at h ⊢
      split_ifs at h with hFew
      · cases h
      · rw [if_neg hFew, if_neg hFew]
        exact ⟨_, rfl, rfl, rfl⟩
  | string start read escape =>
      rw [hMode] at h
      cases escape with
      | none => cases h
      | some code => cases h
  | dots start count | stringEscape start read
  | stringCode start read escape digits | block start read
  | blockAfterReturn start read
  | blockEscape start read quotes =>
      rw [hMode] at h
      cases h

theorem run_of_next
    {s s' : Scanner}
    {c : Char}
    {ts : List Token}
    (h : s.step c = .next ts s')
    (cs : List Char) :
    run s (c :: cs) =
      { run s' cs with tokens := ts ++ (run s' cs).tokens } := by
  conv_lhs => unfold run
  rw [h]

/-
  After a text that ends well and a newline, the scanner
  starts afresh.
-/
theorem run_newline
    (s : Scanner)
    (hValid : s.mode.ValidAt s.offset)
    (cs ds : List Char)
    (h : (run s cs).fault = none) :
    ∃ s' : Scanner,
      s'.mode = .blank ∧
        s'.offset = s.offset + cs.length + 1 ∧
        run s (cs ++ '\n' :: ds) =
          { run s' ds with
            tokens := (run s cs).tokens ++ (run s' ds).tokens } := by
  induction cs generalizing s with
  | nil =>
      rcases step_newline s h with ⟨s', hStep, hMode, hOffset⟩
      exact ⟨s', hMode, hOffset, run_of_next hStep ds⟩
  | cons c cs ih =>
      have hSound := s.step_sound hValid c
      cases hStep : s.step c with
      | stop tokens last fault =>
          unfold run at h
          rw [hStep] at h
          cases h
      | next tokens s₁ =>
          rw [hStep] at hSound
          rcases hSound with ⟨_, _, hValid₁, hOffset₁⟩
          rw [run_of_next hStep] at h ⊢
          rcases ih s₁ hValid₁ h with
            ⟨s', hMode, hOffset, hRun⟩
          refine ⟨s', hMode, ?_, ?_⟩
          · rw [hOffset, hOffset₁, List.length_cons]
            omega
          · rw [List.cons_append, run_of_next hStep, hRun]
            simp only [List.append_assoc]

end Scanner

------------------------------------------------------------
-- Joined Texts
------------------------------------------------------------

/-
  The tokens of two texts with a newline between them are
  those of the one and then those of the other, moved.
-/
theorem Document.tokens_join
    {text : List Char}
    (h : (tokens text).fault = none)
    (text' : List Char) :
    ∃ us,
      (tokens (text ++ '\n' :: text')).ahead =
          (tokens text).ahead ++ us ∧
        List.Forall₂ (Token.Moved (text.length + 1))
          (tokens text').ahead us ∧
        (tokens (text ++ '\n' :: text')).last.kind =
          (tokens text').last.kind := by
  have hBlank : Scanner.Mode.ValidAt 0 .blank := trivial
  rcases Scanner.run_newline {} hBlank text text' h with
    ⟨s, hMode, hOffset, hRun⟩
  have hStart : Scanner.Moved (text.length + 1) {} s := by
    refine ⟨?_, hMode⟩
    rw [hOffset]
    change 0 + text.length + 1 = 0 + (text.length + 1)
    omega
  have hMoved := Scanner.run_moved hStart hBlank text'
  refine ⟨(Scanner.run s text').tokens.filter
    fun t => t.kind ≠ .comment, ?_, ?_, ?_⟩
  · unfold tokens TokenStream.ofText
    rw [hRun]
    exact List.filter_append _ _
  · refine List.rel_filter ?_ hMoved.tokens
    intro t u hToken
    simp [hToken.kind]
  · unfold tokens TokenStream.ofText
    rw [hRun]
    exact hMoved.last.kind

end QueryHover
