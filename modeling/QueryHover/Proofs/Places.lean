import QueryHover.Proofs.Edges
import QueryHover.Proofs.Parsing
import QueryHover.Proofs.Positions

/-
  Where tokens are placed.

  The scanner counts lines as it meets their ends, whether
  between tokens or inside a block string. In a text without
  carriage returns the line and the column of a token are
  therefore those of its first character. Strings are the
  exception: they are placed by what follows their quotes,
  and a block string on the line where it closes.

  Main declarations:
    * `Token.PlacedIn`
    * `Scanner.PlacedIn`
    * `Scanner.step_placedIn`
    * `Scanner.run_placedIn`
    * `TokenStream.ofText_placedIn`
-/

namespace QueryHover

------------------------------------------------------------
-- Positions in a Longer Text
------------------------------------------------------------

namespace Position

/- What follows an offset does not change its position. -/
theorem ofOffset_append
    {text : List Char}
    {k : Nat}
    (h : k ≤ text.length)
    (cs : List Char) :
    ofOffset (text ++ cs) k = ofOffset text k := by
  unfold ofOffset
  rw [Int.toNat_natCast, List.take_append_of_le_length h]

/- The end of a text after one more character. -/
theorem ofOffset_concat
    (text : List Char)
    (c : Char) :
    ofOffset (text ++ [c]) ((text.length + 1 : Nat) : Int) =
      (ofOffset text text.length).advance c := by
  unfold ofOffset
  rw [Int.toNat_natCast, Int.toNat_natCast,
    List.take_of_length_le (by simp), List.take_length,
    List.foldl_append]
  rfl

end Position

/- Strings, and the mark where no token can be read. -/
def Token.Kind.isDisplaced
    (kind : Token.Kind) : Bool :=
  kind = .string || kind = .blockString || kind = .invalid

/- A token that is placed at its first character. -/
def Token.PlacedIn
    (text : List Char)
    (t : Token) : Prop :=
  t.kind.isDisplaced = false →
    t.start ≤ text.length ∧
      Position.ofOffset text t.start =
        ⟨t.line - 1, t.column - 1⟩

theorem Token.PlacedIn.append
    {text : List Char}
    {t : Token}
    (h : t.PlacedIn text)
    (cs : List Char) :
    t.PlacedIn (text ++ cs) := by
  intro hKind
  rcases h hKind with ⟨hStart, hPlace⟩
  rw [Position.ofOffset_append hStart, List.length_append]
  exact ⟨Nat.le_add_right_of_le hStart, hPlace⟩

------------------------------------------------------------
-- Single Steps
------------------------------------------------------------

namespace Scanner

/- The position of an offset of the current line. -/
def placeOf
    (s : Scanner)
    (offset : Nat) : Position :=
  ⟨s.line - 1, (offset : Int) - s.lineStart⟩

/-
  A token being read starts where it would be placed. Line
  ends do not matter to strings, which are placed elsewhere.
-/
def Mode.PlacedIn
    (text : List Char)
    (place : Nat → Position) :
    Mode → Prop
  | .comment start _ | .name start _ | .number start _ _
  | .dots start _ =>
      start ≤ text.length ∧
        Position.ofOffset text start = place start
  | .blankAfterReturn | .blockAfterReturn _ _ => False
  | .blank | .quotes _ _ | .string _ _ _
  | .stringEscape _ _ | .stringCode _ _ _ _ | .block _ _
  | .blockEscape _ _ _ | .blockQuotes _ _ _ => True

/- The scanner after a text without carriage returns. -/
structure PlacedIn
    (text : List Char)
    (s : Scanner) : Prop where
  offset : s.offset = text.length
  here : Position.ofOffset text text.length = s.placeOf s.offset
  mode : s.mode.PlacedIn text s.placeOf

/- A step to the end of a text, by tokens that are placed. -/
def Step.PlacedIn
    (text : List Char) :
    Step → Prop
  | .next tokens s =>
      (∀ t ∈ tokens, t.PlacedIn text) ∧ s.PlacedIn text
  | .stop tokens last _ =>
      (∀ t ∈ tokens, t.PlacedIn text) ∧ last.kind = .invalid

variable {s : Scanner}
variable {front : List Char}
variable {c : Char}
variable {mode : Mode}

theorem Mode.PlacedIn.concat
    {place : Nat → Position}
    (h : mode.PlacedIn front place)
    (c : Char) :
    mode.PlacedIn (front ++ [c]) place := by
  have hOpened (start : Nat)
      (hStart : start ≤ front.length ∧
        Position.ofOffset front start = place start) :
      start ≤ (front ++ [c]).length ∧
        Position.ofOffset (front ++ [c]) start =
          place start := by
    rw [Position.ofOffset_append hStart.1, List.length_append]
    exact ⟨Nat.le_add_right_of_le hStart.1, hStart.2⟩
  cases mode
  case comment start _ => exact hOpened start h
  case name start _ => exact hOpened start h
  case number start _ _ => exact hOpened start h
  case dots start _ => exact hOpened start h
  all_goals exact h

/- A token that starts at an offset of the current line. -/
theorem token_placedIn
    {start : Nat}
    (hStart : start ≤ front.length ∧
      Position.ofOffset front start = s.placeOf start)
    (kind : Token.Kind)
    (value : List Char)
    (stop : Nat) :
    (s.token kind value start stop).PlacedIn front := by
  intro _
  refine ⟨hStart.1, hStart.2.trans ?_⟩
  unfold placeOf token columnOf
  rw [Int.add_sub_cancel]

theorem placedIn_of_displaced
    {t : Token}
    (h : t.kind.isDisplaced = true) :
    t.PlacedIn front :=
  fun hKind => absurd (h.symm.trans hKind) (by decide)

/- The next token starts at the current offset. -/
theorem PlacedIn.start
    (h : s.PlacedIn front) :
    s.offset ≤ front.length ∧
      Position.ofOffset front s.offset =
        s.placeOf s.offset := by
  rw [h.offset]
  exact ⟨Nat.le_refl _, h.offset ▸ h.here⟩

theorem goOn_placedIn
    (h : s.PlacedIn front)
    (hc : c ≠ '\n')
    (hMode : mode.PlacedIn front s.placeOf) :
    (s.goOn mode).PlacedIn (front ++ [c]) := by
  refine ⟨List.forall_mem_nil _, next_offset h.offset, ?_,
    hMode.concat c⟩
  rw [List.length_append, List.length_singleton,
    Position.ofOffset_concat, h.here, Position.advance,
    if_neg hc]
  unfold placeOf
  dsimp only
  congr 1
  omega

/- A line end is met in modes that do not have a place. -/
theorem newLine_placedIn
    (h : s.PlacedIn front)
    (hMode : ∀ place,
      mode.PlacedIn (front ++ ['\n']) place) :
    (s.newLine mode).PlacedIn (front ++ ['\n']) := by
  refine ⟨List.forall_mem_nil _, next_offset h.offset, ?_,
    hMode _⟩
  rw [List.length_append, List.length_singleton,
    Position.ofOffset_concat, h.here, Position.advance,
    if_pos rfl]
  unfold placeOf
  dsimp only
  congr 1
  all_goals omega

theorem emit_placedIn
    (h : s.PlacedIn front)
    (hc : c ≠ '\n')
    {t : Token}
    (ht : t.PlacedIn front) :
    (s.emit t).PlacedIn (front ++ [c]) := by
  have hNext : (s.goOn .blank).PlacedIn (front ++ [c]) :=
    goOn_placedIn h hc trivial
  exact ⟨List.forall_mem_singleton.mpr (ht.append [c]), hNext.2⟩

theorem stopAt_placedIn
    (offset : Nat)
    (fault : Fault) :
    (s.stopAt offset fault).PlacedIn front :=
  ⟨List.forall_mem_nil _, rfl⟩

theorem Step.PlacedIn.after
    {step : Step}
    {t : Token}
    (hStep : step.PlacedIn (front ++ [c]))
    (ht : t.PlacedIn front) :
    (step.after t).PlacedIn (front ++ [c]) := by
  cases step with
  | next tokens s' =>
      exact ⟨List.forall_mem_cons.mpr
        ⟨ht.append [c], hStep.1⟩, hStep.2⟩
  | stop tokens last fault =>
      exact ⟨List.forall_mem_cons.mpr
        ⟨ht.append [c], hStep.1⟩, hStep.2⟩

theorem stepBlank_placedIn
    (h : s.PlacedIn front)
    (hReturn : c ≠ '\r') :
    (s.stepBlank c).PlacedIn (front ++ [c]) := by
  unfold stepBlank
  refine iteInduction (fun hIgnored => ?_) fun _ => ?_
  · have hShows := Text.shows_of_test
      (p := fun d => isIgnored d = true)
      (by decide) (by decide) hIgnored
    exact goOn_placedIn h hShows.1 trivial
  refine iteInduction ?_ fun hc => ?_
  · rintro rfl
    exact newLine_placedIn h fun _ => trivial
  refine iteInduction (fun hc => absurd hc hReturn)
    fun _ => ?_
  -- Every token starts where the scanner is.
  refine iteInduction (fun _ => goOn_placedIn h hc h.start)
    fun _ => ?_
  refine iteInduction (fun _ => goOn_placedIn h hc h.start)
    fun _ => ?_
  refine iteInduction (fun _ => goOn_placedIn h hc h.start)
    fun _ => ?_
  refine iteInduction (fun _ => goOn_placedIn h hc h.start)
    fun _ => ?_
  refine iteInduction (fun _ => goOn_placedIn h hc h.start)
    fun _ => ?_
  refine iteInduction (fun _ => goOn_placedIn h hc h.start)
    fun _ => ?_
  refine iteInduction (fun _ => goOn_placedIn h hc trivial)
    fun _ => ?_
  cases punctuator? c with
  | none => exact stopAt_placedIn _ _
  | some kind =>
      exact emit_placedIn h hc
        (token_placedIn h.start kind [] _)

theorem stepNumber_placedIn
    {start : Nat}
    {read : List Char}
    {part : NumberPart}
    (h : s.PlacedIn front)
    (hMode : s.mode = .number start read part)
    (hReturn : c ≠ '\r') :
    (s.stepNumber start read part c).PlacedIn
      (front ++ [c]) := by
  have hStart := h.mode
  rw [hMode] at hStart
  unfold stepNumber
  cases hNext : part.next? c with
  | some after =>
      exact goOn_placedIn h
        (NumberPart.shows_of_next? hNext).1 hStart
  | none =>
      refine iteInduction (fun _ => stopAt_placedIn _ _)
        fun _ => ?_
      cases part.kind? with
      | none => exact stopAt_placedIn _ _
      | some kind =>
          exact (stepBlank_placedIn h hReturn).after
            (token_placedIn hStart kind read.reverse _)

theorem stepString_placedIn
    (h : s.PlacedIn front)
    (start : Nat)
    (read : List Char) :
    (s.stepString start read c).PlacedIn (front ++ [c]) := by
  unfold stepString
  refine iteInduction ?_ fun _ => ?_
  · rintro rfl
    exact emit_placedIn h (by decide)
      (placedIn_of_displaced rfl)
  refine iteInduction ?_ fun _ => ?_
  · rintro rfl
    exact goOn_placedIn h (by decide) trivial
  refine iteInduction (fun _ => stopAt_placedIn _ _)
    fun hControl => ?_
  have hShows := Text.shows_of_test
    (p := fun d => ¬ isControl d = true)
    (by decide) (by decide) hControl
  exact goOn_placedIn h hShows.1 trivial

theorem stepBlock_placedIn
    (h : s.PlacedIn front)
    (hReturn : c ≠ '\r')
    (start : Nat)
    (read : List Char) :
    (s.stepBlock start read c).PlacedIn (front ++ [c]) := by
  unfold stepBlock
  refine iteInduction ?_ fun _ => ?_
  · rintro rfl
    exact goOn_placedIn h (by decide) trivial
  refine iteInduction ?_ fun _ => ?_
  · rintro rfl
    exact goOn_placedIn h (by decide) trivial
  refine iteInduction ?_ fun hc => ?_
  · rintro rfl
    exact newLine_placedIn h fun _ => trivial
  refine iteInduction (fun hc => absurd hc hReturn)
    fun _ => ?_
  exact iteInduction (fun _ => stopAt_placedIn _ _) fun _ =>
    goOn_placedIn h hc trivial

/- One case for each mode. -/
theorem step_placedIn
    (h : s.PlacedIn front)
    (hReturn : c ≠ '\r') :
    (s.step c).PlacedIn (front ++ [c]) := by
  have hPlace := h.mode
  have hBlank := stepBlank_placedIn h hReturn
  unfold step
  cases hMode : s.mode with
  | blank => exact hBlank
  | blankAfterReturn =>
      rw [hMode] at hPlace
      exact hPlace.elim
  | comment start read =>
      rw [hMode] at hPlace
      refine iteInduction (fun _ => ?_) fun hControl => ?_
      · exact hBlank.after (token_placedIn hPlace _ _ _)
      · have hShows := Text.shows_of_test
          (p := fun d => ¬ isControl d = true)
          (by decide) (by decide) hControl
        exact goOn_placedIn h hShows.1 hPlace
  | name start read =>
      rw [hMode] at hPlace
      refine iteInduction (fun hPart => ?_) fun _ => ?_
      · have hShows := Text.shows_of_test
          (p := fun d => isNamePart d = true)
          (by decide) (by decide) hPart
        exact goOn_placedIn h hShows.1 hPlace
      · exact hBlank.after (token_placedIn hPlace _ _ _)
  | number start read part =>
      exact stepNumber_placedIn h hMode hReturn
  | dots start count =>
      rw [hMode] at hPlace
      refine iteInduction ?_ fun _ => stopAt_placedIn _ _
      rintro rfl
      refine iteInduction (fun _ => ?_) fun _ => ?_
      · exact goOn_placedIn h (by decide) hPlace
      · exact emit_placedIn h (by decide)
          (token_placedIn hPlace _ _ _)
  | quotes start count =>
      refine iteInduction (fun _ => ?_) fun _ => ?_
      · refine iteInduction ?_
          fun _ => stepString_placedIn h start []
        rintro rfl
        exact goOn_placedIn h (by decide) trivial
      · refine iteInduction ?_ fun _ =>
          hBlank.after (placedIn_of_displaced rfl)
        rintro rfl
        exact goOn_placedIn h (by decide) trivial
  | string start read escape =>
      exact stepString_placedIn h start read
  | stringEscape start read =>
      refine iteInduction ?_ fun _ => ?_
      · rintro rfl
        exact goOn_placedIn h (by decide) trivial
      · cases hEscape : unescape? c with
        | none => exact stopAt_placedIn _ _
        | some d =>
            have hSome : unescape? c ≠ none := by
              simp [hEscape]
            have hShows := Text.shows_of_test
              (p := fun d => unescape? d ≠ none)
              (by decide) (by decide) hSome
            exact goOn_placedIn h hShows.1 trivial
  | stringCode start read escape digits =>
      refine iteInduction (fun _ => stopAt_placedIn _ _)
        fun hDigit => ?_
      have hShows := Text.shows_of_test
        (p := fun d => ¬ (hexDigit? d).isNone = true)
        (by decide) (by decide) hDigit
      exact iteInduction
        (fun _ => goOn_placedIn h hShows.1 trivial)
        fun _ => goOn_placedIn h hShows.1 trivial
  | block start read =>
      exact stepBlock_placedIn h hReturn start read
  | blockAfterReturn start read =>
      rw [hMode] at hPlace
      exact hPlace.elim
  | blockEscape start read quotes =>
      refine iteInduction ?_ fun _ =>
        stepBlock_placedIn h hReturn start _
      rintro rfl
      exact iteInduction
        (fun _ => goOn_placedIn h (by decide) trivial)
        fun _ => goOn_placedIn h (by decide) trivial
  | blockQuotes start read quotes =>
      refine iteInduction ?_ fun _ => ?_
      · rintro rfl
        exact goOn_placedIn h (by decide) trivial
      · exact iteInduction
          (fun _ => stepBlock_placedIn h hReturn start _)
          fun _ => hBlank.after (placedIn_of_displaced rfl)

------------------------------------------------------------
-- Whole Texts
------------------------------------------------------------

/- A scan of tokens that are placed, the last mark too. -/
structure Scan.PlacedIn
    (text : List Char)
    (scan : Scan) : Prop where
  tokens : ∀ t ∈ scan.tokens, t.PlacedIn text
  last : scan.last.PlacedIn text

theorem ended_placedIn
    (h : s.PlacedIn front)
    {tokens : List Token}
    (hTokens : ∀ t ∈ tokens, t.PlacedIn front) :
    (s.ended tokens).PlacedIn front :=
  ⟨hTokens, token_placedIn h.start .eof [] _⟩

theorem stopped_placedIn
    (offset : Nat)
    (fault : Fault) :
    (s.stopped offset fault).PlacedIn front :=
  ⟨List.forall_mem_nil _, placedIn_of_displaced rfl⟩

theorem finish_placedIn
    (h : s.PlacedIn front) :
    s.finish.PlacedIn front := by
  have hPlace := h.mode
  have hOne {t : Token} (ht : t.PlacedIn front) :
      (s.ended [t]).PlacedIn front :=
    ended_placedIn h (List.forall_mem_singleton.mpr ht)
  unfold finish
  cases hMode : s.mode with
  | blank => exact ended_placedIn h (List.forall_mem_nil _)
  | comment start read =>
      rw [hMode] at hPlace
      exact hOne (token_placedIn hPlace _ _ _)
  | name start read =>
      rw [hMode] at hPlace
      exact hOne (token_placedIn hPlace _ _ _)
  | number start read part =>
      rw [hMode] at hPlace
      dsimp only
      cases part.kind? with
      | none => exact stopped_placedIn _ _
      | some kind => exact hOne (token_placedIn hPlace _ _ _)
  | quotes start count =>
      dsimp only
      split
      · exact stopped_placedIn _ _
      · exact hOne (placedIn_of_displaced rfl)
  | string start read escape =>
      cases escape with
      | none => exact stopped_placedIn _ _
      | some code => exact stopped_placedIn _ _
  | blockQuotes start read quotes =>
      dsimp only
      split
      · exact stopped_placedIn _ _
      · exact hOne (placedIn_of_displaced rfl)
  | blankAfterReturn =>
      rw [hMode] at hPlace
      exact hPlace.elim
  | dots | stringEscape | stringCode | block
  | blockAfterReturn | blockEscape =>
      exact stopped_placedIn _ _

/- The induction is on the characters that are left. -/
theorem run_placedIn
    {cs : List Char}
    (h : s.PlacedIn front)
    (hReturn : '\r' ∉ cs) :
    (run s cs).PlacedIn (front ++ cs) := by
  induction cs generalizing s front with
  | nil =>
      rw [List.append_nil]
      exact finish_placedIn h
  | cons c cs ih =>
      rw [List.mem_cons, not_or] at hReturn
      have hStep := step_placedIn h (Ne.symm hReturn.1)
      rw [List.append_cons]
      unfold run
      cases hNext : s.step c with
      | next tokens s' =>
          rw [hNext] at hStep
          have hRest := ih hStep.2 hReturn.2
          refine ⟨?_, hRest.last⟩
          exact List.forall_mem_append.mpr
            ⟨fun t ht => (hStep.1 t ht).append cs,
              hRest.tokens⟩
      | stop tokens last fault =>
          rw [hNext] at hStep
          refine ⟨fun t ht => (hStep.1 t ht).append cs, ?_⟩
          apply placedIn_of_displaced
          change last.kind.isDisplaced = true
          rw [hStep.2]
          rfl

end Scanner

/- The tokens of a text without carriage returns. -/
theorem TokenStream.ofText_placedIn
    {text : List Char}
    (h : '\r' ∉ text)
    (file : String) :
    (ofText file text).Of (Token.PlacedIn text) := by
  have hStart : Scanner.PlacedIn [] {} := ⟨rfl, rfl, trivial⟩
  have hRun := Scanner.run_placedIn hStart h
  rw [List.nil_append] at hRun
  refine ⟨?_, hRun.last, ?_⟩
  · exact fun t ht => hRun.tokens t (List.mem_filter.mp ht).1
  · exact fun t ht => hRun.tokens t (List.mem_filter.mp ht).1

end QueryHover
