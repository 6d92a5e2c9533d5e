import Mathlib.Tactic.SplitIfs
import QueryHover.Token.Stream

/-
  What stands between two tokens.

  After a token the scanner starts anew, right behind it. Only
  quotes that follow a block string are taken into the string
  without being covered by its token. From there on it passes
  over blanks, commas, line ends and comments, up to where the
  next token starts.

  Main declarations:
    * `Text.isIgnorable`
    * `Scanner.stepBlank_starts`
    * `Scanner.step_follows`
    * `Scanner.run_resumes`
    * `Scanner.run_gap`
    * `TokenStream.ofText_gap`
-/

namespace QueryHover

/-
  Characters that mean nothing: blanks, commas and line ends,
  and comments up to the ends of their lines. The rest of a
  comment may come first.
-/
def Text.isIgnorable
    (inComment : Bool) :
    List Char → Bool
  | [] => !inComment
  | c :: cs =>
      if c = '\n' || c = '\r' then
        isIgnorable false cs
      else if inComment then
        !Scanner.isControl c && isIgnorable true cs
      else if c = '#' then
        isIgnorable true cs
      else
        Scanner.isIgnored c && isIgnorable false cs

namespace Scanner

------------------------------------------------------------
-- Single Steps
------------------------------------------------------------

/- Where the token being read starts, comments apart. -/
def Mode.opening? :
    Mode → Option Nat
  | .blank | .blankAfterReturn | .comment _ _ => none
  | .name start _ | .number start _ _ | .dots start _
  | .quotes start _ | .string start _ _
  | .stringEscape start _ | .stringCode start _ _ _
  | .block start _ | .blockAfterReturn start _
  | .blockEscape start _ _ | .blockQuotes start _ _ =>
      some start

/- Whether a comment is read, where no other token is. -/
def Mode.inComment? :
    Mode → Option Bool
  | .blank | .blankAfterReturn => some false
  | .comment _ _ => some true
  | _ => none

/- The token is the one being read. -/
def Mode.Opens
    (mode : Mode)
    (t : Token) : Prop :=
  ∀ start ∈ mode.opening?,
    t.start = start ∧ t.kind ≠ .comment

theorem Mode.opens_of
    {mode : Mode}
    {start : Nat}
    (h : mode.opening? = some start)
    {t : Token}
    (hStart : t.start = start)
    (hKind : t.kind ≠ .comment) :
    mode.Opens t := by
  rw [Mode.Opens, h]
  rintro _ ⟨⟩
  exact ⟨hStart, hKind⟩

theorem Mode.opens_of_none
    {mode : Mode}
    (h : mode.opening? = none)
    (t : Token) :
    mode.Opens t := by
  rw [Mode.Opens, h]
  rintro _ ⟨⟩

/-
  What a character between tokens does: it is passed over,
  starts a token, is one, or stops the scanner.
-/
inductive Step.Starts
    (s : Scanner)
    (c : Char) :
    Step → Prop where
  | passes
      {s' : Scanner} {inComment : Bool}
      (hOffset : s'.offset = s.offset + 1)
      (hMode : s'.mode.inComment? = some inComment)
      (hChar :
        ∀ cs, Text.isIgnorable false (c :: cs) =
          Text.isIgnorable inComment cs) :
      Starts s c (.next [] s')
  | opens
      {s' : Scanner}
      (hOffset : s'.offset = s.offset + 1)
      (hMode : s'.mode.opening? = some s.offset) :
      Starts s c (.next [] s')
  | closes
      {t : Token} {s' : Scanner}
      (hStart : t.start = s.offset)
      (hKind : t.kind ≠ .comment)
      (hStop : t.stop = s.offset + 1)
      (hOffset : s'.offset = s.offset + 1)
      (hMode : s'.mode = .blank) :
      Starts s c (.next [t] s')
  | stops
      (last : Token) (fault : Fault) :
      Starts s c (.stop [] last fault)

/-
  What a step does with the token being read: it reads one
  more character of it, takes its last character, ends it
  before the character, or stops. A token ends where it was
  read to, unless it is a block string. Between tokens a step
  may start one.
-/
inductive Step.Follows
    (s : Scanner)
    (c : Char) :
    Step → Prop where
  | starts
      (hMode : s.mode.opening? = none) :
      Follows s c (s.stepBlank c)
  | reads
      {s' : Scanner}
      (hOffset : s'.offset = s.offset + 1)
      (hOpening :
        ∀ start ∈ s.mode.opening?,
          s'.mode.opening? = some start) :
      Follows s c (.next [] s')
  | closes
      {t : Token} {s' : Scanner}
      (hOpens : s.mode.Opens t)
      (hStop : t.stop = s.offset + 1)
      (hOffset : s'.offset = s.offset + 1)
      (hMode : s'.mode = .blank) :
      Follows s c (.next [t] s')
  | ends
      {t : Token}
      (hOpens : s.mode.Opens t)
      (hStop : t.kind ≠ .blockString → t.stop = s.offset) :
      Follows s c ((s.stepBlank c).after t)
  | stops
      (last : Token) (fault : Fault) :
      Follows s c (.stop [] last fault)

section

variable {s : Scanner}
variable {c : Char}

theorem punctuator?_ne_comment
    {kind : Token.Kind}
    (h : punctuator? c = some kind) :
    kind ≠ .comment := by
  unfold punctuator? at h
  split at h
  all_goals
    first
      | (obtain rfl := Option.some.inj h; decide)
      | cases h

/- The first character of a token, or one between tokens. -/
theorem stepBlank_starts
    (s : Scanner)
    (c : Char) :
    (s.stepBlank c).Starts s c := by
  unfold stepBlank
  refine iteInduction (fun hIgnored => ?_) fun _ => ?_
  · refine .passes rfl rfl fun cs => ?_
    have hChar :
        c ≠ '\n' ∧ c ≠ '\r' ∧ c ≠ '#' := by
      simp only [isIgnored, Bool.or_eq_true,
        decide_eq_true_eq] at hIgnored
      rcases hIgnored with ((rfl | rfl) | rfl) | rfl
      all_goals decide
    simp [Text.isIgnorable, hChar, hIgnored]
  refine iteInduction ?_ fun _ => ?_
  · rintro rfl
    exact .passes rfl rfl fun cs => rfl
  refine iteInduction ?_ fun _ => ?_
  · rintro rfl
    exact .passes rfl rfl fun cs => rfl
  refine iteInduction ?_ fun _ => ?_
  · rintro rfl
    exact .passes rfl rfl fun cs => rfl
  refine iteInduction (fun _ => .opens rfl rfl) fun _ => ?_
  refine iteInduction (fun _ => .opens rfl rfl) fun _ => ?_
  refine iteInduction (fun _ => .opens rfl rfl) fun _ => ?_
  refine iteInduction (fun _ => .opens rfl rfl) fun _ => ?_
  refine iteInduction (fun _ => .opens rfl rfl) fun _ => ?_
  refine iteInduction (fun _ => .opens rfl rfl) fun _ => ?_
  cases hKind : punctuator? c with
  | none => exact .stops _ _
  | some kind =>
      exact .closes rfl (punctuator?_ne_comment hKind) rfl rfl
        rfl

theorem goOn_follows
    {start : Nat}
    (h : s.mode.opening? = some start)
    {mode : Mode}
    (hMode : mode.opening? = some start) :
    (s.goOn mode).Follows s c := by
  refine .reads rfl ?_
  rw [h]
  rintro _ ⟨⟩
  exact hMode

theorem newLine_follows
    {start : Nat}
    (h : s.mode.opening? = some start)
    {mode : Mode}
    (hMode : mode.opening? = some start) :
    (s.newLine mode).Follows s c := by
  refine .reads rfl ?_
  rw [h]
  rintro _ ⟨⟩
  exact hMode

theorem NumberPart.kind?_ne_comment
    {part : NumberPart}
    {kind : Token.Kind}
    (h : part.kind? = some kind) :
    kind ≠ .comment := by
  cases part
  all_goals
    cases h
    try decide

theorem stepNumber_follows
    {start : Nat}
    (h : s.mode.opening? = some start)
    (read : List Char)
    (part : NumberPart) :
    (s.stepNumber start read part c).Follows s c := by
  unfold stepNumber
  cases part.next? c with
  | some after => exact goOn_follows h rfl
  | none =>
      refine iteInduction (fun _ => .stops _ _) fun _ => ?_
      cases hKind : part.kind? with
      | none => exact .stops _ _
      | some kind =>
          exact .ends
            (Mode.opens_of h rfl
              (NumberPart.kind?_ne_comment hKind))
            fun _ => rfl

theorem stepString_follows
    {start : Nat}
    (h : s.mode.opening? = some start)
    (read : List Char) :
    (s.stepString start read c).Follows s c := by
  have hKind :
      (s.stringToken read.reverse start
        (s.offset + 1)).kind ≠ .comment := by
    simp [stringToken, token]
  unfold stepString
  refine iteInduction
    (fun _ => .closes (Mode.opens_of h rfl hKind) rfl rfl rfl)
    fun _ => ?_
  refine iteInduction (fun _ => goOn_follows h rfl)
    fun _ => ?_
  exact iteInduction (fun _ => .stops _ _)
    fun _ => goOn_follows h rfl

theorem stepBlock_follows
    {start : Nat}
    (h : s.mode.opening? = some start)
    (read : List Char) :
    (s.stepBlock start read c).Follows s c := by
  unfold stepBlock
  refine iteInduction (fun _ => goOn_follows h rfl)
    fun _ => ?_
  refine iteInduction (fun _ => goOn_follows h rfl)
    fun _ => ?_
  refine iteInduction (fun _ => newLine_follows h rfl)
    fun _ => ?_
  refine iteInduction (fun _ => newLine_follows h rfl)
    fun _ => ?_
  exact iteInduction (fun _ => .stops _ _)
    fun _ => goOn_follows h rfl

/- Every step does one of these things. -/
theorem step_follows
    (s : Scanner)
    (c : Char) :
    (s.step c).Follows s c := by
  have hReads (h : s.mode.opening? = none) {mode : Mode} :
      (s.goOn mode).Follows s c := by
    refine .reads rfl ?_
    rw [h]
    rintro _ ⟨⟩
  unfold step
  cases hCase : s.mode
  all_goals
    have h := congrArg Mode.opening? hCase
  case blank => exact .starts h
  case blankAfterReturn =>
    exact iteInduction (fun _ => hReads h) fun _ => .starts h
  case comment start read =>
    exact iteInduction
      (fun _ => .ends (Mode.opens_of_none h _) fun _ => rfl)
      fun _ => hReads h
  case name start read =>
    exact iteInduction (fun _ => goOn_follows h rfl) fun _ =>
      .ends (Mode.opens_of h rfl (by simp [token]))
        fun _ => rfl
  case number start read part =>
    exact stepNumber_follows h read part
  case dots start count =>
    refine iteInduction (fun _ => ?_) fun _ => .stops _ _
    exact iteInduction (fun _ => goOn_follows h rfl) fun _ =>
      .closes (Mode.opens_of h rfl (by simp [token])) rfl rfl
        rfl
  case quotes start count =>
    refine iteInduction (fun _ => ?_) fun _ => ?_
    · exact iteInduction (fun _ => goOn_follows h rfl)
        fun _ => stepString_follows h []
    · refine iteInduction (fun _ => goOn_follows h rfl)
        fun _ => ?_
      exact .ends
        (Mode.opens_of h rfl (by simp [stringToken, token]))
        fun _ => rfl
  case string start read escape =>
    exact stepString_follows h read
  case stringEscape start read =>
    refine iteInduction (fun _ => goOn_follows h rfl)
      fun _ => ?_
    cases unescape? c with
    | some d => exact goOn_follows h rfl
    | none => exact .stops _ _
  case stringCode start read escape digits =>
    refine iteInduction (fun _ => .stops _ _) fun _ => ?_
    exact iteInduction (fun _ => goOn_follows h rfl) fun _ =>
      goOn_follows h rfl
  case block start read => exact stepBlock_follows h read
  case blockAfterReturn start read =>
    refine iteInduction (fun _ => .reads rfl ?_) fun _ =>
      stepBlock_follows h read
    rw [h]
    rintro _ ⟨⟩
    rfl
  case blockEscape start read quotes =>
    refine iteInduction (fun _ => ?_)
      fun _ => stepBlock_follows h _
    exact iteInduction (fun _ => goOn_follows h rfl) fun _ =>
      goOn_follows h rfl
  case blockQuotes start read quotes =>
    refine iteInduction (fun _ => goOn_follows h rfl)
      fun _ => ?_
    refine iteInduction (fun _ => stepBlock_follows h _)
      fun _ => ?_
    exact .ends
      (Mode.opens_of h rfl (by simp [blockToken, token]))
      fun hKind => absurd rfl hKind

/- At the end of the text at most one token is left. -/
theorem finish_follows
    (s : Scanner) :
    s.finish.tokens = [] ∨
      ∃ t, s.finish.tokens = [t] ∧ s.mode.Opens t ∧
        (t.kind ≠ .blockString → t.stop = s.offset) := by
  unfold finish
  cases s.mode with
  | comment start read =>
      exact .inr ⟨_, rfl, Mode.opens_of_none rfl _,
        fun _ => rfl⟩
  | name start read =>
      exact .inr ⟨_, rfl,
        Mode.opens_of rfl rfl (by simp [token]), fun _ => rfl⟩
  | number start read part =>
      dsimp only
      cases hKind : part.kind? with
      | none => exact .inl rfl
      | some kind =>
          exact .inr ⟨_, rfl,
            Mode.opens_of rfl rfl
              (NumberPart.kind?_ne_comment hKind),
            fun _ => rfl⟩
  | quotes start count =>
      dsimp only
      split_ifs
      · exact .inl rfl
      · exact .inr ⟨_, rfl,
          Mode.opens_of rfl rfl (by simp [stringToken, token]),
          fun _ => rfl⟩
  | blockQuotes start read quotes =>
      dsimp only
      split_ifs
      · exact .inl rfl
      · exact .inr ⟨_, rfl,
          Mode.opens_of rfl rfl (by simp [blockToken, token]),
          fun hKind => absurd rfl hKind⟩
  | string start read escape =>
      cases escape with
      | none => exact .inl rfl
      | some code => exact .inl rfl
  | _ => exact .inl rfl

------------------------------------------------------------
-- Behind a Token
------------------------------------------------------------

/- The scanner between two tokens. -/
def between
    (s : Scanner) : Scanner :=
  { s with mode := .blank }

theorem run_next
    {tokens : List Token}
    {s' : Scanner}
    (h : s.step c = .next tokens s')
    (cs : List Char) :
    (run s (c :: cs)).tokens =
      tokens ++ (run s' cs).tokens := by
  rw [run, h]

theorem run_stop
    {tokens : List Token}
    {last : Token}
    {fault : Fault}
    (h : s.step c = .stop tokens last fault)
    (cs : List Char) :
    (run s (c :: cs)).tokens = tokens := by
  rw [run, h]

/- A character that starts what follows. -/
theorem run_starts
    (h : s.step c = s.stepBlank c)
    (cs : List Char) :
    run s (c :: cs) = run s.between (c :: cs) := by
  have hBlank : s.between.step c = s.stepBlank c := rfl
  rw [run, run, h, hBlank]

/- A token that is ended by the next character. -/
theorem run_ends
    {t : Token}
    (h : s.step c = (s.stepBlank c).after t)
    (cs : List Char) :
    (run s (c :: cs)).tokens =
      t :: (run s.between (c :: cs)).tokens := by
  have hBlank : s.between.step c = s.stepBlank c := rfl
  rw [run, run, h, hBlank]
  cases s.stepBlank c with
  | next tokens s' => rfl
  | stop tokens last fault => rfl

/- The first token is the one being read. -/
theorem run_opens
    {cs : List Char}
    {t : Token}
    {ts : List Token}
    (h : (run s cs).tokens = t :: ts) :
    s.mode.Opens t := by
  induction cs generalizing s with
  | nil =>
      rcases s.finish_follows with hNone | ⟨u, hOne, hOpens, _⟩
      · cases hNone.symm.trans h
      · cases hOne.symm.trans h
        exact hOpens
  | cons c cs ih =>
      have hStep := s.step_follows c
      generalize hNext : s.step c = step at hStep
      cases hStep with
      | starts hMode => exact Mode.opens_of_none hMode t
      | reads hOffset hOpening =>
          rw [run_next hNext] at h
          intro start hStart
          exact ih h start (hOpening start hStart)
      | closes hOpens =>
          rw [run_next hNext] at h
          cases h
          exact hOpens
      | ends hOpens =>
          rw [run_ends hNext] at h
          cases h
          exact hOpens
      | stops last fault =>
          rw [run_stop hNext] at h
          cases h

/- The scanner goes on between tokens, behind a token. -/
def Resumes
    (s : Scanner)
    (cs : List Char)
    (t : Token)
    (after : List Token) : Prop :=
  ∃ s' front rest,
    cs = front ++ rest ∧ s'.mode = .blank ∧
      s'.offset = t.stop ∧
      s'.offset = s.offset + front.length ∧
      (run s' rest).tokens = after

section

variable {cs : List Char}
variable {t : Token}
variable {after : List Token}

theorem Resumes.read
    {s' : Scanner}
    (h : s'.Resumes cs t after)
    (hOffset : s'.offset = s.offset + 1) :
    s.Resumes (c :: cs) t after := by
  rcases h with
    ⟨s'', front, rest, rfl, hMode, hStop, hSame, hAfter⟩
  refine ⟨s'', c :: front, rest, rfl, hMode, hStop, ?_,
    hAfter⟩
  rw [hSame, hOffset, List.length_cons]
  omega

/-
  After a token the scanner starts anew, where the token ends.
  The induction is on the characters. One that ends a token is
  read a second time between tokens, so that this case is
  dealt with first.
-/
theorem run_resumes
    {before : List Token}
    (h : (run s cs).tokens = before ++ t :: after)
    (hKind : t.kind ≠ .blockString) :
    s.Resumes cs t after := by
  induction cs generalizing s before with
  | nil =>
      rcases s.finish_follows with hNone | ⟨u, hOne, _, hStop⟩
      · have hEmpty := hNone.symm.trans h
        simp at hEmpty
      · have hSingle : [u] = before ++ t :: after :=
          hOne.symm.trans h
        rcases before with _ | ⟨v, before⟩
        · cases hSingle
          exact ⟨s.between, [], [], rfl, rfl,
            (hStop hKind).symm, rfl, rfl⟩
        · simp at hSingle
  | cons c cs ih =>
      have hCloses {u : Token} {s' : Scanner}
          {before : List Token}
          (hStop : u.stop = s.offset + 1)
          (hOffset : s'.offset = s.offset + 1)
          (hMode : s'.mode = .blank)
          (hTokens :
            [u] ++ (run s' cs).tokens =
              before ++ t :: after) :
          s.Resumes (c :: cs) t after := by
        rcases before with _ | ⟨v, before⟩
        · cases hTokens
          exact ⟨s', [c], cs, rfl, hMode,
            hOffset.trans hStop.symm, hOffset, rfl⟩
        · exact (ih (List.cons.inj hTokens).2).read hOffset
      have hBetween {before : List Token}
          (hTokens :
            (run s.between (c :: cs)).tokens =
              before ++ t :: after) :
          s.Resumes (c :: cs) t after := by
        have hStep := s.stepBlank_starts c
        generalize hNext : s.stepBlank c = step at hStep
        have hNext' : s.between.step c = step := hNext
        cases hStep with
        | passes hOffset =>
            rw [run_next hNext'] at hTokens
            exact (ih hTokens).read hOffset
        | opens hOffset =>
            rw [run_next hNext'] at hTokens
            exact (ih hTokens).read hOffset
        | closes _ _ hStop hOffset hMode =>
            rw [run_next hNext'] at hTokens
            exact hCloses hStop hOffset hMode hTokens
        | stops last fault =>
            rw [run_stop hNext'] at hTokens
            simp at hTokens
      have hStep := s.step_follows c
      generalize hNext : s.step c = step at hStep
      cases hStep with
      | starts hMode =>
          rw [run_starts hNext] at h
          exact hBetween h
      | reads hOffset hOpening =>
          rw [run_next hNext] at h
          exact (ih h).read hOffset
      | closes _ hStop hOffset hMode =>
          rw [run_next hNext] at h
          exact hCloses hStop hOffset hMode h
      | ends _ hStop =>
          rw [run_ends hNext] at h
          rcases before with _ | ⟨v, before⟩
          · cases h
            exact ⟨s.between, [], c :: cs, rfl, rfl,
              (hStop hKind).symm, rfl, rfl⟩
          · exact hBetween (List.cons.inj h).2
      | stops last fault =>
          rw [run_stop hNext] at h
          simp at h

------------------------------------------------------------
-- Before a Token
------------------------------------------------------------

/- Something is passed over up to the start of a token. -/
def Passes
    (s : Scanner)
    (inComment : Bool)
    (cs : List Char)
    (t : Token) : Prop :=
  ∃ gap rest,
    cs = gap ++ rest ∧ Text.isIgnorable inComment gap ∧
      t.start = s.offset + gap.length

theorem Passes.read
    {s' : Scanner}
    {inComment inComment' : Bool}
    (h : s'.Passes inComment' cs t)
    (hOffset : s'.offset = s.offset + 1)
    (hChar :
      ∀ cs, Text.isIgnorable inComment (c :: cs) =
        Text.isIgnorable inComment' cs) :
    s.Passes inComment (c :: cs) t := by
  rcases h with ⟨gap, rest, rfl, hGap, hStart⟩
  refine ⟨c :: gap, rest, rfl, ?_, ?_⟩
  · rw [hChar]
    exact hGap
  · rw [hStart, hOffset, List.length_cons]
    omega

/- A token that starts right away. -/
theorem passes_nothing
    {comments ts : List Token}
    (hComments : ∀ u ∈ comments, u.kind = .comment)
    {u : Token}
    (hStart : u.start = s.offset)
    (hKind : u.kind ≠ .comment)
    (h : u :: ts = comments ++ t :: after) :
    s.Passes false cs t := by
  rcases comments with _ | ⟨v, comments⟩
  · cases h
    exact ⟨[], cs, rfl, rfl, hStart⟩
  · cases h
    exact absurd (hComments u List.mem_cons_self) hKind

/- No token starts with a control character. -/
theorem isControl_stops
    (h : isControl c) :
    isIgnored c = false ∧ c ≠ '#' ∧ isNameStart c = false ∧
      c ≠ '-' ∧ c ≠ '0' ∧ c.isDigit = false ∧ c ≠ '.' ∧
      c ≠ '"' ∧ punctuator? c = none := by
  have hAll :
      ∀ n < 0x20, Char.ofNat n ≠ '\t' →
        isIgnored (Char.ofNat n) = false ∧
          Char.ofNat n ≠ '#' ∧
          isNameStart (Char.ofNat n) = false ∧
          Char.ofNat n ≠ '-' ∧ Char.ofNat n ≠ '0' ∧
          (Char.ofNat n).isDigit = false ∧
          Char.ofNat n ≠ '.' ∧ Char.ofNat n ≠ '"' ∧
          punctuator? (Char.ofNat n) = none := by
    decide
  simp only [isControl, Bool.and_eq_true, decide_eq_true_eq]
    at h
  have hCode := hAll c.toNat h.1
  rw [Char.ofNat_toNat] at hCode
  exact hCode h.2

/- After a comment there is a line end, if anything. -/
theorem stepBlank_control
    (s : Scanner)
    (h : isControl c) :
    (∃ s', s.stepBlank c = .next [] s' ∧
        s'.offset = s.offset + 1 ∧
        s'.mode.inComment? = some false ∧
        (c = '\n' ∨ c = '\r')) ∨
      ∃ last fault, s.stepBlank c = .stop [] last fault := by
  by_cases hLine : c = '\n' ∨ c = '\r'
  · rcases hLine with rfl | rfl
    · exact .inl ⟨_, rfl, rfl, rfl, .inl rfl⟩
    · exact .inl ⟨_, rfl, rfl, rfl, .inr rfl⟩
  · rw [not_or] at hLine
    refine .inr ⟨s.invalidAt s.offset, .ofChar c, ?_⟩
    simp [stepBlank, stopAt, hLine, isControl_stops h]

/- Between tokens the first of them is the one that follows. -/
theorem between_gap
    {comments : List Token}
    (hComments : ∀ u ∈ comments, u.kind = .comment)
    (hRest :
      ∀ (s' : Scanner) (inComment : Bool),
        s'.mode.inComment? = some inComment →
        (run s' cs).tokens = comments ++ t :: after →
        s'.Passes inComment cs t)
    (h :
      (run s.between (c :: cs)).tokens =
        comments ++ t :: after) :
    s.Passes false (c :: cs) t := by
  have hStep := s.stepBlank_starts c
  generalize hNext : s.stepBlank c = step at hStep
  have hNext' : s.between.step c = step := hNext
  cases hStep with
  | @passes s' inComment hOffset hMode hChar =>
      rw [run_next hNext'] at h
      exact (hRest s' inComment hMode h).read hOffset hChar
  | @opens s' hOffset hMode =>
      rw [run_next hNext', List.nil_append] at h
      cases hTokens : (run s' cs).tokens with
      | nil =>
          rw [hTokens] at h
          simp at h
      | cons u ts =>
          have hOpens := run_opens hTokens s.offset hMode
          rw [hTokens] at h
          exact passes_nothing hComments hOpens.1 hOpens.2 h
  | closes hStart hKind =>
      rw [run_next hNext'] at h
      exact passes_nothing hComments hStart hKind h
  | stops last fault =>
      rw [run_stop hNext'] at h
      simp at h

/-
  From between two tokens, or from inside of a comment, what
  can be ignored is passed over up to the next token that is
  not a comment.
-/
theorem run_gap
    {inComment : Bool}
    (hMode : s.mode.inComment? = some inComment)
    {comments : List Token}
    (hComments : ∀ u ∈ comments, u.kind = .comment)
    (hKind : t.kind ≠ .comment)
    (h : (run s cs).tokens = comments ++ t :: after) :
    s.Passes inComment cs t := by
  induction cs generalizing s inComment comments with
  | nil =>
      -- All that may be left is a comment.
      cases hCase : s.mode
      all_goals rw [hCase] at hMode
      case blank | blankAfterReturn =>
        rw [run, finish, hCase] at h
        simp [ended] at h
      case comment start read =>
        rw [run, finish, hCase] at h
        rcases comments with _ | ⟨v, comments⟩
        · cases h
          exact absurd rfl hKind
        · simp [ended] at h
      all_goals cases hMode
  | cons c cs ih =>
      have hBetween
          (hTokens :
            (run s.between (c :: cs)).tokens =
              comments ++ t :: after) :
          s.Passes false (c :: cs) t :=
        between_gap hComments
          (fun s' inComment hIdle hRun =>
            ih hIdle hComments hRun) hTokens
      cases hCase : s.mode
      all_goals rw [hCase] at hMode
      case blank =>
        cases hMode
        have hNext : s.step c = s.stepBlank c := by
          rw [step, hCase]
        rw [run_starts hNext] at h
        exact hBetween h
      case blankAfterReturn =>
        cases hMode
        by_cases hLine : c = '\n'
        · have hNext : s.step c = s.goOn .blank := by
            rw [step, hCase]
            exact if_pos hLine
          rw [run_next hNext] at h
          subst hLine
          exact (ih rfl hComments h).read rfl fun cs => rfl
        · have hNext : s.step c = s.stepBlank c := by
            rw [step, hCase]
            exact if_neg hLine
          rw [run_starts hNext] at h
          exact hBetween h
      case comment start read =>
        cases hMode
        by_cases hControl : isControl c
        · have hNext :
              s.step c =
                (s.stepBlank c).after
                  (s.token .comment read.reverse start
                    s.offset) := by
            rw [step, hCase]
            exact if_pos hControl
          rw [run_ends hNext] at h
          rcases comments with _ | ⟨v, comments⟩
          · cases h
            exact absurd rfl hKind
          rw [List.forall_mem_cons] at hComments
          have hTokens := (List.cons.inj h).2
          rcases s.stepBlank_control hControl with
            ⟨s', hLine, hOffset, hIdle, hChar⟩ |
            ⟨last, fault, hStop⟩
          · have hNext' : s.between.step c = .next [] s' :=
              hLine
            rw [run_next hNext'] at hTokens
            refine (ih hIdle hComments.2 hTokens).read hOffset
              fun cs => ?_
            rcases hChar with rfl | rfl
            · rfl
            · rfl
          · have hNext' : s.between.step c = .stop [] last fault :=
              hStop
            rw [run_stop hNext'] at hTokens
            simp at hTokens
        · have hNext :
              s.step c = s.goOn (.comment start (c :: read)) := by
            rw [step, hCase]
            exact if_neg hControl
          have hChar : c ≠ '\n' ∧ c ≠ '\r' := by
            refine ⟨?_, ?_⟩
            · rintro rfl
              exact hControl (by decide)
            · rintro rfl
              exact hControl (by decide)
          rw [run_next hNext] at h
          refine (ih rfl hComments h).read rfl fun cs => ?_
          simp [Text.isIgnorable, hChar, hControl]
      all_goals cases hMode

end

end

end Scanner

/-
  Two tokens of a text that follow each other, comments apart:
  what stands between them can be ignored, unless the first
  one is a block string.
-/
theorem TokenStream.ofText_gap
    (file : String)
    (text : List Char)
    {t u : Token}
    (h : [t, u] <:+: (ofText file text).ahead)
    (hKind : t.kind ≠ .blockString) :
    ∃ gap,
      Text.isIgnorable false gap ∧
        text.drop t.stop = gap ++ text.drop u.start ∧
        u.start = t.stop + gap.length := by
  rcases h with ⟨before, after, hAhead⟩
  have hTokens :
      ((Scanner.run {} text).tokens.filter fun t =>
        t.kind ≠ .comment) = before ++ t :: u :: after := by
    rw [List.append_assoc] at hAhead
    exact hAhead.symm
  rcases List.filter_eq_append_iff.mp hTokens with
    ⟨front, rest, hAll, _, hRest⟩
  rcases List.filter_eq_cons_iff.mp hRest with
    ⟨comments, rest', rfl, _, _, hRest⟩
  rcases List.filter_eq_cons_iff.mp hRest with
    ⟨comments', rest'', rfl, hComments, hNext, _⟩
  rw [← List.append_assoc] at hAll
  rcases Scanner.run_resumes hAll hKind with
    ⟨s, read, unread, rfl, hMode, hStop, hOffset, hRun⟩
  have hIdle : s.mode.inComment? = some false := by
    rw [hMode]
    rfl
  rcases Scanner.run_gap hIdle (by simpa using hComments)
    (by simpa using hNext) hRun with
    ⟨gap, unread', rfl, hGap, hStart⟩
  rw [hStop] at hStart hOffset
  rw [Nat.zero_add] at hOffset
  refine ⟨gap, hGap, ?_, hStart⟩
  rw [hStart, hOffset, List.drop_left, ← List.drop_drop,
    List.drop_left, List.drop_left]

end QueryHover
