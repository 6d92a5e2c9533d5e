import QueryHover.Node.Reading
import QueryHover.Output.Refusal
import QueryHover.Proofs.Places
import QueryHover.Proofs.Underlining

/-
  What the report of a refused query points at.

  The grammar blames a token of the text, and the report
  shows a line and a caret for it. The line is found by the
  number that the scanner counted, the caret by its column.
  In a text without carriage returns both lead back to the
  first character of the token, strings apart.

  Main declarations:
    * `TokenStream.Holds`
    * `Document.parse_blames`
    * `SyntaxError.message_plain`
    * `SyntaxError.ShownAt`
    * `Refusal.report_points`
-/

namespace QueryHover

------------------------------------------------------------
-- Query Documents
------------------------------------------------------------

namespace Grammar

open QueryHover.Parser

variable {T : Token → Prop}

theorem yields_initial :
    Yields T initial fun _ => True := by
  refine (yields_skip .equals).bind fun _ _ => ?_
  refine .ite ?_ (.pure trivial)
  exact (yields_value true).bind fun _ _ => .pure trivial

theorem yields_variableDefinition :
    Yields T variableDefinition fun _ => True := by
  refine (yields_expect .dollar).bind fun _ _ => ?_
  refine (yields_expect .name).bind fun _ _ => ?_
  refine (yields_expect .colon).bind fun _ _ => ?_
  refine yields_typeRef.bind fun _ _ => ?_
  refine yields_initial.bind fun _ _ => ?_
  exact (yields_directives false).bind fun _ _ =>
    .pure trivial

theorem yields_variableDefinitions :
    Yields T variableDefinitions fun _ => True := by
  refine (yields_nonEmptyList .parenL .parenR
    yields_variableDefinition).bind fun _ _ => ?_
  exact .pure trivial

theorem yields_fieldName :
    Yields T fieldName fun _ => True := by
  refine (yields_expect .name).bind fun _ _ => ?_
  refine (yields_skip .colon).bind fun _ _ => ?_
  refine .ite ?_ (.pure trivial)
  exact (yields_expect .name).bind fun _ _ => .pure trivial

variable {nested : Parser Unit}

theorem yields_field
    (h : Yields T nested fun _ => True) :
    Yields T (field nested) fun _ => True := by
  refine yields_fieldName.bind fun _ _ => ?_
  refine (yields_arguments false).bind fun _ _ => ?_
  refine (yields_directives false).bind fun _ _ => ?_
  exact yields_peek.bind fun _ _ => .ite h (.pure trivial)

theorem yields_condition :
    Yields T condition fun _ => True := by
  refine yields_peek.bind fun _ _ => ?_
  refine .ite ?_ (.pure trivial)
  refine yields_next.bind fun _ _ => ?_
  exact (yields_expect .name).bind fun _ _ => .pure trivial

theorem yields_fragment
    (h : Yields T nested fun _ => True) :
    Yields T (fragment nested) fun _ => True := by
  refine (yields_expect .spread).bind fun _ _ => ?_
  refine yields_peek.bind fun _ _ => ?_
  refine .ite ?_ ?_
  · refine yields_next.bind fun _ _ => ?_
    exact (yields_directives false).bind fun _ _ =>
      .pure trivial
  · refine yields_condition.bind fun _ _ => ?_
    exact (yields_directives false).bind fun _ _ => h

theorem yields_selection
    (h : Yields T nested fun _ => True) :
    Yields T (selection nested) fun _ => True :=
  yields_peek.bind fun _ _ =>
    .ite (yields_fragment h) (yields_field h)

theorem yields_selectionSetWithin
    (depth : Nat) :
    Yields T (selectionSetWithin depth) fun _ => True := by
  induction depth with
  | zero =>
      exact yields_peek.bind fun _ ht =>
        yields_refuse ht (by simp)
  | succ depth ih =>
      refine yields_peek.bind fun _ ht => ?_
      refine .ite ?_ (yields_refuse ht (by simp))
      refine (yields_nonEmptyList .braceL .braceR
        (yields_selection ih)).bind fun _ _ => ?_
      exact .pure trivial

theorem yields_selectionSet :
    Yields T selectionSet fun _ => True :=
  yields_get.bind fun _ _ => yields_selectionSetWithin _

theorem yields_operationName :
    Yields T operationName fun _ => True := by
  refine yields_peek.bind fun _ _ => ?_
  refine .ite ?_ (.pure trivial)
  exact yields_next.bind fun _ _ => .pure trivial

theorem yields_operationDefinition :
    Yields T operationDefinition fun _ => True := by
  refine yields_next.bind fun _ _ => ?_
  refine yields_operationName.bind fun _ _ => ?_
  refine yields_variableDefinitions.bind fun _ _ => ?_
  exact (yields_directives false).bind fun _ _ =>
    yields_selectionSet

theorem yields_fragmentName :
    Yields T fragmentName fun _ => True := by
  refine yields_peek.bind fun _ _ => ?_
  refine .ite yields_unexpected ?_
  exact (yields_expect .name).bind fun _ _ => .pure trivial

theorem yields_fragmentDefinition :
    Yields T fragmentDefinition fun _ => True := by
  refine (yields_word "fragment").bind fun _ _ => ?_
  refine yields_fragmentName.bind fun _ _ => ?_
  refine yields_variableDefinitions.bind fun _ _ => ?_
  refine (yields_word "on").bind fun _ _ => ?_
  refine (yields_expect .name).bind fun _ _ => ?_
  exact (yields_directives false).bind fun _ _ =>
    yields_selectionSet

theorem yields_definition :
    Yields T definition fun _ => True := by
  refine yields_peek.bind fun t _ => ?_
  cases t.kind
  case braceL => exact yields_selectionSet
  case name =>
    refine .ite yields_operationDefinition ?_
    exact .ite yields_fragmentDefinition yields_unexpected
  all_goals exact yields_unexpected

theorem yields_document :
    Yields T document fun _ => True := by
  refine (yields_readWhile _ yields_definition).bind ?_
  exact fun _ _ => .pure trivial

end Grammar

------------------------------------------------------------
-- Tokens That are Blamed
------------------------------------------------------------

/- A token of a stream, a comment, or the mark behind them. -/
def TokenStream.Holds
    (s : TokenStream)
    (t : Token) : Prop :=
  t ∈ s.ahead ∨ t = s.last ∨ t ∈ s.comments

theorem TokenStream.of_holds
    (s : TokenStream) :
    s.Of s.Holds :=
  ⟨fun _ ht => .inl ht, .inr (.inl rfl),
    fun _ ht => .inr (.inr ht)⟩

theorem TokenStream.Of.holds
    {T : Token → Prop}
    {s : TokenStream}
    {t : Token}
    (h : s.Of T)
    (ht : s.Holds t) :
    T t := by
  rcases ht with ht | rfl | ht
  · exact h.ahead t ht
  · exact h.last
  · exact h.comments t ht

/- A text is refused for one of its tokens. -/
theorem Document.parse_blames
    {text : List Char}
    {e : SyntaxError}
    (h : parse text = .error e) :
    e.Blames (TokenStream.ofText "input" text).Holds := by
  have hTokens := (TokenStream.ofText "input" text).of_holds
  unfold parse Grammar.check StateT.run' at h
  dsimp only at h
  cases hRun :
      Grammar.document (TokenStream.ofText "input" text) with
  | ok result =>
      rw [hRun] at h
      cases h
  | error e' =>
      rw [hRun] at h
      cases h
      exact Grammar.yields_document.of_error hTokens hRun

------------------------------------------------------------
-- Messages
------------------------------------------------------------

open Style (IsPlain)

theorem Style.isPlain_of_all
    {text : List Char}
    (h : text.all (fun c => c ∉ ['\t', '\n', '\r']) = true) :
    ∀ c ∈ text, IsPlain c := by
  intro c hc
  have hTest := List.all_eq_true.mp h c hc
  simpa [IsPlain] using hTest

namespace Text

theorem isPlain_of_isPrintable
    {c : Char}
    (h : isPrintable c = true) :
    IsPlain c := by
  have hTab : isPrintable '\t' = false := by
    decide +kernel
  have hNewline : isPrintable '\n' = false := by
    decide +kernel
  have hReturn : isPrintable '\r' = false := by
    decide +kernel
  refine ⟨?_, ?_, ?_⟩
  · rintro rfl
    exact absurd (hTab.symm.trans h) (by decide)
  · rintro rfl
    exact absurd (hNewline.symm.trans h) (by decide)
  · rintro rfl
    exact absurd (hReturn.symm.trans h) (by decide)

/- The induction takes the last digit off. -/
theorem toDigits_plain
    (n : Nat) :
    ∀ c ∈ Nat.toDigits 16 n, IsPlain c := by
  have hDigit (k : Nat) : IsPlain k.digitChar := by
    simp [IsPlain]
  induction n using Nat.strongRecOn with
  | ind n ih =>
      by_cases hSmall : n < 16
      · rw [Nat.toDigits_of_lt_base hSmall]
        exact List.forall_mem_singleton.mpr (hDigit n)
      · rw [Nat.toDigits_of_base_le (by decide)
          (Nat.le_of_not_lt hSmall)]
        refine List.forall_mem_append.mpr ⟨ih _ (by omega), ?_⟩
        exact List.forall_mem_singleton.mpr (hDigit _)

theorem hexadecimal_plain
    (width n : Nat) :
    ∀ c ∈ hexadecimal width n, IsPlain c := by
  refine List.forall_mem_append.mpr ⟨?_, toDigits_plain n⟩
  intro c hc
  rw [List.eq_of_mem_replicate hc]
  exact ⟨by decide, by decide, by decide⟩

/- A code escape: a backslash, a letter and digits. -/
theorem code_plain
    {letter : Char}
    (h : letter ∉ ['\t', '\n', '\r'])
    (width n : Nat) :
    ∀ c ∈ '\\' :: letter :: hexadecimal width n, IsPlain c := by
  refine List.forall_mem_cons.mpr
    ⟨⟨by decide, by decide, by decide⟩, ?_⟩
  refine List.forall_mem_cons.mpr ⟨?_, hexadecimal_plain _ _⟩
  simpa [IsPlain] using h

theorem escape_plain
    (c : Char) :
    ∀ d ∈ escape '"' c, IsPlain d := by
  unfold escape
  split
  · rename_i hMark
    simp only [Bool.or_eq_true, decide_eq_true_eq] at hMark
    refine Style.isPlain_of_all ?_
    rcases hMark with rfl | rfl
    all_goals decide
  split
  · rename_i hPrintable
    exact List.forall_mem_singleton.mpr
      (isPlain_of_isPrintable hPrintable)
  split
  · rename_i letter hLetter
    refine Style.isPlain_of_all ?_
    unfold shortEscape? at hLetter
    split at hLetter
    all_goals
      first
        | (obtain rfl := Option.some.inj hLetter; decide)
        | exact absurd hLetter (by simp)
  split
  · exact code_plain (by decide) _ _
  split
  · exact code_plain (by decide) _ _
  · exact code_plain (by decide) _ _

theorem quote_plain
    (s : String) :
    ∀ c ∈ (quote s).toList, IsPlain c := by
  unfold quote
  rw [String.toList_ofList]
  refine List.forall_mem_append.mpr
    ⟨List.forall_mem_append.mpr ⟨?_, ?_⟩, ?_⟩
  · exact Style.isPlain_of_all (by decide)
  · intro d hd
    rcases List.mem_flatMap.mp hd with ⟨c, _, hd⟩
    exact escape_plain c d hd
  · exact Style.isPlain_of_all (by decide)

end Text

theorem Token.Kind.label_plain
    (kind : Token.Kind) :
    ∀ c ∈ kind.label.toList, IsPlain c := by
  apply Style.isPlain_of_all
  cases kind
  all_goals decide

theorem Token.describe_plain
    (t : Token) :
    ∀ c ∈ t.describe.toList, IsPlain c := by
  unfold describe
  split
  · exact t.kind.label_plain
  · simp only [String.toList_append, List.forall_mem_append]
    exact ⟨⟨t.kind.label_plain,
      Style.isPlain_of_all (by decide)⟩,
      Text.quote_plain t.value⟩

/- What is wrong with a token is said on one line. -/
theorem SyntaxError.message_plain
    {e : SyntaxError}
    (h : ∀ fault, e.cause ≠ .unreadable fault) :
    ∀ c ∈ e.message.toList, IsPlain c := by
  unfold message
  cases hCause : e.cause with
  | expectedKind kind =>
      simp only [String.toList_append, List.forall_mem_append]
      exact ⟨⟨⟨Style.isPlain_of_all (by decide),
        kind.label_plain⟩, Style.isPlain_of_all (by decide)⟩,
        e.found.kind.label_plain⟩
  | expectedWord word =>
      simp only [String.toList_append, List.forall_mem_append]
      exact ⟨⟨⟨Style.isPlain_of_all (by decide),
        Text.quote_plain word⟩,
        Style.isPlain_of_all (by decide)⟩,
        e.found.describe_plain⟩
  | unexpected =>
      simp only [String.toList_append, List.forall_mem_append]
      exact ⟨Style.isPlain_of_all (by decide),
        e.found.describe_plain⟩
  | emptyList =>
      simp only [String.toList_append, List.forall_mem_append]
      exact ⟨Style.isPlain_of_all (by decide),
        e.found.kind.label_plain⟩
  | unreadable fault => exact absurd hCause (h fault)

theorem SyntaxError.message_ne_empty
    {e : SyntaxError}
    (h : ∀ fault, e.cause ≠ .unreadable fault) :
    e.message ≠ "" := by
  unfold message
  cases hCause : e.cause with
  | unreadable fault => exact absurd hCause (h fault)
  | _ => simp

------------------------------------------------------------
-- Snippets with Messages
------------------------------------------------------------

namespace Snippet

/- A message stands behind the carets. -/
theorem render_message
    {message : String}
    (h : message ≠ "")
    (color : Bool)
    (severity : Severity)
    (source : String)
    (line column length : Int) :
    render color severity source line column length message =
      render color severity source line column length "" ++
        (" " ++ (mark severity).render color message) := by
  simp [render, h, String.append_assoc]

/- One caret and a message, nothing of which is clamped. -/
theorem render_pointing
    {number : Int}
    (hNumber : 0 ≤ number)
    {message : String}
    (hMessage : message ≠ "")
    (hPlain : ∀ c ∈ message.toList, IsPlain c)
    (severity : Severity)
    (shown : List Char)
    (column : Nat) :
    render false severity (String.ofList shown) number
        (column + 1) 1 message =
      String.ofList (codeLine number shown) ++ "\n" ++
        String.ofList (caretLine number column 1) ++
        " " ++ message := by
  have hLines := toList_render hNumber severity shown column
    (Nat.le_refl 1)
  have hStyle := (mark severity).render_plain hPlain
  rw [String.ofList_toList] at hStyle
  rw [render_message hMessage, hStyle, ← String.toList_inj]
  simp only [String.toList_append, String.toList_ofList]
  rw [Int.natCast_one] at hLines
  rw [hLines]
  simp

end Snippet

------------------------------------------------------------
-- Reports
------------------------------------------------------------

/-
  A line of a text, and a column of it, for the token that an
  error blames. The number of the line and the column are
  those of the token's first character, which stands there;
  the end of the text is one past the end of its last line.
-/
structure SyntaxError.ShownAt
    (text : List Char)
    (e : SyntaxError)
    (shown : List Char)
    (column : Nat) : Prop where
  token :
    e.found ∈ (TokenStream.ofText "input" text).ahead ∨
      e.found = (TokenStream.ofText "input" text).last
  place :
    Position.ofOffset text e.found.start =
      ⟨e.location.line - 1, e.location.column - 1⟩
  found :
    (Text.lines text)[(e.location.line - 1).toNat]? =
      some shown
  starts : e.location.column - 1 = column
  inside :
    ∃ before rest,
      Text.LineAt text (e.location.line - 1).toNat
          before shown rest ∧
        e.found.start = before.length + column
  under :
    e.found.kind ≠ .eof →
      ∃ c, text[e.found.start]? = some c ∧
        shown[column]? = some c
  past :
    e.found.kind = .eof →
      e.found.start = text.length ∧ column = shown.length

/- A carriage return that is not there is not left out. -/
theorem Text.withoutReturn_eq_self
    {line : List Char}
    (h : '\r' ∉ line) :
    withoutReturn line = line := by
  unfold withoutReturn
  split
  · rename_i hLast
    exact absurd (List.mem_of_getLast? hLast) h
  · rfl

/- A character of a line, by its offset in the text. -/
theorem Text.LineAt.getElem?_eq
    {text before shown rest : List Char}
    {index j : Nat}
    (h : LineAt text index before shown rest)
    (hj : j < shown.length) :
    text[before.length + j]? = shown[j]? := by
  rw [h.whole,
    List.getElem?_append_right (Nat.le_add_right _ _),
    Nat.add_sub_cancel_left, List.getElem?_append_left hj]

section

variable {text : List Char}
variable {e : SyntaxError}

namespace TokenStream

variable {t : Token}

/- Comments apart, what a text holds is read or its end. -/
theorem Holds.ahead_or_last
    (h : (ofText "input" text).Holds t)
    (hKind : t.kind ≠ .comment) :
    t ∈ (ofText "input" text).ahead ∨
      t = (ofText "input" text).last := by
  rcases h with hAhead | hLast | hComment
  · exact .inl hAhead
  · exact .inr hLast
  · have hIs : t.kind = .comment := by
      simpa using (List.mem_filter.mp hComment).2
    exact absurd hIs hKind

/- What is neither the end nor an invalid mark is read. -/
theorem ahead_of_kind
    (h : t ∈ (ofText "input" text).ahead ∨
      t = (ofText "input" text).last)
    (hEnd : t.kind ≠ .eof)
    (hInvalid : t.kind ≠ .invalid) :
    t ∈ (ofText "input" text).ahead := by
  refine h.resolve_right fun hLast => ?_
  rcases (ofText_last "input" text).2 with hClosed | hClosed
  · exact hEnd (hLast ▸ hClosed.1)
  · exact hInvalid (hLast ▸ hClosed.1)

/- The mark of the end of a text stands at its end. -/
theorem start_of_eof
    (h : t ∈ (ofText "input" text).ahead ∨
      t = (ofText "input" text).last)
    (hEnd : t.kind = .eof) :
    t.start = text.length := by
  rcases h with hAhead | rfl
  · have hProper := (ofText_proper "input" text hAhead).1
    unfold Token.Proper at hProper
    rw [hEnd] at hProper
    exact hProper.elim
  · rcases (ofText_last "input" text).2 with hClosed | hClosed
    · exact hClosed.2.1
    · exact absurd (hEnd.symm.trans hClosed.1) (by decide)

end TokenStream

/- The token that is blamed, on its line of the text. -/
theorem Document.exists_shownAt
    (hText : '\r' ∉ text)
    (h : parse text = .error e)
    (hKind :
      e.found.kind ∉
        [Token.Kind.invalid, .string, .blockString, .comment]) :
    ∃ shown column, e.ShownAt text shown column := by
  simp only [List.mem_cons, List.not_mem_nil, or_false,
    not_or] at hKind
  rcases hKind with ⟨hInvalid, hString, hBlock, hComment⟩
  have hHolds := (parse_blames h).1
  have hToken := hHolds.ahead_or_last hComment
  have hPlaced :=
    (TokenStream.ofText_placedIn hText "input").holds hHolds
      (by simp [Token.Kind.isDisplaced, hInvalid, hString,
        hBlock])
  rcases Position.exists_lineAt (Int.natCast_nonneg _)
      (Int.ofNat_le.mpr hPlaced.1) with
    ⟨shown, before, rest, hLine, hAt, hSign, hColumn, hStart⟩
  rw [hPlaced.2] at hLine hAt hSign hColumn hStart
  obtain ⟨column, hCharacter⟩ :=
    Int.eq_ofNat_of_zero_le hSign
  have hOffset : e.found.start = before.length + column := by
    omega
  refine ⟨shown, column, hToken, hPlaced.2, hLine, hCharacter,
    ⟨before, rest, hAt, hOffset⟩, ?_, ?_⟩
  · intro hEnd
    have hAhead :=
      TokenStream.ahead_of_kind hToken hEnd hInvalid
    have hShows :=
      (TokenStream.ofText_edgedIn "input" text hAhead).1
    rw [hOffset] at hShows ⊢
    have hInside := hAt.lt_of_showsAt hShows (by omega)
    have hLength := Text.length_withoutReturn_le shown
    rcases hShows with ⟨c, hc, _⟩
    rw [hAt.getElem?_eq (by omega)] at hc ⊢
    exact ⟨c, hc, hc⟩
  · intro hEnd
    have hLast := TokenStream.start_of_eof hToken hEnd
    have hWhole := congrArg List.length hAt.whole
    rw [List.length_append, List.length_append] at hWhole
    exact ⟨hLast, by omega⟩

/- The snippet for a token, with nothing left out. -/
theorem SyntaxError.ShownAt.snippet_eq
    {shown : List Char}
    {column : Nat}
    (h : e.ShownAt text shown column)
    (hText : '\r' ∉ text)
    (hCause : ∀ fault, e.cause ≠ .unreadable fault) :
    Refusal.snippet false text e.message
        e.location.line e.location.column =
      String.ofList (Snippet.codeLine e.location.line shown) ++
        "\n" ++
        String.ofList
          (Snippet.caretLine e.location.line column 1) ++
        " " ++ e.message ++ "\n" := by
  have hPositive : 1 ≤ e.location.line := by
    have hSign :=
      (Position.ofOffset_le text e.found.start).1
    rw [h.place] at hSign
    dsimp only at hSign
    omega
  have hLine :
      (Text.lines text)[e.location.line.toNat - 1]? =
        some shown := by
    rw [← h.found]
    congr 1
    omega
  have hReturn : '\r' ∉ shown := by
    rcases h.inside with ⟨before, rest, hAt, _⟩
    intro hMem
    apply hText
    rw [hAt.whole]
    simp [hMem]
  have hColumn : e.location.column = (column : Int) + 1 := by
    have hStarts := h.starts
    omega
  have hNumber : 0 ≤ e.location.line := by
    omega
  unfold Refusal.snippet
  dsimp only
  rw [if_pos hPositive, hLine]
  dsimp only
  rw [Text.withoutReturn_eq_self hReturn, hColumn,
    Snippet.render_pointing hNumber
      (message_ne_empty hCause) (message_plain hCause)]

/- A snippet comes first, and then perhaps a hint. -/
theorem Refusal.exists_report
    (color : Bool)
    (e : SyntaxError)
    (source : String)
    (text : List Char) :
    ∃ hint,
      (ofSyntaxError e).report color source text =
        "✗ Query does not parse:\n" ++
          Snippet.location color source
            e.location.line e.location.column ++
          "\n" ++
          snippet color text e.message
            e.location.line e.location.column ++
          hint :=
  ⟨_, rfl⟩

/-
  The report of a query that does not parse always shows the
  line of the token that is blamed, and one caret below it.
-/
theorem Refusal.report_points
    (hText : '\r' ∉ text)
    (h : Document.parse text = .error e)
    (hKind :
      e.found.kind ∉
        [Token.Kind.invalid, .string, .blockString, .comment])
    (source : String) :
    ∃ shown column hint,
      e.ShownAt text shown column ∧
        (ofSyntaxError e).report false source text =
          "✗ Query does not parse:\n" ++
            Snippet.location false source
              e.location.line e.location.column ++
            "\n" ++
            (String.ofList
                (Snippet.codeLine e.location.line shown) ++
              "\n" ++
              String.ofList
                (Snippet.caretLine e.location.line column 1) ++
              " " ++ e.message ++ "\n") ++
            hint := by
  rcases Document.exists_shownAt hText h hKind with
    ⟨shown, column, hShown⟩
  have hCause (fault : Fault) :
      e.cause ≠ .unreadable fault := by
    intro hUnreadable
    have hMark := (Document.parse_blames h).2 fault hUnreadable
    rw [hMark] at hKind
    exact hKind List.mem_cons_self
  rcases exists_report false e source text with
    ⟨hint, hReport⟩
  rw [hShown.snippet_eq hText hCause] at hReport
  exact ⟨shown, column, hint, hShown, hReport⟩

end

/-
  A bracket after a comment, a block string that goes over a
  line end, and a string with a character of two bytes.
-/
theorem Refusal.report_points_bracket :
    let text :=
      "# é\n\x7bf(a:\"\"\"x\ny\"\"\",b:\"é\")]\x7d".toList
    ∃ e hint,
      '\r' ∉ text ∧ Document.parse text = .error e ∧
        e.found.kind = .bracketR ∧
        e.ShownAt text "y\"\"\",b:\"é\")]\x7d".toList 11 ∧
        (ofSyntaxError e).report false "q" text =
          "✗ Query does not parse:\n--> q:3:12\n" ++
            "3 | y\"\"\",b:\"é\")]\x7d\n" ++
            "  |            ^ Expected Name, found ]\n" ++
            hint := by
  intro text
  have hText : '\r' ∉ text := by
    decide
  have hSeen :
      (match Document.parse text with
        | .ok _ => none
        | .error e => some e) =
        some
          { cause := .expectedKind .name
            found :=
              { kind := .bracketR
                start := 25
                stop := 26
                line := 3
                column := 12 }
            file := "input" } := by
    decide +kernel
  cases h : Document.parse text with
  | ok root =>
      rw [h] at hSeen
      cases hSeen
  | error e =>
      rw [h] at hSeen
      obtain rfl := Option.some.inj hSeen
      rcases report_points hText h (by decide) "q" with
        ⟨shown, column, hint, hShown, hReport⟩
      have hLine :
          "y\"\"\",b:\"é\")]\x7d".toList = shown :=
        Option.some.inj (hShown.found.symm.trans
          (by decide +kernel)).symm
      have hColumn : column = 11 :=
        Int.ofNat_inj.mp hShown.starts.symm
      subst hLine hColumn
      refine ⟨_, hint, hText, rfl, rfl, hShown,
        hReport.trans (congrArg (· ++ hint) ?_)⟩
      decide +kernel

end QueryHover
