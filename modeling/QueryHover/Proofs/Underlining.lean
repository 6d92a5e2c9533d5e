import QueryHover.Output.Hovering
import QueryHover.Proofs.Edges
import QueryHover.Proofs.Ranges

/-
  What is underlined in an answer for display.

  The last two lines of such an answer show the source line
  where the target starts, and carets below it. The carets
  stand under the characters of the target on that line, and
  under no others. A carriage return at the end of the line
  is not shown; since no target starts or ends with one, that
  takes no caret away.

  Main declarations:
    * `Text.LineAt`
    * `Span.Underlined`
    * `Span.exists_underlined`
    * `Snippet.lines_render`
    * `Answer.pretty_underlines`
-/

namespace QueryHover

------------------------------------------------------------
-- Lines of a Text
------------------------------------------------------------

namespace Text

theorem lines_append
    (xs ys : List Char) :
    lines (xs ++ '\n' :: ys) = lines xs ++ lines ys := by
  induction xs with
  | nil => exact lines_newline ys
  | cons c xs ih =>
      by_cases hc : c = '\n'
      · subst hc
        rw [List.cons_append, lines_newline, lines_newline, ih]
        rfl
      · rcases lines_cons hc xs with ⟨l, ls, hLines, hFront⟩
        rcases lines_cons hc (xs ++ '\n' :: ys) with
          ⟨l', ls', hLines', hFront'⟩
        rw [ih, hLines] at hLines'
        cases hLines'
        rw [List.cons_append, hFront', hFront]
        rfl

theorem lines_of_plain
    {line : List Char}
    (h : '\n' ∉ line) :
    lines line = [line] := by
  induction line with
  | nil => rfl
  | cons c cs ih =>
      rw [List.mem_cons, not_or] at h
      rcases lines_cons (Ne.symm h.1) cs with
        ⟨l, ls, hLines, hFront⟩
      rw [ih h.2] at hLines
      cases hLines
      exact hFront

/-
  A line of a text by its number, with what stands before and
  behind it. The offset of each place on the line is counted
  from where it starts.
-/
structure LineAt
    (text : List Char)
    (index : Nat)
    (before line rest : List Char) : Prop where
  whole : text = before ++ (line ++ rest)
  behind : ∀ c ∈ rest.head?, c = '\n'
  plain : '\n' ∉ line
  offset :
    ∀ j, (Position.onLine index j).offsetIn text =
      before.length + min j line.length

/- The induction is over the text, taken from its front. -/
theorem exists_lineAt
    {text line : List Char}
    {index : Nat}
    (h : (lines text)[index]? = some line) :
    ∃ before rest, LineAt text index before line rest := by
  induction text generalizing index line with
  | nil =>
      cases index with
      | zero =>
          obtain rfl : [] = line := Option.some.inj h
          exact ⟨[], [], rfl, by simp, by simp,
            fun j => by simp [Position.offsetIn_onLine, lines,
              Position.offsetInLines]⟩
      | succ index => cases h
  | cons c cs ih =>
      by_cases hc : c = '\n'
      · subst hc
        rw [lines_newline] at h
        cases index with
        | zero =>
            obtain rfl : [] = line := Option.some.inj h
            refine ⟨[], '\n' :: cs, rfl, by simp, by simp,
              fun j => ?_⟩
            rw [Position.offsetIn_onLine, lines_newline,
              Position.offsetInLines, List.length_nil,
              Nat.zero_add]
        | succ index =>
            rcases ih h with ⟨before, rest, hLine⟩
            refine ⟨'\n' :: before, rest,
              congrArg ('\n' :: ·) hLine.whole, hLine.behind,
              hLine.plain, fun j => ?_⟩
            rw [← Position.behind_newline,
              Position.offsetIn_behind, hLine.offset,
              List.length_cons]
            omega
      · rcases lines_cons hc cs with ⟨l, ls, hLines, hFront⟩
        rw [hFront] at h
        cases index with
        | zero =>
            obtain rfl : c :: l = line := Option.some.inj h
            have hFirst : (lines cs)[0]? = some l := by
              rw [hLines]
              rfl
            rcases ih hFirst with ⟨before, rest, hLine⟩
            have hStart := hLine.offset 0
            rw [Position.offsetIn_onLine, hLines,
              Position.offsetInLines, Nat.zero_min,
              Nat.add_zero] at hStart
            obtain rfl := List.length_eq_zero_iff.mp hStart.symm
            refine ⟨[], rest, congrArg (c :: ·) hLine.whole,
              hLine.behind, ?_, fun j => ?_⟩
            · rw [List.mem_cons, not_or]
              exact ⟨Ne.symm hc, hLine.plain⟩
            · rw [Position.offsetIn_onLine, hFront,
                Position.offsetInLines, List.length_nil,
                Nat.zero_add]
        | succ index =>
            have hNext : (lines cs)[index + 1]? = some line := by
              rw [hLines]
              exact h
            rcases ih hNext with ⟨before, rest, hLine⟩
            refine ⟨c :: before, rest,
              congrArg (c :: ·) hLine.whole, hLine.behind,
              hLine.plain, fun j => ?_⟩
            rw [← Position.behind_later _ _ hc,
              Position.offsetIn_behind, hLine.offset,
              List.length_cons]
            omega

theorem withoutReturn_subset
    (line : List Char) :
    withoutReturn line ⊆ line := by
  unfold withoutReturn
  split
  · exact List.dropLast_subset line
  · exact List.Subset.refl line

theorem length_withoutReturn_le
    (line : List Char) :
    (withoutReturn line).length ≤ line.length := by
  unfold withoutReturn
  split
  · rw [List.length_dropLast]
    omega
  · exact Nat.le_refl _

/- A character of a line that shows is shown. -/
theorem LineAt.lt_of_showsAt
    {text before line rest : List Char}
    {index j : Nat}
    (h : LineAt text index before line rest)
    (hShows : ShowsAt text (before.length + j))
    (hLine : j ≤ line.length) :
    j < (withoutReturn line).length := by
  rcases hShows with ⟨c, hc, hNewline, hReturn⟩
  rw [h.whole, List.getElem?_append_right (Nat.le_add_right _ _),
    Nat.add_sub_cancel_left] at hc
  have hInside : j < line.length := by
    apply Nat.lt_of_le_of_ne hLine
    rintro rfl
    rw [List.getElem?_append_right (Nat.le_refl _),
      Nat.sub_self, ← List.head?_eq_getElem?] at hc
    exact hNewline (h.behind c hc)
  rw [List.getElem?_append_left hInside] at hc
  unfold withoutReturn
  split
  · rename_i hLast
    have hNotLast : j ≠ line.length - 1 := by
      rintro rfl
      rw [List.getLast?_eq_getElem?, hc] at hLast
      exact hReturn (Option.some.inj hLast)
    rw [List.length_dropLast]
    omega
  · exact hInside

end Text

------------------------------------------------------------
-- Carets under a Line
------------------------------------------------------------

/- The position of an offset in the text is on its lines. -/
theorem Position.ofOffset_within
    {text : List Char}
    {k : Int}
    (hFront : 0 ≤ k)
    (hEnd : k ≤ text.length) :
    (ofOffset text k).Within text := by
  rw [← clampIn_eq_self_iff]
  rcases exists_onLine text (ofOffset text k) with
    ⟨line, character, hOffset, hClamp⟩
  rw [hClamp, ← ofOffset_offsetIn, ← hOffset,
    offsetIn_ofOffset_of_le hFront hEnd]

/- An offset is counted from the start of its line. -/
theorem Position.exists_lineAt
    {text : List Char}
    {k : Int}
    (hFront : 0 ≤ k)
    (hEnd : k ≤ text.length) :
    ∃ line before rest,
      (Text.lines text)[(ofOffset text k).line.toNat]? =
          some line ∧
        Text.LineAt text (ofOffset text k).line.toNat
          before line rest ∧
        0 ≤ (ofOffset text k).character ∧
        (ofOffset text k).character ≤ line.length ∧
        k = before.length + (ofOffset text k).character := by
  rcases ofOffset_within hFront hEnd with
    ⟨hSigns, line, hLine, hCharacter⟩
  rw [← Text.lines_eq_splitOn] at hLine
  rcases Text.exists_lineAt hLine with ⟨before, rest, hAt⟩
  refine ⟨line, before, rest, hLine, hAt, hSigns.2, hCharacter,
    ?_⟩
  have hBack := offsetIn_ofOffset_of_le hFront hEnd
  have hOffset : (ofOffset text k).offsetIn text = _ :=
    hAt.offset (ofOffset text k).character.toNat
  have hSign := hSigns.2
  omega

/-
  Carets below the line where a span starts, from a column
  on. There are as many as the span has characters, if it
  ends on the line, and else as many as are left of it. They
  stand under characters of the span only, and under all of
  those that are shown.
-/
structure Span.Underlined
    (text : List Char)
    (span : Span)
    (line : List Char)
    (column count : Nat) : Prop where
  found :
    (Text.lines text)[
      (Position.ofOffset text span.start).line.toNat]? =
        some line
  starts :
    (Position.ofOffset text span.start).character = column
  ends :
    (Position.ofOffset text span.stop).line =
        (Position.ofOffset text span.start).line →
      (count : Int) = span.stop - span.start
  goesOn :
    (Position.ofOffset text span.stop).line ≠
        (Position.ofOffset text span.start).line →
      column + count = (Text.withoutReturn line).length
  some : 1 ≤ count
  shown : column + count ≤ (Text.withoutReturn line).length
  under :
    ∀ j < (Text.withoutReturn line).length,
      (column ≤ j ∧ j < column + count) ↔
        span.Contains
          ((⟨(Position.ofOffset text span.start).line, j⟩ :
            Position).offsetIn text)

/-
  A span that ends on a later line covers the rest of the
  line where it starts.
-/
theorem Span.line_lt_stop
    {text before line rest : List Char}
    {span : Span}
    (hBounds : 0 ≤ span.start ∧ span.start < span.stop ∧
      span.stop ≤ text.length)
    (hLine :
      (Text.lines text)[
        (Position.ofOffset text span.start).line.toNat]? =
          some line)
    (hAt :
      Text.LineAt text
        (Position.ofOffset text span.start).line.toNat
        before line rest)
    (hLater :
      (Position.ofOffset text span.stop).line ≠
        (Position.ofOffset text span.start).line) :
    ((before.length + line.length : Nat) : Int) < span.stop := by
  have hOrder := Position.before_of_lt hBounds.1 hBounds.2.1
    hBounds.2.2
  have hSign := (Position.ofOffset_le text span.start).1
  have hLength : before.length + line.length ≤ text.length := by
    rw [hAt.whole]
    simp
  -- The end of the line is the position of its offset.
  have hEnd :
      Position.ofOffset text
          ((before.length + line.length : Nat) : Int) =
        Position.onLine
          (Position.ofOffset text span.start).line.toNat
          line.length := by
    have hOffset := hAt.offset line.length
    rw [Nat.min_self] at hOffset
    rw [← hOffset, Position.ofOffset_offsetIn,
      Position.clampIn_onLine, hLine]
    simp
  by_contra hNot
  have hUpTo := Position.upTo_of_le (j := span.stop)
    (by omega) (Int.le_of_not_gt hNot) (Int.ofNat_le.mpr hLength)
  rw [hEnd] at hUpTo
  unfold Position.Before at hOrder
  unfold Position.UpTo Position.onLine at hUpTo
  dsimp only at hUpTo
  omega

/- Carets for a span without a line end at its edges. -/
theorem Span.exists_underlined
    {text : List Char}
    {span : Span}
    (hBounds : 0 ≤ span.start ∧ span.start < span.stop ∧
      span.stop ≤ text.length)
    (hFirst : Text.ShowsAt text span.start.toNat)
    (hLast : Text.ShowsAt text (span.stop - 1).toNat) :
    ∃ line column count,
      span.Underlined text line column count := by
  have hInside : span.start ≤ text.length := by
    omega
  rcases Position.exists_lineAt hBounds.1 hInside with
    ⟨line, before, rest, hLine, hAt, hSign, hColumn, hStart⟩
  obtain ⟨column, hCharacter⟩ :=
    Int.eq_ofNat_of_zero_le hSign
  rw [hCharacter] at hColumn hStart
  have hShown : column < (Text.withoutReturn line).length := by
    apply hAt.lt_of_showsAt ?_ (Int.ofNat_le.mp hColumn)
    have hIndex :
        before.length + column = span.start.toNat := by
      omega
    rw [hIndex]
    exact hFirst
  have hOffset (j : Nat)
      (hj : j < (Text.withoutReturn line).length) :
      (⟨(Position.ofOffset text span.start).line, j⟩ :
          Position).offsetIn text = before.length + j := by
    have hLength := Text.length_withoutReturn_le line
    have hPlace := hAt.offset j
    rw [Nat.min_eq_left (by omega)] at hPlace
    exact hPlace
  by_cases hSame :
      (Position.ofOffset text span.stop).line =
        (Position.ofOffset text span.start).line
  · rcases Position.exists_lineAt (k := span.stop)
        (by omega) hBounds.2.2 with
      ⟨line', before', rest', hLine', hAt', hSign', hColumn',
        hStop⟩
    rw [hSame, hLine] at hLine'
    obtain rfl := Option.some.inj hLine'
    have hBefore : before'.length = before.length := by
      rw [hSame] at hAt'
      have hPlace := hAt'.offset 0
      rw [hAt.offset 0] at hPlace
      omega
    have hEnd :
        column + (span.stop - span.start).toNat ≤
          (Text.withoutReturn line).length := by
      have hPrevious :
          column + (span.stop - span.start).toNat - 1 <
            (Text.withoutReturn line).length := by
        apply hAt.lt_of_showsAt ?_ (by omega)
        have hIndex :
            before.length +
                (column + (span.stop - span.start).toNat - 1) =
              (span.stop - 1).toNat := by
          omega
        rw [hIndex]
        exact hLast
      omega
    refine ⟨line, column, (span.stop - span.start).toNat,
      hLine, hCharacter, fun _ => by omega,
      fun hLater => absurd hSame hLater, by omega, hEnd,
      fun j hj => ?_⟩
    rw [hOffset j hj]
    unfold Contains
    omega
  · have hLater := Span.line_lt_stop hBounds hLine hAt hSame
    have hLength := Text.length_withoutReturn_le line
    refine ⟨line, column,
      (Text.withoutReturn line).length - column,
      hLine, hCharacter, fun hEnds => absurd hEnds hSame,
      fun _ => by omega, by omega, by omega, fun j hj => ?_⟩
    rw [hOffset j hj]
    unfold Contains
    omega

------------------------------------------------------------
-- Snippets without Color
------------------------------------------------------------

namespace Style

/- Neither a tab nor a line end. -/
def IsPlain
    (c : Char) : Prop :=
  c ≠ '\t' ∧ c ≠ '\n' ∧ c ≠ '\r'

variable {text : List Char}

theorem expandTabs_plain
    (h : ∀ c ∈ text, IsPlain c) :
    expandTabs text = text := by
  induction text with
  | nil => rfl
  | cons c cs ih =>
      rw [List.forall_mem_cons] at h
      have hRest := ih h.2
      unfold expandTabs at hRest ⊢
      rw [List.flatMap_cons, hRest, if_neg h.1.1]
      rfl

theorem joinLineEnds_plain
    (h : ∀ c ∈ text, IsPlain c) :
    joinLineEnds text = text := by
  induction text with
  | nil => rfl
  | cons c cs ih =>
      rw [List.forall_mem_cons] at h
      rw [joinLineEnds, ih h.2]
      intro rest hReturn
      exact absurd hReturn h.1.2.2

/- Without color, plain text is left as it is. -/
theorem render_plain
    (style : Style)
    (h : ∀ c ∈ text, IsPlain c) :
    style.render false (String.ofList text) =
      String.ofList text := by
  have hLine : '\n' ∉ text := fun hMem => (h _ hMem).2.1 rfl
  have hLines : displayLines text = [text] := by
    unfold displayLines
    rw [expandTabs_plain h, joinLineEnds_plain h,
      Text.lines_of_plain hLine]
  unfold render
  rw [String.toList_ofList, hLines]
  simp [paint]

end Style

/- The digits of a number that is not negative. -/
theorem isPlain_of_mem_toString
    {n : Int}
    (h : 0 ≤ n)
    {c : Char}
    (hc : c ∈ (toString n).toList) :
    Style.IsPlain c := by
  rw [Int.toString_eq_repr, Int.repr_eq_if, if_pos h,
    Nat.repr_eq_ofList_toDigits, String.toList_ofList] at hc
  have hDigit : c.isDigit :=
    Nat.isDigit_of_mem_toDigits (by decide) (by decide) hc
  refine ⟨?_, ?_, ?_⟩
  all_goals
    rintro rfl
    cases hDigit

namespace Snippet

/- A source line after its number. -/
def codeLine
    (number : Int)
    (shown : List Char) : List Char :=
  (toString number).toList ++ " | ".toList ++ shown

/- Carets from a column on, below a line with a number. -/
def caretLine
    (number : Int)
    (column count : Nat) : List Char :=
  List.replicate (toString number).length ' ' ++
    " | ".toList ++ List.replicate column ' ' ++
    List.replicate count '^'

/- A snippet without a message, and nothing to clamp. -/
theorem toList_render
    {number : Int}
    (hNumber : 0 ≤ number)
    (severity : Severity)
    (shown : List Char)
    (column : Nat)
    {count : Nat}
    (hCount : 1 ≤ count) :
    (render false severity (String.ofList shown) number
        (column + 1) count "").toList =
      codeLine number shown ++
        '\n' :: caretLine number column count := by
  have hDigits :
      gutter.render false (toString number) =
        toString number := by
    have hPlain := gutter.render_plain fun c hc =>
      isPlain_of_mem_toString hNumber hc
    rwa [String.ofList_toList] at hPlain
  have hBar : gutter.render false "|" = "|" := by
    decide +kernel
  have hCarets :
      (mark severity).render false
          (String.ofList (List.replicate count '^')) =
        String.ofList (List.replicate count '^') := by
    refine (mark severity).render_plain fun c hc => ?_
    rw [List.eq_of_mem_replicate hc]
    exact ⟨by decide, by decide, by decide⟩
  have hLength : (max (count : Int) 1).toNat = count := by
    omega
  have hColumn :
      (max ((column : Int) + 1) 1 - 1).toNat = column := by
    omega
  unfold render codeLine caretLine
  simp only [hLength, hColumn, hDigits, hBar, hCarets,
    if_true, repeated, String.toList_append,
    String.toList_ofList]
  simp

/- Both lines of a snippet. -/
theorem lines_render
    {number : Int}
    (hNumber : 0 ≤ number)
    (severity : Severity)
    {shown : List Char}
    (hShown : '\n' ∉ shown)
    (column : Nat)
    {count : Nat}
    (hCount : 1 ≤ count) :
    Text.lines
        (render false severity (String.ofList shown) number
          (column + 1) count "").toList =
      [codeLine number shown,
        caretLine number column count] := by
  have hDigits : '\n' ∉ (toString number).toList :=
    fun hMem => (isPlain_of_mem_toString hNumber hMem).2.1 rfl
  have hCode : '\n' ∉ codeLine number shown := by
    rw [codeLine, List.mem_append, List.mem_append]
    rintro ((hMem | hMem) | hMem)
    · exact hDigits hMem
    · exact absurd hMem (by decide)
    · exact hShown hMem
  have hCarets : '\n' ∉ caretLine number column count := by
    simp [caretLine]
  rw [toList_render hNumber severity shown column hCount,
    Text.lines_append, Text.lines_of_plain hCode,
    Text.lines_of_plain hCarets]
  rfl

end Snippet

------------------------------------------------------------
-- Answers for Display
------------------------------------------------------------

namespace Answer

/- As many carets are asked for as are due. -/
theorem width_eq
    {a : Answer}
    {span : Span}
    {line : List Char}
    {column count : Nat}
    (h : span.Underlined a.text line column count)
    (hLength : span.length = span.stop - span.start) :
    a.width span line = count := by
  have hColumn := h.starts
  unfold width
  dsimp only
  split
  · rename_i hSame
    rw [hLength, h.ends hSame]
  · rename_i hLater
    have hRest := h.goesOn hLater
    omega

/- An answer with a target ends with a snippet. -/
theorem exists_pretty
    {a : Answer}
    {span : Span}
    {line : List Char}
    {column count : Nat}
    (hTarget : a.target? = some span)
    (h : span.Underlined a.text line column count)
    (hLength : span.length = span.stop - span.start)
    (color : Bool)
    (source : String) :
    ∃ front,
      a.pretty color source =
        front ++ "\n" ++
          Snippet.render color .info
            (String.ofList (Text.withoutReturn line))
            ((Position.ofOffset a.text span.start).line + 1)
            (column + 1) count "" := by
  have hLine : a.lineOf? span = some line := h.found
  unfold pretty
  rw [hTarget]
  dsimp only
  rw [hLine]
  dsimp only
  unfold underline
  rw [width_eq h hLength]
  dsimp only
  rw [h.starts, ← String.append_assoc, ← String.append_assoc]
  exact ⟨_, rfl⟩

/- The last two lines of an answer with a target. -/
theorem lines_pretty
    {a : Answer}
    {span : Span}
    {line : List Char}
    {column count : Nat}
    (hTarget : a.target? = some span)
    (h : span.Underlined a.text line column count)
    (hLength : span.length = span.stop - span.start)
    (source : String) :
    let number :=
      (Position.ofOffset a.text span.start).line + 1
    ∃ front,
      Text.lines (a.pretty false source).toList =
        front ++
          [Snippet.codeLine number (Text.withoutReturn line),
            Snippet.caretLine number column count] := by
  intro number
  have hNumber : 0 ≤ number := by
    have hSign := (Position.ofOffset_le a.text span.start).1
    omega
  have hPlain : '\n' ∉ Text.withoutReturn line := by
    rcases Text.exists_lineAt h.found with ⟨_, _, hAt⟩
    exact fun hMem =>
      hAt.plain (Text.withoutReturn_subset line hMem)
  rcases exists_pretty hTarget h hLength false source with
    ⟨front, hPretty⟩
  refine ⟨Text.lines front.toList, ?_⟩
  rw [hPretty, String.toList_append, String.toList_append,
    List.append_assoc]
  exact (Text.lines_append _ _).trans (congrArg _
    (Snippet.lines_render hNumber .info hPlain column h.some))

/-
  Answers for display underline exactly their targets. Where
  there is content, the last two lines without color are the
  source line where the target starts, after its number, and
  carets under the characters of the target there. The column
  and the number of carets asked for are at least one, so the
  snippet clamps neither.
-/
theorem pretty_underlines
    {text : List Char}
    {root : Node}
    (h : Document.parse text = .ok root)
    (hLength : text.length < UInt64.size / 2)
    (schema : Option Schema)
    (p : Position)
    (source : String) :
    ∃ a,
      resolve schema text p = .ok a ∧
        (a.content ≠ "" →
          ∃ span line column count front,
            let start := Position.ofOffset text span.start
            a.target? = some span ∧
              span.Underlined text line column count ∧
              Text.lines (a.pretty false source).toList =
                front ++
                  [ Snippet.codeLine (start.line + 1)
                      (Text.withoutReturn line),
                    Snippet.caretLine (start.line + 1)
                      column count ] ∧
              max (start.character + 1) 1 =
                start.character + 1 ∧
              max (a.width span line) 1 =
                a.width span line) := by
  refine ⟨ofTree schema text root (p.offsetIn text), ?_, ?_⟩
  · unfold resolve
    rw [h]
    rfl
  · intro hContent
    rcases exists_above h hContent with ⟨leaf, hLeaf, hAbove⟩
    have hTarget := target?_of_content hContent hLeaf
    have hSpan := Document.span_bounds h hAbove.to_reflTransGen
    have hInside := Document.target_bounds h hAbove
    have hEdges := Document.target_edges h hAbove
    have hExact : leaf.target.length = _ :=
      Span.length_eq (by omega) (by omega)
    rcases Span.exists_underlined
        ⟨by omega, hInside.2.1, by omega⟩ hEdges.1 hEdges.2 with
      ⟨line, column, count, hUnder⟩
    rcases lines_pretty hTarget hUnder hExact source with
      ⟨front, hLines⟩
    refine ⟨leaf.target, line, column, count, front, hTarget,
      hUnder, hLines, ?_, ?_⟩
    · rw [hUnder.starts]
      omega
    · have hSome := hUnder.some
      rw [width_eq hUnder hExact]
      omega

/- A variable that goes on after a line end of two characters. -/
theorem pretty_underlines_variable :
    let text := "query($a:T)\x7bb(c:$\r\na)\x7d".toList
    ∃ root a front,
      Document.parse text = .ok root ∧
        text.length < UInt64.size / 2 ∧
        resolve (some {}) text ⟨0, 16⟩ = .ok a ∧
        a.content = "T" ∧
        a.target? = some ⟨16, 20⟩ ∧
        Span.Underlined text ⟨16, 20⟩
          "query($a:T)\x7bb(c:$\r".toList 16 1 ∧
        Text.lines (a.pretty false "q").toList =
          front ++
            [ "1 | query($a:T)\x7bb(c:$".toList,
              "  |                 ^".toList ] := by
  intro text
  have hAdmitted : (Document.parse text).toBool = true := by
    decide +kernel
  have hLength : text.length < UInt64.size / 2 := by
    decide
  rcases Document.exists_root hAdmitted with ⟨root, h⟩
  rcases pretty_underlines h hLength (some {}) ⟨0, 16⟩ "q" with
    ⟨a, hAnswer, hPretty⟩
  have hSeen :
      (resolve (some {}) text ⟨0, 16⟩).toOption.map
          (fun a => (a.content, a.target?)) =
        some ("T", some ⟨16, 20⟩) := by
    decide +kernel
  rw [hAnswer] at hSeen
  have hContent : a.content = "T" :=
    congrArg Prod.fst (Option.some.inj hSeen)
  have hTarget : a.target? = some ⟨16, 20⟩ :=
    congrArg Prod.snd (Option.some.inj hSeen)
  rcases hPretty (by rw [hContent]; decide) with
    ⟨span, line, column, count, front, hFound, hUnder, hLines,
      _⟩
  obtain rfl := Option.some.inj (hFound.symm.trans hTarget)
  have hLine :
      "query($a:T)\x7bb(c:$\r".toList = line :=
    Option.some.inj (hUnder.found.symm.trans
      (by decide +kernel)).symm
  subst hLine
  have hColumn : column = 16 := by
    have hPlace :
        (Position.ofOffset text 16).character = 16 := by
      decide +kernel
    exact Int.ofNat_inj.mp (hUnder.starts.symm.trans hPlace)
  have hCount : count = 1 := by
    have hShown :
        (Text.withoutReturn
          "query($a:T)\x7bb(c:$\r".toList).length = 17 := by
      decide +kernel
    have hRest := hUnder.goesOn (by decide +kernel)
    omega
  subst hColumn hCount
  refine ⟨root, a, front, h, hLength, hAnswer, hContent,
    hTarget, hUnder, hLines.trans (congrArg _ ?_)⟩
  decide +kernel

end Answer

end QueryHover
