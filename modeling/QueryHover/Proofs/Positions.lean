import QueryHover.Text.Position

/-
  Offsets and positions of a text.

  Going from an offset to its position and back leads to the
  offset again, clamped to the text; going from a position to
  its offset and back leads to the position, clamped to the
  lines of the text. Positions grow with their offsets.

  A text is taken apart from its front. One more character
  in front of a text moves every place behind it: down by a
  line if it is a newline, and otherwise, on the first line,
  to the right.

  Main declarations:
    * `Position.Before`
    * `Position.clampIn`
    * `Position.behind`
    * `Position.inverse_up_to_clamping`
-/

namespace QueryHover

------------------------------------------------------------
-- Lines
------------------------------------------------------------

/- The lines of a text are its parts between newlines. -/
theorem Text.lines_eq_splitOn
    (text : List Char) :
    Text.lines text = text.splitOn '\n' := by
  induction text with
  | nil => rfl
  | cons c cs ih =>
      unfold Text.lines List.splitOn
      rw [List.splitOnP_cons_eq_if_modifyHead]
      by_cases hLine : c = '\n'
      · simp [hLine, ih, List.splitOn]
      · rw [ih]
        have hParts :=
          List.splitOnP_ne_nil (fun d => d == '\n') cs
        unfold List.splitOn
        cases hSplit : cs.splitOnP (fun d => d == '\n') with
        | nil => exact absurd hSplit hParts
        | cons l ls => simp [hLine]

theorem Text.lines_newline
    (cs : List Char) :
    Text.lines ('\n' :: cs) = [] :: Text.lines cs := by
  simp [Text.lines]

theorem Text.lines_ne_nil
    (text : List Char) :
    Text.lines text ≠ [] := by
  rw [Text.lines_eq_splitOn]
  exact List.splitOnP_ne_nil _ text

/- Any other character starts the first line. -/
theorem Text.lines_cons
    {c : Char}
    (hLine : c ≠ '\n')
    (cs : List Char) :
    ∃ l ls, Text.lines cs = l :: ls ∧
      Text.lines (c :: cs) = (c :: l) :: ls := by
  cases hLines : Text.lines cs with
  | nil => exact absurd hLines (Text.lines_ne_nil cs)
  | cons l ls =>
      refine ⟨l, ls, rfl, ?_⟩
      simp [Text.lines, hLine, hLines]

namespace Position

------------------------------------------------------------
-- Places in a Text
------------------------------------------------------------

/- The order of a text: by line, then by character. -/
def Before
    (p q : Position) : Prop :=
  p.line < q.line ∨
    p.line = q.line ∧ p.character < q.character

instance
    (p q : Position) :
    Decidable (p.Before q) := by
  unfold Before
  infer_instance

/- The position behind the last character of a text. -/
def endOf
    (text : List Char) : Position :=
  let lines := text.splitOn '\n'
  ⟨lines.length - 1, (lines.getLast?.getD []).length⟩

/-
  The place of a text that a position stands for. Negative
  components count as 0, a character past the end of its line
  as that end, and a line past the last one as the end of the
  text.
-/
def clampIn
    (text : List Char)
    (p : Position) : Position :=
  match (text.splitOn '\n')[p.line.toNat]? with
  | some l => ⟨max 0 p.line, min (max 0 p.character) l.length⟩
  | none => endOf text

/- A position on a line of the text, at most at its end. -/
def Within
    (text : List Char)
    (p : Position) : Prop :=
  p.IsNonNegative ∧
    ∃ l ∈ (text.splitOn '\n')[p.line.toNat]?,
      p.character ≤ l.length

/- A position once there is one more character in front. -/
def behind
    (c : Char)
    (p : Position) : Position :=
  if c = '\n' then
    ⟨p.line + 1, p.character⟩
  else if p.line = 0 then
    ⟨0, p.character + 1⟩
  else
    p

/- The position at a character of a line. -/
def onLine
    (line character : Nat) : Position :=
  ⟨line, character⟩

section

variable {c : Char}
variable (line character : Nat)

theorem behind_newline :
    (onLine line character).behind '\n' =
      onLine (line + 1) character := by
  simp [behind, onLine]

theorem behind_first
    (hc : c ≠ '\n') :
    (onLine 0 character).behind c =
      onLine 0 (character + 1) := by
  simp [behind, onLine, hc]

theorem behind_later
    (hc : c ≠ '\n') :
    (onLine (line + 1) character).behind c =
      onLine (line + 1) character := by
  have hLater : ((line + 1 : Nat) : Int) ≠ 0 := by omega
  unfold behind onLine
  rw [if_neg hc, if_neg hLater]

theorem offsetIn_onLine
    (text : List Char) :
    (onLine line character).offsetIn text =
      offsetInLines (Text.lines text) line character :=
  rfl

theorem clampIn_onLine
    (text : List Char) :
    (onLine line character).clampIn text =
      match (Text.lines text)[line]? with
      | some l => onLine line (min character l.length)
      | none => endOf text := by
  unfold clampIn onLine
  rw [Text.lines_eq_splitOn, Int.toNat_natCast]
  cases (text.splitOn '\n')[line]? with
  | none => rfl
  | some l =>
      dsimp only
      congr 1
      omega

end

/- Only what is not negative of a position matters. -/
theorem exists_onLine
    (text : List Char)
    (p : Position) :
    ∃ line character,
      p.offsetIn text = (onLine line character).offsetIn text ∧
        p.clampIn text =
          (onLine line character).clampIn text := by
  refine ⟨p.line.toNat, p.character.toNat, rfl, ?_⟩
  rw [clampIn_onLine, Text.lines_eq_splitOn]
  unfold clampIn onLine
  cases (text.splitOn '\n')[p.line.toNat]? with
  | none => rfl
  | some l =>
      dsimp only
      congr 1
      · omega
      · omega

------------------------------------------------------------
-- One More Character in Front
------------------------------------------------------------

/- Reading on and putting a character in front commute. -/
theorem advance_behind
    {p : Position}
    (h : 0 ≤ p.line)
    (c d : Char) :
    (p.behind c).advance d = (p.advance d).behind c := by
  have hNext : p.line + 1 ≠ 0 := by omega
  by_cases hc : c = '\n'
  · by_cases hd : d = '\n'
    · simp [behind, advance, hc, hd]
    · simp [behind, advance, hc, hd]
  · by_cases hFirst : p.line = 0
    · by_cases hd : d = '\n'
      · simp [behind, advance, hc, hd, hFirst]
      · simp [behind, advance, hc, hd, hFirst]
    · by_cases hd : d = '\n'
      · simp [behind, advance, hc, hd, hFirst, hNext]
      · simp [behind, advance, hc, hd, hFirst]

theorem foldl_advance_behind
    {p : Position}
    (h : 0 ≤ p.line)
    (c : Char)
    (cs : List Char) :
    cs.foldl advance (p.behind c) =
      (cs.foldl advance p).behind c := by
  induction cs generalizing p with
  | nil => rfl
  | cons d cs ih =>
      have hLine : 0 ≤ (p.advance d).line := by
        unfold advance
        split
        · exact Int.add_nonneg h (by decide)
        · exact h
      rw [List.foldl_cons, List.foldl_cons, advance_behind h]
      exact ih hLine

/- Behind one more character a place is found one later. -/
theorem ofOffset_cons
    (c : Char)
    (cs : List Char)
    (k : Nat) :
    ofOffset (c :: cs) ((k + 1 : Nat) : Int) =
      (ofOffset cs (k : Int)).behind c := by
  have hFirst : advance ⟨0, 0⟩ c = behind c ⟨0, 0⟩ := by
    unfold advance behind
    split
    · rfl
    · rfl
  unfold ofOffset
  rw [Int.toNat_natCast, Int.toNat_natCast, List.take_succ_cons,
    List.foldl_cons, hFirst]
  exact foldl_advance_behind (Int.le_refl 0) c _

theorem offsetInLines_succ
    {ls : List (List Char)}
    (hLines : ls ≠ [])
    (l : List Char)
    (line character : Nat) :
    offsetInLines (l :: ls) (line + 1) character =
      l.length + 1 + offsetInLines ls line character := by
  rw [offsetInLines, if_neg (by simpa using hLines)]

/- It has the next offset there. -/
theorem offsetIn_behind
    (c : Char)
    (cs : List Char)
    (line character : Nat) :
    ((onLine line character).behind c).offsetIn (c :: cs) =
      (onLine line character).offsetIn cs + 1 := by
  by_cases hc : c = '\n'
  · subst hc
    rw [behind_newline, offsetIn_onLine, offsetIn_onLine,
      Text.lines_newline,
      offsetInLines_succ (Text.lines_ne_nil cs),
      List.length_nil]
    omega
  · rcases Text.lines_cons hc cs with ⟨l, ls, hLines, hFront⟩
    cases line with
    | zero =>
        rw [behind_first _ hc, offsetIn_onLine, offsetIn_onLine,
          hLines, hFront, offsetInLines, offsetInLines,
          List.length_cons]
        omega
    | succ line =>
        rw [behind_later _ _ hc, offsetIn_onLine,
          offsetIn_onLine, hLines, hFront, offsetInLines,
          offsetInLines, List.length_cons]
        split
        · rfl
        · omega

theorem endOf_cons
    (c : Char)
    (cs : List Char) :
    endOf (c :: cs) = (endOf cs).behind c := by
  have hEnd (text : List Char) :
      endOf text =
        onLine ((Text.lines text).length - 1)
          ((Text.lines text).getLast?.getD []).length := by
    have hLines :=
      List.length_pos_iff.mpr (Text.lines_ne_nil text)
    unfold endOf onLine
    rw [← Text.lines_eq_splitOn]
    dsimp only
    congr 1
    omega
  rw [hEnd, hEnd]
  by_cases hc : c = '\n'
  · subst hc
    rw [behind_newline, Text.lines_newline]
    cases hLines : Text.lines cs with
    | nil => exact absurd hLines (Text.lines_ne_nil cs)
    | cons l ls => rfl
  · rcases Text.lines_cons hc cs with ⟨l, ls, hLines, hFront⟩
    rw [hLines, hFront]
    cases ls with
    | nil => exact (behind_first _ hc).symm
    | cons m ls => exact (behind_later _ _ hc).symm

/- It is clamped there as it was. -/
theorem clampIn_behind
    (c : Char)
    (cs : List Char)
    (line character : Nat) :
    ((onLine line character).behind c).clampIn (c :: cs) =
      ((onLine line character).clampIn cs).behind c := by
  by_cases hc : c = '\n'
  · subst hc
    rw [behind_newline, clampIn_onLine, clampIn_onLine,
      Text.lines_newline, List.getElem?_cons_succ]
    cases (Text.lines cs)[line]? with
    | none => exact endOf_cons _ cs
    | some l => exact (behind_newline _ _).symm
  · rcases Text.lines_cons hc cs with ⟨l, ls, hLines, hFront⟩
    cases line with
    | zero =>
        rw [behind_first _ hc, clampIn_onLine, clampIn_onLine,
          hLines, hFront]
        dsimp only [List.getElem?_cons_zero]
        rw [behind_first _ hc, List.length_cons,
          Nat.add_min_add_right]
    | succ line =>
        rw [behind_later _ _ hc, clampIn_onLine,
          clampIn_onLine, hLines, hFront,
          List.getElem?_cons_succ, List.getElem?_cons_succ]
        cases ls[line]? with
        | none => exact endOf_cons c cs
        | some l => exact (behind_later _ _ hc).symm

/-
  A position is at the very front of a text or behind the
  character that the text starts with.
-/
theorem front_or_behind
    (c : Char)
    (cs : List Char)
    (line character : Nat) :
    ((onLine line character).offsetIn (c :: cs) = 0 ∧
        (onLine line character).clampIn (c :: cs) = ⟨0, 0⟩) ∨
      ∃ line' character',
        onLine line character =
          (onLine line' character').behind c := by
  by_cases hc : c = '\n'
  · subst hc
    cases line with
    | zero =>
        left
        rw [offsetIn_onLine, clampIn_onLine, Text.lines_newline]
        exact ⟨Nat.min_zero _, by simp [onLine]⟩
    | succ line =>
        exact .inr ⟨line, character, (behind_newline _ _).symm⟩
  · cases line with
    | zero =>
        cases character with
        | zero =>
            rcases Text.lines_cons hc cs with
              ⟨l, ls, _, hFront⟩
            left
            rw [offsetIn_onLine, clampIn_onLine, hFront]
            exact ⟨Nat.zero_min _, by simp [onLine]⟩
        | succ character =>
            exact .inr ⟨0, character, (behind_first _ hc).symm⟩
    | succ line =>
        exact .inr
          ⟨line + 1, character, (behind_later _ _ hc).symm⟩

------------------------------------------------------------
-- Back and Forth
------------------------------------------------------------

theorem ofOffset_nil
    (k : Int) :
    ofOffset [] k = onLine 0 0 := by
  simp [ofOffset, onLine]

/- No offset has a negative position. -/
theorem exists_ofOffset
    (text : List Char)
    (k : Nat) :
    ∃ line character,
      ofOffset text (k : Int) = onLine line character := by
  induction text generalizing k with
  | nil => exact ⟨0, 0, ofOffset_nil k⟩
  | cons c cs ih =>
      cases k with
      | zero => exact ⟨0, 0, rfl⟩
      | succ k =>
          rcases ih k with ⟨line, character, hPlace⟩
          rw [ofOffset_cons, hPlace]
          by_cases hc : c = '\n'
          · subst hc
            exact ⟨_, _, behind_newline line character⟩
          · cases line with
            | zero => exact ⟨_, _, behind_first character hc⟩
            | succ line =>
                exact ⟨_, _, behind_later line character hc⟩

/- Back at the offset, at most the end of the text. -/
theorem offsetIn_ofOffset
    (text : List Char)
    (k : Nat) :
    (ofOffset text (k : Int)).offsetIn text =
      min k text.length := by
  induction text generalizing k with
  | nil =>
      rw [ofOffset_nil, List.length_nil, Nat.min_zero]
      rfl
  | cons c cs ih =>
      cases k with
      | zero =>
          have hFront :
              (onLine 0 0).offsetIn (c :: cs) = 0 := by
            rw [offsetIn_onLine]
            cases hLines : Text.lines (c :: cs) with
            | nil => exact absurd hLines (Text.lines_ne_nil _)
            | cons l ls => exact Nat.zero_min _
          rw [Nat.zero_min]
          exact hFront
      | succ k =>
          have hOffset := ih k
          rcases exists_ofOffset cs k with
            ⟨line, character, hPlace⟩
          rw [hPlace] at hOffset
          rw [ofOffset_cons, hPlace, offsetIn_behind, hOffset,
            List.length_cons, Nat.add_min_add_right]

/- Back at the position, clamped to the text. -/
theorem ofOffset_offsetIn
    (text : List Char)
    (line character : Nat) :
    ofOffset text ((onLine line character).offsetIn text) =
      (onLine line character).clampIn text := by
  induction text generalizing line character with
  | nil =>
      rw [ofOffset_nil, clampIn_onLine]
      cases line with
      | zero => simp [Text.lines]
      | succ line => rfl
  | cons c cs ih =>
      rcases front_or_behind c cs line character with
        ⟨hOffset, hClamp⟩ | ⟨line', character', hBehind⟩
      · rw [hOffset, hClamp]
        rfl
      · rw [hBehind, offsetIn_behind, ofOffset_cons, ih,
          clampIn_behind]

/- Clamping ends inside the text and keeps what is inside. -/
theorem clampIn_eq_self_iff
    (text : List Char)
    (p : Position) :
    p.clampIn text = p ↔ p.Within text := by
  unfold clampIn Within IsNonNegative
  cases hLine : (text.splitOn '\n')[p.line.toNat]? with
  | some l =>
      rcases p with ⟨line, character⟩
      simp only [mk.injEq, Option.mem_def, Option.some.injEq,
        exists_eq_left']
      omega
  | none =>
      refine iff_of_false ?_ ?_
      · intro hSame
        have hLines := Text.lines_ne_nil text
        rw [Text.lines_eq_splitOn] at hLines
        have hLength := List.length_pos_iff.mpr hLines
        have hPast := List.getElem?_eq_none_iff.mp hLine
        rw [← hSame] at hPast
        unfold endOf at hPast
        dsimp only at hPast
        omega
      · rintro ⟨_, l, hl, _⟩
        cases hl

------------------------------------------------------------
-- The Order of a Text
------------------------------------------------------------

theorem Before.trans
    {p q r : Position}
    (hpq : p.Before q)
    (hqr : q.Before r) :
    p.Before r := by
  unfold Before at hpq hqr ⊢
  omega

/- Reading a character leads further. -/
theorem before_advance
    (p : Position)
    (c : Char) :
    p.Before (p.advance c) := by
  unfold Before advance
  split
  · left
    dsimp only
    omega
  · right
    dsimp only
    omega

theorem before_foldl_advance
    (p : Position)
    (c : Char)
    (cs : List Char) :
    p.Before ((c :: cs).foldl advance p) := by
  induction cs generalizing p c with
  | nil => exact before_advance p c
  | cons d cs ih =>
      exact (before_advance p c).trans (ih (p.advance c) d)

/- Greater offsets have later positions. -/
theorem ofOffset_before
    {text : List Char}
    {j k : Nat}
    (hOrder : j < k)
    (hEnd : k ≤ text.length) :
    (ofOffset text (j : Int)).Before (ofOffset text (k : Int)) := by
  have hSplit :
      text.take k = text.take j ++ (text.drop j).take (k - j) := by
    rw [← List.take_add]
    congr 1
    omega
  unfold ofOffset
  rw [Int.toNat_natCast, Int.toNat_natCast, hSplit,
    List.foldl_append]
  cases hRest : (text.drop j).take (k - j) with
  | nil =>
      have hLength := congrArg List.length hRest
      simp at hLength
      omega
  | cons c cs => exact before_foldl_advance _ c cs

/-
  Offsets and positions are inverse to each other up to
  clamping. The offset of the position of an offset is that
  offset, moved into the text. The position of the offset of
  a position is that position, moved into the text, and the
  position itself exactly if it lies in the text. From the
  front of the text to its end, positions are the later the
  greater their offsets are.
-/
theorem inverse_up_to_clamping
    (text : List Char) :
    (∀ k : Int,
      ((ofOffset text k).offsetIn text : Int) =
        max 0 (min k text.length)) ∧
      (∀ p : Position,
        ofOffset text (p.offsetIn text) = p.clampIn text ∧
          (p.clampIn text = p ↔ p.Within text)) ∧
      ∀ j k : Int, 0 ≤ j → j < k → k ≤ text.length →
        (ofOffset text j).Before (ofOffset text k) := by
  refine ⟨?_, ?_, ?_⟩
  · intro k
    have hFloor : ofOffset text k = ofOffset text k.toNat := rfl
    rw [hFloor, offsetIn_ofOffset]
    omega
  · intro p
    rcases exists_onLine text p with
      ⟨line, character, hOffset, hClamp⟩
    refine ⟨?_, clampIn_eq_self_iff text p⟩
    rw [hOffset, hClamp, ofOffset_offsetIn]
  · intro j k hFront hOrder hEnd
    obtain ⟨j, rfl⟩ := Int.eq_ofNat_of_zero_le hFront
    obtain ⟨k, rfl⟩ := Int.eq_ofNat_of_zero_le
      (Int.le_trans hFront (Int.le_of_lt hOrder))
    exact ofOffset_before (Int.ofNat_lt.mp hOrder)
      (Int.ofNat_le.mp hEnd)

theorem inverse_up_to_clamping_lines :
    ((ofOffset "a\n\r\nbc".toList 9).offsetIn
          "a\n\r\nbc".toList : Int) = 6 ∧
      ofOffset "a\n\r\nbc".toList
          ((⟨1, 7⟩ : Position).offsetIn "a\n\r\nbc".toList) =
        ⟨1, 1⟩ ∧
      (ofOffset "a\n\r\nbc".toList 1).Before
        (ofOffset "a\n\r\nbc".toList 2) := by
  have hText := inverse_up_to_clamping "a\n\r\nbc".toList
  refine ⟨?_, ?_, ?_⟩
  · exact hText.1 9
  · exact (hText.2.1 ⟨1, 7⟩).1
  · exact hText.2.2 1 2 (by decide) (by decide) (by decide)

end Position

end QueryHover
