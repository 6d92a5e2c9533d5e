import QueryHover.Node.Reading
import QueryHover.Output.Refusal
import QueryHover.Proofs.ByteOrder

/-
  Columns that count bytes.

  The hint on escaped exclamation marks looks at the bytes of
  a line, while errors are placed by characters. A byte below
  128 is always a character by itself, so the hint finds an
  escaped exclamation mark wherever one stands, and nothing
  else. But it finds it at the column that counts the bytes in
  front of it. That is the column of the error only where all
  characters in front have a single byte.

  Main declarations:
    * `Text.exists_of_drop_bytes`
    * `Text.EscapesBangAt`
    * `Text.byteColumn`
    * `escapedBangHint?_isSome_iff`
-/

namespace QueryHover

namespace Text

------------------------------------------------------------
-- Characters of a Single Byte
------------------------------------------------------------

/- A character of a single byte. -/
def IsAscii
    (c : Char) : Prop :=
  c.toNat < 0x80

instance isAsciiDecidable
    (c : Char) :
    Decidable (IsAscii c) := by
  unfold IsAscii
  infer_instance

theorem charBytes_of_ascii
    {c : Char}
    (h : IsAscii c) :
    charBytes c = [UInt8.ofNat c.toNat] := by
  have hCode : c.val.toNat ≤ 127 := Nat.le_of_lt_succ h
  rw [charBytes_eq]
  unfold String.utf8EncodeChar
  dsimp only
  rw [if_pos hCode]
  rfl

/- No byte of another character is that of a single one. -/
theorem charBytes_of_not_ascii
    {c : Char}
    (h : ¬ IsAscii c) :
    2 ≤ (charBytes c).length ∧
      ∀ b ∈ charBytes c, 0x80 ≤ b.toNat := by
  have hCode : ¬ c.val.toNat ≤ 127 :=
    fun hLow => h (Nat.lt_succ_of_le hLow)
  rw [charBytes_eq]
  unfold String.utf8EncodeChar
  dsimp only
  rw [if_neg hCode]
  generalize c.val.toNat = v
  split_ifs
  all_goals
    refine ⟨by simp, ?_⟩
    simp only [List.forall_mem_cons, UInt8.toNat_ofNat',
      List.not_mem_nil, false_implies, implies_true, and_true]
    omega

/- A byte below 128 is all of its character. -/
theorem charBytes_eq_singleton
    {c : Char}
    {b : UInt8}
    (hMem : b ∈ charBytes c)
    (hLow : b.toNat < 0x80) :
    charBytes c = [b] ∧ c.toNat = b.toNat := by
  by_cases h : IsAscii c
  · have hBytes := charBytes_of_ascii h
    rw [hBytes] at hMem
    obtain rfl := List.mem_singleton.mp hMem
    refine ⟨hBytes, ?_⟩
    rw [UInt8.toNat_ofNat', Nat.mod_eq_of_lt]
    exact Nat.lt_trans h (by decide)
  · have hHigh := (charBytes_of_not_ascii h).2 b hMem
    omega

/- As many bytes as characters: each of them has one. -/
theorem length_bytes
    (text : List Char) :
    text.length ≤ (bytes text).length ∧
      ((bytes text).length = text.length ↔
        ∀ c ∈ text, IsAscii c) := by
  induction text with
  | nil => simp [bytes]
  | cons c text ih =>
      have hBytes :
          bytes (c :: text) = charBytes c ++ bytes text :=
        List.flatMap_cons
      rw [hBytes, List.length_append, List.length_cons,
        List.forall_mem_cons, ← ih.2]
      have hRest := ih.1
      by_cases h : IsAscii c
      · rw [charBytes_of_ascii h, List.length_singleton]
        refine ⟨by omega, ?_⟩
        constructor
        · intro hLength
          exact ⟨h, by omega⟩
        · rintro ⟨_, hLength⟩
          omega
      · have hLength := (charBytes_of_not_ascii h).1
        refine ⟨by omega, ?_⟩
        constructor
        · intro hSame
          omega
        · rintro ⟨hAscii, _⟩
          exact absurd hAscii h

------------------------------------------------------------
-- Bytes of a Line
------------------------------------------------------------

/-
  Where a byte below 128 stands, a character starts and ends.
  The induction is over the line.
-/
theorem exists_of_drop_bytes
    {line : List Char}
    {k : Nat}
    {b : UInt8}
    {rest : List UInt8}
    (h : (bytes line).drop k = b :: rest)
    (hLow : b.toNat < 0x80) :
    ∃ before c after,
      line = before ++ c :: after ∧
        (bytes before).length = k ∧
        c.toNat = b.toNat ∧ bytes after = rest := by
  induction line generalizing k with
  | nil =>
      rw [bytes, List.flatMap_nil, List.drop_nil] at h
      cases h
  | cons c line ih =>
      have hBytes :
          bytes (c :: line) = charBytes c ++ bytes line :=
        List.flatMap_cons
      rw [hBytes] at h
      by_cases hInside : k < (charBytes c).length
      · rw [List.drop_append_of_le_length
          (Nat.le_of_lt hInside)] at h
        have hMem : b ∈ charBytes c := by
          apply List.mem_of_mem_drop (i := k)
          cases hDrop : (charBytes c).drop k with
          | nil =>
              rw [List.drop_eq_nil_iff] at hDrop
              omega
          | cons d ds =>
              rw [hDrop] at h
              cases h
              exact List.mem_cons_self
        rcases charBytes_eq_singleton hMem hLow with
          ⟨hSingle, hCode⟩
        rw [hSingle] at h hInside
        obtain rfl : k = 0 := Nat.lt_one_iff.mp hInside
        cases h
        exact ⟨[], c, line, rfl, rfl, hCode, rfl⟩
      · rw [List.drop_append, List.drop_eq_nil_of_le
          (Nat.le_of_not_lt hInside), List.nil_append] at h
        rcases ih h with
          ⟨before, d, after, rfl, hLength, hCode, hRest⟩
        refine ⟨c :: before, d, after, rfl, ?_, hCode, hRest⟩
        rw [bytes, List.flatMap_cons, List.length_append,
          ← bytes, hLength]
        omega

/- A backslash and an exclamation mark from an index on. -/
def EscapesBangAt
    (shown : List Char)
    (j : Nat) : Prop :=
  shown[j]? = some '\\' ∧ shown[j + 1]? = some '!'

instance escapesBangAtDecidable
    (shown : List Char)
    (j : Nat) :
    Decidable (EscapesBangAt shown j) := by
  unfold EscapesBangAt
  infer_instance

theorem escapesBangAt_iff
    {shown : List Char}
    {j : Nat} :
    EscapesBangAt shown j ↔
      ∃ rest, shown.drop j = '\\' :: '!' :: rest := by
  have hZero : shown[j]? = (shown.drop j)[0]? := by
    rw [List.getElem?_drop, Nat.add_zero]
  unfold EscapesBangAt
  rw [hZero, ← List.getElem?_drop]
  constructor
  · rintro ⟨hFirst, hSecond⟩
    match hDrop : shown.drop j with
    | [] => simp [hDrop] at hFirst
    | [c] => simp [hDrop] at hSecond
    | c :: d :: rest =>
        rw [hDrop] at hFirst hSecond
        cases hFirst
        cases hSecond
        exact ⟨rest, rfl⟩
  · rintro ⟨rest, hDrop⟩
    rw [hDrop]
    exact ⟨rfl, rfl⟩

/- The column of a character if bytes are counted, from 1. -/
def byteColumn
    (shown : List Char)
    (j : Nat) : Nat :=
  (bytes (shown.take j)).length + 1

/- Both columns agree after characters of a single byte. -/
theorem byteColumn_eq_iff
    {shown : List Char}
    {j : Nat}
    (h : j ≤ shown.length) :
    byteColumn shown j = j + 1 ↔
      ∀ c ∈ shown.take j, IsAscii c := by
  have hLength : (shown.take j).length = j :=
    List.length_take_of_le h
  rw [← (length_bytes (shown.take j)).2, hLength]
  unfold byteColumn
  omega

/- After single bytes, the column leads to the character. -/
theorem exists_byteColumn_iff
    {shown : List Char}
    {column : Int}
    (h : ∀ c ∈ shown.take (column.toNat - 1), IsAscii c) :
    (∃ j, EscapesBangAt shown j ∧
        column = byteColumn shown j) ↔
      1 ≤ column ∧ EscapesBangAt shown (column.toNat - 1) := by
  constructor
  · rintro ⟨j, hEscapes, hColumn⟩
    have hj : j < shown.length :=
      (List.getElem?_eq_some_iff.mp hEscapes.1).1
    -- Bytes are no fewer than characters, so what stands in
    -- front of the mark stands in front of the column.
    have hLe : j + 1 ≤ byteColumn shown j := by
      have hLength := (length_bytes (shown.take j)).1
      rw [List.length_take_of_le (Nat.le_of_lt hj)] at hLength
      exact Nat.succ_le_succ hLength
    have hFront : ∀ c ∈ shown.take j, IsAscii c := by
      intro c hc
      exact h c
        ((List.take_subset_take_left shown (by omega)) hc)
    have hSame :=
      (byteColumn_eq_iff (Nat.le_of_lt hj)).mpr hFront
    have hPlace : column.toNat - 1 = j := by
      omega
    exact ⟨by omega, hPlace ▸ hEscapes⟩
  · rintro ⟨hColumn, hEscapes⟩
    have hInside : column.toNat - 1 < shown.length :=
      (List.getElem?_eq_some_iff.mp hEscapes.1).1
    have hSame :=
      (byteColumn_eq_iff (Nat.le_of_lt hInside)).mpr h
    exact ⟨column.toNat - 1, hEscapes, by omega⟩

/- The bytes of an escaped exclamation mark are no others. -/
theorem drop_bytes_iff
    {shown : List Char}
    {k : Nat} :
    (∃ rest, (bytes shown).drop k = 0x5c :: 0x21 :: rest) ↔
      ∃ j, EscapesBangAt shown j ∧
        byteColumn shown j = k + 1 := by
  constructor
  · rintro ⟨rest, hDrop⟩
    rcases exists_of_drop_bytes hDrop (by decide) with
      ⟨before, c, after, rfl, hLength, hCode, hAfter⟩
    rcases exists_of_drop_bytes (k := 0) hAfter (by decide) with
      ⟨between, d, after', rfl, hNone, hCode', _⟩
    have hBetween : between = [] := by
      have hLe := (length_bytes between).1
      rw [hNone] at hLe
      exact List.eq_nil_of_length_eq_zero
        (Nat.eq_zero_of_le_zero hLe)
    obtain rfl : c = '\\' := Char.toNat_inj.mp hCode
    obtain rfl : d = '!' := Char.toNat_inj.mp hCode'
    subst hBetween
    refine ⟨before.length, ?_, ?_⟩
    · rw [escapesBangAt_iff]
      exact ⟨after', List.drop_left⟩
    · unfold byteColumn
      rw [List.take_left, hLength]
  · rintro ⟨j, hEscapes, hColumn⟩
    rcases escapesBangAt_iff.mp hEscapes with ⟨rest, hDrop⟩
    have hBytes :
        bytes shown =
          bytes (shown.take j) ++ bytes (shown.drop j) := by
      rw [bytes, bytes, bytes, ← List.flatMap_append,
        List.take_append_drop]
    have hLength : (bytes (shown.take j)).length = k := by
      unfold byteColumn at hColumn
      omega
    refine ⟨bytes rest, ?_⟩
    rw [hBytes, ← hLength, List.drop_left, hDrop, bytes,
      List.flatMap_cons, List.flatMap_cons,
      charBytes_of_ascii (by decide),
      charBytes_of_ascii (by decide)]
    rfl

end Text

------------------------------------------------------------
-- Hints
------------------------------------------------------------

open Text (EscapesBangAt byteColumn IsAscii)

/- The hint for the line that a column is on. -/
theorem escapedBangHint?_of_line
    {text shown : List Char}
    {line : Int}
    (hLine : 1 ≤ line)
    (hShown : (Text.lines text)[line.toNat - 1]? = some shown)
    (source : String)
    (column : Int) :
    (escapedBangHint? source text line column).isSome ↔
      source = "stdin" ∧
        ∃ j, EscapesBangAt shown j ∧
          column = byteColumn shown j := by
  unfold escapedBangHint?
  split_ifs with hAll
  · rcases hAll with ⟨hSource, _, hColumn⟩
    dsimp only
    rw [hShown]
    dsimp only
    have hPlace (j : Nat) :
        column = byteColumn shown j ↔
          byteColumn shown j = column.toNat - 1 + 1 := by
      omega
    simp only [hSource, true_and, hPlace]
    rw [← Text.drop_bytes_iff]
    split
    · rename_i rest hDrop
      simp [hDrop]
    · rename_i hOther
      constructor
      · intro hSome
        cases hSome
      · rintro ⟨rest, hDrop⟩
        exact (hOther rest hDrop).elim
  · constructor
    · intro hSome
      cases hSome
    · rintro ⟨hSource, j, _, hColumn⟩
      refine absurd ⟨hSource, hLine, ?_⟩ hAll
      unfold byteColumn at hColumn
      omega

/- A hint needs a line, and standard input. -/
theorem escapedBangHint?_of_no_line
    {text : List Char}
    {line : Int}
    (h : 1 ≤ line → (Text.lines text)[line.toNat - 1]? = none)
    (source : String)
    (column : Int) :
    escapedBangHint? source text line column = none := by
  unfold escapedBangHint?
  split_ifs with hAll
  · dsimp only
    rw [h hAll.2.1]
  · rfl

/- A hint is given for standard input and bytes only. -/
theorem escapedBangHint?_isSome_bytes
    (source : String)
    (text : List Char)
    (line column : Int) :
    (escapedBangHint? source text line column).isSome ↔
      source = "stdin" ∧ 1 ≤ line ∧
        ∃ shown ∈ (Text.lines text)[line.toNat - 1]?,
          ∃ j, EscapesBangAt shown j ∧
            column = byteColumn shown j := by
  by_cases hLine : 1 ≤ line
  · cases hShown : (Text.lines text)[line.toNat - 1]? with
    | none =>
        rw [escapedBangHint?_of_no_line fun _ => hShown]
        simp
    | some shown =>
        rw [escapedBangHint?_of_line hLine hShown]
        simp [hLine]
  · rw [escapedBangHint?_of_no_line fun h => absurd h hLine]
    simp [hLine]

/-
  There is a hint for standard input exactly where an escaped
  exclamation mark stands, counted in bytes. That column is
  the one counted in characters if and only if no character
  in front of the mark has more than one byte. So wherever
  all characters before a column have a single byte, there is
  a hint exactly if the two characters from that column on
  are a backslash and an exclamation mark.
-/
theorem escapedBangHint?_isSome_iff
    (source : String)
    (text : List Char)
    (line column : Int) :
    ((escapedBangHint? source text line column).isSome ↔
        source = "stdin" ∧ 1 ≤ line ∧
          ∃ shown ∈ (Text.lines text)[line.toNat - 1]?,
            ∃ j, EscapesBangAt shown j ∧
              column = byteColumn shown j) ∧
      ∀ shown ∈ (Text.lines text)[line.toNat - 1]?,
        (∀ j ≤ shown.length,
          byteColumn shown j = j + 1 ↔
            ∀ c ∈ shown.take j, IsAscii c) ∧
        ((∀ c ∈ shown.take (column.toNat - 1), IsAscii c) →
          ((escapedBangHint? source text line column).isSome ↔
            source = "stdin" ∧ 1 ≤ line ∧ 1 ≤ column ∧
              EscapesBangAt shown (column.toNat - 1))) := by
  have hBytes :=
    escapedBangHint?_isSome_bytes source text line column
  refine ⟨hBytes, fun shown hShown => ⟨fun j hj =>
    Text.byteColumn_eq_iff hj, fun hAscii => ?_⟩⟩
  rw [hBytes, hShown,
    ← Text.exists_byteColumn_iff hAscii]
  simp

/-
  An escaped exclamation mark after a string with a character
  of two bytes. The document is refused at the backslash, and
  there is no hint for that place, but one for the next.
-/
theorem escapedBangHint?_misses :
    let text := "\x7bf(a:\"é\"\\!)\x7d".toList
    ∃ e,
      Document.parse text = .error e ∧
        e.location.line = 1 ∧ e.location.column = 9 ∧
        Text.lines text = [text] ∧ EscapesBangAt text 8 ∧
        escapedBangHint? "stdin" text 1 9 = none ∧
        ¬ EscapesBangAt text 9 ∧
        escapedBangHint? "stdin" text 1 10 =
          some escapedBangHelp := by
  intro text
  have hSeen :
      (match Document.parse text with
        | .ok _ => none
        | .error e =>
            some (e.location.line, e.location.column)) =
        some (1, 9) := by
    decide +kernel
  cases h : Document.parse text with
  | ok root =>
      rw [h] at hSeen
      cases hSeen
  | error e =>
      rw [h] at hSeen
      simp only [Option.some.injEq, Prod.mk.injEq] at hSeen
      exact ⟨e, rfl, hSeen.1, hSeen.2, by decide +kernel,
        by decide, by decide +kernel, by decide,
        by decide +kernel⟩

end QueryHover
