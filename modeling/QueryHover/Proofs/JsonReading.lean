import QueryHover.Json.Reading
import Mathlib.Data.List.DropRight
import Mathlib.Tactic.IntervalCases
import Mathlib.Tactic.SplitIfs

/-
  Written JSON values are read back.

  Whatever a character is escaped to, reading the escape
  gives the character. A code escape never forms a surrogate
  pair with what follows it, because no character has the
  code of a surrogate. The parts of a written value are told
  apart by their first characters, and a number ends at the
  comma or the line end after it.

  Main declarations:
    * `Json.readString?_escapeChar`
    * `Json.Legible`
    * `Json.readValue?_write`
    * `Json.parse?_render`
-/

namespace QueryHover

------------------------------------------------------------
-- Hexadecimal Codes
------------------------------------------------------------

/- A wider number has one more digit at its front. -/
theorem Text.hexadecimal_succ
    (width n : Nat) :
    hexadecimal (width + 2) n =
      hexadecimal (width + 1) (n / 16) ++
        [(n % 16).digitChar] := by
  simp only [hexadecimal]
  by_cases hDigit : n < 16
  · rw [Nat.toDigits_of_lt_base hDigit,
      Nat.div_eq_of_lt hDigit, Nat.mod_eq_of_lt hDigit]
    change List.replicate (width + 1) '0' ++ [n.digitChar] =
      List.replicate width '0' ++ ['0'] ++ [n.digitChar]
    rw [List.replicate_succ']
  · have hLength :
        width + 2 - ((Nat.toDigits 16 (n / 16)).length + 1) =
          width + 1 - (Nat.toDigits 16 (n / 16)).length := by
      omega
    rw [Nat.toDigits_of_base_le (by decide)
      (Nat.le_of_not_lt hDigit), List.length_append,
      List.length_singleton, hLength, List.append_assoc]

/- The digits of a code of 16 bits. -/
theorem Text.hexadecimal_four
    {n : Nat}
    (h : n < 0x10000) :
    hexadecimal 4 n =
      [ (n / 16 / 16 / 16).digitChar,
        (n / 16 / 16 % 16).digitChar,
        (n / 16 % 16).digitChar,
        (n % 16).digitChar ] := by
  have hFirst : n / 16 / 16 / 16 < 16 := by
    omega
  have hOne :
      hexadecimal 1 (n / 16 / 16 / 16) =
        [(n / 16 / 16 / 16).digitChar] := by
    unfold hexadecimal
    rw [Nat.toDigits_of_lt_base hFirst]
    rfl
  rw [hexadecimal_succ, hexadecimal_succ, hexadecimal_succ,
    hOne]
  rfl

theorem Scanner.hexDigit?_digitChar
    {n : Nat}
    (h : n < 16) :
    hexDigit? n.digitChar = some n := by
  have hAll :
      ∀ k : Fin 16,
        hexDigit? (k : Nat).digitChar = some (k : Nat) := by
    decide
  exact hAll ⟨n, h⟩

namespace Json

------------------------------------------------------------
-- Strings
------------------------------------------------------------

/- Two codes that stand one after the other. -/
def CodeAhead
    (text : List Char) : Prop :=
  ∃ a b c d rest, text = '\\' :: 'u' :: a :: b :: c :: d :: rest

variable {a b c d : Char}
variable {text rest : List Char}

theorem exists_code
    {read : List Char × List Char}
    (h :
      readString? ('\\' :: 'u' :: a :: b :: c :: d :: rest) =
        some read) :
    ∃ code, code? a b c d = some code := by
  cases hCode : code? a b c d with
  | some code => exact ⟨code, rfl⟩
  | none =>
      by_cases hAhead : CodeAhead rest
      · rcases hAhead with ⟨e, f, g, k, more, rfl⟩
        rw [readString?, hCode] at h
        cases h
      · rw [readString?, hCode] at h
        · cases h
        · intro e f g k more hRest
          exact hAhead ⟨e, f, g, k, more, hRest⟩

/- A code that is no surrogate is read by itself. -/
theorem readString?_code
    {code : Nat}
    {s : List Char}
    (hCode : code? a b c d = some code)
    (hPlain : ¬ (0xD800 ≤ code ∧ code ≤ 0xDBFF))
    (hRest : readString? text = some (s, rest)) :
    readString? ('\\' :: 'u' :: a :: b :: c :: d :: text) =
      some (Scanner.unescapeCode [d, c, b, a] :: s, rest) := by
  by_cases hAhead : CodeAhead text
  · rcases hAhead with ⟨e, f, g, k, more, rfl⟩
    rcases exists_code hRest with ⟨low, hLow⟩
    rw [readString?, hCode, hLow, Option.bind_eq_bind]
    simp only [Option.bind_eq_bind, Option.bind_some]
    rw [if_neg, hRest]
    · rfl
    · simp only [Bool.and_eq_true, decide_eq_true_eq]
      intro h
      exact hPlain h.1.1
  · rw [readString?, hCode, hRest]
    · rfl
    · intro e f g k more hText
      exact hAhead ⟨e, f, g, k, more, hText⟩

------------------------------------------------------------
-- Escapes
------------------------------------------------------------

section

variable {n : Nat}
variable (h : n < 0x10000)

include h

theorem code?_digitChar :
    code? (n / 16 / 16 / 16).digitChar
        (n / 16 / 16 % 16).digitChar (n / 16 % 16).digitChar
        (n % 16).digitChar = some n := by
  unfold code?
  rw [Scanner.hexDigit?_digitChar (by omega),
    Scanner.hexDigit?_digitChar (Nat.mod_lt _ (by decide)),
    Scanner.hexDigit?_digitChar (Nat.mod_lt _ (by decide)),
    Scanner.hexDigit?_digitChar (Nat.mod_lt _ (by decide))]
  have hDigits :
      ((16 * (n / 16 / 16 / 16) + n / 16 / 16 % 16) * 16 +
        n / 16 % 16) * 16 + n % 16 = n := by
    omega
  exact congrArg some hDigits

theorem unescapeCode_digitChar
    (hPlain : ¬ (0xD800 ≤ n ∧ n ≤ 0xDFFF)) :
    Scanner.unescapeCode
        [ (n % 16).digitChar, (n / 16 % 16).digitChar,
          (n / 16 / 16 % 16).digitChar,
          (n / 16 / 16 / 16).digitChar ] =
      Char.ofNat n := by
  have hCode :
      [ (n % 16).digitChar, (n / 16 % 16).digitChar,
        (n / 16 / 16 % 16).digitChar,
        (n / 16 / 16 / 16).digitChar ].foldr
          (fun d n => 16 * n + (Scanner.hexDigit? d).getD 0)
          0 = n := by
    simp only [List.foldr_cons, List.foldr_nil]
    rw [Scanner.hexDigit?_digitChar (Nat.mod_lt _ (by decide)),
      Scanner.hexDigit?_digitChar (Nat.mod_lt _ (by decide)),
      Scanner.hexDigit?_digitChar (Nat.mod_lt _ (by decide)),
      Scanner.hexDigit?_digitChar (by omega)]
    simp only [Option.getD_some]
    omega
  simp only [Scanner.unescapeCode, hCode]
  rw [if_neg]
  simpa using hPlain

end

/- No character has the code of a surrogate. -/
theorem not_surrogate
    (c : Char) :
    ¬ (0xD800 ≤ c.toNat ∧ c.toNat ≤ 0xDFFF) := by
  rcases c.valid with hLow | hHigh
  · intro h
    exact absurd hLow (Nat.not_lt.mpr h.1)
  · intro h
    exact absurd hHigh.1 (Nat.not_lt.mpr h.2)

/- A character that is written as its code. -/
theorem readString?_hexadecimal
    {s : List Char}
    {c : Char}
    (hCode : c.toNat < 0x10000)
    (hRest : readString? text = some (s, rest)) :
    readString?
        ('\\' :: 'u' :: Text.hexadecimal 4 c.toNat ++ text) =
      some (c :: s, rest) := by
  have hPlain := not_surrogate c
  have hRead :=
    readString?_code (code?_digitChar hCode) (by omega) hRest
  rw [unescapeCode_digitChar hCode hPlain,
    Char.ofNat_toNat] at hRead
  rw [Text.hexadecimal_four hCode]
  exact hRead

/- A character that is written as a letter. -/
theorem readString?_letter
    {s : List Char}
    {letter c : Char}
    (hLetter : Scanner.unescape? letter = some c)
    (hRest : readString? text = some (s, rest)) :
    readString? ('\\' :: letter :: text) =
      some (c :: s, rest) := by
  have hCode : letter ≠ 'u' := by
    rintro rfl
    cases hLetter
  rw [readString?, hLetter, hRest]
  · rfl
  · intro _ _ _ _ _ _ _ _ _ hu
    exact absurd hu hCode
  · intro _ _ _ _ _ hu
    exact absurd hu hCode

/- A character that stands for itself. -/
theorem readString?_plain
    {s : List Char}
    {c : Char}
    (hQuote : c ≠ '"')
    (hBackslash : c ≠ '\\')
    (hVisible : 0x20 ≤ c.toNat)
    (hRest : readString? text = some (s, rest)) :
    readString? (c :: text) = some (c :: s, rest) := by
  rw [readString?, if_neg, hRest]
  · rfl
  · simp [hBackslash, hVisible]
  · exact hQuote
  · intro _ _ _ _ _ _ _ _ _ hEscape
    exact absurd hEscape hBackslash
  · intro _ _ _ _ _ hEscape
    exact absurd hEscape hBackslash
  · intro _ _ hEscape
    exact absurd hEscape hBackslash

/- Reading what a character is escaped to. -/
theorem readString?_escapeChar
    {s : List Char}
    (c : Char)
    (hRest : readString? text = some (s, rest)) :
    readString? (escapeChar c ++ text) =
      some (c :: s, rest) := by
  unfold escapeChar
  split_ifs with hMark hBack hForm hLine hReturn hTab hCode
  · rcases (by simpa using hMark : c = '"' ∨ c = '\\') with
      rfl | rfl
    · exact readString?_letter rfl hRest
    · exact readString?_letter rfl hRest
  · rw [hBack]
    exact readString?_letter rfl hRest
  · rw [hForm]
    exact readString?_letter rfl hRest
  · rw [hLine]
    exact readString?_letter rfl hRest
  · rw [hReturn]
    exact readString?_letter rfl hRest
  · rw [hTab]
    exact readString?_letter rfl hRest
  · apply readString?_hexadecimal ?_ hRest
    simp only [Bool.or_eq_true, decide_eq_true_eq] at hCode
    rcases hCode with
      ((((hControl | rfl) | rfl) | rfl) | rfl) | rfl
    · omega
    all_goals decide
  · simp only [Bool.or_eq_true, decide_eq_true_eq,
      not_or] at hMark hCode
    exact readString?_plain hMark.1 hMark.2
      (Nat.le_of_not_lt hCode.1.1.1.1.1) hRest

/- A string that was written is read up to its last quote. -/
theorem readString?_written
    (s rest : List Char) :
    readString? (s.flatMap escapeChar ++ '"' :: rest) =
      some (s, rest) := by
  induction s with
  | nil => rw [List.flatMap_nil, List.nil_append, readString?]
  | cons c s ih =>
      rw [List.flatMap_cons, List.append_assoc]
      exact readString?_escapeChar c ih

------------------------------------------------------------
-- Numbers
------------------------------------------------------------

/- What may follow a value: a comma, the line end or nothing. -/
def Follows
    (rest : List Char) : Prop :=
  ∀ c ∈ rest.head?, c = ',' ∨ c = '\n'

/- A literal that is read as a number to its end. -/
def IsNumber
    (literal : String) : Prop :=
  readNumber? literal.toList = some (literal.toList, [])

theorem next?_of_follows
    {c : Char}
    {rest : List Char}
    (h : Follows (c :: rest))
    (part : Scanner.NumberPart) :
    part.next? c = none := by
  rcases h c rfl with rfl | rfl
  · cases part
    all_goals rfl
  · cases part
    all_goals rfl

section

variable {part after : Scanner.NumberPart}

/- One more character of a number. -/
theorem readNumber_next
    (h : part.next? c = some after)
    (text : List Char) :
    readNumber part (c :: text) =
      (readNumber after text).map fun read =>
        (c :: read.1, read.2) := by
  rw [readNumber, h]
  dsimp only
  cases readNumber after text with
  | none => rfl
  | some read => rfl

/- The first character after a number. -/
theorem readNumber_end
    (h : part.next? c = none)
    (text : List Char) :
    readNumber part (c :: text) =
      part.kind?.map fun _ => ([], c :: text) := by
  rw [readNumber, h]

end

/- A number ends before what follows it. -/
theorem readNumber_append
    {part : Scanner.NumberPart}
    {literal : List Char}
    (h : readNumber part literal = some (literal, []))
    (hFollows : Follows rest) :
    readNumber part (literal ++ rest) =
      some (literal, rest) := by
  induction literal generalizing part with
  | nil =>
      cases rest with
      | nil => exact h
      | cons c rest =>
          rw [readNumber, Option.map_eq_some_iff] at h
          rcases h with ⟨kind, hKind, _⟩
          rw [List.nil_append,
            readNumber_end (next?_of_follows hFollows part),
            hKind]
          rfl
  | cons c literal ih =>
      cases hNext : part.next? c with
      | none =>
          rw [readNumber_end hNext,
            Option.map_eq_some_iff] at h
          rcases h with ⟨_, _, hRead⟩
          cases hRead
      | some after =>
          rw [readNumber_next hNext,
            Option.map_eq_some_iff] at h
          rcases h with ⟨read, hTail, hRead⟩
          have hWhole : read = (literal, []) := by
            simpa [Prod.ext_iff] using hRead
          rw [hWhole] at hTail
          rw [List.cons_append, readNumber_next hNext,
            ih hTail]
          rfl

theorem readNumber?_minus
    (text : List Char) :
    readNumber? ('-' :: text) =
      (readNumber .sign text).map fun read =>
        ('-' :: read.1, read.2) := by
  rw [readNumber?]
  cases readNumber .sign text with
  | none => rfl
  | some read => rfl

theorem readNumber?_unsigned
    (hSign : c ≠ '-')
    (text : List Char) :
    readNumber? (c :: text) = readNumber .sign (c :: text) := by
  rw [readNumber?]
  intro rest hText
  exact hSign (List.cons.inj hText).1

/- The first character of a number. -/
theorem IsNumber.head
    {literal : String}
    (h : IsNumber literal) :
    ∃ c tail,
      literal.toList = c :: tail ∧ (c = '-' ∨ c.isDigit) := by
  unfold IsNumber at h
  cases hChars : literal.toList with
  | nil =>
      rw [hChars] at h
      cases h
  | cons c tail =>
      refine ⟨c, tail, rfl, ?_⟩
      by_cases hSign : c = '-'
      · exact .inl hSign
      · right
        by_contra hDigit
        have hZero : c ≠ '0' := by
          rintro rfl
          exact hDigit rfl
        have hNext : Scanner.NumberPart.sign.next? c = none := by
          rw [Scanner.NumberPart.next?, if_neg hZero,
            if_neg hDigit]
        rw [hChars, readNumber?_unsigned hSign,
          readNumber_end hNext] at h
        cases h

theorem IsNumber.readNumber?_append
    {literal : String}
    (h : IsNumber literal)
    (hFollows : Follows rest) :
    readNumber? (literal.toList ++ rest) =
      some (literal.toList, rest) := by
  rcases h.head with ⟨c, tail, hChars, _⟩
  unfold IsNumber at h
  rw [hChars] at h ⊢
  by_cases hSign : c = '-'
  · subst hSign
    rw [readNumber?_minus, Option.map_eq_some_iff] at h
    rcases h with ⟨read, hTail, hRead⟩
    have hWhole : read = (tail, []) := by
      simpa [Prod.ext_iff] using hRead
    rw [hWhole] at hTail
    rw [List.cons_append, readNumber?_minus,
      readNumber_append hTail hFollows]
    rfl
  · rw [readNumber?_unsigned hSign] at h
    rw [List.cons_append, readNumber?_unsigned hSign]
    exact readNumber_append h hFollows

/- Digits go on a number. -/
theorem readNumber_digits
    {digits : List Char}
    (h : ∀ c ∈ digits, c.isDigit) :
    readNumber .digits digits = some (digits, []) := by
  induction digits with
  | nil => rfl
  | cons c digits ih =>
      rw [List.forall_mem_cons] at h
      have hNext :
          Scanner.NumberPart.digits.next? c =
            some .digits := by
        rw [Scanner.NumberPart.next?, if_pos h.1]
      rw [readNumber_next hNext, ih h.2]
      rfl

/- Only zero starts with a zero. -/
theorem toDigits_head
    {n : Nat}
    (h : 0 < n) :
    ∃ c tail, Nat.toDigits 10 n = c :: tail ∧ c ≠ '0' := by
  induction n using Nat.strong_induction_on with
  | _ n ih =>
      by_cases hDigit : n < 10
      · refine ⟨n.digitChar, [],
          Nat.toDigits_of_lt_base hDigit, ?_⟩
        interval_cases n
        all_goals decide
      · rcases ih (n / 10) (by omega) (by omega) with
          ⟨c, tail, hDigits, hZero⟩
        refine ⟨c, tail ++ [(n % 10).digitChar], ?_, hZero⟩
        rw [Nat.toDigits_of_base_le (by decide) (by omega),
          hDigits]
        rfl

/- The digits of a number are read to their end. -/
theorem readNumber_toDigits
    (n : Nat) :
    readNumber .sign (Nat.toDigits 10 n) =
      some (Nat.toDigits 10 n, []) := by
  by_cases hPositive : 0 < n
  · rcases toDigits_head hPositive with
      ⟨c, tail, hDigits, hZero⟩
    have hAll : ∀ d ∈ c :: tail, d.isDigit := by
      intro d hd
      rw [← hDigits] at hd
      exact Nat.isDigit_of_mem_toDigits (by decide)
        (by decide) hd
    rw [List.forall_mem_cons] at hAll
    have hNext :
        Scanner.NumberPart.sign.next? c = some .digits := by
      rw [Scanner.NumberPart.next?, if_neg hZero,
        if_pos hAll.1]
    rw [hDigits, readNumber_next hNext,
      readNumber_digits hAll.2]
    rfl
  · rw [Nat.eq_zero_of_not_pos hPositive]
    rfl

/- An integer is a number. -/
theorem isNumber_int
    (n : Int) :
    IsNumber (toString n) := by
  unfold IsNumber
  rw [Int.toString_eq_repr, Int.repr_eq_if]
  by_cases hSign : 0 ≤ n
  · rw [if_pos hSign, Nat.repr_eq_ofList_toDigits,
      String.toList_ofList]
    have hRead := readNumber_toDigits n.toNat
    cases hDigits : Nat.toDigits 10 n.toNat with
    | nil => exact absurd hDigits Nat.toDigits_ne_nil
    | cons c tail =>
        have hDigit : c.isDigit := by
          apply Nat.isDigit_of_mem_toDigits (b := 10)
            (n := n.toNat) (by decide) (by decide)
          rw [hDigits]
          exact List.mem_cons_self
        have hMinus : c ≠ '-' := by
          rintro rfl
          cases hDigit
        rw [hDigits] at hRead
        rw [readNumber?_unsigned hMinus, hRead]
  · rw [if_neg hSign, Nat.repr_eq_ofList_toDigits,
      String.toList_append, String.toList_ofList,
      String.toList_ofList, List.singleton_append,
      readNumber?_minus, readNumber_toDigits]
    rfl

------------------------------------------------------------
-- Blanks Between the Parts of a Value
------------------------------------------------------------

theorem skipSpace_visible
    (h : isSpace c = false) :
    skipSpace (c :: text) = c :: text := by
  unfold skipSpace
  rw [List.dropWhile_cons_of_neg]
  rw [h]
  decide

@[simp] theorem skipSpace_newline
    (depth : Nat)
    (text : List Char) :
    skipSpace (newline depth ++ text) = skipSpace text := by
  unfold newline skipSpace
  rw [List.cons_append, List.dropWhile_cons_of_pos rfl,
    List.dropWhile_append_of_pos]
  intro c hc
  rw [List.eq_of_mem_replicate hc]
  rfl

theorem skipSpace_blank
    (text : List Char) :
    skipSpace (' ' :: text) = skipSpace text :=
  rfl

theorem skipSpace_skipSpace
    (text : List Char) :
    skipSpace (skipSpace text) = skipSpace text := by
  exact List.dropWhile_idempotent isSpace text

section

variable {text' : List Char}
variable (h : skipSpace text = skipSpace text')
variable (bound : Nat)

include h

/- Blanks in front of a value do not matter. -/
theorem readValue?_skipSpace :
    readValue? bound text = readValue? bound text' := by
  cases bound with
  | zero => rfl
  | succ bound => rw [readValue?, readValue?, h]

theorem readItems?_skipSpace :
    readItems? bound text = readItems? bound text' := by
  cases bound with
  | zero => rfl
  | succ bound =>
      rw [readItems?, readItems?, readValue?_skipSpace h]

theorem readMembers?_skipSpace :
    readMembers? bound text = readMembers? bound text' := by
  cases bound with
  | zero => rfl
  | succ bound => rw [readMembers?, readMembers?, h]

end

------------------------------------------------------------
-- Values
------------------------------------------------------------

mutual

/- All numbers in a value are written as numbers. -/
def Legible :
    Json → Prop
  | null | bool _ | string _ => True
  | number literal => IsNumber literal
  | array items => LegibleItems items
  | object members => LegibleMembers members

def LegibleItems :
    List Json → Prop
  | [] => True
  | item :: items => item.Legible ∧ LegibleItems items

def LegibleMembers :
    List (String × Json) → Prop
  | [] => True
  | (_, value) :: members =>
      value.Legible ∧ LegibleMembers members

end

theorem isSpace_numberStart
    (h : c = '-' ∨ c.isDigit) :
    isSpace c = false := by
  rw [← Bool.not_eq_true]
  intro hSpace
  simp only [isSpace, Bool.or_eq_true,
    decide_eq_true_eq] at hSpace
  rcases hSpace with ((rfl | rfl) | rfl) | rfl
  all_goals
    revert h
    decide

/- The first character of a written value. -/
theorem write_head
    {v : Json}
    (h : v.Legible)
    (depth : Nat) :
    ∃ c tail,
      v.write depth = c :: tail ∧ isSpace c = false ∧
        c ≠ ']' := by
  cases v with
  | null => exact ⟨_, _, rfl, rfl, by decide⟩
  | bool b =>
      cases b
      all_goals exact ⟨_, _, rfl, rfl, by decide⟩
  | string s => exact ⟨_, _, rfl, rfl, by decide⟩
  | array items =>
      cases items
      all_goals exact ⟨_, _, rfl, rfl, by decide⟩
  | object members =>
      cases members
      all_goals exact ⟨_, _, rfl, rfl, by decide⟩
  | number literal =>
      rcases IsNumber.head h with ⟨c, tail, hChars, hFirst⟩
      refine ⟨c, tail, hChars, isSpace_numberStart hFirst, ?_⟩
      rintro rfl
      revert hFirst
      decide

theorem follows_newline
    (depth : Nat)
    (text : List Char) :
    Follows (newline depth ++ text) := by
  intro c hc
  right
  exact (Option.some.inj hc).symm

theorem follows_writeItems
    (depth outer : Nat)
    (items : List Json)
    (text : List Char) :
    Follows
      (writeItems depth items ++ (newline outer ++ text)) := by
  cases items with
  | nil => exact follows_newline outer text
  | cons item items =>
      intro c hc
      left
      exact (Option.some.inj hc).symm

theorem follows_writeMembers
    (depth outer : Nat)
    (members : List (String × Json))
    (text : List Char) :
    Follows
      (writeMembers depth members ++ (newline outer ++ text)) := by
  cases members with
  | nil => exact follows_newline outer text
  | cons member members =>
      intro c hc
      left
      exact (Option.some.inj hc).symm

theorem readValue?_string
    {read : List Char × List Char}
    (hRest : readString? rest = some read)
    (bound : Nat) :
    readValue? (bound + 1) ('"' :: rest) =
      some (string (String.ofList read.1), read.2) := by
  rw [readValue?, skipSpace_visible rfl]
  change (readString? rest).bind _ = _
  rw [hRest]
  rfl

/- A number is told by its first character. -/
theorem readValue?_number
    {literal : String}
    (h : IsNumber literal)
    (hFollows : Follows rest)
    (bound : Nat) :
    readValue? (bound + 1) (literal.toList ++ rest) =
      some (number literal, rest) := by
  have hRead := h.readNumber?_append hFollows
  rcases h.head with ⟨c, tail, hChars, hFirst⟩
  have hSkip :
      skipSpace (literal.toList ++ rest) =
        literal.toList ++ rest := by
    rw [hChars]
    exact skipSpace_visible (isSpace_numberStart hFirst)
  rw [readValue?, hSkip]
  split
  case h_7 =>
    rw [hRead]
    change some (number (String.ofList literal.toList), rest) = _
    rw [String.ofList_toList]
  all_goals
    rename_i hText
    rw [hChars] at hText
    cases hText
    exact absurd hFirst (by decide)

theorem readValue?_array
    {items : List Json}
    {bound : Nat}
    (hOpen : ∀ tail, skipSpace text ≠ ']' :: tail)
    (hItems : readItems? bound text = some (items, rest)) :
    readValue? (bound + 1) ('[' :: text) =
      some (array items, rest) := by
  rw [readValue?, skipSpace_visible rfl]
  simp only
  rw [readItems?_skipSpace (skipSpace_skipSpace text), hItems]
  rfl

theorem readValue?_object
    {members : List (String × Json)}
    {bound : Nat}
    (hOpen : ∀ tail, skipSpace text ≠ '\x7d' :: tail)
    (hMembers :
      readMembers? bound text = some (members, rest)) :
    readValue? (bound + 1) ('\x7b' :: text) =
      some (object members, rest) := by
  rw [readValue?, skipSpace_visible rfl]
  simp only
  rw [readMembers?_skipSpace (skipSpace_skipSpace text),
    hMembers]
  rfl

section

variable {item : Json}
variable {after more : List Char}
variable {bound : Nat}
variable (hItem : readValue? bound text = some (item, after))

include hItem

theorem readItems?_last
    (hEnd : skipSpace after = ']' :: rest) :
    readItems? (bound + 1) text = some ([item], rest) := by
  rw [readItems?, hItem]
  simp only [Option.bind_eq_bind, Option.bind_some, hEnd]
  rfl

theorem readItems?_more
    {items : List Json}
    (hComma : skipSpace after = ',' :: more)
    (hItems : readItems? bound more = some (items, rest)) :
    readItems? (bound + 1) text =
      some (item :: items, rest) := by
  rw [readItems?, hItem]
  simp only [Option.bind_eq_bind, Option.bind_some, hComma,
    hItems]
  rfl

end

section

variable {key : String}
variable {value : Json}
variable {inside after more : List Char}
variable {bound : Nat}
variable
  (hKey : skipSpace text = writeString key ++ ':' :: inside)
variable (hValue : readValue? bound inside = some (value, after))

include hKey hValue

theorem readMembers?_last
    (hEnd : skipSpace after = '\x7d' :: rest) :
    readMembers? (bound + 1) text =
      some ([(key, value)], rest) := by
  rw [readMembers?, hKey]
  simp only [writeString, List.cons_append, List.append_assoc,
    List.nil_append, readString?_written,
    Option.bind_eq_bind, Option.bind_some,
    skipSpace_visible (c := ':') rfl, hValue, hEnd,
    String.ofList_toList]
  rfl

theorem readMembers?_more
    {members : List (String × Json)}
    (hComma : skipSpace after = ',' :: more)
    (hMembers :
      readMembers? bound more = some (members, rest)) :
    readMembers? (bound + 1) text =
      some ((key, value) :: members, rest) := by
  rw [readMembers?, hKey]
  simp only [writeString, List.cons_append, List.append_assoc,
    List.nil_append, readString?_written,
    Option.bind_eq_bind, Option.bind_some,
    skipSpace_visible (c := ':') rfl, hValue, hComma,
    hMembers, String.ofList_toList]
  rfl

end

/- What is written for items, after the first comma. -/
theorem writeItems_tail
    (depth : Nat)
    (item : Json)
    (items : List Json)
    (text : List Char) :
    (writeItems depth (item :: items)).tail ++ text =
      newline depth ++
        (item.write depth ++
          (writeItems depth items ++ text)) := by
  simp [writeItems]

/- What is written for members, after the first comma. -/
theorem writeMembers_tail
    (depth : Nat)
    (key : String)
    (value : Json)
    (members : List (String × Json))
    (text : List Char) :
    (writeMembers depth ((key, value) :: members)).tail ++
        text =
      newline depth ++
        (writeString key ++
          ':' :: ' ' ::
            (value.write depth ++
              (writeMembers depth members ++ text))) := by
  simp [writeMembers]

theorem skipSpace_writeString
    (key : String)
    (text : List Char) :
    skipSpace (writeString key ++ text) =
      writeString key ++ text :=
  skipSpace_visible rfl

mutual

/-
  A written value is read back. Each call takes a character,
  so the length of what was written bounds the calls.
-/
theorem readValue?_write
    (v : Json)
    (hLegible : v.Legible)
    (depth bound : Nat)
    (hBound : (v.write depth).length ≤ bound)
    (rest : List Char)
    (hFollows : Follows rest) :
    readValue? (bound + 1) (v.write depth ++ rest) =
      some (v, rest) := by
  cases v with
  | null => rfl
  | bool b =>
      cases b
      all_goals rfl
  | number literal =>
      exact readValue?_number hLegible hFollows bound
  | string s =>
      have hValue :=
        readValue?_string (readString?_written s.toList rest)
          bound
      rw [String.ofList_toList] at hValue
      simp only [write, writeString, List.cons_append,
        List.append_assoc, List.nil_append]
      exact hValue
  | array items =>
      cases items with
      | nil => rfl
      | cons item items =>
          have hText :
              (array (item :: items)).write depth ++ rest =
                '[' ::
                  ((writeItems (depth + 1)
                      (item :: items)).tail ++
                    (newline depth ++ ']' :: rest)) := by
            simp [write, writeItems]
          have hItems :=
            readItems?_write (item :: items)
              (List.cons_ne_nil _ _) hLegible (depth + 1)
              depth bound
              (by
                simp only [write, writeItems,
                  List.length_append,
                  List.length_cons] at hBound ⊢
                omega)
              rest
          rw [hText]
          apply readValue?_array ?_ hItems
          intro tail hClosed
          rcases write_head hLegible.1 (depth + 1) with
            ⟨c, _, hItem, hVisible, hOpen⟩
          rw [writeItems_tail, skipSpace_newline, hItem,
            List.cons_append,
            skipSpace_visible hVisible] at hClosed
          exact hOpen (List.cons.inj hClosed).1
  | object members =>
      cases members with
      | nil => rfl
      | cons member members =>
          rcases member with ⟨key, value⟩
          have hText :
              (object ((key, value) :: members)).write depth ++
                  rest =
                '\x7b' ::
                  ((writeMembers (depth + 1)
                      ((key, value) :: members)).tail ++
                    (newline depth ++ '\x7d' :: rest)) := by
            simp [write, writeMembers]
          have hMembers :=
            readMembers?_write ((key, value) :: members)
              (List.cons_ne_nil _ _) hLegible (depth + 1)
              depth bound
              (by
                simp only [write, writeMembers,
                  List.length_append,
                  List.length_cons] at hBound ⊢
                omega)
              rest
          rw [hText]
          apply readValue?_object ?_ hMembers
          intro tail hClosed
          rw [writeMembers_tail, skipSpace_newline,
            skipSpace_writeString] at hClosed
          cases hClosed

/- So are the items of an array. -/
theorem readItems?_write
    (items : List Json)
    (hSome : items ≠ [])
    (hLegible : LegibleItems items)
    (depth outer bound : Nat)
    (hBound : (writeItems depth items).length ≤ bound)
    (rest : List Char) :
    readItems? bound
        ((writeItems depth items).tail ++
          (newline outer ++ ']' :: rest)) =
      some (items, rest) := by
  cases items with
  | nil => exact absurd rfl hSome
  | cons item items =>
      simp only [writeItems, newline, List.length_cons,
        List.length_append] at hBound
      obtain ⟨bound, rfl⟩ : ∃ b, bound = b + 2 :=
        ⟨bound - 2, by omega⟩
      have hItem :=
        readValue?_write item hLegible.1 depth bound
          (by omega) _
          (follows_writeItems depth outer items (']' :: rest))
      rw [← readValue?_skipSpace
        (skipSpace_newline depth _)] at hItem
      rw [writeItems_tail]
      cases items with
      | nil =>
          exact readItems?_last hItem
            (skipSpace_newline outer _)
      | cons item' items =>
          exact readItems?_more hItem rfl
            (readItems?_write (item' :: items)
              (List.cons_ne_nil _ _) hLegible.2 depth outer
              (bound + 1) (by omega) rest)

/- And so are the members of an object. -/
theorem readMembers?_write
    (members : List (String × Json))
    (hSome : members ≠ [])
    (hLegible : LegibleMembers members)
    (depth outer bound : Nat)
    (hBound : (writeMembers depth members).length ≤ bound)
    (rest : List Char) :
    readMembers? bound
        ((writeMembers depth members).tail ++
          (newline outer ++ '\x7d' :: rest)) =
      some (members, rest) := by
  cases members with
  | nil => exact absurd rfl hSome
  | cons member members =>
      rcases member with ⟨key, value⟩
      simp only [writeMembers, newline, List.length_cons,
        List.length_append] at hBound
      obtain ⟨bound, rfl⟩ : ∃ b, bound = b + 2 :=
        ⟨bound - 2, by omega⟩
      have hValue :=
        readValue?_write value hLegible.1 depth bound
          (by omega) _
          (follows_writeMembers depth outer members
            ('\x7d' :: rest))
      rw [← readValue?_skipSpace (skipSpace_blank _)] at hValue
      have hKey :=
        (skipSpace_newline depth _).trans
          (skipSpace_writeString key
            (':' :: ' ' ::
              (value.write depth ++
                (writeMembers depth members ++
                  (newline outer ++ '\x7d' :: rest)))))
      rw [writeMembers_tail]
      cases members with
      | nil =>
          exact readMembers?_last hKey hValue
            (skipSpace_newline outer _)
      | cons member members =>
          exact readMembers?_more hKey hValue rfl
            (readMembers?_write (member :: members)
              (List.cons_ne_nil _ _) hLegible.2 depth outer
              (bound + 1) (by omega) rest)

end

/- A text that was written, with a line end, is read back. -/
theorem parse?_render
    {v : Json}
    (h : v.Legible) :
    parse? (v.render ++ "\n").toList = some v := by
  have hText :
      (v.render ++ "\n").toList = v.write 0 ++ newline 0 := by
    unfold render
    rw [String.toList_append, String.toList_ofList]
    rfl
  have hRead :=
    readValue?_write v h 0
      (2 * (v.write 0 ++ newline 0).length + 1)
      (by
        rw [List.length_append]
        omega)
      (newline 0) (follows_newline 0 [])
  unfold parse?
  rw [hText, hRead]
  rfl

end Json

end QueryHover
