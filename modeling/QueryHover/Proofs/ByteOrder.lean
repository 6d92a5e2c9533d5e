import Mathlib.Data.List.Lex
import Mathlib.Data.Char
import Mathlib.Tactic.SplitIfs
import QueryHover.Text.Bytes

/-
  The order of texts by their bytes.

  Texts are compared character by character, and so are the
  bytes they are made of. Both orders are the same: of two
  different characters, the greater one has the greater byte
  at the first place where their bytes differ, and the bytes
  of one never start those of the other.

  Main declarations:
    * `Text.ByteLess`
    * `Text.charBytes_eq`
    * `Text.byteLess_iff`
-/

namespace QueryHover

namespace Text

------------------------------------------------------------
-- Bytes of a Character
------------------------------------------------------------

/- Listing bytes from a place on, after those listed already. -/
theorem listing_from
    (bytes : ByteArray)
    (place : Nat)
    (listed : List UInt8) :
    ByteArray.toList.loop bytes place listed =
      listed.reverse ++ bytes.data.toList.drop place := by
  fun_induction ByteArray.toList.loop bytes place listed with
  | case1 place listed hInside ih =>
      have hPlace : place < bytes.data.toList.length := hInside
      have hByte :
          bytes.get! place = bytes.data.toList[place] := by
        simp [ByteArray.get!, hInside]
      rw [ih, List.drop_eq_getElem_cons hPlace, hByte,
        List.reverse_cons, List.append_assoc,
        List.singleton_append]
  | case2 place listed hPast =>
      have hPlace : bytes.data.toList.length ≤ place :=
        Nat.le_of_not_lt hPast
      rw [List.drop_eq_nil_of_le hPlace, List.append_nil]

/- The bytes of a character are those of its encoding. -/
theorem charBytes_eq
    (c : Char) :
    charBytes c = String.utf8EncodeChar c := by
  unfold charBytes ByteArray.toList String.toUTF8
  rw [listing_from, String.toByteArray_ofList, List.utf8Encode,
    List.toList_data_toByteArray]
  simp

------------------------------------------------------------
-- Two Characters
------------------------------------------------------------

/- Bytes are compared from the first one on. -/
theorem lex_byte
    {n m : Nat}
    (hn : n < 256)
    (hm : m < 256)
    {s t : List UInt8}
    (h : n < m ∨ n = m ∧ List.Lex (· < ·) s t) :
    List.Lex (· < ·) (UInt8.ofNat n :: s)
      (UInt8.ofNat m :: t) := by
  rcases h with hLess | ⟨rfl, hRest⟩
  · apply List.Lex.rel
    rw [UInt8.lt_iff_toNat_lt, UInt8.toNat_ofNat',
      UInt8.toNat_ofNat', Nat.mod_eq_of_lt hn,
      Nat.mod_eq_of_lt hm]
    exact hLess
  · exact List.Lex.cons hRest

section

variable {v w : Nat}
variable (s t : List UInt8)

/- Codes that differ in their last six bits only. -/
theorem lex_last
    (h : v < w)
    (hUpper : v / 64 = w / 64) :
    List.Lex (· < ·)
      (UInt8.ofNat (v % 64 + 128) :: s)
      (UInt8.ofNat (w % 64 + 128) :: t) :=
  lex_byte (by omega) (by omega) (.inl (by omega))

theorem lex_last_two
    (h : v < w)
    (hUpper : v / 4096 = w / 4096) :
    List.Lex (· < ·)
      (UInt8.ofNat (v / 64 % 64 + 128) ::
        UInt8.ofNat (v % 64 + 128) :: s)
      (UInt8.ofNat (w / 64 % 64 + 128) ::
        UInt8.ofNat (w % 64 + 128) :: t) := by
  apply lex_byte (by omega) (by omega)
  by_cases hSame : v / 64 = w / 64
  · exact .inr ⟨by omega, lex_last s t h hSame⟩
  · exact .inl (by omega)

theorem lex_last_three
    (h : v < w)
    (hUpper : v / 262144 = w / 262144) :
    List.Lex (· < ·)
      (UInt8.ofNat (v / 4096 % 64 + 128) ::
        UInt8.ofNat (v / 64 % 64 + 128) ::
          UInt8.ofNat (v % 64 + 128) :: s)
      (UInt8.ofNat (w / 4096 % 64 + 128) ::
        UInt8.ofNat (w / 64 % 64 + 128) ::
          UInt8.ofNat (w % 64 + 128) :: t) := by
  apply lex_byte (by omega) (by omega)
  by_cases hSame : v / 4096 = w / 4096
  · exact .inr ⟨by omega, lex_last_two s t h hSame⟩
  · exact .inl (by omega)

end

/- The lesser character decides, whatever follows. -/
theorem lex_charBytes
    {c d : Char}
    (h : c < d)
    (s t : List UInt8) :
    List.Lex (· < ·) (charBytes c ++ s) (charBytes d ++ t) := by
  have hCode : c.val.toNat < d.val.toNat := h
  have hMax : d.val.toNat < 0x110000 := by
    have hValid := d.valid
    unfold UInt32.isValidChar Nat.isValidChar at hValid
    omega
  rw [charBytes_eq, charBytes_eq]
  unfold String.utf8EncodeChar
  generalize c.val.toNat = v at hCode
  generalize d.val.toNat = w at hCode hMax
  dsimp only
  -- With as many bytes the first difference decides; with more
  -- of them the first byte is greater already.
  split_ifs
  · exact lex_byte (by omega) (by omega) (.inl hCode)
  · exact lex_byte (by omega) (by omega) (.inl (by omega))
  · exact lex_byte (by omega) (by omega) (.inl (by omega))
  · exact lex_byte (by omega) (by omega) (.inl (by omega))
  · omega
  · apply lex_byte (by omega) (by omega)
    by_cases hSame : v / 64 = w / 64
    · exact .inr ⟨by omega, lex_last s t hCode hSame⟩
    · exact .inl (by omega)
  · exact lex_byte (by omega) (by omega) (.inl (by omega))
  · exact lex_byte (by omega) (by omega) (.inl (by omega))
  · omega
  · omega
  · apply lex_byte (by omega) (by omega)
    by_cases hSame : v / 4096 = w / 4096
    · exact .inr ⟨by omega, lex_last_two s t hCode hSame⟩
    · exact .inl (by omega)
  · exact lex_byte (by omega) (by omega) (.inl (by omega))
  · omega
  · omega
  · omega
  · apply lex_byte (by omega) (by omega)
    by_cases hSame : v / 262144 = w / 262144
    · exact .inr ⟨by omega, lex_last_three s t hCode hSame⟩
    · exact .inl (by omega)

------------------------------------------------------------
-- Two Texts
------------------------------------------------------------

/- One text comes before another by their bytes. -/
def ByteLess
    (s t : String) : Prop :=
  List.Lex (· < ·) (bytes s.toList) (bytes t.toList)

theorem charBytes_ne_nil
    (c : Char) :
    charBytes c ≠ [] := by
  rw [charBytes_eq]
  unfold String.utf8EncodeChar
  dsimp only
  split_ifs <;> exact List.cons_ne_nil _ _

/- A lesser text has lesser bytes. -/
theorem lex_bytes
    {cs ds : List Char}
    (h : List.Lex (· < ·) cs ds) :
    List.Lex (· < ·) (bytes cs) (bytes ds) := by
  induction h with
  | @nil d ds =>
      unfold bytes
      rw [List.flatMap_nil, List.flatMap_cons]
      cases hBytes : charBytes d with
      | nil => exact absurd hBytes (charBytes_ne_nil d)
      | cons b rest => exact List.Lex.nil
  | @rel c cs d ds hLess =>
      exact lex_charBytes hLess (bytes cs) (bytes ds)
  | @cons c cs ds _ ih =>
      have hSame : bytes (c :: cs) < bytes (c :: ds) :=
        List.append_left_lt ih
      exact hSame

/- The order of the bytes is that of the characters. -/
theorem byteLess_iff
    (s t : String) :
    ByteLess s t ↔ s < t := by
  rw [String.lt_iff]
  constructor
  · intro hBytes
    have hLess : bytes s.toList < bytes t.toList := hBytes
    rcases lt_trichotomy s.toList t.toList with
      hText | hText | hText
    · exact hText
    · rw [hText] at hLess
      exact absurd hLess (List.lt_irrefl _)
    · exact absurd (lex_bytes hText) (List.lt_asymm hLess)
  · exact lex_bytes

end Text

end QueryHover
