import Mathlib.Order.Lattice.Nat
import QueryHover.Proofs.ByteOrder
import QueryHover.Text.EditDistance

/-
  The edit distance and the closest of some texts.

  The distance of two sequences is the least number of
  changes that turn one into the other, where a change puts
  an entry in, takes one out or replaces one. Changes are
  made from the front on, so what they do to two sequences
  is said for the sequences without their last entries
  first. The rows of the table follow that.

  Main declarations:
    * `Text.Turns`
    * `Text.changes`
    * `Text.editDistance_eq_changes`
    * `Text.nearest?_least`
-/

namespace QueryHover

namespace Text

variable {α : Type}

------------------------------------------------------------
-- Changes
------------------------------------------------------------

/-
  So many changes, made from the front to the end, turn one
  sequence into another.
-/
inductive Turns :
    Nat → List α → List α → Prop where
  | nil :
      Turns 0 [] []
  | keep
      {n : Nat} {xs ys : List α}
      (h : Turns n xs ys)
      (x : α) :
      Turns n (xs ++ [x]) (ys ++ [x])
  | replace
      {n : Nat} {xs ys : List α}
      (h : Turns n xs ys)
      (x y : α) :
      Turns (n + 1) (xs ++ [x]) (ys ++ [y])
  | remove
      {n : Nat} {xs ys : List α}
      (h : Turns n xs ys)
      (x : α) :
      Turns (n + 1) (xs ++ [x]) ys
  | insert
      {n : Nat} {xs ys : List α}
      (h : Turns n xs ys)
      (y : α) :
      Turns (n + 1) xs (ys ++ [y])

/- The least number of changes between two sequences. -/
noncomputable def changes
    (xs ys : List α) : Nat :=
  sInf {n | Turns n xs ys}

/- Everything may be taken out and put in anew. -/
theorem turns_all
    (xs ys : List α) :
    Turns (xs.length + ys.length) xs ys := by
  induction ys using List.reverseRecOn with
  | nil =>
      induction xs using List.reverseRecOn with
      | nil => exact Turns.nil
      | append_singleton xs x ih =>
          rw [List.length_append, List.length_singleton]
          exact ih.remove x
  | append_singleton ys y ih =>
      rw [List.length_append, List.length_singleton]
      exact ih.insert y

theorem turns_changes
    (xs ys : List α) :
    Turns (changes xs ys) xs ys := by
  have hSome : {n | Turns n xs ys}.Nonempty :=
    ⟨_, turns_all xs ys⟩
  exact Nat.sInf_mem hSome

theorem changes_le
    {n : Nat}
    {xs ys : List α}
    (h : Turns n xs ys) :
    changes xs ys ≤ n :=
  Nat.sInf_le h

/- Each change adds or takes away at most one entry. -/
theorem Turns.length_le
    {n : Nat}
    {xs ys : List α}
    (h : Turns n xs ys) :
    xs.length ≤ ys.length + n ∧ ys.length ≤ xs.length + n := by
  induction h with
  | nil => exact ⟨Nat.le_refl 0, Nat.le_refl 0⟩
  | keep _ _ ih =>
      simp only [List.length_append, List.length_singleton]
      omega
  | replace _ _ _ ih =>
      simp only [List.length_append, List.length_singleton]
      omega
  | remove _ _ ih =>
      simp only [List.length_append, List.length_singleton]
      omega
  | insert _ _ ih =>
      simp only [List.length_append, List.length_singleton]
      omega

theorem changes_nil_left
    (ys : List α) :
    changes [] ys = ys.length := by
  have hLeast := (turns_changes [] ys).length_le.2
  have hAll := changes_le (turns_all [] ys)
  rw [List.length_nil] at hLeast hAll
  omega

theorem changes_nil_right
    (xs : List α) :
    changes xs [] = xs.length := by
  have hLeast := (turns_changes xs []).length_le.1
  have hAll := changes_le (turns_all xs [])
  rw [List.length_nil] at hLeast hAll
  omega

/- What may be done about the last entries. -/
theorem Turns.concat_cases
    {n : Nat}
    {xs ys : List α}
    {x y : α}
    (h : Turns n (xs ++ [x]) (ys ++ [y])) :
    (x = y ∧ Turns n xs ys) ∨
      ∃ m, n = m + 1 ∧
        (Turns m xs ys ∨ Turns m (xs ++ [x]) ys ∨
          Turns m xs (ys ++ [y])) := by
  generalize hLeft : xs ++ [x] = us at h
  generalize hRight : ys ++ [y] = vs at h
  cases h with
  | nil => simp at hLeft
  | keep h z =>
      rcases List.append_inj' hLeft rfl with ⟨rfl, hx⟩
      rcases List.append_inj' hRight rfl with ⟨rfl, hy⟩
      cases hx
      cases hy
      exact .inl ⟨rfl, h⟩
  | replace h a b =>
      rcases List.append_inj' hLeft rfl with ⟨rfl, _⟩
      rcases List.append_inj' hRight rfl with ⟨rfl, _⟩
      exact .inr ⟨_, rfl, .inl h⟩
  | remove h a =>
      rcases List.append_inj' hLeft rfl with ⟨rfl, _⟩
      subst hRight
      exact .inr ⟨_, rfl, .inr (.inr h)⟩
  | insert h b =>
      rcases List.append_inj' hRight rfl with ⟨rfl, _⟩
      subst hLeft
      exact .inr ⟨_, rfl, .inr (.inl h)⟩

variable [DecidableEq α]

/- The distance with one more entry on both sides. -/
theorem changes_concat
    (xs ys : List α)
    (x y : α) :
    changes (xs ++ [x]) (ys ++ [y]) =
      min (changes xs ys + if x = y then 0 else 1)
        (min (changes (xs ++ [x]) ys)
          (changes xs (ys ++ [y])) + 1) := by
  have hBoth :
      changes (xs ++ [x]) (ys ++ [y]) ≤
        changes xs ys + if x = y then 0 else 1 := by
    split
    case isTrue hSame =>
      subst hSame
      exact changes_le ((turns_changes xs ys).keep x)
    case isFalse =>
      exact changes_le ((turns_changes xs ys).replace x y)
  have hLeft :=
    changes_le ((turns_changes (xs ++ [x]) ys).insert y)
  have hRight :=
    changes_le ((turns_changes xs (ys ++ [y])).remove x)
  have hCost : (if x = y then 0 else 1) ≤ 1 := by
    split
    · exact Nat.zero_le 1
    · exact Nat.le_refl 1
  rcases (turns_changes (xs ++ [x]) (ys ++ [y])).concat_cases
    with ⟨rfl, h⟩ | ⟨m, hm, h | h | h⟩
  · have hLeast := changes_le h
    rw [if_pos rfl] at hBoth ⊢
    omega
  · have hLeast := changes_le h
    omega
  · have hLeast := changes_le h
    omega
  · have hLeast := changes_le h
    omega

------------------------------------------------------------
-- Rows
------------------------------------------------------------

/-
  The distances of a sequence to the beginnings of another
  one, from a given beginning on.
-/
noncomputable def rowFrom
    (xs : List α) :
    List α → List α → List Nat
  | front, [] => [changes xs front]
  | front, y :: ys =>
      changes xs front :: rowFrom xs (front ++ [y]) ys

omit [DecidableEq α] in
theorem rowFrom_eq_cons
    (xs front ys : List α) :
    ∃ row, rowFrom xs front ys = changes xs front :: row := by
  cases ys with
  | nil => exact ⟨[], rfl⟩
  | cons y ys => exact ⟨_, rfl⟩

/- The row below is filled from the left to the right. -/
theorem extendRow_rowFrom
    (x : α)
    (xs front ys : List α) :
    changes (xs ++ [x]) front ::
        extendRow x (changes (xs ++ [x]) front) ys
          (rowFrom xs front ys) =
      rowFrom (xs ++ [x]) front ys := by
  induction ys generalizing front with
  | nil => rfl
  | cons y ys ih =>
      rcases rowFrom_eq_cons xs (front ++ [y]) ys with
        ⟨row, hRow⟩
      have hNext := ih (front ++ [y])
      rw [hRow] at hNext
      rw [rowFrom, rowFrom, hRow, extendRow, ← hNext,
        changes_concat]

theorem nextRow_rowFrom
    (x : α)
    (xs ys : List α) :
    nextRow ys (rowFrom xs [] ys) x =
      rowFrom (xs ++ [x]) [] ys := by
  have hRow := extendRow_rowFrom x xs [] ys
  have hFirst : changes (xs ++ [x]) [] = changes xs [] + 1 := by
    rw [changes_nil_right, changes_nil_right, List.length_append,
      List.length_singleton]
  rw [hFirst] at hRow
  rcases rowFrom_eq_cons xs [] ys with ⟨row, hStart⟩
  rw [← hRow, hStart]
  rfl

theorem foldl_nextRow
    (xs done ys : List α) :
    xs.foldl (nextRow ys) (rowFrom done [] ys) =
      rowFrom (done ++ xs) [] ys := by
  induction xs generalizing done with
  | nil => rw [List.foldl_nil, List.append_nil]
  | cons x xs ih =>
      rw [List.foldl_cons, nextRow_rowFrom, ih,
        List.append_assoc, List.singleton_append]

/- The first row counts the entries of the beginnings. -/
omit [DecidableEq α] in
theorem range_eq_rowFrom
    (front ys : List α) :
    List.range' front.length (ys.length + 1) =
      rowFrom [] front ys := by
  induction ys generalizing front with
  | nil =>
      rw [rowFrom, changes_nil_left]
      rfl
  | cons y ys ih =>
      rw [rowFrom, changes_nil_left, ← ih, List.length_append,
        List.length_singleton, List.length_cons,
        List.range'_succ]

omit [DecidableEq α] in
theorem getLastD_rowFrom
    (xs front ys : List α) :
    (rowFrom xs front ys).getLastD 0 =
      changes xs (front ++ ys) := by
  induction ys generalizing front with
  | nil =>
      rw [rowFrom, List.append_nil]
      rfl
  | cons y ys ih =>
      rcases rowFrom_eq_cons xs (front ++ [y]) ys with
        ⟨row, hRow⟩
      have hLast := ih (front ++ [y])
      rw [hRow] at hLast
      rw [rowFrom, hRow]
      simpa using hLast

/- The computed distance is the least number of changes. -/
theorem editDistance_eq_changes
    (xs ys : List α) :
    editDistance xs ys = changes xs ys := by
  have hFirst := range_eq_rowFrom [] ys
  have hRows := foldl_nextRow xs [] ys
  rw [List.length_nil, ← List.range_eq_range'] at hFirst
  unfold editDistance
  dsimp only
  rw [hFirst, hRows, getLastD_rowFrom, List.nil_append,
    List.nil_append]

------------------------------------------------------------
-- The Closest Text
------------------------------------------------------------

/- The least number of changes between two texts. -/
noncomputable def distance
    (s t : String) : Nat :=
  changes s.toList t.toList

/-
  One text corrects a word better than another: it is nearer
  to the word, or as near and the first of the two by bytes.
-/
def Closer
    (word s t : String) : Prop :=
  distance word s < distance word t ∨
    distance word s = distance word t ∧ ByteLess s t

section

variable {word : String}
variable {candidates : List String}

theorem nearest?_eq_none_iff :
    nearest? word candidates = none ↔ candidates = [] := by
  cases candidates with
  | nil => exact iff_of_true rfl rfl
  | cons first rest =>
      refine iff_of_false ?_ (List.cons_ne_nil _ _)
      unfold nearest?
      dsimp only
      split
      · split
        · exact Option.some_ne_none _
        · exact Option.some_ne_none _
      · exact Option.some_ne_none _

/- No text of a list in order is closer than the nearest. -/
theorem nearest?_least
    (hOrder : candidates.Pairwise fun s t => ¬ByteLess t s)
    {nearest : String}
    {least : Nat}
    (h : nearest? word candidates = some (nearest, least)) :
    nearest ∈ candidates ∧
      least = distance word nearest ∧
      ∀ other ∈ candidates, ¬Closer word other nearest := by
  induction candidates generalizing nearest least with
  | nil => cases h
  | cons first rest ih =>
      rcases List.pairwise_cons.mp hOrder with
        ⟨hFirst, hRest⟩
      have hDistance :
          editDistance word.toList first.toList =
            distance word first :=
        editDistance_eq_changes _ _
      have hSelf : ¬ByteLess first first := by
        rw [byteLess_iff]
        exact String.lt_irrefl first
      unfold nearest? at h
      rw [hDistance] at h
      -- Whether the rest has a text that is strictly nearer.
      cases hFound : nearest? word rest with
      | none =>
          rw [hFound] at h
          cases h
          rw [nearest?_eq_none_iff.mp hFound]
          refine ⟨List.mem_singleton_self first, rfl, ?_⟩
          rintro other hOther (hLess | ⟨_, hBytes⟩)
          · cases List.mem_singleton.mp hOther
            exact Nat.lt_irrefl _ hLess
          · cases List.mem_singleton.mp hOther
            exact hSelf hBytes
      | some found =>
          rcases ih hRest hFound with
            ⟨hMem, hLeast, hOthers⟩
          rw [hFound] at h
          dsimp only at h
          split at h
          case isTrue hNearer =>
            cases h
            refine ⟨List.mem_cons_of_mem _ hMem, hLeast, ?_⟩
            rw [List.forall_mem_cons]
            refine ⟨?_, hOthers⟩
            rintro (hLess | ⟨hSame, _⟩)
            · omega
            · omega
          case isFalse hNotNearer =>
            cases h
            refine ⟨List.mem_cons_self, rfl, ?_⟩
            rw [List.forall_mem_cons]
            refine ⟨?_, ?_⟩
            · rintro (hLess | ⟨_, hBytes⟩)
              · exact Nat.lt_irrefl _ hLess
              · exact hSelf hBytes
            · rintro other hOther (hLess | ⟨_, hBytes⟩)
              · refine hOthers other hOther (.inl ?_)
                omega
              · exact hFirst other hOther hBytes

/-
  What is offered for a word is the closest candidate, if
  that is near enough.
-/
theorem closest?_eq_some
    (hOrder : candidates.Pairwise fun s t => ¬ByteLess t s)
    {closest : String}
    (h : closest? word candidates = some closest) :
    closest ∈ candidates ∧
      distance word closest ≤ correctionLimit ∧
      ∀ other ∈ candidates, ¬Closer word other closest := by
  unfold closest? at h
  cases hFound : nearest? word candidates with
  | none =>
      rw [hFound] at h
      cases h
  | some found =>
      rcases nearest?_least hOrder hFound with
        ⟨hMem, hLeast, hOthers⟩
      rw [hFound] at h
      dsimp only at h
      split at h
      case isTrue hNear =>
        cases h
        rw [hLeast] at hNear
        exact ⟨hMem, hNear, hOthers⟩
      case isFalse => cases h

/- Nothing is offered exactly if no candidate is near. -/
theorem closest?_eq_none_iff
    (hOrder : candidates.Pairwise fun s t => ¬ByteLess t s) :
    closest? word candidates = none ↔
      ∀ other ∈ candidates,
        correctionLimit < distance word other := by
  unfold closest?
  cases hFound : nearest? word candidates with
  | none =>
      rw [nearest?_eq_none_iff.mp hFound]
      exact iff_of_true rfl (List.forall_mem_nil _)
  | some found =>
      rcases nearest?_least hOrder hFound with
        ⟨hMem, hLeast, hOthers⟩
      dsimp only
      split
      case isTrue hNear =>
        refine iff_of_false (Option.some_ne_none _) ?_
        intro hFar
        have hLess := hFar _ hMem
        omega
      case isFalse hFar =>
        refine iff_of_true rfl ?_
        intro other hOther
        have hNotCloser := hOthers other hOther
        unfold Closer at hNotCloser
        omega

end

end Text

end QueryHover
