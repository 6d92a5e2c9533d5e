import Mathlib.Data.List.Forall2
import Mathlib.Tactic.SplitIfs
import QueryHover.Proofs.Streams

/-
  Reading two streams side by side.

  Two streams with the same words are read in lockstep: every
  reader takes as many tokens from the one as from the other.
  The trees are twins. They differ in their places only, and
  a node of the one covers the tokens with the same numbers
  as its twin.

  Main declarations:
    * `TokenStream.Alike`
    * `Node.Twin`
    * `Node.Reading.Lock`
    * `Node.Reading.definitions_lock`
-/

namespace QueryHover

------------------------------------------------------------
-- Places in Two Streams
------------------------------------------------------------

namespace Token

variable {lo hi i j : Nat}
variable {ts : List Token}
variable {t w : Token}

/- An earlier token ends before a later one starts. -/
theorem Between.stop_le_start
    (h : Between lo hi ts)
    (hLess : i < j)
    (ht : ts[i]? = some t)
    (hw : ts[j]? = some w) :
    t.stop ≤ w.start := by
  induction ts generalizing lo i j with
  | nil => cases ht
  | cons a ts ih =>
      cases j with
      | zero => omega
      | succ j =>
          rw [List.getElem?_cons_succ] at hw
          cases i with
          | zero =>
              cases ht
              exact (h.2.2.bounds
                (List.mem_of_getElem? hw)).1
          | succ i =>
              rw [List.getElem?_cons_succ] at ht
              exact ih h.2.2 (by omega) ht hw

/- The places of two tokens compare as their numbers do. -/
theorem Between.compare
    (h : Between lo hi ts)
    (ht : ts[i]? = some t)
    (hw : ts[j]? = some w) :
    (t.start ≤ w.start ↔ i ≤ j) ∧
      (t.start < w.stop ↔ i ≤ j) ∧
      (t.stop ≤ w.stop ↔ i ≤ j) := by
  have hT := h.bounds (List.mem_of_getElem? ht)
  have hW := h.bounds (List.mem_of_getElem? hw)
  rcases Nat.lt_trichotomy i j with hLess | rfl | hLess
  · have hOrder := h.stop_le_start hLess ht hw
    omega
  · rw [ht] at hw
    cases hw
    omega
  · have hOrder := h.stop_le_start hLess hw ht
    omega

end Token

namespace TokenStream

/- Two streams with the same words, each of them in order. -/
structure Alike
    (s s' : TokenStream) : Prop where
  words : s.ahead.map Token.word = s'.ahead.map Token.word
  last : s.last.word = s'.last.word
  between : Token.Between 0 s.last.start s.ahead
  between' : Token.Between 0 s'.last.start s'.ahead

variable (s s' : TokenStream)

/- Two tokens with the same number. -/
def Paired
    (t t' : Token) : Prop :=
  ∃ i : Nat, s.ahead[i]? = some t ∧ s'.ahead[i]? = some t'

/-
  Two places where tokens with the same number start, or two
  places after all tokens.
-/
def SameStart
    (x x' : Nat) : Prop :=
  (∃ t t', Paired s s' t t' ∧ x = t.start ∧ x' = t'.start) ∨
    ((∀ t ∈ s.ahead, t.stop ≤ x) ∧
      ∀ t' ∈ s'.ahead, t'.stop ≤ x')

/-
  Two places where tokens with the same number stop, or the
  two places before all tokens.
-/
def SameStop
    (x x' : Nat) : Prop :=
  (∃ t t', Paired s s' t t' ∧ x = t.stop ∧ x' = t'.stop) ∨
    (x = 0 ∧ x' = 0)

/- Two spans that are both empty, or of the same tokens. -/
def SameSpan
    (a a' : Span) : Prop :=
  (a.stop ≤ a.start ∧ a'.stop ≤ a'.start) ∨
    ∃ t t' w w', Paired s s' t t' ∧ Paired s s' w w' ∧
      a = ⟨t.start, w.stop⟩ ∧ a' = ⟨t'.start, w'.stop⟩

variable {s s'}
variable {t t' w w' : Token}

/- Paired tokens compare alike in the two streams. -/
theorem Alike.compare
    (h : s.Alike s')
    (ht : Paired s s' t t')
    (hw : Paired s s' w w') :
    (t.start ≤ w.start ↔ t'.start ≤ w'.start) ∧
      (t.start < w.stop ↔ t'.start < w'.stop) ∧
      (t.stop ≤ w.stop ↔ t'.stop ≤ w'.stop) := by
  rcases ht with ⟨i, ht, ht'⟩
  rcases hw with ⟨j, hw, hw'⟩
  have hFirst := h.between.compare ht hw
  have hSecond := h.between'.compare ht' hw'
  exact ⟨hFirst.1.trans hSecond.1.symm,
    hFirst.2.1.trans hSecond.2.1.symm,
    hFirst.2.2.trans hSecond.2.2.symm⟩

/- The span from a start to a stop, or an empty one. -/
theorem Alike.sameSpan
    (h : s.Alike s')
    {x x' y y' : Nat}
    (hStart : SameStart s s' x x')
    (hStop : SameStop s s' y y') :
    SameSpan s s' ⟨x, max x y⟩ ⟨x', max x' y'⟩ := by
  rcases hStop with ⟨w, w', hw, rfl, rfl⟩ | ⟨rfl, rfl⟩
  · rcases hStart with
      ⟨t, t', ht, rfl, rfl⟩ | ⟨hAfter, hAfter'⟩
    · have hOrder := (h.compare ht hw).2.1
      by_cases hLess : t.start < w.stop
      · have hLess' := hOrder.mp hLess
        right
        refine ⟨t, t', w, w', ht, hw, ?_, ?_⟩
        · rw [Int.max_eq_right (by omega)]
        · rw [Int.max_eq_right (by omega)]
      · have hLess' : ¬ t'.start < w'.stop :=
          fun hLess' => hLess (hOrder.mpr hLess')
        left
        dsimp only
        omega
    · rcases hw with ⟨j, hw, hw'⟩
      have hBefore := hAfter w (List.mem_of_getElem? hw)
      have hBefore' := hAfter' w' (List.mem_of_getElem? hw')
      left
      dsimp only
      omega
  · left
    dsimp only
    omega

/- Two streams after as many tokens of two others. -/
structure Lockstep
    (s s' u v : TokenStream) : Prop where
  ahead :
    ∃ i, u.ahead = s.ahead.drop i ∧
      v.ahead = s'.ahead.drop i
  last : u.last = s.last ∧ v.last = s'.last
  readTo : SameStop s s' u.readTo v.readTo

variable {u v : TokenStream}

theorem Alike.length_eq
    (h : s.Alike s') :
    s.ahead.length = s'.ahead.length := by
  have hLength := congrArg List.length h.words
  simpa using hLength

/- Both streams go on with a pair, or both are at their end. -/
theorem Lockstep.cases
    (h : s.Alike s')
    (hStep : Lockstep s s' u v) :
    (∃ t t' ts ts', Paired s s' t t' ∧ u.ahead = t :: ts ∧
        v.ahead = t' :: ts' ∧
        Lockstep s s'
          { u with ahead := ts, readTo := t.stop }
          { v with ahead := ts', readTo := t'.stop }) ∨
      (u.ahead = [] ∧ v.ahead = []) := by
  rcases hStep.ahead with ⟨i, hu, hv⟩
  have hLength := h.length_eq
  by_cases hLess : i < s.ahead.length
  · left
    have hLess' : i < s'.ahead.length := by omega
    have hFirst :=
      List.getElem?_eq_getElem (l := s.ahead) hLess
    have hSecond :=
      List.getElem?_eq_getElem (l := s'.ahead) hLess'
    have hPaired : Paired s s' s.ahead[i] s'.ahead[i] :=
      ⟨i, hFirst, hSecond⟩
    refine ⟨_, _, s.ahead.drop (i + 1),
      s'.ahead.drop (i + 1), hPaired, ?_, ?_,
      ⟨i + 1, rfl, rfl⟩, hStep.last,
      .inl ⟨_, _, hPaired, rfl, rfl⟩⟩
    · rw [hu, List.drop_eq_getElem_cons hLess]
    · rw [hv, List.drop_eq_getElem_cons hLess']
  · right
    constructor
    · rw [hu, List.drop_eq_nil_iff]
      omega
    · rw [hv, List.drop_eq_nil_iff]
      omega

theorem Alike.word_eq
    (h : s.Alike s')
    (ht : Paired s s' t t') :
    t.word = t'.word := by
  rcases ht with ⟨i, ht, ht'⟩
  have hWord := congrArg (fun ws : List Word => ws[i]?) h.words
  simpa [ht, ht'] using hWord

theorem Lockstep.head_word
    (h : s.Alike s')
    (hStep : Lockstep s s' u v) :
    u.head.word = v.head.word := by
  unfold head
  rcases hStep.cases h with
    ⟨t, t', ts, ts', hPaired, hu, hv, _⟩ | ⟨hu, hv⟩
  · rw [hu, hv]
    exact h.word_eq hPaired
  · rw [hu, hv, hStep.last.1, hStep.last.2]
    exact h.last

theorem Lockstep.head_start
    (h : s.Alike s')
    (hStep : Lockstep s s' u v) :
    SameStart s s' u.head.start v.head.start := by
  unfold head
  rcases hStep.cases h with
    ⟨t, t', ts, ts', hPaired, hu, hv, _⟩ | ⟨hu, hv⟩
  · rw [hu, hv]
    exact .inl ⟨t, t', hPaired, rfl, rfl⟩
  · rw [hu, hv, hStep.last.1, hStep.last.2]
    exact .inr ⟨fun t ht => (h.between.bounds ht).2.2,
      fun t ht => (h.between'.bounds ht).2.2⟩

theorem Lockstep.tail
    (h : s.Alike s')
    (hStep : Lockstep s s' u v) :
    Lockstep s s' u.tail v.tail := by
  unfold TokenStream.tail
  rcases hStep.cases h with
    ⟨t, t', ts, ts', hPaired, hu, hv, hNext⟩ | ⟨hu, hv⟩
  · rw [hu, hv]
    exact hNext
  · rw [hu, hv]
    exact hStep

theorem Lockstep.length_eq
    (h : s.Alike s')
    (hStep : Lockstep s s' u v) :
    u.ahead.length = v.ahead.length := by
  rcases hStep.ahead with ⟨i, hu, hv⟩
  rw [hu, hv, List.length_drop, List.length_drop,
    h.length_eq]

end TokenStream

------------------------------------------------------------
-- Twins
------------------------------------------------------------

open TokenStream (Alike Lockstep SameStart SameSpan)

/-
  Two trees that differ in their places only, and there cover
  the same tokens of two streams.
-/
inductive Node.Twin
    (s s' : TokenStream) :
    Node → Node → Prop where
  | intro
      {n m : Node}
      (hSame :
        m.kind = n.kind ∧ m.name = n.name ∧
          m.aliasName = n.aliasName ∧
          m.operation = n.operation)
      (hSpan : SameSpan s s' n.span m.span)
      (hChildren :
        List.Forall₂ (Node.Twin s s') n.children m.children) :
      Node.Twin s s' n m

namespace Node

variable {s s' : TokenStream}

theorem Twin.name_eq
    {n m : Node}
    (h : Twin s s' n m) :
    m.name = n.name := by
  cases h with
  | intro hSame _ _ => exact hSame.2.1

theorem Twin.children
    {n m : Node}
    (h : Twin s s' n m) :
    List.Forall₂ (Twin s s') n.children m.children := by
  cases h with
  | intro _ _ hChildren => exact hChildren

theorem rel_toList
    {n m : Option Node}
    (h : Option.Rel (Twin s s') n m) :
    List.Forall₂ (Twin s s') n.toList m.toList := by
  cases h with
  | none => exact .nil
  | some hTwin => exact .cons hTwin .nil

end Node

------------------------------------------------------------
-- Readers in Lockstep
------------------------------------------------------------

namespace Node.Reading

open TokenStream (peek next skip readWhile)

/- Two readers that keep lockstep and yield related results. -/
def Lock
    {α β : Type}
    (s s' : TokenStream)
    (r : α → β → Prop)
    (x : Reading α)
    (y : Reading β) : Prop :=
  ∀ u v, Lockstep s s' u v →
    r (x u).1 (y v).1 ∧ Lockstep s s' (x u).2 (y v).2

namespace Lock

variable {s s' : TokenStream}
variable {α β γ δ : Type}
variable {r : α → β → Prop}
variable {q : γ → δ → Prop}

theorem bind
    {x : Reading α}
    {y : Reading β}
    {f : α → Reading γ}
    {g : β → Reading δ}
    (hFirst : Lock s s' r x y)
    (hNext : ∀ a b, r a b → Lock s s' q (f a) (g b)) :
    Lock s s' q (x >>= f) (y >>= g) := by
  intro u v hStep
  rcases hFirst u v hStep with ⟨hRel, hStep'⟩
  exact hNext _ _ hRel _ _ hStep'

theorem pure
    {a : α}
    {b : β}
    (h : r a b) :
    Lock s s' r (Pure.pure a) (Pure.pure b) :=
  fun _ _ hStep => ⟨h, hStep⟩

/- Both readers take the same branch. -/
theorem branch
    {x x' : Reading α}
    {y y' : Reading β}
    {p : Prop}
    [Decidable p]
    (hThen : Lock s s' r x y)
    (hElse : Lock s s' r x' y') :
    Lock s s' r (if p then x else x')
      (if p then y else y') := by
  split_ifs
  · exact hThen
  · exact hElse

end Lock

variable {s s' : TokenStream}

theorem peek_lock
    (h : s.Alike s') :
    Lock s s' (fun t t' => t.word = t'.word) peek peek :=
  fun _ _ hStep => ⟨hStep.head_word h, hStep⟩

theorem next_lock
    (h : s.Alike s') :
    Lock s s' (fun t t' => t.word = t'.word) next next :=
  fun _ _ hStep => ⟨hStep.head_word h, hStep.tail h⟩

theorem start_lock
    (h : s.Alike s') :
    Lock s s' (SameStart s s') start start :=
  fun _ _ hStep => ⟨hStep.head_start h, hStep⟩

theorem name_lock
    (h : s.Alike s') :
    Lock s s' (fun a a' => a.1 = a'.1) name name :=
  fun _ _ hStep =>
    ⟨congrArg Prod.snd (hStep.head_word h), hStep.tail h⟩

theorem skip_lock
    (h : s.Alike s')
    (kind : Token.Kind) :
    Lock s s' Eq (skip kind) (skip kind) := by
  refine (peek_lock h).bind ?_
  intro t t' hWord
  have hKind : t.kind = t'.kind := congrArg Prod.fst hWord
  rw [hKind]
  apply Lock.branch
  · refine (next_lock h).bind ?_
    intro _ _ _
    exact Lock.pure rfl
  · exact Lock.pure rfl

theorem close_lock
    (h : s.Alike s')
    {a a' : Nat}
    {n m : Node}
    (hStart : SameStart s s' a a')
    (hSame :
      m.kind = n.kind ∧ m.name = n.name ∧
        m.aliasName = n.aliasName ∧
        m.operation = n.operation)
    (hChildren :
      List.Forall₂ (Node.Twin s s') n.children m.children) :
    Lock s s' (Node.Twin s s') (close a n) (close a' m) :=
  fun _ _ hStep =>
    ⟨.intro hSame (h.sameSpan hStart hStep.readTo) hChildren,
      hStep⟩

/- One round of a repetition. -/
theorem readWhile_apply
    {α : Type}
    (starts : Token → Bool)
    (x : Reading α)
    (u : TokenStream) :
    (readWhile starts x : Reading (List α)) u =
      if starts u.head then
        if (x u).2.ahead.length < u.ahead.length then
          ((x u).1 ::
              ((readWhile starts x : Reading (List α))
                (x u).2).1,
            ((readWhile starts x : Reading (List α))
              (x u).2).2)
        else
          ([(x u).1], (x u).2)
      else
        ([], u) := by
  rw [readWhile]
  split_ifs with hStart hProgress
  · change (if _h : (x u).2.ahead.length < u.ahead.length
      then _ else _ : Id _) = _
    rw [dif_pos hProgress]
    rfl
  · change (if _h : (x u).2.ahead.length < u.ahead.length
      then _ else _ : Id _) = _
    rw [dif_neg hProgress]
    rfl
  · rfl

/- Repetitions take as many items from both streams. -/
theorem readWhile_lock
    (h : s.Alike s')
    {α β : Type}
    {r : α → β → Prop}
    {x : Reading α}
    {y : Reading β}
    {starts : Token → Bool}
    (hStarts :
      ∀ t t', t.word = t'.word → starts t = starts t')
    (hItem : Lock s s' r x y) :
    Lock s s' (List.Forall₂ r) (readWhile starts x)
      (readWhile starts y) := by
  intro u v hStep
  generalize hLength : u.ahead.length = length
  induction length using Nat.strongRecOn generalizing u v with
  | ind length ih =>
      rcases hItem u v hStep with ⟨hRel, hStep'⟩
      have hLengths := hStep.length_eq h
      have hLengths' := hStep'.length_eq h
      rw [readWhile_apply starts x u,
        readWhile_apply starts y v,
        ← hStarts _ _ (hStep.head_word h), ← hLengths,
        ← hLengths']
      split_ifs with hStart hProgress
      · rcases ih _ (hLength ▸ hProgress) _ _ hStep' rfl with
          ⟨hRest, hStep''⟩
        exact ⟨.cons hRel hRest, hStep''⟩
      · exact ⟨.cons hRel .nil, hStep'⟩
      · exact ⟨.nil, hStep⟩

theorem scalarKind_eq
    {t t' : Token}
    (hWord : t.word = t'.word) :
    scalarKind t = scalarKind t' := by
  have hKind : t.kind = t'.kind := congrArg Prod.fst hWord
  have hValue : t.value = t'.value := congrArg Prod.snd hWord
  unfold scalarKind
  rw [hKind, hValue]

section

variable (h : s.Alike s')

include h

theorem itemsUntil_lock
    {x : Reading Node}
    (close : Token.Kind)
    (hItem : Lock s s' (Node.Twin s s') x x) :
    Lock s s' (List.Forall₂ (Node.Twin s s'))
      (itemsUntil close x) (itemsUntil close x) := by
  refine (readWhile_lock h ?_ hItem).bind ?_
  · intro t t' hWord
    have hKind : t.kind = t'.kind := congrArg Prod.fst hWord
    rw [hKind]
  · intro ns ms hItems
    refine (next_lock h).bind ?_
    intro _ _ _
    exact Lock.pure hItems

------------------------------------------------------------
-- Variables, Types and Values in Lockstep
------------------------------------------------------------

theorem variableUse_lock :
    Lock s s' (Node.Twin s s') variableUse variableUse := by
  refine (start_lock h).bind ?_
  intro a a' hStart
  refine (next_lock h).bind ?_
  intro _ _ _
  refine (name_lock h).bind ?_
  rintro ⟨name, _⟩ ⟨_, _⟩ rfl
  refine (close_lock h hStart ⟨rfl, rfl, rfl, rfl⟩
    .nil).bind ?_
  intro n m hTwin
  cases hTwin with
  | intro hSame hSpan hChildren =>
      exact Lock.pure (.intro hSame hSpan hChildren)

theorem namedType_lock :
    Lock s s' (Node.Twin s s') namedType namedType := by
  refine (start_lock h).bind ?_
  intro a a' hStart
  refine (name_lock h).bind ?_
  rintro ⟨name, _⟩ ⟨_, _⟩ rfl
  exact close_lock h hStart ⟨rfl, rfl, rfl, rfl⟩ .nil

theorem marked_lock
    {a a' : Nat}
    {n m : Node}
    (hStart : SameStart s s' a a')
    (hType : Node.Twin s s' n m) :
    Lock s s' (Node.Twin s s') (marked a n) (marked a' m) := by
  refine (skip_lock h .bang).bind ?_
  rintro b _ rfl
  apply Lock.branch
  · exact close_lock h hStart ⟨rfl, hType.name_eq, rfl, rfl⟩
      (.cons hType .nil)
  · exact Lock.pure hType

theorem typeRefWithin_lock
    (depth : Nat) :
    Lock s s' (Node.Twin s s') (typeRefWithin depth)
      (typeRefWithin depth) := by
  induction depth with
  | zero =>
      refine (start_lock h).bind ?_
      intro a a' hStart
      refine (namedType_lock h).bind ?_
      intro n m hType
      exact marked_lock h hStart hType
  | succ depth ih =>
      refine (start_lock h).bind ?_
      intro a a' hStart
      refine (skip_lock h .bracketL).bind ?_
      rintro b _ rfl
      apply Lock.branch
      · refine ih.bind ?_
        intro n m hElement
        refine (next_lock h).bind ?_
        intro _ _ _
        refine Lock.bind (close_lock h hStart ?_ ?_) ?_
        · exact ⟨rfl, rfl, rfl, rfl⟩
        · exact .cons hElement .nil
        · intro n m hType
          exact marked_lock h hStart hType
      · refine (namedType_lock h).bind ?_
        intro n m hType
        exact marked_lock h hStart hType

/- Both streams bound the nesting by the same depth. -/
theorem depth_lock
    {α : Type}
    {r : α → α → Prop}
    {x : Nat → Reading α}
    (hWithin : ∀ depth, Lock s s' r (x depth) (x depth)) :
    Lock s s' r (do x (← get).ahead.length)
      (do x (← get).ahead.length) := by
  intro u v hStep
  have hLength := hStep.length_eq h
  change r (x u.ahead.length u).1 (x v.ahead.length v).1 ∧
    Lockstep s s' (x u.ahead.length u).2
      (x v.ahead.length v).2
  rw [hLength]
  exact hWithin _ u v hStep

theorem typeRef_lock :
    Lock s s' (Node.Twin s s') typeRef typeRef :=
  depth_lock h (typeRefWithin_lock h)

theorem scalarValue_lock :
    Lock s s' (Node.Twin s s') scalarValue scalarValue := by
  refine (start_lock h).bind ?_
  intro a a' hStart
  refine (peek_lock h).bind ?_
  intro t t' hWord
  refine (name_lock h).bind ?_
  rintro ⟨name, _⟩ ⟨_, _⟩ rfl
  exact close_lock h hStart
    ⟨(scalarKind_eq hWord).symm, rfl, rfl, rfl⟩ .nil

theorem namedValue_lock
    (kind : Node.Kind)
    {x : Reading Node}
    (hValue : Lock s s' (Node.Twin s s') x x) :
    Lock s s' (Node.Twin s s') (namedValue kind x)
      (namedValue kind x) := by
  refine (start_lock h).bind ?_
  intro a a' hStart
  refine (name_lock h).bind ?_
  rintro ⟨name, _⟩ ⟨_, _⟩ rfl
  refine (skip_lock h .colon).bind ?_
  intro _ _ _
  refine hValue.bind ?_
  intro n m hTwin
  exact close_lock h hStart ⟨rfl, rfl, rfl, rfl⟩
    (.cons hTwin .nil)

theorem valueWithin_lock
    (depth : Nat) :
    Lock s s' (Node.Twin s s') (valueWithin depth)
      (valueWithin depth) := by
  induction depth with
  | zero => exact scalarValue_lock h
  | succ depth ih =>
      refine (start_lock h).bind ?_
      intro a a' hStart
      refine (peek_lock h).bind ?_
      intro t t' hWord
      have hKind : t.kind = t'.kind := congrArg Prod.fst hWord
      rw [hKind]
      cases t'.kind
      case bracketL =>
        refine (next_lock h).bind ?_
        intro _ _ _
        refine (itemsUntil_lock h .bracketR ih).bind ?_
        intro ns ms hItems
        exact close_lock h hStart ⟨rfl, rfl, rfl, rfl⟩ hItems
      case braceL =>
        refine (next_lock h).bind ?_
        intro _ _ _
        refine (itemsUntil_lock h .braceR
          (namedValue_lock h .objectField ih)).bind ?_
        intro ns ms hItems
        exact close_lock h hStart ⟨rfl, rfl, rfl, rfl⟩ hItems
      case dollar => exact variableUse_lock h
      all_goals exact scalarValue_lock h

theorem value_lock :
    Lock s s' (Node.Twin s s') value value :=
  depth_lock h (valueWithin_lock h)

------------------------------------------------------------
-- Directives and Variable Definitions in Lockstep
------------------------------------------------------------

/- Items in parentheses, if there are any. -/
theorem parenthesised_lock
    {x : Reading Node}
    (hItem : Lock s s' (Node.Twin s s') x x) :
    Lock s s' (List.Forall₂ (Node.Twin s s'))
      (do
        if ← skip .parenL then
          itemsUntil .parenR x
        else
          pure [])
      (do
        if ← skip .parenL then
          itemsUntil .parenR x
        else
          pure []) := by
  refine (skip_lock h .parenL).bind ?_
  rintro b _ rfl
  apply Lock.branch
  · exact itemsUntil_lock h .parenR hItem
  · exact Lock.pure .nil

theorem arguments_lock :
    Lock s s' (List.Forall₂ (Node.Twin s s')) arguments
      arguments :=
  parenthesised_lock h
    (namedValue_lock h .argument (value_lock h))

theorem directive_lock :
    Lock s s' (Node.Twin s s') directive directive := by
  refine (start_lock h).bind ?_
  intro a a' hStart
  refine (next_lock h).bind ?_
  intro _ _ _
  refine (name_lock h).bind ?_
  rintro ⟨name, _⟩ ⟨_, _⟩ rfl
  refine (arguments_lock h).bind ?_
  intro ns ms hArguments
  exact close_lock h hStart ⟨rfl, rfl, rfl, rfl⟩ hArguments

theorem directives_lock :
    Lock s s' (List.Forall₂ (Node.Twin s s')) directives
      directives := by
  refine readWhile_lock h ?_ (directive_lock h)
  intro t t' hWord
  have hKind : t.kind = t'.kind := congrArg Prod.fst hWord
  rw [hKind]

theorem initial_lock :
    Lock s s' (List.Forall₂ (Node.Twin s s')) initial
      initial := by
  refine (skip_lock h .equals).bind ?_
  rintro b _ rfl
  apply Lock.branch
  · refine (value_lock h).bind ?_
    intro n m hValue
    exact Lock.pure (.cons hValue .nil)
  · exact Lock.pure .nil

theorem variableDefinition_lock :
    Lock s s' (Node.Twin s s') variableDefinition
      variableDefinition := by
  refine (start_lock h).bind ?_
  intro a a' hStart
  refine (variableUse_lock h).bind ?_
  intro v w hVariable
  refine (skip_lock h .colon).bind ?_
  intro _ _ _
  refine (typeRef_lock h).bind ?_
  intro n m hType
  refine (initial_lock h).bind ?_
  intro ins ims hInitial
  refine (directives_lock h).bind ?_
  intro dns dms hDirectives
  exact close_lock h hStart
    ⟨rfl, hVariable.name_eq, rfl, rfl⟩
    (.cons hVariable (.cons hType
      (List.rel_append hInitial hDirectives)))

theorem variableDefinitions_lock :
    Lock s s' (List.Forall₂ (Node.Twin s s'))
      variableDefinitions variableDefinitions :=
  parenthesised_lock h (variableDefinition_lock h)

------------------------------------------------------------
-- Selections in Lockstep
------------------------------------------------------------

theorem fieldName_lock :
    Lock s s' (fun a a' => a.1 = a'.1 ∧ a.2.1 = a'.2.1)
      fieldName fieldName := by
  refine (name_lock h).bind ?_
  rintro ⟨first, _⟩ ⟨_, _⟩ rfl
  refine (skip_lock h .colon).bind ?_
  rintro b _ rfl
  apply Lock.branch
  · refine (name_lock h).bind ?_
    rintro ⟨name, _⟩ ⟨_, _⟩ rfl
    exact Lock.pure ⟨rfl, rfl⟩
  · exact Lock.pure ⟨rfl, rfl⟩

theorem field_lock
    {x : Reading (Option Node)}
    (hNested : Lock s s' (Option.Rel (Node.Twin s s')) x x) :
    Lock s s' (Node.Twin s s') (field x) (field x) := by
  refine (start_lock h).bind ?_
  intro a a' hStart
  refine (fieldName_lock h).bind ?_
  rintro ⟨aliasName, name, _⟩ ⟨_, _, _⟩ ⟨rfl, rfl⟩
  refine (arguments_lock h).bind ?_
  intro ans ams hArguments
  refine (directives_lock h).bind ?_
  intro dns dms hDirectives
  refine hNested.bind ?_
  intro n m hSelections
  exact close_lock h hStart ⟨rfl, rfl, rfl, rfl⟩
    (List.rel_append (List.rel_append hArguments hDirectives)
      (rel_toList hSelections))

theorem fragmentSpread_lock
    {a a' : Nat}
    (hStart : SameStart s s' a a') :
    Lock s s' (Node.Twin s s') (fragmentSpread a)
      (fragmentSpread a') := by
  refine (name_lock h).bind ?_
  rintro ⟨name, _⟩ ⟨_, _⟩ rfl
  refine (directives_lock h).bind ?_
  intro dns dms hDirectives
  exact close_lock h hStart ⟨rfl, rfl, rfl, rfl⟩ hDirectives

theorem condition_lock :
    Lock s s' (Option.Rel (Node.Twin s s')) condition
      condition := by
  refine (peek_lock h).bind ?_
  intro t t' hWord
  have hValue : t.value = t'.value := congrArg Prod.snd hWord
  rw [hValue]
  apply Lock.branch
  · refine (next_lock h).bind ?_
    intro _ _ _
    refine (namedType_lock h).bind ?_
    intro n m hType
    exact Lock.pure (.some hType)
  · exact Lock.pure .none

theorem inlineFragment_lock
    {a a' : Nat}
    {x : Reading (Option Node)}
    (hStart : SameStart s s' a a')
    (hNested : Lock s s' (Option.Rel (Node.Twin s s')) x x) :
    Lock s s' (Node.Twin s s') (inlineFragment a x)
      (inlineFragment a' x) := by
  refine (condition_lock h).bind ?_
  intro c d hCondition
  refine (directives_lock h).bind ?_
  intro dns dms hDirectives
  refine hNested.bind ?_
  intro n m hSelections
  have hName :
      (d.map Node.name).getD "" =
        (c.map Node.name).getD "" := by
    cases hCondition with
    | none => rfl
    | some hTwin => exact hTwin.name_eq
  exact close_lock h hStart ⟨rfl, hName, rfl, rfl⟩
    (List.rel_append
      (List.rel_append (rel_toList hCondition) hDirectives)
      (rel_toList hSelections))

theorem selection_lock
    {x : Reading (Option Node)}
    (hNested : Lock s s' (Option.Rel (Node.Twin s s')) x x) :
    Lock s s' (Node.Twin s s') (selection x)
      (selection x) := by
  refine (peek_lock h).bind ?_
  intro t t' hWord
  have hKind : t.kind = t'.kind := congrArg Prod.fst hWord
  rw [hKind]
  apply Lock.branch
  · refine (start_lock h).bind ?_
    intro a a' hStart
    refine (next_lock h).bind ?_
    intro _ _ _
    refine (peek_lock h).bind ?_
    intro w w' hNext
    have hKind : w.kind = w'.kind := congrArg Prod.fst hNext
    have hValue : w.value = w'.value :=
      congrArg Prod.snd hNext
    rw [hKind, hValue]
    apply Lock.branch
    · exact fragmentSpread_lock h hStart
    · exact inlineFragment_lock h hStart hNested
  · exact field_lock h hNested

theorem selectionSetWithin_lock
    (depth : Nat) :
    Lock s s' (Option.Rel (Node.Twin s s'))
      (selectionSetWithin depth)
      (selectionSetWithin depth) := by
  induction depth with
  | zero => exact Lock.pure .none
  | succ depth ih =>
      refine (start_lock h).bind ?_
      intro a a' hStart
      refine (skip_lock h .braceL).bind ?_
      rintro b _ rfl
      apply Lock.branch
      · refine (itemsUntil_lock h .braceR
          (selection_lock h ih)).bind ?_
        intro ns ms hItems
        refine Lock.bind (close_lock h hStart ?_ hItems) ?_
        · exact ⟨rfl, rfl, rfl, rfl⟩
        · intro n m hTwin
          exact Lock.pure (.some hTwin)
      · exact Lock.pure .none

theorem selectionSet_lock :
    Lock s s' (Option.Rel (Node.Twin s s')) selectionSet
      selectionSet :=
  depth_lock h (selectionSetWithin_lock h)

------------------------------------------------------------
-- Definitions in Lockstep
------------------------------------------------------------

theorem operationName_lock :
    Lock s s' Eq operationName operationName := by
  refine (peek_lock h).bind ?_
  intro t t' hWord
  have hKind : t.kind = t'.kind := congrArg Prod.fst hWord
  rw [hKind]
  apply Lock.branch
  · refine (next_lock h).bind ?_
    intro w w' hNext
    exact Lock.pure (congrArg Prod.snd hNext)
  · exact Lock.pure rfl

theorem operationDefinition_lock :
    Lock s s' (Node.Twin s s') operationDefinition
      operationDefinition := by
  refine (start_lock h).bind ?_
  intro a a' hStart
  refine (peek_lock h).bind ?_
  intro t t' hWord
  have hKind : t.kind = t'.kind := congrArg Prod.fst hWord
  rw [hKind]
  apply Lock.branch
  · refine (next_lock h).bind ?_
    intro k k' hKeyword
    have hValue : k.value = k'.value :=
      congrArg Prod.snd hKeyword
    refine (operationName_lock h).bind ?_
    rintro name _ rfl
    refine (variableDefinitions_lock h).bind ?_
    intro vns vms hVariables
    refine (directives_lock h).bind ?_
    intro dns dms hDirectives
    refine (selectionSet_lock h).bind ?_
    intro n m hSelections
    rw [hValue]
    exact close_lock h hStart ⟨rfl, rfl, rfl, rfl⟩
      (List.rel_append
        (List.rel_append hVariables hDirectives)
        (rel_toList hSelections))
  · refine (selectionSet_lock h).bind ?_
    intro n m hSelections
    exact close_lock h hStart ⟨rfl, rfl, rfl, rfl⟩
      (rel_toList hSelections)

theorem fragmentDefinition_lock :
    Lock s s' (Node.Twin s s') fragmentDefinition
      fragmentDefinition := by
  refine (start_lock h).bind ?_
  intro a a' hStart
  refine (next_lock h).bind ?_
  intro _ _ _
  refine (name_lock h).bind ?_
  rintro ⟨name, _⟩ ⟨_, _⟩ rfl
  refine (variableDefinitions_lock h).bind ?_
  intro vns vms hVariables
  refine (next_lock h).bind ?_
  intro _ _ _
  refine (namedType_lock h).bind ?_
  intro c d hCondition
  refine (directives_lock h).bind ?_
  intro dns dms hDirectives
  refine (selectionSet_lock h).bind ?_
  intro n m hSelections
  exact close_lock h hStart ⟨rfl, rfl, rfl, rfl⟩
    (List.rel_append
      (List.rel_append hVariables
        (.cons hCondition hDirectives))
      (rel_toList hSelections))

theorem definition_lock :
    Lock s s' (Node.Twin s s') definition definition := by
  refine (peek_lock h).bind ?_
  intro t t' hWord
  have hKind : t.kind = t'.kind := congrArg Prod.fst hWord
  have hValue : t.value = t'.value := congrArg Prod.snd hWord
  unfold Token.isWord
  rw [hKind, hValue]
  apply Lock.branch
  · exact fragmentDefinition_lock h
  · exact operationDefinition_lock h

/- The definitions of two streams with the same words. -/
theorem definitions_lock :
    Lock s s' (List.Forall₂ (Node.Twin s s')) definitions
      definitions := by
  refine readWhile_lock h ?_ (definition_lock h)
  intro t t' hWord
  have hKind : t.kind = t'.kind := congrArg Prod.fst hWord
  rw [hKind]

end

end Node.Reading

end QueryHover
