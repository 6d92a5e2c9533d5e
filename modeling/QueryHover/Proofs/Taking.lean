import QueryHover.Proofs.Fueled

/-
  The tokens that readers on fuel take.

  A reader on fuel agrees with a bounded one if both end alike
  wherever some number of tokens is left, whatever the fuel
  beyond what is needed. Counting the tokens it takes on the
  way tells how few are left to what follows it. Lists agree
  if their items do and take a token each: they are then never
  left early, and end since every round leaves fewer tokens.

  Main declarations:
    * `Node.Trail.Orderly`
    * `Node.Fueled.Ends`
    * `Node.Fueled.Agrees`
    * `Node.Fueled.Agrees.bind`
    * `Node.Fueled.repeated_ends`
-/

namespace QueryHover

namespace Node

------------------------------------------------------------
-- Orderly Trails
------------------------------------------------------------

namespace Trail

/-
  The indices never go back, and every round takes a token,
  those of the definitions apart.
-/
structure Orderly
    (trail : Trail) : Prop where
  ordered : trail.course.Pairwise (· ≤ ·)
  takes :
    ∀ r ∈ trail.rounds, r.loop ≠ .definitions → r.Takes

/- One trail leads to another by some rounds of definitions. -/
structure Leads
    (ds : List Round)
    (trail after : Trail) : Prop where
  tokens : after.tokens = trail.tokens
  orderly : trail.Orderly → after.Orderly
  definitions :
    after.roundsOf .definitions =
      trail.roundsOf .definitions ++ ds

variable {trail after last : Trail}
variable {ds es : List Round}

theorem Leads.refl
    (trail : Trail) :
    trail.Leads [] trail :=
  ⟨rfl, id, (List.append_nil _).symm⟩

theorem Leads.trans
    (hLeft : trail.Leads ds after)
    (hRight : after.Leads es last) :
    trail.Leads (ds ++ es) last := by
  refine ⟨?_, ?_, ?_⟩
  · exact hRight.tokens.trans hLeft.tokens
  · exact fun h => hRight.orderly (hLeft.orderly h)
  · rw [hRight.definitions, hLeft.definitions,
      List.append_assoc]

/- No index of an orderly trail lies behind the last one. -/
theorem Orderly.le_read
    (h : trail.Orderly)
    {i : Nat}
    (hi : i ∈ trail.course) :
    i ≤ trail.read := by
  rcases List.mem_append.mp hi with hVisit | hRead
  · exact (List.pairwise_append.mp h.ordered).2.2 i hVisit
      trail.read (List.mem_singleton_self _)
  · exact (List.mem_singleton.mp hRead).le

/- A move that does not go back keeps a trail orderly. -/
theorem leads_visit
    {place : Checked.Cursor}
    (hTokens : place.tokens = trail.tokens)
    (hRead : trail.read ≤ place.read) :
    trail.Leads [] (trail.visit place) := by
  refine ⟨hTokens, ?_, (List.append_nil _).symm⟩
  intro h
  refine ⟨?_, h.takes⟩
  change (trail.course ++ [place.read]).Pairwise (· ≤ ·)
  refine List.pairwise_append.mpr
    ⟨h.ordered, List.pairwise_singleton _ _, ?_⟩
  intro i hi j hj
  rw [List.mem_singleton.mp hj]
  exact (h.le_read hi).trans hRead

/- The rounds of definitions that a noted round adds. -/
theorem leads_conclude
    {loop : Loop}
    {before : Nat}
    (h : loop ≠ .definitions → before < trail.read) :
    trail.Leads
      (if loop = .definitions then
        [⟨loop, before, trail.read⟩] else [])
      (trail.conclude loop before) := by
  refine ⟨rfl, ?_, ?_⟩
  · intro hOrderly
    refine ⟨hOrderly.ordered, ?_⟩
    intro r hr hLoop
    rcases List.mem_append.mp hr with hOld | hNew
    · exact hOrderly.takes r hOld hLoop
    · rw [List.mem_singleton.mp hNew] at hLoop ⊢
      exact h hLoop
  · unfold roundsOf conclude
    rw [List.filter_append]
    split_ifs with hLoop
    · simp [hLoop]
    · simp [hLoop]

end Trail

------------------------------------------------------------
-- Places
------------------------------------------------------------

namespace Fueled

open TokenStream (readWhile)

variable {α β : Type}
variable {trail seen after last : Trail}
variable {s s' s'' : TokenStream}

/- The tokens up to a place, those ahead, and the mark. -/
theorem length_of_at
    (h : trail.At s) :
    trail.tokens.length =
      trail.read + s.ahead.length + 1 := by
  have hLength := congrArg List.length h.ahead
  simp only [List.length_drop, List.length_append,
    List.length_singleton] at hLength
  omega

theorem length_tail
    (s : TokenStream) :
    s.tail.ahead.length = s.ahead.length - 1 := by
  unfold TokenStream.tail
  cases hAhead : s.ahead with
  | nil => simp [hAhead]
  | cons t ts => simp

/- Reading a token keeps the list, and never goes back. -/
theorem next_forward
    {c c' : Checked.Cursor}
    (h : c.next = .ok c') :
    c'.tokens = c.tokens ∧ c.read ≤ c'.read := by
  unfold Checked.Cursor.next at h
  cases hPeek : c.peek with
  | error mishap =>
      rw [hPeek] at h
      cases h
  | ok t =>
      rw [hPeek] at h
      change (if t.kind = .eof then _ else _) = _ at h
      split_ifs at h
      · cases h
        exact ⟨rfl, le_rfl⟩
      · cases h
        exact ⟨rfl, Nat.le_succ _⟩

/- Where no token is left, the mark of the end is next. -/
theorem head_of_end
    (h : trail.At s)
    (hEnd : s.ahead.length ≤ 0) :
    s.head.kind = .eof := by
  have hNil : s.ahead = [] :=
    List.length_eq_zero_iff.mp (Nat.le_zero.mp hEnd)
  rw [TokenStream.head, hNil]
  exact h.last

theorem ahead_pos
    (h : trail.At s)
    (hKind : s.head.kind ≠ .eof) :
    0 < s.ahead.length := by
  by_contra hNone
  exact hKind (head_of_end h (Nat.not_lt.mp hNone))

------------------------------------------------------------
-- Readers That End Alike
------------------------------------------------------------

/-
  Where the bounded reading ends, the one on fuel ends with
  the same result, at the same place, after at least the given
  number of tokens, or after all that were left.
-/
structure Ends
    (count : Nat)
    (ds : List Round)
    (x : Fueled α)
    (r : Reading α)
    (trail : Trail)
    (s : TokenStream)
    (a : α)
    (after : Trail)
    (s' : TokenStream) : Prop where
  result : x trail = some (.ok (a, after))
  reading : r s = (a, s')
  place : after.At s'
  leads : trail.Leads ds after
  taken : s'.ahead.length ≤ s.ahead.length - count

variable {bound need count more fewer fuel : Nat}
variable {ds es : List Round}

section Ending

variable {x : Fueled α}
variable {r : Reading α}
variable {f : α → Fueled β}
variable {g : α → Reading β}
variable {a : α}
variable {b : β}

theorem bind_result
    (h : x trail = some (.ok (a, after))) :
    (x >>= f) trail = f a after := by
  change (x trail >>= fun p => f p.1 p.2) = _
  rw [h]
  rfl

theorem pure_ends
    (h : trail.At s)
    (a : α) :
    Ends 0 [] (pure a) (pure a) trail s a trail s :=
  ⟨rfl, rfl, h, .refl trail, le_rfl⟩

theorem Ends.bind
    (hFirst : Ends count ds x r trail s a after s')
    (hRest :
      Ends more es (f a) (g a) after s' b last s'') :
    Ends (more + count) (ds ++ es) (x >>= f) (r >>= g)
      trail s b last s'' := by
  refine ⟨?_, ?_, hRest.place,
    hFirst.leads.trans hRest.leads, ?_⟩
  · rw [bind_result hFirst.result]
    exact hRest.result
  · rw [Reading.bind_apply, hFirst.reading]
    exact hRest.reading
  · have hTaken := hFirst.taken
    have hMore := hRest.taken
    omega

/- What takes no token may go first. -/
theorem Ends.after_look
    {q : Reading α}
    {r : Reading β}
    (hLook : Ends 0 [] x q trail s a after s)
    (h : Ends count ds (f a) r after s b last s') :
    Ends count ds (x >>= f) r trail s b last s' := by
  refine ⟨?_, h.reading, h.place,
    hLook.leads.trans h.leads, h.taken⟩
  rw [bind_result hLook.result]
  exact h.result

theorem Ends.mono
    (h : Ends count ds x r trail s a after s')
    (hFewer : fewer ≤ count) :
    Ends fewer ds x r trail s a after s' := by
  refine ⟨h.result, h.reading, h.place, h.leads, ?_⟩
  have hTaken := h.taken
  omega

/- The index goes on by the tokens that are taken. -/
theorem Ends.read_add
    (h : Ends count ds x r trail s a after s')
    (hAt : trail.At s) :
    after.read + s'.ahead.length =
      trail.read + s.ahead.length := by
  have hBefore := length_of_at hAt
  have hAfter := length_of_at h.place
  rw [h.leads.tokens] at hAfter
  omega

end Ending

------------------------------------------------------------
-- Readers That Agree
------------------------------------------------------------

/-
  The two end alike wherever at most `bound` tokens are left,
  and take `count` of them. How the one on fuel ends does not
  depend on the fuel, as long as there is what it needs.
-/
def Agrees
    (bound need count : Nat)
    (x : Nat → Fueled α)
    (r : Reading α) : Prop :=
  ∀ trail s, trail.At s → s.ahead.length ≤ bound →
    ∃ a after s', ∀ fuel, need ≤ fuel →
      Ends count [] (x fuel) r trail s a after s'

section Agreeing

variable {x : Nat → Fueled α}
variable {r : Reading α}
variable {f : Nat → α → Fueled β}
variable {g : α → Reading β}

/-
  What follows a reader runs where fewer tokens are left, by
  those that the reader takes.
-/
theorem Agrees.bind
    (hFirst : Agrees bound need count x r)
    (hRest :
      ∀ a, Agrees (bound - count) need more
        (fun fuel => f fuel a) (g a)) :
    Agrees bound need (more + count)
      (fun fuel => x fuel >>= f fuel) (r >>= g) := by
  intro trail s hAt hBound
  rcases hFirst trail s hAt hBound with ⟨a, after, s', h⟩
  have hLeft : s'.ahead.length ≤ bound - count := by
    have hTaken := (h need le_rfl).taken
    omega
  rcases hRest a after s' (h need le_rfl).place hLeft with
    ⟨b, last, s'', h'⟩
  exact ⟨b, last, s'', fun fuel hFuel =>
    (h fuel hFuel).bind (h' fuel hFuel)⟩

theorem Agrees.mono
    (h : Agrees bound need count x r)
    (hFewer : fewer ≤ count) :
    Agrees bound need fewer x r := by
  intro trail s hAt hBound
  rcases h trail s hAt hBound with ⟨a, after, s', h'⟩
  exact ⟨a, after, s', fun fuel hFuel =>
    (h' fuel hFuel).mono hFewer⟩

theorem Agrees.within
    (h : Agrees bound need count x r)
    (hFewer : fewer ≤ bound) :
    Agrees fewer need count x r :=
  fun trail s hAt hBound => h trail s hAt (hBound.trans hFewer)

theorem Agrees.needing
    (h : Agrees bound need count x r)
    (hMore : need ≤ more) :
    Agrees bound more count x r := by
  intro trail s hAt hBound
  rcases h trail s hAt hBound with ⟨a, after, s', h'⟩
  exact ⟨a, after, s', fun fuel hFuel =>
    h' fuel (hMore.trans hFuel)⟩

/- Going deeper costs one unit of fuel. -/
theorem Agrees.succ
    (h : Agrees bound need count (fun fuel => x (fuel + 1)) r) :
    Agrees bound (need + 1) count x r := by
  intro trail s hAt hBound
  rcases h trail s hAt hBound with ⟨a, after, s', h'⟩
  refine ⟨a, after, s', fun fuel hFuel => ?_⟩
  cases fuel with
  | zero => omega
  | succ fuel => exact h' fuel (Nat.le_of_succ_le_succ hFuel)

/- A reading as deep as there are tokens left. -/
theorem Agrees.of_depth
    {r : Nat → Reading α}
    (h :
      ∀ depth, depth ≤ bound →
        Agrees depth need count x (r depth)) :
    Agrees bound need count x
      (do r (← get).ahead.length) := by
  intro trail s hAt hBound
  rcases h s.ahead.length hBound trail s hAt le_rfl with
    ⟨a, after, s', h'⟩
  refine ⟨a, after, s', fun fuel hFuel => ?_⟩
  have hEnds := h' fuel hFuel
  exact ⟨hEnds.result, hEnds.reading, hEnds.place,
    hEnds.leads, hEnds.taken⟩

/- A reader that uses no fuel. -/
theorem agrees_of_ends
    {x : Fueled α}
    (h :
      ∀ trail s, trail.At s →
        ∃ a after s', Ends count [] x r trail s a after s') :
    Agrees bound need count (fun _ => x) r := by
  intro trail s hAt _
  rcases h trail s hAt with ⟨a, after, s', h'⟩
  exact ⟨a, after, s', fun _ _ => h'⟩

theorem pure_agrees
    (a : α) :
    Agrees bound need 0 (fun _ => pure a) (pure a) :=
  agrees_of_ends fun trail s hAt =>
    ⟨a, trail, s, pure_ends hAt a⟩

end Agreeing

------------------------------------------------------------
-- Single Tokens
------------------------------------------------------------

theorem get_result
    (trail : Trail) :
    (get : Fueled Trail) trail =
      some (.ok (trail, trail)) :=
  rfl

theorem access_result
    {x : Checked α}
    {a : α}
    (h : x = .ok a) :
    access x trail = some (.ok (a, trail)) := by
  rw [h]
  rfl

theorem peek_ends
    (h : trail.At s) :
    Ends 0 [] peek TokenStream.peek trail s s.head
      (trail.visit trail.toCursor) s := by
  refine ⟨?_, rfl, ⟨h.ahead, h.readTo, h.inner, h.last⟩,
    Trail.leads_visit rfl le_rfl, le_rfl⟩
  unfold peek
  rw [bind_result (get_result trail),
    bind_result (access_result h.peek)]
  rfl

theorem next_ends
    (h : trail.At s) :
    ∃ place,
      Ends 1 [] next TokenStream.next trail s s.head
        (trail.visit place) s.tail := by
  rcases h.next with ⟨place, hNext, hPlace⟩
  have hMove := next_forward hNext
  have hLength := length_tail s
  refine ⟨place, ?_, rfl, hPlace, ?_, ?_⟩
  · unfold next
    rw [bind_result (get_result trail),
      bind_result (access_result h.peek),
      bind_result (access_result hNext)]
    rfl
  · exact Trail.leads_visit hMove.1 hMove.2
  · exact hLength.le

theorem peek_agrees :
    Agrees bound need 0 (fun _ => peek) TokenStream.peek :=
  agrees_of_ends fun _ _ hAt => ⟨_, _, _, peek_ends hAt⟩

theorem next_agrees :
    Agrees bound need 1 (fun _ => next) TokenStream.next := by
  refine agrees_of_ends fun trail s hAt => ?_
  rcases next_ends hAt with ⟨place, h⟩
  exact ⟨_, _, _, h⟩

theorem start_ends
    (h : trail.At s) :
    Ends 0 [] start Reading.start trail s s.head.start
      (trail.visit trail.toCursor) s := by
  have hPeek := peek_ends h
  change Ends (0 + 0) ([] ++ []) _ _ _ _ _ _ _
  exact hPeek.bind (pure_ends hPeek.place _)

theorem start_agrees :
    Agrees bound need 0 (fun _ => start) Reading.start :=
  agrees_of_ends fun _ _ hAt => ⟨_, _, _, start_ends hAt⟩

theorem name_agrees :
    Agrees bound need 1 (fun _ => name) Reading.name :=
  next_agrees.bind fun _ => pure_agrees _

theorem close_agrees
    (start : Nat)
    (n : Node) :
    Agrees bound need 0 (fun _ => close start n)
      (Reading.close start n) := by
  refine agrees_of_ends fun trail s hAt => ?_
  refine ⟨_, trail, s, ?_, rfl, hAt, .refl trail, le_rfl⟩
  unfold close
  rw [bind_result (get_result trail),
    bind_result (access_result hAt.readTo)]
  rfl

section Skipping

variable {kind : Token.Kind}
variable {f : Nat → Bool → Fueled α}
variable {g : Bool → Reading α}
variable {r : Reading α}

theorem skip_taken
    (h : trail.At s)
    (hKind : s.head.kind = kind) :
    ∃ after,
      Ends 1 [] (skip kind) (TokenStream.skip kind) trail s
        true after s.tail := by
  have hPeek := peek_ends h
  rcases next_ends hPeek.place with ⟨place, hNext⟩
  refine ⟨(trail.visit trail.toCursor).visit place, ?_⟩
  change Ends (1 + 0) ([] ++ []) _ _ _ _ _ _ _
  refine hPeek.bind ?_
  rw [if_pos hKind, if_pos hKind]
  change Ends (0 + 1) ([] ++ []) _ _ _ _ _ _ _
  exact hNext.bind (pure_ends hNext.place true)

theorem skip_left
    (h : trail.At s)
    (hKind : s.head.kind ≠ kind) :
    Ends 0 [] (skip kind) (TokenStream.skip kind) trail s
      false (trail.visit trail.toCursor) s := by
  have hPeek := peek_ends h
  change Ends (0 + 0) ([] ++ []) _ _ _ _ _ _ _
  refine hPeek.bind ?_
  rw [if_neg hKind, if_neg hKind]
  exact pure_ends hPeek.place false

theorem skip_agrees
    (kind : Token.Kind) :
    Agrees bound need 0 (fun _ => skip kind)
      (TokenStream.skip kind) := by
  refine agrees_of_ends fun trail s hAt => ?_
  by_cases hKind : s.head.kind = kind
  · rcases skip_taken hAt hKind with ⟨after, h⟩
    exact ⟨true, after, s.tail, h.mono (Nat.zero_le 1)⟩
  · exact ⟨false, _, s, skip_left hAt hKind⟩

/- A token of the kind leaves fewer tokens to what follows. -/
theorem skip_branch
    (hTaken :
      Agrees (bound - 1) need (count - 1)
        (fun fuel => f fuel true) (g true))
    (hLeft :
      Agrees bound need count
        (fun fuel => f fuel false) (g false)) :
    Agrees bound need count
      (fun fuel => skip kind >>= f fuel)
      (TokenStream.skip kind >>= g) := by
  intro trail s hAt hBound
  by_cases hKind : s.head.kind = kind
  · rcases skip_taken hAt hKind with ⟨after, h⟩
    have hFewer : s.tail.ahead.length ≤ bound - 1 := by
      rw [length_tail]
      omega
    rcases hTaken after s.tail h.place hFewer with
      ⟨a, last, s', h'⟩
    exact ⟨a, last, s', fun fuel hFuel =>
      (h.bind (h' fuel hFuel)).mono (by omega)⟩
  · have h := skip_left hAt hKind
    rcases hLeft _ s h.place hBound with
      ⟨a, last, s', h'⟩
    exact ⟨a, last, s', fun fuel hFuel =>
      h.bind (h' fuel hFuel)⟩

/- Where no token is left, there is none to skip. -/
theorem skip_end
    (hKind : kind ≠ .eof)
    (h : Agrees 0 need count (fun fuel => f fuel false) r) :
    Agrees 0 need count
      (fun fuel => skip kind >>= f fuel) r := by
  intro trail s hAt hBound
  have hHead : s.head.kind ≠ kind := by
    rw [head_of_end hAt hBound]
    exact hKind.symm
  have hSkip := skip_left hAt hHead
  rcases h _ s hSkip.place hBound with ⟨a, last, s', h'⟩
  exact ⟨a, last, s', fun fuel hFuel =>
    hSkip.after_look (h' fuel hFuel)⟩

end Skipping

------------------------------------------------------------
-- Lists
------------------------------------------------------------

section Listing

variable {loop : Loop}
variable {starts : Token → Bool}
variable {r : Reading α}
variable {a : α}

theorem readWhile_stop
    (h : ¬ starts s.head) :
    (readWhile starts r : Reading (List α)) s = ([], s) := by
  rw [readWhile, if_neg h]
  rfl

theorem readWhile_step
    (h : starts s.head)
    (hItem : r s = (a, s')) :
    (readWhile starts r : Reading (List α)) s =
      if s'.ahead.length < s.ahead.length then
        let rest := (readWhile starts r : Reading _) s'
        (a :: rest.1, rest.2)
      else
        ([a], s') := by
  rw [readWhile, if_pos h, hItem]
  change (if _h : s'.ahead.length < s.ahead.length then _
    else _ : Id _) = _
  split_ifs
  · rfl
  · rfl

/-
  The index after a round lies beyond the one before it if the
  item takes a token.
-/
theorem inRound_ends
    {item : Fueled α}
    (hAt : trail.At s)
    (h : Ends count ds item r trail s a after s')
    (hTakes :
      loop ≠ .definitions →
        s'.ahead.length < s.ahead.length) :
    Ends count
      (ds ++ if loop = .definitions then
        [⟨loop, trail.read, after.read⟩] else [])
      (inRound loop item) r trail s a
      (after.conclude loop trail.read) s' := by
  refine ⟨?_, h.reading, ?_, ?_, h.taken⟩
  · unfold inRound
    rw [bind_result (get_result trail),
      bind_result h.result]
    rfl
  · have hPlace := h.place
    exact ⟨hPlace.ahead, hPlace.readTo, hPlace.inner,
      hPlace.last⟩
  · refine h.leads.trans (Trail.leads_conclude fun hLoop => ?_)
    have hFewer := hTakes hLoop
    have hRead := h.read_add hAt
    omega

theorem repeated_stop
    {item : Fueled α}
    (hPeek :
      Ends 0 [] peek TokenStream.peek trail s s.head seen s)
    (hStop : ¬ starts s.head) :
    Ends 0 [] (repeated loop starts item (fuel + 1))
      (readWhile starts r) trail s [] seen s := by
  refine ⟨?_, readWhile_stop hStop, hPeek.place,
    hPeek.leads, le_rfl⟩
  rw [repeated, bind_result hPeek.result, if_neg hStop]
  rfl

theorem repeated_go
    {item : Fueled α}
    {as : List α}
    (hPeek :
      Ends 0 [] peek TokenStream.peek trail s s.head seen s)
    (hStart : starts s.head)
    (hRound :
      Ends count [] (inRound loop item) r seen s a after s')
    (hFewer : s'.ahead.length < s.ahead.length)
    (hRest :
      Ends 0 [] (repeated loop starts item fuel)
        (readWhile starts r) after s' as last s'') :
    Ends 0 [] (repeated loop starts item (fuel + 1))
      (readWhile starts r) trail s (a :: as) last s'' := by
  refine ⟨?_, ?_, hRest.place,
    (hPeek.leads.trans hRound.leads).trans hRest.leads, ?_⟩
  · rw [repeated, bind_result hPeek.result, if_pos hStart,
      bind_result hRound.result, bind_result hRest.result]
    rfl
  · rw [readWhile_step hStart hRound.reading,
      if_pos hFewer, hRest.reading]
  · have hTaken := hRest.taken
    omega

variable {item : Nat → Fueled α}

/- A round of an item that takes a token, if one is left. -/
theorem round_ends
    (hLoop : loop ≠ .definitions)
    (hItem : Agrees bound need 1 item r)
    (hAt : trail.At s)
    (hBound : s.ahead.length ≤ bound)
    (hPos : 0 < s.ahead.length) :
    ∃ a after s', ∀ fuel, need ≤ fuel →
      Ends 1 [] (inRound loop (item fuel)) r trail s
        a after s' := by
  rcases hItem trail s hAt hBound with ⟨a, after, s', h⟩
  refine ⟨a, after.conclude loop trail.read, s', ?_⟩
  intro fuel hFuel
  have hEnds := h fuel hFuel
  have hFewer : s'.ahead.length < s.ahead.length := by
    have hTaken := hEnds.taken
    omega
  have hRound :=
    inRound_ends hAt hEnds
      (fun _ : loop ≠ .definitions => hFewer)
  rw [if_neg hLoop] at hRound
  exact hRound

/-
  A list whose items take a token each is read as the bounded
  reading reads it. The items may have other fuel than the
  rounds, of which there are at most as many as tokens.
-/
theorem repeated_ends
    (hLoop : loop ≠ .definitions)
    (hStarts : ∀ t, starts t → t.kind ≠ .eof)
    (hItem : Agrees bound need 1 item r)
    (hAt : trail.At s)
    (hBound : s.ahead.length ≤ bound) :
    ∃ as after s', ∀ supply fuel,
      need ≤ supply → s.ahead.length ≤ fuel →
        Ends 0 []
          (repeated loop starts (item supply) (fuel + 1))
          (readWhile starts r) trail s as after s' := by
  -- By induction on the tokens left, which a round lessens.
  induction hLength : s.ahead.length using
      Nat.strong_induction_on generalizing trail s with
  | _ length ih =>
    have hPeek := peek_ends hAt
    by_cases hStart : starts s.head
    · have hPos := ahead_pos hAt (hStarts _ hStart)
      rcases round_ends hLoop hItem hPeek.place hBound hPos with
        ⟨a, after, s', hRound⟩
      have hFewer : s'.ahead.length < s.ahead.length := by
        have hTaken := (hRound need le_rfl).taken
        omega
      rcases ih s'.ahead.length (by omega)
          (hRound need le_rfl).place (by omega) rfl with
        ⟨as, last, s'', hRest⟩
      refine ⟨a :: as, last, s'', ?_⟩
      intro supply fuel hSupply hFuel
      cases fuel with
      | zero => omega
      | succ fuel =>
          exact repeated_go hPeek hStart (hRound supply hSupply)
            hFewer (hRest supply fuel hSupply (by omega))
    · exact ⟨[], _, s, fun _ _ _ _ =>
        repeated_stop hPeek hStart⟩

theorem repeated_agrees
    (hLoop : loop ≠ .definitions)
    (hStarts : ∀ t, starts t → t.kind ≠ .eof)
    (hNeed : bound < need)
    (hItem : Agrees bound need 1 item r) :
    Agrees bound need 0
      (fun fuel => repeated loop starts (item fuel) fuel)
      (readWhile starts r) := by
  intro trail s hAt hBound
  rcases repeated_ends hLoop hStarts hItem hAt hBound with
    ⟨as, after, s', h⟩
  refine ⟨as, after, s', fun fuel hFuel => ?_⟩
  cases fuel with
  | zero => omega
  | succ fuel => exact h (fuel + 1) fuel hFuel (by omega)

theorem itemsUntil_agrees
    {close : Token.Kind}
    (hLoop : loop ≠ .definitions)
    (hNeed : bound < need)
    (hItem : Agrees bound need 1 item r) :
    Agrees bound need 0
      (fun fuel => itemsUntil loop close (item fuel) fuel)
      (Reading.itemsUntil close r) := by
  refine (Agrees.bind (repeated_agrees hLoop ?_ hNeed hItem)
    fun _ => ?_).mono (Nat.zero_le 1)
  · intro t ht
    simp only [Bool.and_eq_true, decide_eq_true_eq] at ht
    exact ht.2
  · exact next_agrees.bind fun _ => pure_agrees _

/- A list in parentheses, if there is one. -/
theorem parenthesized_agrees
    (hLoop : loop ≠ .definitions)
    (hNeed : bound < need)
    (hItem : Agrees bound need 1 item r) :
    Agrees bound need 0
      (fun fuel => do
        if ← skip .parenL then
          itemsUntil loop .parenR (item fuel) fuel
        else
          pure [])
      (do
        if ← TokenStream.skip .parenL then
          Reading.itemsUntil .parenR r
        else
          pure []) := by
  refine (skip_agrees .parenL).bind fun b => ?_
  cases b with
  | true => exact itemsUntil_agrees hLoop hNeed hItem
  | false => exact pure_agrees []

end Listing

end Fueled

end Node

end QueryHover
