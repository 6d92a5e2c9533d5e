import QueryHover.Proofs.Taking

/-
  The reading of nodes ends on every list of tokens.

  Whatever the tokens before the mark of the end are, the
  reading on fuel comes to an end, with no more fuel than
  there are tokens. It finds every token it looks at, and
  yields the tree that is read with bounds. Its index never
  goes back, every round of a list takes a token, and the list
  of definitions ends at the mark or with the first round that
  takes nothing.

  Every reader takes a token before it goes on with what is
  nested in it, so that nesting is bounded by the tokens left.

  Main declarations:
    * `Node.Fueled.valueWithin_agrees`
    * `Node.Fueled.selectionSetWithin_agrees`
    * `Node.Fueled.definition_agrees`
    * `Node.Fueled.definitions_end`
    * `Node.Fueled.document_total`
-/

namespace QueryHover

namespace Node

/- The last round takes no token, and each before it does. -/
def Round.Stalls
    (rounds : List Round) : Prop :=
  ∃ before last,
    rounds = before ++ [last] ∧
      (∀ r ∈ before, r.Takes) ∧ last.after = last.before

theorem Round.Stalls.cons
    {rounds : List Round}
    {r : Round}
    (h : Round.Stalls rounds)
    (hTakes : r.Takes) :
    Round.Stalls (r :: rounds) := by
  rcases h with ⟨before, last, rfl, hBefore, hLast⟩
  exact ⟨r :: before, last, rfl,
    List.forall_mem_cons.mpr ⟨hTakes, hBefore⟩, hLast⟩

namespace Fueled

variable {trail after : Trail}
variable {s s' : TokenStream}
variable {bound need fuel : Nat}
variable {ds : List Round}

------------------------------------------------------------
-- Types
------------------------------------------------------------

theorem variableUse_agrees :
    Agrees bound need 2 (fun _ => variableUse)
      Reading.variableUse :=
  start_agrees.bind fun _ => next_agrees.bind fun _ =>
    name_agrees.bind fun _ => (close_agrees _ _).bind fun _ =>
      pure_agrees _

theorem namedType_agrees :
    Agrees bound need 1 (fun _ => namedType)
      Reading.namedType :=
  start_agrees.bind fun _ => name_agrees.bind fun _ =>
    close_agrees _ _

theorem marked_agrees
    (start : Nat)
    (type : Node) :
    Agrees bound need 0 (fun _ => marked start type)
      (Reading.marked start type) := by
  refine (skip_agrees .bang).bind fun b => ?_
  cases b with
  | true => exact close_agrees _ _
  | false => exact pure_agrees _

/-
  A list type takes its bracket before the type in it, so the
  tokens left bound how deep types nest.
-/
theorem typeRefWithin_agrees
    (depth : Nat) :
    Agrees depth (depth + 1) 1 typeRef
      (Reading.typeRefWithin depth) := by
  induction depth with
  | zero =>
      refine .succ ?_
      refine start_agrees.bind fun start => ?_
      refine skip_end (by decide) ?_
      exact namedType_agrees.bind fun _ => marked_agrees _ _
  | succ depth ih =>
      refine .succ ?_
      refine start_agrees.bind fun start => ?_
      refine skip_branch ?_ ?_
      · refine (ih.bind fun _ => ?_).mono (Nat.zero_le 2)
        exact next_agrees.bind fun _ =>
          (close_agrees _ _).bind fun _ => marked_agrees _ _
      · exact namedType_agrees.bind fun _ => marked_agrees _ _

theorem typeRef_agrees
    (hNeed : bound < need) :
    Agrees bound need 1 typeRef Reading.typeRef :=
  .of_depth fun depth hDepth =>
    (typeRefWithin_agrees depth).needing (by omega)

------------------------------------------------------------
-- Values
------------------------------------------------------------

theorem scalarValue_agrees :
    Agrees bound need 1 (fun _ => scalarValue)
      Reading.scalarValue :=
  start_agrees.bind fun _ => peek_agrees.bind fun _ =>
    name_agrees.bind fun _ => close_agrees _ _

theorem namedValue_agrees
    (kind : Node.Kind)
    {value : Nat → Fueled Node}
    {r : Reading Node}
    (h : Agrees bound need 1 value r) :
    Agrees bound need 2
      (fun fuel => namedValue kind (value fuel))
      (Reading.namedValue kind r) :=
  start_agrees.bind fun _ => name_agrees.bind fun _ =>
    (skip_agrees _).bind fun _ =>
      (h.within (Nat.sub_le _ _)).bind fun _ =>
        close_agrees _ _

/-
  A value takes a token before it goes on with what is in it,
  so the tokens left bound how deep values nest.
-/
theorem valueWithin_agrees
    (depth : Nat) :
    Agrees depth (depth + 1) 1 value
      (Reading.valueWithin depth) := by
  induction depth with
  | zero =>
      -- The mark of the end is next, and opens no value.
      refine .succ ?_
      intro trail s hAt hBound
      have hStart := start_ends hAt
      have hPeek := peek_ends hStart.place
      rcases scalarValue_agrees _ s hPeek.place hBound with
        ⟨a, last, s', h⟩
      refine ⟨a, last, s', fun fuel hFuel =>
        hStart.after_look (hPeek.after_look ?_)⟩
      rw [head_of_end hAt hBound]
      exact h fuel hFuel
  | succ depth ih =>
      have hField :=
        (namedValue_agrees .objectField ih).mono
          (Nat.le_succ 1)
      refine .succ ?_
      refine start_agrees.bind fun start => ?_
      refine peek_agrees.bind fun t => ?_
      cases t.kind with
      | bracketL =>
          refine next_agrees.bind fun _ => ?_
          exact (itemsUntil_agrees (by decide)
            (Nat.lt_succ_self depth) ih).bind fun _ =>
              close_agrees _ _
      | braceL =>
          refine next_agrees.bind fun _ => ?_
          exact (itemsUntil_agrees (by decide)
            (Nat.lt_succ_self depth) hField).bind fun _ =>
              close_agrees _ _
      | dollar =>
          exact variableUse_agrees.mono (Nat.le_succ 1)
      | _ => exact scalarValue_agrees

theorem value_agrees
    (hNeed : bound < need) :
    Agrees bound need 1 value Reading.value :=
  .of_depth fun depth hDepth =>
    (valueWithin_agrees depth).needing (by omega)

------------------------------------------------------------
-- Arguments and Directives
------------------------------------------------------------

theorem arguments_agree
    (hNeed : bound < need) :
    Agrees bound need 0 arguments Reading.arguments := by
  have hArgument :=
    namedValue_agrees .argument (value_agrees hNeed)
  exact parenthesized_agrees (by decide) hNeed
    (hArgument.mono (Nat.le_succ 1))

theorem directive_agrees
    (hNeed : bound < need) :
    Agrees bound need 2 directive Reading.directive :=
  start_agrees.bind fun _ => next_agrees.bind fun _ =>
    name_agrees.bind fun _ =>
      (arguments_agree (by omega)).bind fun _ =>
        close_agrees _ _

theorem directives_agree
    (hNeed : bound < need) :
    Agrees bound need 0 directives Reading.directives := by
  have hDirective := directive_agrees hNeed
  refine repeated_agrees (by decide) ?_ hNeed
    (hDirective.mono (Nat.le_succ 1))
  intro t ht hKind
  rw [hKind] at ht
  exact absurd ht (by decide)

theorem initial_agrees
    (hNeed : bound < need) :
    Agrees bound need 0 initial Reading.initial := by
  refine (skip_agrees .equals).bind fun b => ?_
  cases b with
  | true =>
      refine ((value_agrees hNeed).bind fun _ => ?_).mono
        (Nat.zero_le 1)
      exact pure_agrees _
  | false => exact pure_agrees []

theorem variableDefinition_agrees
    (hNeed : bound < need) :
    Agrees bound need 3 variableDefinition
      Reading.variableDefinition :=
  start_agrees.bind fun _ => variableUse_agrees.bind fun _ =>
    (skip_agrees _).bind fun _ =>
      (typeRef_agrees (by omega)).bind fun _ =>
        (initial_agrees (by omega)).bind fun _ =>
          (directives_agree (by omega)).bind fun _ =>
            close_agrees _ _

theorem variableDefinitions_agree
    (hNeed : bound < need) :
    Agrees bound need 0 variableDefinitions
      Reading.variableDefinitions := by
  have hDefinition := variableDefinition_agrees hNeed
  exact parenthesized_agrees (by decide) hNeed
    (hDefinition.mono (by omega))

------------------------------------------------------------
-- Selections
------------------------------------------------------------

theorem fieldName_agrees :
    Agrees bound need 1 (fun _ => fieldName)
      Reading.fieldName := by
  refine name_agrees.bind fun first => ?_
  refine (skip_agrees .colon).bind fun b => ?_
  cases b with
  | true =>
      refine (name_agrees.bind fun _ => ?_).mono
        (Nat.zero_le 1)
      exact pure_agrees _
  | false => exact pure_agrees _

theorem fragmentSpread_agrees
    (hNeed : bound < need)
    (start : Nat) :
    Agrees bound need 1
      (fun fuel => fragmentSpread fuel start)
      (Reading.fragmentSpread start) :=
  name_agrees.bind fun _ =>
    (directives_agree (by omega)).bind fun _ =>
      close_agrees _ _

theorem condition_agrees :
    Agrees bound need 0 (fun _ => condition)
      Reading.condition := by
  refine peek_agrees.bind fun t => ?_
  split_ifs
  · refine (next_agrees.bind fun _ => ?_).mono (Nat.zero_le 2)
    exact namedType_agrees.bind fun _ => pure_agrees _
  · exact pure_agrees none

variable {nested : Nat → Fueled (Option Node)}
variable {r : Reading (Option Node)}

theorem field_agrees
    (hNeed : bound < need)
    (h : Agrees bound need 0 nested r) :
    Agrees bound need 1
      (fun fuel => field fuel (nested fuel))
      (Reading.field r) :=
  start_agrees.bind fun _ => fieldName_agrees.bind fun _ =>
    (arguments_agree (by omega)).bind fun _ =>
      (directives_agree (by omega)).bind fun _ =>
        (h.within (by omega)).bind fun _ =>
          close_agrees _ _

theorem inlineFragment_agrees
    (hNeed : bound < need)
    (start : Nat)
    (h : Agrees bound need 0 nested r) :
    Agrees bound need 0
      (fun fuel => inlineFragment fuel start (nested fuel))
      (Reading.inlineFragment start r) :=
  condition_agrees.bind fun _ =>
    (directives_agree hNeed).bind fun _ =>
      h.bind fun _ => close_agrees _ _

/-
  A selection takes a token before what is nested in it, the
  spread of a fragment or a name.
-/
theorem selection_agrees
    (hNeed : bound < need)
    (h : Agrees bound need 0 nested r) :
    Agrees bound need 1
      (fun fuel => selection fuel (nested fuel))
      (Reading.selection r) := by
  refine peek_agrees.bind fun t => ?_
  split_ifs
  · refine start_agrees.bind fun start => ?_
    refine next_agrees.bind fun _ => ?_
    refine peek_agrees.bind fun name => ?_
    split_ifs
    · exact (fragmentSpread_agrees (by omega) start).mono
        (Nat.zero_le 1)
    · exact inlineFragment_agrees (by omega) start
        (h.within (by omega))
  · exact field_agrees hNeed h

theorem selectionSetWithin_agrees
    (depth : Nat) :
    Agrees depth (depth + 1) 0 selectionSet
      (Reading.selectionSetWithin depth) := by
  induction depth with
  | zero =>
      -- The mark of the end is next, and opens no set.
      refine .succ ?_
      intro trail s hAt hBound
      have hStart := start_ends hAt
      have hHead : s.head.kind ≠ .braceL := by
        rw [head_of_end hAt hBound]
        decide
      have hSkip := skip_left hStart.place hHead
      exact ⟨none, _, s, fun _ _ => hStart.after_look
        (hSkip.after_look (pure_ends hSkip.place none))⟩
  | succ depth ih =>
      have hSelection :=
        selection_agrees (Nat.lt_succ_self depth) ih
      refine .succ ?_
      refine start_agrees.bind fun start => ?_
      refine skip_branch ?_ (pure_agrees none)
      exact (itemsUntil_agrees (by decide)
        (Nat.lt_succ_self depth) hSelection).bind fun _ =>
          (close_agrees _ _).bind fun _ => pure_agrees _

theorem selectionSet_agrees
    (hNeed : bound < need) :
    Agrees bound need 0 selectionSet Reading.selectionSet :=
  .of_depth fun depth hDepth =>
    (selectionSetWithin_agrees depth).needing (by omega)

------------------------------------------------------------
-- Definitions
------------------------------------------------------------

theorem operationName_agrees :
    Agrees bound need 0 (fun _ => operationName)
      Reading.operationName := by
  refine peek_agrees.bind fun t => ?_
  split_ifs
  · refine (next_agrees.bind fun _ => ?_).mono (Nat.zero_le 1)
    exact pure_agrees _
  · exact pure_agrees ""

theorem operationDefinition_agrees
    (hNeed : bound < need) :
    Agrees bound need 0 operationDefinition
      Reading.operationDefinition := by
  refine start_agrees.bind fun start => ?_
  refine peek_agrees.bind fun t => ?_
  split_ifs
  · refine (next_agrees.bind fun _ => ?_).mono (Nat.zero_le 1)
    exact operationName_agrees.bind fun _ =>
      (variableDefinitions_agree (by omega)).bind fun _ =>
        (directives_agree (by omega)).bind fun _ =>
          (selectionSet_agrees (by omega)).bind fun _ =>
            close_agrees _ _
  · exact (selectionSet_agrees hNeed).bind fun _ =>
      close_agrees _ _

theorem fragmentDefinition_agrees
    (hNeed : bound < need) :
    Agrees bound need 4 fragmentDefinition
      Reading.fragmentDefinition :=
  start_agrees.bind fun _ => next_agrees.bind fun _ =>
    name_agrees.bind fun _ =>
      (variableDefinitions_agree (by omega)).bind fun _ =>
        next_agrees.bind fun _ =>
          namedType_agrees.bind fun _ =>
            (directives_agree (by omega)).bind fun _ =>
              (selectionSet_agrees (by omega)).bind fun _ =>
                close_agrees _ _

theorem definition_agrees
    (hNeed : bound < need) :
    Agrees bound need 0 definition Reading.definition := by
  refine peek_agrees.bind fun t => ?_
  split_ifs
  · exact (fragmentDefinition_agrees hNeed).mono
      (Nat.zero_le 4)
  · exact operationDefinition_agrees hNeed

theorem definition_round
    (hAt : trail.At s) :
    ∃ n after s' r,
      r.before = trail.read ∧ r.after = after.read ∧
      ∀ fuel, s.ahead.length < fuel →
        Ends 0 [r] (inRound .definitions (definition fuel))
          Reading.definition trail s n after s' := by
  rcases definition_agrees (Nat.lt_succ_self s.ahead.length)
      trail s hAt le_rfl with ⟨n, after, s', h⟩
  refine ⟨n, after.conclude .definitions trail.read, s',
    ⟨.definitions, trail.read, after.read⟩, rfl, rfl, ?_⟩
  intro fuel hFuel
  exact inRound_ends hAt (h fuel hFuel)
    (fun hLoop : Loop.definitions ≠ .definitions =>
      absurd rfl hLoop)

section Rounds

variable {seen : Trail}
variable {n : Node}
variable {d : Round}

/- What a round of the definitions decides. -/
theorem definitions_step
    (hPeek : peek trail = some (.ok (s.head, seen)))
    (hKind : s.head.kind ≠ .eof)
    (hRound :
      inRound .definitions (definition (fuel + 1)) seen =
        some (.ok (n, after))) :
    definitions (fuel + 1) trail =
      if after.read = seen.read then
        some (.ok ([n], after))
      else
        (do
          let ns ← definitions fuel
          pure (n :: ns) : Fueled (List Node)) after := by
  rw [definitions, bind_result hPeek, if_pos hKind,
    bind_result (get_result seen), bind_result hRound,
    bind_result (get_result after)]
  split_ifs
  · rfl
  · rfl

theorem definitions_stop
    (hPeek :
      Ends 0 [] peek TokenStream.peek trail s s.head seen s)
    (hEnd : s.head.kind = .eof) :
    Ends 0 [] (definitions (fuel + 1)) Reading.definitions
      trail s [] seen s := by
  refine ⟨?_, readWhile_stop (by simpa using hEnd),
    hPeek.place, hPeek.leads, le_rfl⟩
  rw [definitions, bind_result hPeek.result,
    if_neg (not_not.mpr hEnd)]
  rfl

theorem definitions_stall
    (hPeek :
      Ends 0 [] peek TokenStream.peek trail s s.head seen s)
    (hKind : s.head.kind ≠ .eof)
    (hRound :
      Ends 0 [d] (inRound .definitions (definition (fuel + 1)))
        Reading.definition seen s n after s')
    (hStays : ¬ s'.ahead.length < s.ahead.length) :
    Ends 0 [d] (definitions (fuel + 1)) Reading.definitions
      trail s [n] after s' := by
  have hRead := hRound.read_add hPeek.place
  have hTaken := hRound.taken
  have hSame : after.read = seen.read := by omega
  refine ⟨?_, ?_, hRound.place,
    hPeek.leads.trans hRound.leads, hTaken⟩
  · rw [definitions_step hPeek.result hKind hRound.result,
      if_pos hSame]
  · unfold Reading.definitions
    rw [readWhile_step (decide_eq_true hKind) hRound.reading,
      if_neg hStays]

theorem definitions_go
    {ns : List Node}
    {last : Trail}
    {s'' : TokenStream}
    (hPeek :
      Ends 0 [] peek TokenStream.peek trail s s.head seen s)
    (hKind : s.head.kind ≠ .eof)
    (hRound :
      Ends 0 [d] (inRound .definitions (definition (fuel + 1)))
        Reading.definition seen s n after s')
    (hFewer : s'.ahead.length < s.ahead.length)
    (hRest :
      Ends 0 ds (definitions fuel) Reading.definitions
        after s' ns last s'') :
    Ends 0 (d :: ds) (definitions (fuel + 1))
      Reading.definitions trail s (n :: ns) last s'' := by
  have hRead := hRound.read_add hPeek.place
  have hMoves : ¬ after.read = seen.read := by omega
  have hReading := hRest.reading
  refine ⟨?_, ?_, hRest.place,
    (hPeek.leads.trans hRound.leads).trans hRest.leads, ?_⟩
  · rw [definitions_step hPeek.result hKind hRound.result,
      if_neg hMoves, bind_result hRest.result]
    rfl
  · unfold Reading.definitions at hReading ⊢
    rw [readWhile_step (decide_eq_true hKind) hRound.reading,
      if_pos hFewer, hReading]
  · have hTaken := hRest.taken
    omega

end Rounds

/-
  The list of definitions ends at the mark of the end, after
  rounds that each take a token, or with its first round that
  takes none.
-/
theorem definitions_end
    (hAt : trail.At s) :
    ∃ ns after s' ds,
      (∀ fuel, s.ahead.length ≤ fuel →
        Ends 0 ds (definitions (fuel + 1)) Reading.definitions
          trail s ns after s') ∧
      (s'.head.kind = .eof ∧ (∀ d ∈ ds, d.Takes) ∨
        Round.Stalls ds) := by
  induction hLength : s.ahead.length using
      Nat.strong_induction_on generalizing trail s with
  | _ length ih =>
    have hPeek := peek_ends hAt
    by_cases hKind : s.head.kind = .eof
    · exact ⟨[], _, s, [],
        fun _ _ => definitions_stop hPeek hKind,
        .inl ⟨hKind, by simp⟩⟩
    · rcases definition_round hPeek.place with
        ⟨n, after, s', d, hBefore, hAfter, hRound⟩
      have hRead :=
        (hRound _ (Nat.lt_succ_self _)).read_add hPeek.place
      by_cases hFewer : s'.ahead.length < s.ahead.length
      · have hTakes : d.Takes := by
          unfold Round.Takes
          omega
        have hPlace := (hRound _ (Nat.lt_succ_self _)).place
        rcases ih s'.ahead.length (by omega) hPlace rfl with
          ⟨ns, last, s'', ds, hRest, hDone⟩
        refine ⟨n :: ns, last, s'', d :: ds, ?_, ?_⟩
        · intro fuel hFuel
          cases fuel with
          | zero => omega
          | succ fuel =>
              exact definitions_go hPeek hKind
                (hRound _ (by omega)) hFewer
                (hRest fuel (by omega))
        · rcases hDone with ⟨hEnd, hAll⟩ | hStalls
          · exact .inl ⟨hEnd,
              List.forall_mem_cons.mpr ⟨hTakes, hAll⟩⟩
          · exact .inr (hStalls.cons hTakes)
      · refine ⟨[n], after, s', [d], ?_, ?_⟩
        · intro fuel hFuel
          exact definitions_stall hPeek hKind
            (hRound _ (by omega)) hFewer
        · have hTaken := (hRound _ (Nat.lt_succ_self _)).taken
          exact .inr ⟨[], d, rfl, by simp, by omega⟩

------------------------------------------------------------
-- Documents
------------------------------------------------------------

variable {tokens : List Token}

/- A trail begins where the stream of the same tokens does. -/
theorem ofTokens_at
    (hTokens : s.ahead ++ [s.last] = tokens)
    (hNew : s.readTo = 0)
    (hLast : s.last.kind = .eof)
    (hInner : ∀ t ∈ s.ahead, t.kind ≠ .eof) :
    (Trail.ofTokens tokens).At s :=
  ⟨hTokens.symm, congrArg _ hNew.symm, hInner, hLast⟩

theorem ofTokens_orderly
    (tokens : List Token) :
    (Trail.ofTokens tokens).Orderly :=
  ⟨List.pairwise_singleton _ _, by simp [Trail.ofTokens]⟩

theorem document_ends
    (length : Nat)
    (hAt : (Trail.ofTokens tokens).At s) :
    ∃ trail s',
      (∀ fuel, tokens.length ≤ fuel →
        document fuel length (.ofTokens tokens) =
          some (.ok (Reading.document length s, trail))) ∧
      trail.At s' ∧ trail.tokens = tokens ∧ trail.Orderly ∧
      (s'.head.kind = .eof ∧
          (∀ d ∈ trail.roundsOf .definitions, d.Takes) ∨
        Round.Stalls (trail.roundsOf .definitions)) := by
  rcases definitions_end hAt with
    ⟨ns, trail, s', ds, hEnds, hDone⟩
  have hOne := hEnds _ le_rfl
  have hRounds : trail.roundsOf .definitions = ds :=
    hOne.leads.definitions
  have hReading : Reading.definitions.run s = (ns, s') :=
    hOne.reading
  refine ⟨trail, s', ?_, hOne.place, hOne.leads.tokens,
    hOne.leads.orderly (ofTokens_orderly tokens), ?_⟩
  · intro fuel hFuel
    have hLength : tokens.length = 0 + s.ahead.length + 1 :=
      length_of_at hAt
    cases fuel with
    | zero => omega
    | succ fuel =>
        rw [document,
          bind_result (hEnds fuel (by omega)).result,
          Reading.document, hReading]
        rfl
  · rw [hRounds]
    exact hDone

/-
  The reading of a tree ends on every list of tokens that the
  mark of the end closes and stands nowhere else in, with no
  more fuel than there are tokens. It yields the tree that is
  read with bounds from the same tokens. Its index stays in
  the list and never goes back, every round of a list takes a
  token, and the list of definitions ends at the mark or with
  its first round that takes none.
-/
theorem document_total
    (length : Nat)
    (tokens : List Token)
    (hLast : tokens.getLast?.map Token.kind = some .eof)
    (hOnly : ∀ t ∈ tokens.dropLast, t.kind ≠ .eof) :
    ∃ tree trail,
      (∀ fuel, tokens.length ≤ fuel →
        document fuel length (.ofTokens tokens) =
          some (.ok (tree, trail))) ∧
      (∀ s : TokenStream,
        s.ahead ++ [s.last] = tokens → s.readTo = 0 →
          Reading.document length s = tree) ∧
      (∀ i ∈ trail.course, i < tokens.length) ∧
      trail.course.Pairwise (· ≤ ·) ∧
      (∀ r ∈ trail.rounds, r.loop ≠ .definitions → r.Takes) ∧
      (tokens[trail.read]?.map Token.kind = some .eof ∧
          (∀ r ∈ trail.roundsOf .definitions, r.Takes) ∨
        Round.Stalls (trail.roundsOf .definitions)) := by
  rcases Option.map_eq_some_iff.mp hLast with
    ⟨last, hGet, hKind⟩
  have hTokens : tokens.dropLast ++ [last] = tokens :=
    List.dropLast_append_getLast? last hGet
  have hStart :
      ∀ s : TokenStream, s.ahead ++ [s.last] = tokens →
        s.readTo = 0 → (Trail.ofTokens tokens).At s := by
    intro s hSame hNew
    rcases List.append_inj' (hSame.trans hTokens.symm) rfl with
      ⟨hAhead, hMark⟩
    refine ofTokens_at hSame hNew ?_ ?_
    · rw [List.singleton_inj.mp hMark]
      exact hKind
    · rw [hAhead]
      exact hOnly
  rcases document_ends length
      (hStart { ahead := tokens.dropLast, last } hTokens rfl)
    with ⟨trail, s', hResult, hPlace, hSame, hOrderly, hDone⟩
  refine ⟨_, trail, hResult, ?_, ?_, hOrderly.ordered,
    hOrderly.takes, ?_⟩
  · intro s hAhead hNew
    rcases document_ends length (hStart s hAhead hNew) with
      ⟨trail', _, hResult', _⟩
    have hBoth :=
      (hResult' _ le_rfl).symm.trans (hResult _ le_rfl)
    have hPair := Except.ok.inj (Option.some.inj hBoth)
    exact congrArg Prod.fst hPair
  · intro i hi
    have hLength := length_of_at hPlace
    have hRead := hOrderly.le_read hi
    rw [hSame] at hLength
    omega
  · rcases hDone with ⟨hEnd, hAll⟩ | hStalls
    · have hHead := hPlace.head
      rw [hSame] at hHead
      refine .inl ⟨?_, hAll⟩
      rw [hHead, Option.map_some, hEnd]
    · exact .inr hStalls

/- The tokens of a closed brace and of a stray parenthesis. -/
def stray : List Token :=
  [ { kind := .braceL, start := 0, stop := 1,
      line := 1, column := 1 },
    { kind := .name, value := "a", start := 1, stop := 2,
      line := 1, column := 2 },
    { kind := .braceR, start := 2, stop := 3,
      line := 1, column := 3 },
    { kind := .parenR, start := 3, stop := 4,
      line := 1, column := 4 },
    { kind := .eof, start := 4, stop := 4,
      line := 1, column := 5 } ]

/-
  The parenthesis begins no definition: the second round of
  the definitions takes nothing and is the last.
-/
theorem document_total_stray :
    stray.getLast?.map Token.kind = some .eof ∧
      (∀ t ∈ stray.dropLast, t.kind ≠ .eof) ∧
      ∃ tree trail,
        (∀ fuel, 5 ≤ fuel →
          document fuel 4 (.ofTokens stray) =
            some (.ok (tree, trail))) ∧
        trail.rounds =
          [ ⟨.selections, 1, 2⟩,
            ⟨.definitions, 0, 3⟩,
            ⟨.definitions, 3, 3⟩ ] ∧
        (∀ i ∈ trail.course, i < 5) ∧
        trail.course.Pairwise (· ≤ ·) ∧
        Round.Stalls (trail.roundsOf .definitions) := by
  rcases document_total 4 stray (by decide) (by decide) with
    ⟨tree, trail, hResult, _, hWithin, hOrdered, _, hDone⟩
  have hRun :
      (document 5 4 (.ofTokens stray)).run.map
          (fun e => e.toOption.map fun p =>
            (p.2.read, p.2.rounds)) =
        some (some (3,
          [ ⟨.selections, 1, 2⟩,
            ⟨.definitions, 0, 3⟩,
            ⟨.definitions, 3, 3⟩ ])) := by
    decide +kernel
  rw [hResult 5 le_rfl] at hRun
  have hLast := Option.some.inj (Option.some.inj hRun)
  have hRead : trail.read = 3 := congrArg Prod.fst hLast
  refine ⟨by decide, by decide, tree, trail, hResult,
    congrArg Prod.snd hLast, hWithin, hOrdered, ?_⟩
  rcases hDone with ⟨hEnd, _⟩ | hStalls
  · rw [hRead] at hEnd
    exact absurd hEnd (by decide)
  · exact hStalls

end Fueled

end Node

end QueryHover
