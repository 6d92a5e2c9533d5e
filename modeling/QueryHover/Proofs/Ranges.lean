import QueryHover.Output.NodeEntry
import QueryHover.Proofs.Innermost
import QueryHover.Proofs.Positions

/-
  Ranges that are reported.

  The nodes of a chain lie inside the text and inside one
  another, and positions are in the order of their offsets.
  So the ranges listed for a chain nest, and each of them
  leads back to the span of its node. The same is true of the
  range of an answer: below 32 bits no component of it is
  clamped.

  Main declarations:
    * `Position.UpTo`
    * `Position.ofOffset_le`
    * `Document.target_bounds`
    * `Answer.exists_above`
    * `Document.ranges_faithful`
-/

namespace QueryHover

------------------------------------------------------------
-- Positions in Order
------------------------------------------------------------

namespace Position

variable {text : List Char}
variable {j k : Int}

/- A position that is not after another one. -/
def UpTo
    (p q : Position) : Prop :=
  p.line < q.line ∨
    p.line = q.line ∧ p.character ≤ q.character

theorem UpTo.refl
    (p : Position) :
    p.UpTo p :=
  .inr ⟨rfl, Int.le_refl _⟩

theorem Before.upTo
    {p q : Position}
    (h : p.Before q) :
    p.UpTo q := by
  unfold Before at h
  unfold UpTo
  omega

theorem before_of_lt
    (hFront : 0 ≤ j)
    (hOrder : j < k)
    (hEnd : k ≤ text.length) :
    (ofOffset text j).Before (ofOffset text k) := by
  obtain ⟨j, rfl⟩ := Int.eq_ofNat_of_zero_le hFront
  obtain ⟨k, rfl⟩ := Int.eq_ofNat_of_zero_le
    (Int.le_trans hFront (Int.le_of_lt hOrder))
  exact ofOffset_before (Int.ofNat_lt.mp hOrder)
    (Int.ofNat_le.mp hEnd)

/- Greater offsets have no earlier positions. -/
theorem upTo_of_le
    (hFront : 0 ≤ j)
    (hOrder : j ≤ k)
    (hEnd : k ≤ text.length) :
    (ofOffset text j).UpTo (ofOffset text k) := by
  by_cases hSame : j = k
  · rw [hSame]
    exact UpTo.refl _
  · apply Before.upTo
    exact before_of_lt hFront (by omega) hEnd

/- The position of an offset in the text leads back to it. -/
theorem offsetIn_ofOffset_of_le
    (hFront : 0 ≤ k)
    (hEnd : k ≤ text.length) :
    ((ofOffset text k).offsetIn text : Int) = k := by
  obtain ⟨k, rfl⟩ := Int.eq_ofNat_of_zero_le hFront
  have hBound := Int.ofNat_le.mp hEnd
  rw [offsetIn_ofOffset]
  omega

theorem ofOffset_length
    (text : List Char) :
    ofOffset text (text.length : Int) = endOf text := by
  induction text with
  | nil => rfl
  | cons c cs ih =>
      rw [List.length_cons, ofOffset_cons, ih, endOf_cons]

/-
  Reading on, lines and characters together grow by one at
  most.
-/
theorem advance_le
    {p : Position}
    {n : Int}
    (h : 0 ≤ p.line ∧ 0 ≤ p.character ∧
      p.line + p.character ≤ n)
    (c : Char) :
    0 ≤ (p.advance c).line ∧ 0 ≤ (p.advance c).character ∧
      (p.advance c).line + (p.advance c).character ≤ n + 1 := by
  unfold advance
  split
  · dsimp only
    omega
  · dsimp only
    omega

theorem foldl_advance_le
    {p : Position}
    {n : Int}
    (h : 0 ≤ p.line ∧ 0 ≤ p.character ∧
      p.line + p.character ≤ n)
    (cs : List Char) :
    0 ≤ (cs.foldl advance p).line ∧
      0 ≤ (cs.foldl advance p).character ∧
      (cs.foldl advance p).line +
          (cs.foldl advance p).character ≤
        n + cs.length := by
  induction cs generalizing p n with
  | nil => simpa using h
  | cons c cs ih =>
      have hRest := ih (advance_le h c)
      rw [List.foldl_cons, List.length_cons]
      omega

/- No component of a position exceeds the text's length. -/
theorem ofOffset_le
    (text : List Char)
    (k : Int) :
    0 ≤ (ofOffset text k).line ∧
      0 ≤ (ofOffset text k).character ∧
      (ofOffset text k).line + (ofOffset text k).character ≤
        text.length := by
  have hStart :
      0 ≤ (⟨0, 0⟩ : Position).line ∧
        0 ≤ (⟨0, 0⟩ : Position).character ∧
        (⟨0, 0⟩ : Position).line +
            (⟨0, 0⟩ : Position).character ≤ 0 := by
    decide
  have hRead :=
    foldl_advance_le hStart (text.take k.toNat)
  have hLength := List.length_take_le' k.toNat text
  unfold ofOffset
  omega

theorem clampWord_eq_self
    {n : Int}
    (hFront : 0 ≤ n)
    (hEnd : n < UInt32.size) :
    clampWord n = n := by
  unfold clampWord
  omega

/- In a text of fewer characters nothing is clamped. -/
theorem clamped_ofOffset
    (h : text.length < UInt32.size)
    (k : Int) :
    (ofOffset text k).clamped = ofOffset text k := by
  have hBounds := ofOffset_le text k
  unfold clamped
  rw [clampWord_eq_self (by omega) (by omega),
    clampWord_eq_self (by omega) (by omega)]

end Position

------------------------------------------------------------
-- Spans in a Text
------------------------------------------------------------

/- The length of a span that is not too long. -/
theorem Span.length_eq
    {span : Span}
    (hOrder : span.start ≤ span.stop)
    (hLength :
      span.stop - span.start < (UInt64.size / 2 : Nat)) :
    span.length = span.stop - span.start := by
  have hSize : (UInt64.size : Nat) = 2 * (UInt64.size / 2) := by
    decide
  apply Int.bmod_eq_of_le
  · omega
  · omega

namespace Document

variable {text : List Char}
variable {root n : Node}

/- The span of every node lies in the text. -/
theorem span_bounds
    (h : parse text = .ok root)
    (hn : root.Holds n) :
    0 ≤ n.span.start ∧ n.span.start ≤ n.span.stop ∧
      n.span.stop ≤ text.length := by
  have hNested := parse_nested h
  have hInside := hNested.span_le hn
  rcases parse_spells h with ⟨_, hSpan, _⟩
  rw [hSpan] at hInside
  dsimp only at hInside
  rcases Relation.reflTransGen_iff_eq_or_transGen.mp hn with
    rfl | hAbove
  · rw [hSpan]
    dsimp only
    omega
  · have hProper := hNested.proper hAbove
    omega

/-
  What is marked for a node below the root is not empty and
  lies inside the node.
-/
theorem target_bounds
    (h : parse text = .ok root)
    (hn : root.Above n) :
    n.span.start ≤ n.target.start ∧
      n.target.start < n.target.stop ∧
      n.target.stop ≤ n.span.stop := by
  have hProper := (parse_nested h).proper hn
  rcases madeOf_of_parse h hn with
    ⟨ts, lo, hi, _, hMade, hTokens⟩
  unfold Node.target
  by_cases hPositive : 0 < n.nameSpan.length
  · rw [if_pos hPositive]
    rcases hMade.nameSpan hTokens with hNone | hName
    · rw [hNone] at hPositive
      exact absurd hPositive (by decide)
    · exact hName
  · rw [if_neg hPositive]
    exact ⟨Int.le_refl _, hProper, Int.le_refl _⟩

end Document

------------------------------------------------------------
-- Ranges of Spans
------------------------------------------------------------

/- The range that a span covers. -/
def Range.ofSpan
    (text : List Char)
    (span : Span) : Range :=
  { start := Position.ofOffset text span.start
    stop := Position.ofOffset text span.stop }

/- The ends of the range of a span lead back to the span. -/
theorem Range.offsetIn_ofSpan
    {text : List Char}
    {span : Span}
    (h : 0 ≤ span.start ∧ span.start ≤ span.stop ∧
      span.stop ≤ text.length) :
    ((ofSpan text span).start.offsetIn text : Int) =
        span.start ∧
      ((ofSpan text span).stop.offsetIn text : Int) =
        span.stop := by
  refine ⟨?_, ?_⟩
  · apply Position.offsetIn_ofOffset_of_le h.1
    omega
  · apply Position.offsetIn_ofOffset_of_le ?_ h.2.2
    omega

/- The range of a span lies in that of a span around it. -/
theorem Range.ofSpan_inside
    {text : List Char}
    {inner outer : Span}
    (h : 0 ≤ outer.start ∧ outer.stop ≤ text.length)
    (hOrder : inner.start ≤ inner.stop)
    (hInside :
      outer.start ≤ inner.start ∧ inner.stop ≤ outer.stop) :
    (ofSpan text outer).start.UpTo
        (ofSpan text inner).start ∧
      (ofSpan text inner).stop.UpTo
        (ofSpan text outer).stop := by
  refine ⟨?_, ?_⟩
  · apply Position.upTo_of_le h.1 hInside.1
    omega
  · apply Position.upTo_of_le ?_ hInside.2 h.2
    omega

------------------------------------------------------------
-- Entries of a Chain
------------------------------------------------------------

/- Neighbours in a chain are a node and its child. -/
theorem Node.Leads.hasChild
    {root n m : Node}
    {chain : Chain}
    (h : root.Leads chain)
    {i : Nat}
    (hn : chain[i]? = some n)
    (hm : chain[i + 1]? = some m) :
    m ∈ n.children := by
  rcases List.getElem?_eq_some_iff.mp hn with ⟨_, rfl⟩
  rcases List.getElem?_eq_some_iff.mp hm with ⟨hNext, rfl⟩
  exact h.linked.getElem i hNext

namespace NodeEntry

variable {text : List Char}
variable {chain : Chain}

/- An entry has the place and the range of its node. -/
theorem of_getElem?
    {i : Nat}
    {e : NodeEntry}
    (h : (ofChain text chain)[i]? = some e) :
    ∃ n,
      chain[i]? = some n ∧ e.depth = i ∧
        e.start = (Range.ofSpan text n.span).start ∧
        e.stop = (Range.ofSpan text n.span).stop := by
  unfold ofChain at h
  rw [List.getElem?_map, List.getElem?_zipIdx] at h
  cases hNode : chain[i]? with
  | none =>
      rw [hNode] at h
      cases h
  | some n =>
      rw [hNode] at h
      obtain rfl := Option.some.inj h
      exact ⟨n, rfl, Nat.zero_add i, rfl, rfl⟩

section

variable {root : Node}
variable (h : Document.parse text = .ok root)
variable (hLeads : root.Leads chain)

include h hLeads

/- The first entry covers the text. -/
theorem ofChain_head :
    ∃ e,
      (ofChain text chain).head? = some e ∧
        e.start = ⟨0, 0⟩ ∧ e.stop = Position.endOf text := by
  rcases Document.parse_spells h with ⟨_, hSpan, _⟩
  cases chain with
  | nil => cases hLeads.head
  | cons n path =>
      obtain rfl := Option.some.inj hLeads.head
      refine ⟨_, rfl, ?_, ?_⟩
      · change Position.ofOffset text n.span.start = _
        rw [hSpan]
        rfl
      · change Position.ofOffset text n.span.stop = _
        rw [hSpan]
        exact Position.ofOffset_length text

/- An entry leads back to the span of its node. -/
theorem ofChain_faithful
    {i : Nat}
    {e : NodeEntry}
    (he : (ofChain text chain)[i]? = some e) :
    e.depth = i ∧ e.start.UpTo e.stop ∧
      ∃ n : Node,
        chain[i]? = some n ∧
          (e.start.offsetIn text : Int) = n.span.start ∧
          (e.stop.offsetIn text : Int) = n.span.stop := by
  rcases of_getElem? he with ⟨n, hn, hDepth, hStart, hStop⟩
  have hSpan := Document.span_bounds h
    (hLeads.holds (List.mem_of_getElem? hn))
  rw [hStart, hStop]
  refine ⟨hDepth, ?_, n, hn, Range.offsetIn_ofSpan hSpan⟩
  exact Position.upTo_of_le hSpan.1 hSpan.2.1 hSpan.2.2

/- An entry lies inside the one before it. -/
theorem ofChain_nested
    {i : Nat}
    {e e' : NodeEntry}
    (he : (ofChain text chain)[i]? = some e)
    (he' : (ofChain text chain)[i + 1]? = some e') :
    e.start.UpTo e'.start ∧ e'.stop.UpTo e.stop := by
  rcases of_getElem? he with ⟨n, hn, _, hStart, hStop⟩
  rcases of_getElem? he' with ⟨m, hm, _, hStart', hStop'⟩
  have hHolds := hLeads.holds (List.mem_of_getElem? hn)
  have hOuter := Document.span_bounds h hHolds
  have hInner := Document.span_bounds h
    (hLeads.holds (List.mem_of_getElem? hm))
  have hInside := (Document.parse_nested h n hHolds).inside m
    (hLeads.hasChild hn hm)
  rw [hStart, hStop, hStart', hStop']
  exact Range.ofSpan_inside ⟨hOuter.1, hOuter.2.2⟩ hInner.2.1
    hInside

end

end NodeEntry

------------------------------------------------------------
-- Ranges of Answers
------------------------------------------------------------

/- The root of a document is not described. -/
theorem annotate?_document
    {root : Node}
    (h : root.kind = .document)
    (schema : Option Schema) :
    annotate? schema [root] = none := by
  cases schema with
  | none => rfl
  | some schema =>
      simp [annotate?, Chain.leaf?, Context.along,
        Context.alongFrom, Context.enter, Context.entity?,
        Context.nearest?, h]

namespace Answer

variable {text : List Char}
variable {root : Node}

/- Content is about a node below the root. -/
theorem exists_above
    (h : Document.parse text = .ok root)
    {schema : Option Schema}
    {offset : Nat}
    (hContent : (ofTree schema text root offset).content ≠ "") :
    ∃ leaf,
      (Chain.resolve root offset).leaf? = some leaf ∧
        root.Above leaf := by
  rcases Document.parse_spells h with ⟨hKind, _, _⟩
  have hLeads := Chain.leads_resolve root offset
  unfold ofTree at hContent
  dsimp only at hContent
  generalize Chain.resolve root offset = chain at hContent hLeads
  cases chain with
  | nil => cases hLeads.head
  | cons n path =>
      obtain rfl := Option.some.inj hLeads.head
      cases path with
      | nil =>
          rw [annotate?_document hKind] at hContent
          exact absurd rfl hContent
      | cons m path =>
          have hSome : m :: path ≠ [] := List.cons_ne_nil m path
          refine ⟨(m :: path).getLast hSome, ?_, ?_⟩
          · exact (List.getLast?_cons_cons).trans
              (List.getLast?_eq_some_getLast hSome)
          · exact Node.above_of_isChain hLeads.linked
              (List.getLast_mem hSome)

theorem target?_of_content
    {a : Answer}
    {leaf : Node}
    (hContent : a.content ≠ "")
    (hLeaf : a.chain.leaf? = some leaf) :
    a.target? = some leaf.target := by
  unfold target?
  rw [if_neg hContent, hLeaf]
  rfl

/- Below 32 bits a range is that of the target. -/
theorem range?_of_target
    {a : Answer}
    {span : Span}
    (hLength : a.text.length < UInt32.size)
    (hTarget : a.target? = some span) :
    a.range? = some (Range.ofSpan a.text span) := by
  unfold range?
  rw [hTarget, Option.map_some,
    Position.clamped_ofOffset hLength,
    Position.clamped_ofOffset hLength]
  rfl

theorem range?_eq_none
    {a : Answer}
    (h : a.content = "") :
    a.range? = none := by
  unfold range? target?
  rw [if_pos h]
  rfl

/-
  The range of an answer with content is that of its target.
  It is not empty and lies inside the range of the leaf.
-/
theorem range_of_content
    (h : Document.parse text = .ok root)
    (hLength : text.length < UInt32.size)
    {schema : Option Schema}
    {offset : Nat}
    (hContent :
      (ofTree schema text root offset).content ≠ "") :
    ∃ leaf span r,
      (Chain.resolve root offset).leaf? = some leaf ∧
        (ofTree schema text root offset).target? = some span ∧
        (ofTree schema text root offset).range? = some r ∧
        r = Range.ofSpan text span ∧
        r.start.Before r.stop ∧
        (Range.ofSpan text leaf.span).start.UpTo r.start ∧
        r.stop.UpTo (Range.ofSpan text leaf.span).stop ∧
        (r.start.offsetIn text : Int) = span.start ∧
        (r.stop.offsetIn text : Int) = span.stop := by
  rcases exists_above h hContent with ⟨leaf, hLeaf, hAbove⟩
  have hSpan := Document.span_bounds h hAbove.to_reflTransGen
  have hInside := Document.target_bounds h hAbove
  have hTarget := target?_of_content hContent hLeaf
  have hNested :=
    Range.ofSpan_inside ⟨hSpan.1, hSpan.2.2⟩
      (Int.le_of_lt hInside.2.1) ⟨hInside.1, hInside.2.2⟩
  refine ⟨leaf, leaf.target, Range.ofSpan text leaf.target,
    hLeaf, hTarget, range?_of_target hLength hTarget, rfl, ?_,
    hNested.1, hNested.2, Range.offsetIn_ofSpan (by omega)⟩
  apply Position.before_of_lt ?_ hInside.2.1
  · omega
  · omega

end Answer

------------------------------------------------------------
-- All Ranges of a Document
------------------------------------------------------------

namespace Document

variable {text : List Char}
variable {root : Node}

/-
  Every reported range is faithful. The entries of a chain
  are numbered from 0, the first covers the text, none of
  them ends before it starts, each of them lies inside the
  one before it, and their ends lead back to the span of the
  node. An answer has a range exactly if it has content. The
  range is then that of the target, without any clamping; it
  is not empty, lies inside the range of the leaf, and leads
  back to the target.
-/
theorem ranges_faithful
    (h : parse text = .ok root)
    (hLength : text.length < UInt32.size)
    (schema : Option Schema)
    (p : Position) :
    let chain := Chain.resolve root (p.offsetIn text)
    let entries := NodeEntry.ofChain text chain
    entries.length = chain.length ∧
      (∃ e,
        entries.head? = some e ∧ e.start = ⟨0, 0⟩ ∧
          e.stop = Position.endOf text) ∧
      (∀ (i : Nat) (e : NodeEntry), entries[i]? = some e →
        e.depth = i ∧ e.start.UpTo e.stop ∧
          ∃ n : Node,
            chain[i]? = some n ∧
              (e.start.offsetIn text : Int) = n.span.start ∧
              (e.stop.offsetIn text : Int) = n.span.stop) ∧
      (∀ (i : Nat) (e e' : NodeEntry), entries[i]? = some e →
        entries[i + 1]? = some e' →
          e.start.UpTo e'.start ∧ e'.stop.UpTo e.stop) ∧
      ∃ a,
        Answer.resolve schema text p = .ok a ∧
          a.chain = chain ∧
          (a.content = "" → a.range? = none) ∧
          (a.content ≠ "" →
            ∃ leaf span r,
              chain.leaf? = some leaf ∧
                a.target? = some span ∧ a.range? = some r ∧
                r = Range.ofSpan text span ∧
                r.start.Before r.stop ∧
                (Range.ofSpan text leaf.span).start.UpTo
                  r.start ∧
                r.stop.UpTo
                  (Range.ofSpan text leaf.span).stop ∧
                (r.start.offsetIn text : Int) = span.start ∧
                (r.stop.offsetIn text : Int) = span.stop) := by
  intro chain entries
  have hLeads : root.Leads chain := Chain.leads_resolve root _
  refine ⟨by simp [entries, NodeEntry.ofChain],
    NodeEntry.ofChain_head h hLeads, ?_, ?_, ?_⟩
  · intro i e he
    exact NodeEntry.ofChain_faithful h hLeads he
  · intro i e e' he he'
    exact NodeEntry.ofChain_nested h hLeads he he'
  · refine
      ⟨Answer.ofTree schema text root (p.offsetIn text), ?_,
        rfl, Answer.range?_eq_none, ?_⟩
    · unfold Answer.resolve
      rw [h]
      rfl
    · exact Answer.range_of_content h hLength

/- The use of a variable on the second line. -/
theorem ranges_faithful_variable :
    let text := "query($a:T)\x7b\n b(c:$a)\x7d".toList
    ∃ root a r,
      parse text = .ok root ∧ text.length < UInt32.size ∧
        Answer.resolve (some {}) text ⟨1, 6⟩ = .ok a ∧
        a.content = "T" ∧
        a.range? = some r ∧ r = ⟨⟨1, 5⟩, ⟨1, 7⟩⟩ ∧
        (r.start.offsetIn text, r.stop.offsetIn text) =
          (18, 20) ∧
        r.start.Before r.stop := by
  intro text
  have hAdmitted : (parse text).toBool = true := by
    decide +kernel
  have hLength : text.length < UInt32.size := by
    decide
  rcases exists_root hAdmitted with ⟨root, h⟩
  rcases (ranges_faithful h hLength (some {})
      ⟨1, 6⟩).2.2.2.2 with
    ⟨a, hAnswer, _, _, hFaithful⟩
  have hSeen :
      (Answer.resolve (some {}) text ⟨1, 6⟩).toOption.map
          (fun a => (a.content, a.range?)) =
        some ("T", some ⟨⟨1, 5⟩, ⟨1, 7⟩⟩) := by
    decide +kernel
  rw [hAnswer] at hSeen
  have hContent : a.content = "T" :=
    congrArg Prod.fst (Option.some.inj hSeen)
  have hRange := congrArg Prod.snd (Option.some.inj hSeen)
  rcases hFaithful (by rw [hContent]; decide) with
    ⟨_, _, r, _, _, hr, _, hBefore, _⟩
  have hEnds := Option.some.inj (hr.symm.trans hRange)
  refine ⟨root, a, r, h, hLength, hAnswer, hContent, hr,
    hEnds, ?_, hBefore⟩
  rw [hEnds]
  decide +kernel

end Document

end QueryHover
