import Mathlib.Data.List.Chain
import Mathlib.Data.List.Forall2
import Mathlib.Tactic.SplitIfs
import QueryHover.Node.Chain
import QueryHover.Proofs.Kinds

/-
  The chain at an offset leads to the innermost node.

  In a tree whose spans nest, the nodes that contain an offset
  are those of one path down from the root, and the nodes
  further down that end at it are those of a path that goes
  on from there. The descent follows both. At no node does it
  have a choice, so the order of children does not matter.

  Main declarations:
    * `Node.exists_containing_path`
    * `Node.exists_touching_path`
    * `Node.Rearranged`
    * `Chain.dropSelectionSets_eq`
    * `Chain.resolve_innermost`
-/

namespace QueryHover

namespace Node

------------------------------------------------------------
-- Nodes That Stand Apart
------------------------------------------------------------

/- Nodes one after the other, none of them empty. -/
structure Apart
    (ns : List Node) : Prop where
  proper : ∀ c ∈ ns, c.span.start < c.span.stop
  ordered :
    ns.Pairwise fun a b => a.span.stop ≤ b.span.start

theorem Tidy.apart
    {n : Node}
    (h : n.Tidy) :
    Apart n.children :=
  ⟨h.proper, h.ordered⟩

/-
  Spans that stand apart do not share what any two of them
  exclude.
-/
def Exclusive
    (q : Span → Bool) : Prop :=
  ∀ a b : Span, a.start < a.stop → b.start < b.stop →
    a.stop ≤ b.start → q a = true → q b = false

theorem exclusive_contains
    (offset : Int) :
    Exclusive fun span => span.Contains offset := by
  intro a b _ _ hOrder hA
  rw [decide_eq_true_eq] at hA
  rw [decide_eq_false_iff_not]
  intro hB
  have hBefore := hA.2
  have hAfter := hB.1
  omega

theorem exclusive_stop
    (offset : Int) :
    Exclusive fun span => span.stop = offset := by
  intro a b _ hB hOrder hA
  simp only [decide_eq_true_eq,
    decide_eq_false_iff_not] at hA ⊢
  omega

namespace Apart

variable {ns : List Node}
variable {q : Span → Bool}

/- Of two nodes, one stands before the other. -/
theorem order
    (h : Apart ns)
    {c d : Node}
    (hc : c ∈ ns)
    (hd : d ∈ ns) :
    c = d ∨ c.span.stop ≤ d.span.start ∨
      d.span.stop ≤ c.span.start := by
  by_cases hSame : c = d
  · exact .inl hSame
  · have hOrder :
        ns.Pairwise fun a b =>
          a.span.stop ≤ b.span.start ∨
            b.span.stop ≤ a.span.start :=
      h.ordered.imp fun hLess => .inl hLess
    have hSymmetric :
        Std.Symm fun a b : Node =>
          a.span.stop ≤ b.span.start ∨
            b.span.stop ≤ a.span.start :=
      ⟨fun _ _ hOr => hOr.symm⟩
    exact .inr (hOrder.forall hc hd hSame)

theorem eq_of_exclusive
    (h : Apart ns)
    (hq : Exclusive q)
    {c d : Node}
    (hc : c ∈ ns)
    (hd : d ∈ ns)
    (hqc : q c.span = true)
    (hqd : q d.span = true) :
    c = d := by
  have hProperC := h.proper c hc
  have hProperD := h.proper d hd
  rcases h.order hc hd with hSame | hOrder | hOrder
  · exact hSame
  · have hNot := hq _ _ hProperC hProperD hOrder hqc
    rw [hqd] at hNot
    cases hNot
  · have hNot := hq _ _ hProperD hProperC hOrder hqd
    rw [hqc] at hNot
    cases hNot

/- At most one of the nodes has an exclusive property. -/
theorem length_filter_le
    (h : Apart ns)
    (hq : Exclusive q) :
    (ns.filter fun c => q c.span).length ≤ 1 := by
  have hOrder := h.ordered.filter fun c => q c.span
  have hMem :
      ∀ c ∈ ns.filter fun c => q c.span,
        c.span.start < c.span.stop ∧ q c.span = true := by
    intro c hc
    rcases List.mem_filter.mp hc with ⟨hc, hqc⟩
    exact ⟨h.proper c hc, hqc⟩
  cases hFilter : ns.filter fun c => q c.span with
  | nil => simp
  | cons a rest =>
      rw [hFilter] at hOrder hMem
      cases rest with
      | nil => simp
      | cons b rest =>
          have hA := hMem a (by simp)
          have hB := hMem b (by simp)
          have hLess :=
            (List.pairwise_cons.mp hOrder).1 b (by simp)
          have hNot := hq _ _ hA.1 hB.1 hLess hA.2
          rw [hB.2] at hNot
          cases hNot

/- The node with an exclusive property is the one found. -/
theorem lastWith?_eq
    (h : Apart ns)
    (hq : Exclusive q)
    {c : Node}
    (hc : c ∈ ns)
    (hqc : q c.span = true) :
    lastWith? (fun c => q c.span) ns = some c := by
  cases hFind : lastWith? (fun c => q c.span) ns with
  | none =>
      have hNone := List.find?_eq_none.mp hFind c
        (List.mem_reverse.mpr hc)
      exact absurd hqc hNone
  | some d =>
      have hd := lastWith?_mem hFind
      have hqd : q d.span = true :=
        List.find?_some (p := fun c : Node => q c.span) hFind
      rw [h.eq_of_exclusive hq hd hc hqd hqc]

end Apart

theorem lastWith?_eq_none
    {p : Node → Bool}
    {ns : List Node}
    (h : ∀ c ∈ ns, p c = false) :
    lastWith? p ns = none := by
  apply List.find?_eq_none.mpr
  intro c hc
  simp [h c (List.mem_reverse.mp hc)]

------------------------------------------------------------
-- One Step of the Descent
------------------------------------------------------------

variable {n c : Node}
variable {offset : Int}

/- A child that contains the offset is entered. -/
theorem Apart.childAt?_contains
    (h : Apart n.children)
    (hc : c ∈ n.children)
    (hContains : c.span.Contains offset) :
    n.childAt? offset = some c := by
  have hInside := h.lastWith?_eq
    (exclusive_contains offset) hc (by simpa using hContains)
  unfold childAt?
  rw [hInside]
  rfl

/- Else a child that ends at the offset is entered. -/
theorem Apart.childAt?_stop
    (h : Apart n.children)
    (hNone : ∀ d ∈ n.children, ¬ d.span.Contains offset)
    (hc : c ∈ n.children)
    (hStop : c.span.stop = offset) :
    n.childAt? offset = some c := by
  have hInside :
      lastWith? (fun d => d.span.Contains offset)
        n.children = none :=
    lastWith?_eq_none fun d hd => by simpa using hNone d hd
  have hTouching := h.lastWith?_eq
    (exclusive_stop offset) hc (by simpa using hStop)
  unfold childAt?
  rw [hInside, hTouching]
  rfl

/- Else the descent ends. -/
theorem childAt?_eq_none
    (hNone : ∀ d ∈ n.children, ¬ d.span.Contains offset)
    (hStop : ∀ d ∈ n.children, d.span.stop ≠ offset) :
    n.childAt? offset = none := by
  unfold childAt?
  rw [lastWith?_eq_none fun d hd => by simpa using hNone d hd,
    lastWith?_eq_none fun d hd => by simpa using hStop d hd]
  rfl

theorem descend_of_some
    (h : n.childAt? offset = some c) :
    n.descend offset = c :: c.descend offset := by
  rw [descend]
  split
  · next hNone =>
      rw [h] at hNone
      cases hNone
  · next d hSome =>
      rw [h] at hSome
      cases hSome
      rfl

theorem descend_of_none
    (h : n.childAt? offset = none) :
    n.descend offset = [] := by
  rw [descend]
  split
  · rfl
  · next d hSome =>
      rw [h] at hSome
      cases hSome

/- The descent goes from parents to children. -/
theorem isChain_descend
    (n : Node)
    (offset : Int) :
    List.IsChain HasChild (n :: n.descend offset) := by
  cases hChild : n.childAt? offset with
  | none =>
      rw [descend_of_none hChild]
      exact List.isChain_singleton n
  | some c =>
      have hc := childAt?_mem hChild
      rw [descend_of_some hChild]
      exact List.isChain_cons_cons.mpr
        ⟨hc, isChain_descend c offset⟩
termination_by sizeOf n
decreasing_by
  exact sizeOf_lt_of_mem_children hc

------------------------------------------------------------
-- Spans Below a Node
------------------------------------------------------------

variable {root m : Node}

theorem Nested.child
    (h : root.Nested)
    (hc : c ∈ root.children) :
    c.Nested :=
  fun m hm => h m (Relation.ReflTransGen.head hc hm)

theorem Nested.tidy
    (h : root.Nested) :
    root.Tidy :=
  h root Relation.ReflTransGen.refl

/- What is below a node lies inside it. -/
theorem Nested.span_le
    (h : root.Nested)
    (hm : root.Holds m) :
    root.span.start ≤ m.span.start ∧
      m.span.stop ≤ root.span.stop := by
  induction hm with
  | refl => exact ⟨Int.le_refl _, Int.le_refl _⟩
  | tail hHolds hChild ih =>
      have hInside := (h _ hHolds).inside _ hChild
      omega

/- Nothing below a node is empty. -/
theorem Nested.proper
    (h : root.Nested)
    (hm : root.Above m) :
    m.span.start < m.span.stop := by
  rcases Relation.TransGen.tail'_iff.mp hm with
    ⟨parent, hHolds, hChild⟩
  exact (h _ hHolds).proper _ hChild

/- What is below a node is one of its children or below. -/
theorem Above.exists_child
    (h : root.Above m) :
    ∃ c ∈ root.children, c.Holds m :=
  Relation.TransGen.head'_iff.mp h

/- The nodes of a path are below its start. -/
theorem above_of_isChain
    {path : List Node}
    (h : List.IsChain HasChild (root :: path))
    (hm : m ∈ path) :
    root.Above m := by
  induction path generalizing root with
  | nil => cases hm
  | cons c path ih =>
      rcases List.isChain_cons_cons.mp h with ⟨hc, hPath⟩
      rcases List.mem_cons.mp hm with rfl | hm
      · exact Relation.TransGen.single hc
      · exact Relation.TransGen.head hc (ih hPath hm)

/- A chain that goes from a node down to others. -/
structure Leads
    (root : Node)
    (chain : Chain) : Prop where
  head : chain.head? = some root
  linked : List.IsChain HasChild chain

/- All its nodes are in the tree. -/
theorem Leads.holds
    {chain : Chain}
    (h : root.Leads chain)
    (hm : m ∈ chain) :
    root.Holds m := by
  cases chain with
  | nil => cases hm
  | cons n path =>
      cases h.head
      rcases List.mem_cons.mp hm with rfl | hm
      · exact Relation.ReflTransGen.refl
      · exact (above_of_isChain h.linked hm).to_reflTransGen

------------------------------------------------------------
-- The Two Paths
------------------------------------------------------------

variable {q : Span → Bool}

/-
  A property of spans that a child has as soon as something
  in it has it.
-/
def Rises
    (q : Span → Bool)
    (root : Node) : Prop :=
  ∀ c ∈ root.children, ∀ n, c.Holds n →
    q n.span = true → q c.span = true

theorem rises_contains
    (h : root.Nested)
    (offset : Int) :
    Rises (fun span => span.Contains offset) root := by
  intro c hc n hHolds hInside
  rw [decide_eq_true_eq] at hInside ⊢
  have hSpan := (h.child hc).span_le hHolds
  exact ⟨Int.le_trans hSpan.1 hInside.1,
    Int.lt_of_lt_of_le hInside.2 hSpan.2⟩

/- A child that something ends in contains it, or ends too. -/
theorem rises_stop
    (h : root.Nested)
    (hNone : ∀ c ∈ root.children, ¬ c.span.Contains offset) :
    Rises (fun span => span.stop = offset) root := by
  intro c hc n hHolds hStop
  rw [decide_eq_true_eq] at hStop ⊢
  have hSpan := (h.child hc).span_le hHolds
  have hProper :=
    h.proper (Relation.TransGen.head' hc hHolds)
  have hOutside := hNone c hc
  by_contra hNe
  exact hOutside ⟨by omega, by omega⟩

/- Nodes with such a property are in the child that has it. -/
theorem Rises.mem_path
    {path : List Node}
    (hRises : Rises q root)
    (hApart : Apart root.children)
    (hq : Exclusive q)
    (hc : c ∈ root.children)
    (hqc : q c.span = true)
    (hPath : List.IsChain HasChild (c :: path))
    (hIff :
      ∀ n, c.Above n → (q n.span = true ↔ n ∈ path))
    (hm : root.Above m) :
    q m.span = true ↔ m ∈ c :: path := by
  constructor
  · intro hqm
    rcases hm.exists_child with ⟨d, hd, hHolds⟩
    have hSame : d = c :=
      hApart.eq_of_exclusive hq hd hc
        (hRises d hd m hHolds hqm) hqc
    subst hSame
    rcases Relation.reflTransGen_iff_eq_or_transGen.mp
        hHolds with rfl | hAbove
    · exact List.mem_cons_self
    · exact List.mem_cons_of_mem _ ((hIff m hAbove).mp hqm)
  · intro hMem
    rcases List.mem_cons.mp hMem with rfl | hMem
    · exact hqc
    · have hAbove := above_of_isChain hPath hMem
      exact (hIff m hAbove).mpr hMem

/- If no child has the property, nothing below has it. -/
theorem Rises.not_mem
    (hRises : Rises q root)
    (hNone : ∀ c ∈ root.children, q c.span = false)
    (hm : root.Above m) :
    q m.span = false := by
  rcases hm.exists_child with ⟨c, hc, hHolds⟩
  cases hqm : q m.span with
  | false => rfl
  | true =>
      have hqc := hRises c hc m hHolds hqm
      rw [hNone c hc] at hqc
      cases hqc

/-
  The nodes below a node that contain an offset form a path,
  and the descent starts with it. The recursion is on the
  tree: it goes on in the child that contains the offset.
-/
theorem exists_containing_path
    (root : Node)
    (hNested : root.Nested)
    (offset : Int) :
    ∃ path,
      List.IsChain HasChild (root :: path) ∧
        (∀ n, root.Above n →
          (n.span.Contains offset ↔ n ∈ path)) ∧
        (path.getLastD root).Nested ∧
        (∀ c ∈ (path.getLastD root).children,
          ¬ c.span.Contains offset) ∧
        root.descend offset =
          path ++ (path.getLastD root).descend offset := by
  have hRises := rises_contains hNested offset
  have hApart := hNested.tidy.apart
  by_cases hChild :
      ∃ c ∈ root.children, c.span.Contains offset
  · rcases hChild with ⟨c, hc, hContains⟩
    rcases exists_containing_path c (hNested.child hc)
        offset with
      ⟨path, hPath, hIff, hLast, hNone, hDescend⟩
    have hEnd : (c :: path).getLastD root = path.getLastD c :=
      List.getLastD_cons
    refine ⟨c :: path, List.isChain_cons_cons.mpr ⟨hc, hPath⟩,
      ?_, hEnd ▸ hLast, hEnd ▸ hNone, ?_⟩
    · intro n hn
      have hMem := hRises.mem_path hApart
        (exclusive_contains offset) hc
        (by simpa using hContains) hPath
        (by simpa using hIff) hn
      simpa using hMem
    · rw [descend_of_some
        (hApart.childAt?_contains hc hContains), hDescend,
        hEnd, List.cons_append]
  · have hNone :
        ∀ c ∈ root.children, ¬ c.span.Contains offset :=
      fun c hc hContains => hChild ⟨c, hc, hContains⟩
    refine ⟨[], List.isChain_singleton root, ?_, hNested,
      hNone, rfl⟩
    intro n hn
    have hNot := hRises.not_mem (by simpa using hNone) hn
    simpa using hNot
termination_by sizeOf root
decreasing_by
  exact sizeOf_lt_of_mem_children hc

/-
  Where no child contains an offset, the nodes below that end
  at it form a path, and the descent is this path.
-/
theorem exists_touching_path
    (root : Node)
    (hNested : root.Nested)
    (offset : Int)
    (hNone : ∀ c ∈ root.children, ¬ c.span.Contains offset) :
    ∃ path,
      List.IsChain HasChild (root :: path) ∧
        (∀ n, root.Above n →
          (n.span.stop = offset ↔ n ∈ path)) ∧
        root.descend offset = path := by
  have hRises := rises_stop hNested hNone
  have hApart := hNested.tidy.apart
  by_cases hChild : ∃ c ∈ root.children, c.span.stop = offset
  · rcases hChild with ⟨c, hc, hStop⟩
    have hBelow :
        ∀ d ∈ c.children, ¬ d.span.Contains offset := by
      intro d hd hContains
      have hInside := (hNested.child hc).tidy.inside d hd
      have hLess := hContains.2
      omega
    rcases exists_touching_path c (hNested.child hc) offset
        hBelow with
      ⟨path, hPath, hIff, hDescend⟩
    refine ⟨c :: path, List.isChain_cons_cons.mpr ⟨hc, hPath⟩,
      ?_, ?_⟩
    · intro n hn
      have hMem := hRises.mem_path hApart
        (exclusive_stop offset) hc (by simpa using hStop)
        hPath (by simpa using hIff) hn
      simpa using hMem
    · rw [descend_of_some
        (hApart.childAt?_stop hNone hc hStop), hDescend]
  · have hStop : ∀ c ∈ root.children, c.span.stop ≠ offset :=
      fun c hc hEnd => hChild ⟨c, hc, hEnd⟩
    refine ⟨[], List.isChain_singleton root, ?_,
      descend_of_none (childAt?_eq_none hNone hStop)⟩
    intro n hn
    have hNot := hRises.not_mem (by simpa using hStop) hn
    simpa using hNot
termination_by sizeOf root
decreasing_by
  exact sizeOf_lt_of_mem_children hc

------------------------------------------------------------
-- The Order of Children
------------------------------------------------------------

/-
  Two trees that differ only in the order of children, at any
  of their nodes.
-/
inductive Rearranged :
    Node → Node → Prop where
  | intro
      {n m : Node} {cs : List Node}
      (hSame : m = { n with children := m.children })
      (hChildren : List.Forall₂ Rearranged n.children cs)
      (hOrder : cs.Perm m.children) :
      Rearranged n m

theorem Rearranged.span_eq
    (h : Rearranged n m) :
    m.span = n.span := by
  cases h with
  | intro hSame _ _ => rw [hSame]

theorem Rearranged.kind_eq
    (h : Rearranged n m) :
    m.kind = n.kind := by
  cases h with
  | intro hSame _ _ => rw [hSame]

variable {ns ms : List Node}

theorem map_span_rearranged
    (h : List.Forall₂ Rearranged ns ms) :
    ms.map Node.span = ns.map Node.span := by
  induction h with
  | nil => rfl
  | cons hHead hTail ih =>
      rw [List.map_cons, List.map_cons, hHead.span_eq, ih]

/- Whether nodes stand apart is a matter of their spans. -/
theorem Apart.of_map_span
    (h : Apart ns)
    (hSpans : ms.map Node.span = ns.map Node.span) :
    Apart ms := by
  constructor
  · intro c hc
    have hMem : c.span ∈ ns.map Node.span := by
      rw [← hSpans]
      exact List.mem_map_of_mem hc
    rcases List.mem_map.mp hMem with ⟨d, hd, hSpan⟩
    rw [← hSpan]
    exact h.proper d hd
  · have hOrder :
        (ns.map Node.span).Pairwise fun a b =>
          a.stop ≤ b.start :=
      List.pairwise_map.mpr h.ordered
    rw [← hSpans] at hOrder
    exact List.pairwise_map.mp hOrder

/- The order does not matter where only one can be found. -/
theorem Apart.lastWith?_perm
    (h : Apart ns)
    (hq : Exclusive q)
    (hOrder : ns.Perm ms) :
    lastWith? (fun c => q c.span) ms =
      lastWith? (fun c => q c.span) ns := by
  cases hFind : lastWith? (fun c => q c.span) ms with
  | none =>
      symm
      apply lastWith?_eq_none
      intro c hc
      have hNone := List.find?_eq_none.mp hFind c
        (List.mem_reverse.mpr (hOrder.mem_iff.mp hc))
      simpa using hNone
  | some c =>
      have hc := lastWith?_mem hFind
      have hqc : q c.span = true :=
        List.find?_some (p := fun c : Node => q c.span) hFind
      exact (h.lastWith?_eq hq (hOrder.mem_iff.mpr hc)
        hqc).symm

theorem find?_rearranged
    (h : List.Forall₂ Rearranged ns ms) :
    Option.Rel Rearranged
      (ns.find? fun c => q c.span)
      (ms.find? fun c => q c.span) := by
  induction h with
  | nil => exact .none
  | @cons a b as bs hHead hTail ih =>
      rw [List.find?_cons, List.find?_cons, hHead.span_eq]
      cases q a.span with
      | true => exact .some hHead
      | false => exact ih

theorem Apart.lastWith?_rearranged
    {cs : List Node}
    (h : Apart ns)
    (hq : Exclusive q)
    (hChildren : List.Forall₂ Rearranged ns cs)
    (hOrder : cs.Perm ms) :
    Option.Rel Rearranged
      (lastWith? (fun c => q c.span) ns)
      (lastWith? (fun c => q c.span) ms) := by
  have hApart :=
    h.of_map_span (map_span_rearranged hChildren)
  rw [hApart.lastWith?_perm hq hOrder]
  exact find?_rearranged
    (List.forall₂_reverse_iff.mpr hChildren)

theorem rel_or
    {x y x' y' : Option Node}
    (hFirst : Option.Rel Rearranged x x')
    (hSecond : Option.Rel Rearranged y y') :
    Option.Rel Rearranged (x.or y) (x'.or y') := by
  cases hFirst with
  | none => exact hSecond
  | some hRel => exact .some hRel

/- The descent enters the same child in both trees. -/
theorem Tidy.childAt?_rearranged
    (hTidy : n.Tidy)
    (h : Rearranged n m)
    (offset : Int) :
    Option.Rel Rearranged (n.childAt? offset)
      (m.childAt? offset) := by
  cases h with
  | intro _ hChildren hOrder =>
      exact rel_or
        (hTidy.apart.lastWith?_rearranged
          (exclusive_contains offset) hChildren hOrder)
        (hTidy.apart.lastWith?_rearranged
          (exclusive_stop offset) hChildren hOrder)

/- Hence it takes the same way. -/
theorem descend_rearranged
    (n m : Node)
    (hNested : n.Nested)
    (h : Rearranged n m)
    (offset : Int) :
    List.Forall₂ Rearranged (n.descend offset)
      (m.descend offset) := by
  have hChild := hNested.tidy.childAt?_rearranged h offset
  cases hn : n.childAt? offset with
  | none =>
      cases hm : m.childAt? offset with
      | none =>
          rw [descend_of_none hn, descend_of_none hm]
          exact .nil
      | some d =>
          rw [hn, hm] at hChild
          cases hChild
  | some c =>
      cases hm : m.childAt? offset with
      | none =>
          rw [hn, hm] at hChild
          cases hChild
      | some d =>
          rw [hn, hm] at hChild
          cases hChild with
          | some hRel =>
              have hc := childAt?_mem hn
              rw [descend_of_some hn, descend_of_some hm]
              exact .cons hRel
                (descend_rearranged c d (hNested.child hc)
                  hRel offset)
termination_by sizeOf n
decreasing_by
  exact sizeOf_lt_of_mem_children hc

end Node

------------------------------------------------------------
-- Chains
------------------------------------------------------------

namespace Chain

/- Two selection sets do not follow one another. -/
def Alternates
    (path : List Node) : Prop :=
  List.IsChain
    (fun a b : Node =>
      a.kind = .selectionSet → b.kind ≠ .selectionSet) path

/- A path without a selection set at its end. -/
def trimmed
    (path : List Node) : List Node :=
  if path.getLast?.map Node.kind = some .selectionSet then
    path.dropLast
  else
    path

/- In such a path at most one node is left out. -/
theorem dropSelectionSets_eq
    (root : Node)
    {path : List Node}
    (h : Alternates path) :
    dropSelectionSets (root :: path) =
      root :: trimmed path := by
  unfold dropSelectionSets trimmed
  rcases List.eq_nil_or_concat' path with rfl | ⟨init, x, rfl⟩
  · rfl
  · by_cases hLast : x.kind = .selectionSet
    · rcases List.eq_nil_or_concat' init with
        rfl | ⟨before, y, rfl⟩
      · simp [hLast]
      · have hBefore : y.kind ≠ .selectionSet := by
          intro hKind
          have hNext := (List.isChain_append.mp h).2.2 y
            (by simp) x (by simp)
          exact hNext hKind hLast
        simp [hLast, hBefore]
    · simp [hLast]

/- A trimmed path lacks at most its last node. -/
theorem trimmed_append
    (path : List Node) :
    ∃ rest, path = trimmed path ++ rest ∧
      rest.length ≤ 1 := by
  unfold trimmed
  split_ifs with hLast
  · rcases List.eq_nil_or_concat' path with
      rfl | ⟨init, x, rfl⟩
    · simp at hLast
    · exact ⟨[x], by simp, by simp⟩
  · exact ⟨[], by simp, by simp⟩

/- No chain ends on a selection set, unless it is the root. -/
theorem getLast?_dropSelectionSets
    {root n : Node}
    (hRoot : root.kind ≠ .selectionSet)
    {path : List Node}
    (h : (dropSelectionSets (root :: path)).getLast? = some n) :
    n.kind ≠ .selectionSet := by
  unfold dropSelectionSets at h
  have hFirst := List.head?_dropWhile_not
    (fun n : Node => decide (n.kind = .selectionSet))
    path.reverse
  rw [List.getLast?_cons, List.getLast?_reverse] at h
  cases hHead :
      (path.reverse.dropWhile fun n =>
        decide (n.kind = .selectionSet)).head? with
  | none =>
      rw [hHead] at h
      cases h
      exact hRoot
  | some m =>
      rw [hHead] at h hFirst
      cases h
      simpa using hFirst

theorem dropWhile_rel
    {r : Node → Node → Prop}
    (hKinds : ∀ n m, r n m → m.kind = n.kind)
    {ns ms : List Node}
    (h : List.Forall₂ r ns ms) :
    List.Forall₂ r
      (ns.dropWhile fun n => n.kind = .selectionSet)
      (ms.dropWhile fun n => n.kind = .selectionSet) := by
  induction h with
  | nil => exact .nil
  | cons hHead hTail ih =>
      rw [List.dropWhile_cons, List.dropWhile_cons,
        hKinds _ _ hHead]
      split_ifs with hKind
      · exact ih
      · exact .cons hHead hTail

/- What is left out is a matter of kinds. -/
theorem resolve_rel
    {r : Node → Node → Prop}
    (hKinds : ∀ n m, r n m → m.kind = n.kind)
    {root root' : Node}
    {offset offset' : Int}
    (hRoot : r root root')
    (hDescend :
      List.Forall₂ r (root.descend offset)
        (root'.descend offset')) :
    List.Forall₂ r (resolve root offset)
      (resolve root' offset') := by
  have hKept := dropWhile_rel hKinds
    (List.forall₂_reverse_iff.mpr hDescend)
  exact .cons hRoot (List.forall₂_reverse_iff.mpr hKept)

/- A chain is what the descent starts with. -/
theorem resolve_isInitial
    (root : Node)
    (offset : Int) :
    resolve root offset <+: root :: root.descend offset := by
  have hKept :=
    (List.dropWhile_suffix
      (l := (root.descend offset).reverse)
      fun n : Node => decide (n.kind = .selectionSet)).reverse
  rw [List.reverse_reverse] at hKept
  exact List.cons_prefix_cons.mpr ⟨rfl, hKept⟩

/- The chain at an offset leads down from the root. -/
theorem leads_resolve
    (root : Node)
    (offset : Int) :
    root.Leads (resolve root offset) := by
  rcases resolve_isInitial root offset with ⟨rest, hRest⟩
  have hDescend := Node.isChain_descend root offset
  rw [← hRest] at hDescend
  exact ⟨rfl, hDescend.left_of_append⟩

/- The order of children does not change the chain. -/
theorem resolve_rearranged
    {root root' : Node}
    (hNested : root.Nested)
    (h : root.Rearranged root')
    (offset : Int) :
    List.Forall₂ Node.Rearranged (resolve root offset)
      (resolve root' offset) :=
  resolve_rel (fun _ _ hRel => hRel.kind_eq) h
    (Node.descend_rearranged root root' hNested h offset)

/- A path down a well kinded tree. -/
theorem alternates_of_isChain
    {root : Node}
    {path : List Node}
    (hKinds : root.WellKinded)
    (h : List.IsChain Node.HasChild (root :: path)) :
    Alternates (root :: path) := by
  induction path generalizing root with
  | nil => exact List.isChain_singleton root
  | cons c path ih =>
      rcases List.isChain_cons_cons.mp h with ⟨hc, hPath⟩
      refine List.isChain_cons_cons.mpr
        ⟨?_, ih (hKinds.child hc) hPath⟩
      intro hRoot hChild
      have hMem :=
        hKinds root Relation.ReflTransGen.refl c hc
      rw [hRoot, hChild] at hMem
      exact absurd hMem (by decide)

/-
  The chain at an offset, inside the text or not. The nodes
  below the root that contain the offset form a path, and so
  do those that end at it below the last of these. The chain
  is the root and these two paths, without a selection set at
  the end. At no node do two children contain the offset, or
  two end at it, so their order does not matter.
-/
theorem resolve_innermost
    {text : List Char}
    {root : Node}
    (h : Document.parse text = .ok root)
    (offset : Int) :
    (∃ path rest : List Node,
      List.IsChain Node.HasChild (root :: path) ∧
        (∀ n, root.Above n →
          (n.span.Contains offset ↔ n ∈ path)) ∧
        List.IsChain Node.HasChild
          (path.getLastD root :: rest) ∧
        (∀ n, (path.getLastD root).Above n →
          (n.span.stop = offset ↔ n ∈ rest)) ∧
        resolve root offset = root :: trimmed (path ++ rest) ∧
        path.length + rest.length ≤
          (resolve root offset).length) ∧
      (resolve root offset).head? = some root ∧
      List.IsChain Node.HasChild (resolve root offset) ∧
      (∀ n, (resolve root offset).getLast? = some n →
        n.kind ≠ .selectionSet) ∧
      (∀ n, root.Holds n →
        (n.children.filter fun c =>
            c.span.Contains offset).length ≤ 1 ∧
          (n.children.filter fun c =>
            c.span.stop = offset).length ≤ 1) ∧
      ∀ root', root.Rearranged root' →
        List.Forall₂ Node.Rearranged (resolve root offset)
          (resolve root' offset) := by
  have hNested := Document.parse_nested h
  have hKinds := Document.parse_wellKinded h
  rcases Document.parse_spells h with ⟨hKind, _, _⟩
  rcases Node.exists_containing_path root hNested offset with
    ⟨path, hPath, hContains, hLast, hNone, hFirst⟩
  rcases Node.exists_touching_path _ hLast offset hNone with
    ⟨rest, hRest, hStops, hSecond⟩
  have hDescend : root.descend offset = path ++ rest := by
    rw [hFirst, hSecond]
  have hChain :
      List.IsChain Node.HasChild (root :: (path ++ rest)) := by
    rw [← hDescend]
    exact Node.isChain_descend root offset
  have hAlternates : Alternates (path ++ rest) :=
    (alternates_of_isChain hKinds hChain).tail
  have hResolve :
      resolve root offset = root :: trimmed (path ++ rest) := by
    unfold resolve
    rw [hDescend, dropSelectionSets_eq root hAlternates]
  rcases trimmed_append (path ++ rest) with
    ⟨dropped, hDropped, hLength⟩
  refine ⟨⟨path, rest, hPath, hContains, hRest, hStops,
    hResolve, ?_⟩, ?_, ?_, ?_, ?_, ?_⟩
  · have hTotal := congrArg List.length hDropped
    simp only [List.length_append] at hTotal
    rw [hResolve, List.length_cons]
    omega
  · rw [hResolve]
    rfl
  · rw [hDropped, ← List.cons_append] at hChain
    rw [hResolve]
    exact hChain.left_of_append
  · intro n hn
    apply getLast?_dropSelectionSets _ hn
    rw [hKind]
    decide
  · intro n hn
    have hApart := (hNested n hn).apart
    exact
      ⟨hApart.length_filter_le
          (Node.exclusive_contains offset),
        hApart.length_filter_le (Node.exclusive_stop offset)⟩
  · intro root' hRoot
    exact resolve_rearranged hNested hRoot offset

theorem resolve_innermost_field :
    ∃ root,
      Document.parse "\x7ba\x7bb\x7d\x7d".toList = .ok root ∧
        (resolve root 5).map Node.kind =
          [.document, .operationDefinition, .selectionSet,
            .field] ∧
        List.IsChain Node.HasChild (resolve root 5) ∧
        List.IsChain Node.HasChild (resolve root (-1)) := by
  have hAdmitted :
      (Document.parse
        "\x7ba\x7bb\x7d\x7d".toList).toBool = true := by
    decide +kernel
  rcases Document.exists_root hAdmitted with ⟨root, h⟩
  have hKinds :
      (Document.parse "\x7ba\x7bb\x7d\x7d".toList).toOption.map
          (fun n => (resolve n 5).map Node.kind) =
        some [.document, .operationDefinition, .selectionSet,
          .field] := by
    decide +kernel
  rw [h] at hKinds
  exact ⟨root, h, Option.some.inj hKinds,
    (resolve_innermost h 5).2.2.1,
    (resolve_innermost h (-1)).2.2.1⟩

end Chain

end QueryHover
