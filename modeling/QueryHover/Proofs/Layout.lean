import QueryHover.Proofs.Erasure
import QueryHover.Proofs.Innermost
import QueryHover.Proofs.Lockstep

/-
  Hovers do not depend on the layout of a text.

  All offsets of a token that says something lead to the same
  chain: down to the node whose own token it is. Texts with
  the same words have the same chains there but for places,
  and so the same hovers.

  Main declarations:
    * `Node.Tiling.place`
    * `Node.PointsAt`
    * `Node.descend_twin`
    * `Chain.resolve_layout`
-/

namespace QueryHover

open TokenStream (Alike Paired)

namespace Node

------------------------------------------------------------
-- The Place of a Token
------------------------------------------------------------

/-
  A token is part of a child, or all children are before it or
  after it. In that case, if the token says something, no
  child ends right before it. The induction is over the
  tiling; the last part tells the same of a child that ended
  before these tokens.
-/
theorem Tiling.place
    {before after : Bool}
    {ts : List Token}
    {ns : List Node}
    (h : Tiling before ts ns after)
    {lo hi : Nat}
    (hTokens : Token.Between lo hi ts)
    {t : Token}
    (ht : t ∈ ts) :
    (∃ c ∈ ns, ∃ us,
        us <:+: ts ∧ c.MadeOf us ∧ t ∈ us) ∨
      ((∀ c ∈ ns, c.span.stop ≤ t.start ∨
          (t.stop : Int) ≤ c.span.start) ∧
        (t.kind ∈ Token.Kind.targets →
          (∀ c ∈ ns, c.span.stop ≠ t.start) ∧
            (before = true → lo < t.start))) := by
  induction h generalizing lo with
  | nil => cases ht
  | own hOwn hRest ih =>
      have hStart := hTokens.1
      have hStop := hTokens.2.1
      rcases List.mem_cons.mp ht with rfl | ht
      · have hBounds := (hRest.ordered hTokens.2.2).1
        right
        refine ⟨?_, ?_⟩
        · intro c hc
          exact .inr (hBounds c hc).1
        · intro hTarget
          refine ⟨?_, ?_⟩
          · intro c hc
            have hChild := hBounds c hc
            omega
          · intro hBefore
            exact absurd hTarget (hOwn hBefore)
      · have hLater := (hTokens.2.2.bounds ht).1
        rcases ih hTokens.2.2 ht with
          ⟨c, hc, us, hUs, hMade⟩ | ⟨hApart, hGap⟩
        · exact .inl ⟨c, hc, us,
            hUs.trans (List.suffix_cons _ _).isInfix, hMade⟩
        · refine .inr ⟨hApart, ?_⟩
          intro hTarget
          refine ⟨(hGap hTarget).1, ?_⟩
          intro _
          omega
  | child hSome hSpan hName hInside hRest _ ih =>
      rename_i n us ts ns _
      rcases hTokens.divide_extent hSome with
        ⟨a, _, b, _, hExtent, hLow, hLess, _, hAfter⟩
      rw [hExtent] at hSpan
      rcases List.mem_append.mp ht with ht | ht
      · exact .inl ⟨n, List.mem_cons_self, us,
          (List.prefix_append _ _).isInfix,
          ⟨hSome, hSpan.trans hExtent.symm, hName, _,
            hInside⟩, ht⟩
      · have hLater := (hAfter.bounds ht).1
        rcases ih hAfter ht with
          ⟨c, hc, vs, hVs, hMade⟩ | ⟨hApart, hGap⟩
        · exact .inl ⟨c, List.mem_cons_of_mem _ hc, vs,
            hVs.trans (List.suffix_append _ _).isInfix, hMade⟩
        · right
          refine ⟨?_, ?_⟩
          · intro c hc
            rcases List.mem_cons.mp hc with rfl | hc
            · rw [hSpan]
              exact .inl (Int.ofNat_le.mpr hLater)
            · exact hApart c hc
          · intro hTarget
            have hGap' := (hGap hTarget).2 rfl
            refine ⟨?_, fun _ => by omega⟩
            intro c hc
            rcases List.mem_cons.mp hc with rfl | hc
            · rw [hSpan]
              dsimp only
              omega
            · exact (hGap hTarget).1 c hc

/- Nodes that share tokens in order stand apart. -/
theorem Tiling.apart
    {before after : Bool}
    {ts : List Token}
    {ns : List Node}
    (h : Tiling before ts ns after)
    {lo hi : Nat}
    (hTokens : Token.Between lo hi ts) :
    Apart ns := by
  rcases h.ordered hTokens with ⟨hBounds, hOrder⟩
  exact ⟨fun c hc => (hBounds c hc).2.1, hOrder⟩

/- A node whose span holds a whole token. -/
def Covers
    (n : Node)
    (t : Token) : Prop :=
  n.span.start ≤ t.start ∧ (t.stop : Int) ≤ n.span.stop

/- A node made of some tokens covers each of them. -/
theorem MadeOf.covers
    {n : Node}
    {ts : List Token}
    (h : n.MadeOf ts)
    {lo hi : Nat}
    (hTokens : Token.Between lo hi ts)
    {t : Token}
    (ht : t ∈ ts) :
    n.Covers t := by
  rcases h.ends hTokens with ⟨a, _, b, _, hSpan, _, hTight⟩
  have hBounds := hTight.bounds ht
  rw [Covers, hSpan]
  dsimp only
  omega

/- Only one of some nodes that stand apart covers a token. -/
theorem Apart.eq_of_covers
    {ns : List Node}
    (h : Apart ns)
    {c d : Node}
    {t : Token}
    (ht : t.start < t.stop)
    (hc : c ∈ ns)
    (hd : d ∈ ns)
    (hCovers : c.Covers t)
    (hCovers' : d.Covers t) :
    c = d := by
  rcases hCovers with ⟨hStart, hStop⟩
  rcases hCovers' with ⟨hStart', hStop'⟩
  rcases h.order hc hd with hSame | hOrder | hOrder
  · exact hSame
  · omega
  · omega

------------------------------------------------------------
-- One Step Towards a Token
------------------------------------------------------------

/-
  An offset within a token, or right after it where no node
  of a tree starts.
-/
def PointsAt
    (root : Node)
    (t : Token)
    (offset : Int) : Prop :=
  ((t.start : Int) ≤ offset ∧ offset < t.stop) ∨
    (offset = t.stop ∧
      ∀ n, root.Holds n → n.span.start ≠ offset)

variable {n c : Node}
variable {t : Token}
variable {offset : Int}

theorem PointsAt.child
    (h : n.PointsAt t offset)
    (hc : c ∈ n.children) :
    c.PointsAt t offset := by
  rcases h with hInside | ⟨hEdge, hStarts⟩
  · exact .inl hInside
  · exact .inr ⟨hEdge, fun m hm =>
      hStarts m (Relation.ReflTransGen.head hc hm)⟩

/- The child that covers the token is entered. -/
theorem childAt?_of_covers
    (hApart : Apart n.children)
    (hPoints : n.PointsAt t offset)
    (ht : t.start < t.stop)
    (hc : c ∈ n.children)
    (hCovers : c.Covers t) :
    n.childAt? offset = some c := by
  rcases hCovers with ⟨hStart, hStop⟩
  rcases hPoints with ⟨hLow, hHigh⟩ | ⟨hEdge, hStarts⟩
  · exact hApart.childAt?_contains hc
      ⟨by omega, by omega⟩
  · by_cases hLess : offset < c.span.stop
    · exact hApart.childAt?_contains hc ⟨by omega, hLess⟩
    · have hNone :
          ∀ d ∈ n.children, ¬ d.span.Contains offset := by
        rintro d hd ⟨hLow, hHigh⟩
        have hNe := hStarts d (Relation.ReflTransGen.single hd)
        rcases hApart.order hc hd with rfl | hOrder | hOrder
        · exact hLess hHigh
        · omega
        · omega
      exact hApart.childAt?_stop hNone hc (by omega)

/- Where no child covers the token, the descent ends. -/
theorem childAt?_of_own
    (hApart : Apart n.children)
    (hPoints : n.PointsAt t offset)
    (ht : t.start < t.stop)
    (hOutside :
      ∀ d ∈ n.children, d.span.stop ≤ t.start ∨
        (t.stop : Int) ≤ d.span.start)
    (hGap : ∀ d ∈ n.children, d.span.stop ≠ t.start) :
    n.childAt? offset = none := by
  apply childAt?_eq_none
  · rintro d hd ⟨hLow, hHigh⟩
    rcases hPoints with ⟨hFrom, hTo⟩ | ⟨hEdge, hStarts⟩
    · rcases hOutside d hd with hOrder | hOrder
      · omega
      · omega
    · have hNe := hStarts d (Relation.ReflTransGen.single hd)
      rcases hOutside d hd with hOrder | hOrder
      · omega
      · omega
  · intro d hd hStop
    have hProper := hApart.proper d hd
    have hNe := hGap d hd
    rcases hPoints with ⟨hFrom, hTo⟩ | ⟨hEdge, _⟩
    · rcases hOutside d hd with hOrder | hOrder
      · omega
      · omega
    · rcases hOutside d hd with hOrder | hOrder
      · omega
      · omega

/-
  The descent goes on in the child that the token is part of.
  It ends where the token is the node's own.
-/
theorem Tiling.childAt?_cases
    {ts : List Token}
    {after : Bool}
    (h : Tiling false ts n.children after)
    {lo hi : Nat}
    (hTokens : Token.Between lo hi ts)
    (ht : t ∈ ts)
    (hTarget : t.kind ∈ Token.Kind.targets)
    (hPoints : n.PointsAt t offset) :
    (∃ c ∈ n.children, n.childAt? offset = some c ∧
        c.Covers t ∧
        ∃ us lo hi, c.MadeOf us ∧ Token.Between lo hi us ∧
          t ∈ us) ∨
      (n.childAt? offset = none ∧
        ∀ c ∈ n.children, ¬ c.Covers t) := by
  have hApart := h.apart hTokens
  have hProper := (hTokens.bounds ht).2.1
  rcases h.place hTokens ht with
    ⟨c, hc, us, hUs, hMade, hMem⟩ | ⟨hOutside, hGap⟩
  · rcases hTokens.part hUs with ⟨lo', hi', _, _, hPart⟩
    have hCovers := hMade.covers hPart hMem
    exact .inl ⟨c, hc,
      childAt?_of_covers hApart hPoints hProper hc hCovers,
      hCovers, us, lo', hi', hMade, hPart, hMem⟩
  · refine .inr ⟨childAt?_of_own hApart hPoints hProper
      hOutside (hGap hTarget).1, ?_⟩
    rintro c hc ⟨hStart, hStop⟩
    rcases hOutside c hc with hOrder | hOrder
    · omega
    · omega

------------------------------------------------------------
-- Twins Side by Side
------------------------------------------------------------

variable {s s' : TokenStream}
variable {m d : Node}
variable {t' : Token}

theorem exists_related
    {r : Node → Node → Prop}
    {ns ms : List Node}
    (h : List.Forall₂ r ns ms)
    (hc : c ∈ ns) :
    ∃ d ∈ ms, r c d := by
  induction h with
  | nil => cases hc
  | @cons a b as bs hHead hTail ih =>
      rcases List.mem_cons.mp hc with rfl | hc
      · exact ⟨b, List.mem_cons_self, hHead⟩
      · rcases ih hc with ⟨d, hd, hRel⟩
        exact ⟨d, List.mem_cons_of_mem b hd, hRel⟩

/- Twins cover tokens with the same numbers. -/
theorem Twin.covers_iff
    (h : s.Alike s')
    (hTwin : Twin s s' c d)
    (hc : c.span.start < c.span.stop)
    (hPaired : Paired s s' t t') :
    c.Covers t ↔ d.Covers t' := by
  cases hTwin with
  | intro _ hSpan _ =>
      rcases hSpan with
        hEmpty | ⟨a, a', b, b', ha, hb, hFirst, hSecond⟩
      · omega
      · have hStart := (h.compare ha hPaired).1
        have hStop := (h.compare hPaired hb).2.2
        rw [Covers, Covers, hFirst, hSecond]
        dsimp only
        omega

/-
  At paired tokens the descents in two trees, whose children
  are twins, go through twins. The recursion is on the tree:
  either both tokens are part of a child, and the children are
  twins, or both belong to the node itself.
-/
theorem descend_twin
    (h : s.Alike s')
    (n m : Node)
    (hChildren :
      List.Forall₂ (Twin s s') n.children m.children)
    {ts ts' : List Token}
    {after after' : Bool}
    (hn : Tiling false ts n.children after)
    (hm : Tiling false ts' m.children after')
    {lo hi lo' hi' : Nat}
    (hTs : Token.Between lo hi ts)
    (hTs' : Token.Between lo' hi' ts')
    (ht : t ∈ ts)
    (ht' : t' ∈ ts')
    (hPaired : Paired s s' t t')
    (hTarget : t.kind ∈ Token.Kind.targets)
    {offset offset' : Int}
    (hPoints : n.PointsAt t offset)
    (hPoints' : m.PointsAt t' offset') :
    List.Forall₂ (Twin s s') (n.descend offset)
      (m.descend offset') := by
  have hApart := hn.apart hTs
  have hApart' := hm.apart hTs'
  have hTarget' : t'.kind ∈ Token.Kind.targets := by
    have hKind : t.kind = t'.kind :=
      congrArg Prod.fst (h.word_eq hPaired)
    rwa [← hKind]
  rcases hn.childAt?_cases hTs ht hTarget hPoints with
    ⟨c, hc, hChild, hCovers, us, _, _, hMade, hUs, hMem⟩ |
      ⟨hNone, hOwn⟩
  · rcases exists_related hChildren hc with ⟨d, hd, hTwin⟩
    have hCovers' :=
      (hTwin.covers_iff h (hApart.proper c hc) hPaired).mp
        hCovers
    rcases hm.childAt?_cases hTs' ht' hTarget' hPoints' with
      ⟨e, he, hChild', hCovers'', us', _, _, hMade', hUs',
        hMem'⟩ | ⟨_, hOwn'⟩
    · have hSame : e = d :=
        hApart'.eq_of_covers (hTs'.bounds ht').2.1 he hd
          hCovers'' hCovers'
      subst hSame
      rw [descend_of_some hChild, descend_of_some hChild']
      rcases hMade.inside with ⟨_, hInside⟩
      rcases hMade'.inside with ⟨_, hInside'⟩
      exact .cons hTwin
        (descend_twin h c e hTwin.children hInside hInside'
          hUs hUs' hMem hMem' hPaired hTarget
          (hPoints.child hc) (hPoints'.child he))
    · exact absurd hCovers' (hOwn' d hd)
  · rcases hm.childAt?_cases hTs' ht' hTarget' hPoints' with
      ⟨e, he, _, hCovers', _⟩ | ⟨hNone', _⟩
    · have hFlipped :
          List.Forall₂ (flip (Twin s s')) m.children
            n.children :=
        List.Forall₂.flip hChildren
      rcases exists_related hFlipped he with ⟨c, hc, hTwin⟩
      have hCovers :=
        (Twin.covers_iff h hTwin (hApart.proper c hc)
          hPaired).mpr hCovers'
      exact absurd hCovers (hOwn c hc)
    · rw [descend_of_none hNone, descend_of_none hNone']
      exact .nil
termination_by sizeOf n
decreasing_by
  exact sizeOf_lt_of_mem_children hc

theorem map_erase_eq
    {r : Node → Node → Prop}
    {ns ms : List Node}
    (h : List.Forall₂ r ns ms)
    (hErase : ∀ c ∈ ns, ∀ d, r c d → d.erase = c.erase) :
    ms.map erase = ns.map erase := by
  induction h with
  | nil => rfl
  | @cons a b as bs hHead hTail ih =>
      have hFirst := hErase a List.mem_cons_self b hHead
      have hRest := ih fun c hc =>
        hErase c (List.mem_cons_of_mem a hc)
      rw [List.map_cons, List.map_cons, hFirst, hRest]

/- Twins look alike when their places are erased. -/
theorem Twin.erase_eq
    (n m : Node)
    (h : Twin s s' n m) :
    m.erase = n.erase := by
  have hMap := map_erase_eq h.children
    fun c hc d hTwin => Twin.erase_eq c d hTwin
  cases h with
  | intro hSame _ _ =>
      exact erase_eq_iff.mpr
        ⟨hSame.1, hSame.2.1, hSame.2.2.1, hSame.2.2.2, hMap⟩
termination_by sizeOf n
decreasing_by
  exact sizeOf_lt_of_mem_children hc

theorem kind_eq_of_erase_eq
    (n m : Node)
    (h : m.erase = n.erase) :
    m.kind = n.kind :=
  (erase_eq_iff.mp h).1

end Node

------------------------------------------------------------
-- Documents with the Same Words
------------------------------------------------------------

namespace Document

variable {text text' : List Char}
variable {root root' : Node}

theorem tokens_alike
    (h : parse text = .ok root)
    (h' : parse text' = .ok root')
    (hWords :
      (tokens text).ahead.map Token.word =
        (tokens text').ahead.map Token.word) :
    (tokens text).Alike (tokens text') := by
  rcases last_of_parse h with ⟨hLast, hEnd, _⟩
  rcases last_of_parse h' with ⟨hLast', hEnd', _⟩
  refine ⟨hWords, hLast.trans hLast'.symm, ?_, ?_⟩
  · rw [hEnd]
    exact TokenStream.ofText_between "input" text
  · rw [hEnd']
    exact TokenStream.ofText_between "input" text'

/- Documents with the same words have the same tree. -/
theorem children_twins
    (h : parse text = .ok root)
    (h' : parse text' = .ok root')
    (hWords :
      (tokens text).ahead.map Token.word =
        (tokens text').ahead.map Token.word) :
    List.Forall₂ (Node.Twin (tokens text) (tokens text'))
      root.children root'.children := by
  have hAlike := tokens_alike h h' hWords
  rcases parse_eq_ok_iff.mp h with ⟨_, rfl⟩
  rcases parse_eq_ok_iff.mp h' with ⟨_, rfl⟩
  exact (Node.Reading.definitions_lock hAlike _ _
    ⟨⟨0, rfl, rfl⟩, ⟨rfl, rfl⟩, .inr ⟨rfl, rfl⟩⟩).1

end Document

namespace Chain

/-
  Hovers on a token. Take two texts, or the same one twice,
  whose tokens have the same kinds and values, and an offset
  of each that points at the token with a certain number. If
  the token is a name, a number, a string or a spread, then
  the chains differ in places only, and every schema finds
  the same entity and content for them.
-/
theorem resolve_layout
    {text text' : List Char}
    {root root' : Node}
    (h : Document.parse text = .ok root)
    (h' : Document.parse text' = .ok root')
    (hWords :
      (Document.tokens text).ahead.map Token.word =
        (Document.tokens text').ahead.map Token.word)
    {i : Nat}
    {t t' : Token}
    (ht : (Document.tokens text).ahead[i]? = some t)
    (ht' : (Document.tokens text').ahead[i]? = some t')
    (hTarget : t.kind ∈ Token.Kind.targets)
    {offset offset' : Int}
    (hPoints : root.PointsAt t offset)
    (hPoints' : root'.PointsAt t' offset') :
    (resolve root offset).map Node.erase =
        (resolve root' offset').map Node.erase ∧
      ∀ schema : Option Schema,
        annotate? schema (resolve root offset) =
            annotate? schema (resolve root' offset') ∧
          Entity.content
              (annotate? schema (resolve root offset)) =
            Entity.content
              (annotate? schema (resolve root' offset')) := by
  have hAlike := Document.tokens_alike h h' hWords
  have hChildren := Document.children_twins h h' hWords
  rcases Document.parse_tiling h with ⟨_, hTiling⟩
  rcases Document.parse_tiling h' with ⟨_, hTiling'⟩
  have hDescend := Node.descend_twin hAlike root root'
    hChildren hTiling hTiling' hAlike.between hAlike.between'
    (List.mem_of_getElem? ht) (List.mem_of_getElem? ht')
    ⟨i, ht, ht'⟩ hTarget hPoints hPoints'
  have hRoot : root'.erase = root.erase := by
    have hMap := Node.map_erase_eq hChildren
      fun c _ d hTwin => Node.Twin.erase_eq c d hTwin
    rcases Document.parse_eq_ok_iff.mp h with ⟨_, rfl⟩
    rcases Document.parse_eq_ok_iff.mp h' with ⟨_, rfl⟩
    exact Node.erase_eq_iff.mpr ⟨rfl, rfl, rfl, rfl, hMap⟩
  have hChains :
      (resolve root offset).map Node.erase =
        (resolve root' offset').map Node.erase := by
    have hErased := resolve_rel Node.kind_eq_of_erase_eq hRoot
      (hDescend.imp fun n m hTwin =>
        Node.Twin.erase_eq n m hTwin)
    exact (Node.map_erase_eq hErased
      fun _ _ _ hSame => hSame).symm
  refine ⟨hChains, fun schema => ?_⟩
  have hEntity :
      annotate? schema (resolve root offset) =
        annotate? schema (resolve root' offset') := by
    rw [← annotate?_erase schema (resolve root offset),
      hChains, annotate?_erase]
  exact ⟨hEntity, congrArg Entity.content hEntity⟩

theorem resolve_layout_edge :
    ∃ root root',
      Document.parse "\x7ba b \x7d".toList = .ok root ∧
        Document.parse "\x7ba,#c\n b\x7d".toList =
          .ok root' ∧
        (resolve root 4).map Node.erase =
          (resolve root' 7).map Node.erase := by
  have hAdmitted :
      (Document.parse "\x7ba b \x7d".toList).toBool =
        true := by
    decide +kernel
  have hAdmitted' :
      (Document.parse "\x7ba,#c\n b\x7d".toList).toBool =
        true := by
    decide +kernel
  rcases Document.exists_root hAdmitted with ⟨root, h⟩
  rcases Document.exists_root hAdmitted' with ⟨root', h'⟩
  have hStarts :
      ∀ t ∈ (Document.tokens "\x7ba b \x7d".toList).ahead,
        t.start ≠ 4 := by
    decide +kernel
  have hEdge : ∀ n, root.Holds n → n.span.start ≠ 4 := by
    intro n hn
    rcases Relation.reflTransGen_iff_eq_or_transGen.mp hn with
      rfl | hAbove
    · rw [(Document.parse_spells h).2.1]
      decide
    · rcases Document.madeOf_of_parse h hAbove with
        ⟨ts, lo, hi, hTs, hMade, hTokens⟩
      rcases hMade.ends hTokens with ⟨a, ha, b, _, hSpan, _⟩
      have hNe := hStarts a (hTs.subset ha)
      rw [hSpan]
      dsimp only
      omega
  have ht :
      (Document.tokens "\x7ba b \x7d".toList).ahead[2]? =
        some ⟨.name, "b", 3, 4, 1, 4⟩ := by
    decide +kernel
  have ht' :
      (Document.tokens "\x7ba,#c\n b\x7d".toList).ahead[2]? =
        some ⟨.name, "b", 7, 8, 2, 2⟩ := by
    decide +kernel
  have hPoints :
      root.PointsAt ⟨.name, "b", 3, 4, 1, 4⟩ 4 :=
    .inr ⟨rfl, hEdge⟩
  have hPoints' :
      root'.PointsAt ⟨.name, "b", 7, 8, 2, 2⟩ 7 :=
    .inl (by decide)
  exact ⟨root, root', h, h',
    (resolve_layout h h' (by decide +kernel) ht ht'
      (by decide) hPoints hPoints').1⟩

end Chain

end QueryHover
