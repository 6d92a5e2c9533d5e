import QueryHover.Proofs.Acceptance
import QueryHover.Proofs.FieldTyping
import QueryHover.Proofs.Moving

/-
  Documents compose.

  Two documents with a newline between them are a document.
  Its definitions are those of the first one and then those
  of the second, moved behind it. A hover over the second
  part meets the nodes that it meets in the second document
  alone, and describes them alike. Only a fragment that is
  spread is looked up in both parts, in the first one before
  the second.

  Main declarations:
    * `Document.parse_join`
    * `annotate?_within`
    * `Document.join_composes`
-/

namespace QueryHover

------------------------------------------------------------
-- Joined Documents
------------------------------------------------------------

/- Repetitions may follow one another. -/
theorem Phrase.Spells.append
    {p : Phrase}
    {ts us : List Token}
    {ns ms : List Node}
    (h : (Phrase.many p).Spells ts ns)
    (h' : (Phrase.many p).Spells us ms) :
    (Phrase.many p).Spells (ts ++ us) (ns ++ ms) := by
  induction ns generalizing ts with
  | nil =>
      cases h
      exact h'
  | cons n ns ih =>
      cases h with
      | cons hItem hRest =>
      rw [List.append_assoc]
      exact .cons hItem (ih hRest)

namespace Document

variable {text text' : List Char}
variable {root root' : Node}

/- Two documents with a newline between them are one. -/
theorem parse_join
    (h : parse text = .ok root)
    (h' : parse text' = .ok root') :
    ∃ joined,
      parse (text ++ '\n' :: text') = .ok joined ∧
        joined.kind = .document ∧
        joined.span = ⟨0, text.length + 1 + text'.length⟩ ∧
        joined.children =
          root.children ++
            root'.children.map
              (Node.shift (text.length + 1)) := by
  rcases parse_spells h with ⟨_, _, hSpells⟩
  rcases parse_spells h' with ⟨_, _, hSpells'⟩
  rcases tokens_join (last_of_parse h).2.2 text' with
    ⟨us, hAhead, hMoved, hLast⟩
  have hOrder := TokenStream.ofText_between "input" text'
  have hEof : (tokens text').last.kind = .eof :=
    congrArg Prod.fst (last_of_parse h').1
  have hBoth := hSpells.append
    (hSpells'.shift ⟨hMoved, 0, _, hOrder⟩)
  rw [← hAhead] at hBoth
  rw [← hLast] at hEof
  refine ⟨_, parse_of_spells hBoth hEof, rfl, ?_, rfl⟩
  simp only [List.length_append, List.length_cons]
  congr 1
  omega

/- All definitions of a document end inside its text. -/
theorem stop_le_of_parse
    (h : parse text = .ok root) :
    ∀ c ∈ root.children, c.span.stop ≤ text.length := by
  intro c hc
  have hTidy := parse_nested h root .refl
  have hStop := (hTidy.inside c hc).2
  rwa [(parse_spells h).2.1] at hStop

end Document

------------------------------------------------------------
-- Chains Past a Seam
------------------------------------------------------------

namespace Node

theorem lastWith?_append
    (p : Node → Bool)
    (ns ms : List Node) :
    lastWith? p (ns ++ ms) =
      (lastWith? p ms).or (lastWith? p ns) := by
  unfold lastWith?
  rw [List.reverse_append, List.find?_append]

/- Children that end earlier are not met. -/
theorem childAt?_append
    {n m : Node}
    {ns : List Node}
    {offset : Int}
    (hChildren : n.children = ns ++ m.children)
    (hBefore : ∀ c ∈ ns, c.span.stop < offset) :
    n.childAt? offset = m.childAt? offset := by
  have hInside :
      lastWith? (fun c => c.span.Contains offset) ns =
        none := by
    apply lastWith?_eq_none
    intro c hc
    have hStop := hBefore c hc
    rw [decide_eq_false_iff_not]
    rintro ⟨_, hAfter⟩
    omega
  have hTouching :
      lastWith? (fun c => c.span.stop = offset) ns = none := by
    apply lastWith?_eq_none
    intro c hc
    have hStop := hBefore c hc
    rw [decide_eq_false_iff_not]
    omega
  unfold childAt?
  rw [hChildren, lastWith?_append, lastWith?_append, hInside,
    hTouching, Option.or_none, Option.or_none]

end Node

------------------------------------------------------------
-- Hovers Inside Another Document
------------------------------------------------------------

namespace Context

variable (schema : Schema)

/- The same context, in another document. -/
def within
    (document : Option Node)
    (c : Context) : Context :=
  { c with document }

/-
  Entering a node that is no document does not look at the
  document, and only at the kind of the node around it.
-/
theorem enter_within
    {parent parent' : Option Node}
    (hParent :
      parent'.map Node.kind = parent.map Node.kind)
    (document : Option Node)
    {n : Node}
    (hn : n.kind ≠ .document)
    (c : Context) :
    (c.within document).enter schema parent' n =
      (c.enter schema parent n).within document := by
  have hDirective :
      (parent'.any fun p => p.kind = .directive) =
        parent.any fun p => p.kind = .directive := by
    have hAny := congrArg
      (Option.any fun kind => kind = .directive) hParent
    rwa [Option.any_map, Option.any_map] at hAny
  unfold enter
  cases hKind : n.kind
  case document => exact absurd hKind hn
  case inlineFragment =>
    dsimp only
    split_ifs
    · rfl
    · rfl
  case field =>
    dsimp only
    unfold enterField
    have hField :
        (c.within document).lookupField? n.name =
          c.lookupField? n.name := rfl
    rw [hField]
    cases c.lookupField? n.name with
    | none => rfl
    | some f => rfl
  case argument =>
    dsimp only
    unfold enterArgument
    rw [hDirective]
    rfl
  all_goals rfl

/- Nor does a whole path without documents. -/
theorem alongFrom_within
    {parent parent' : Option Node}
    (hParent :
      parent'.map Node.kind = parent.map Node.kind)
    (document : Option Node)
    {path : Chain}
    (hPath : ∀ n ∈ path, n.kind ≠ .document)
    (c : Context) :
    alongFrom schema parent' (c.within document) path =
      (alongFrom schema parent c path).within document := by
  induction path generalizing parent parent' c with
  | nil => rfl
  | cons n path ih =>
      have hn := hPath n List.mem_cons_self
      rw [alongFrom, alongFrom,
        enter_within schema hParent document hn]
      exact ih rfl
        (fun m hm => hPath m (List.mem_cons_of_mem n hm)) _

/-
  A leaf is described alike in another document, unless it
  spreads a fragment that is another one there.
-/
theorem entity?_within
    {document document' : Node}
    {leaf : Node}
    (hSpread :
      leaf.kind = .fragmentSpread →
        document'.fragmentNamed? leaf.name =
          document.fragmentNamed? leaf.name)
    (c : Context) :
    (c.within (some document')).entity? schema leaf =
      (c.within (some document)).entity? schema leaf := by
  unfold entity?
  cases hKind : leaf.kind
  case fragmentSpread =>
    dsimp only [within, spreadEntity?]
    simp only [Option.bind_eq_bind, Option.bind_some,
      hSpread hKind]
  all_goals rfl

/- A path below a document starts with nothing known. -/
theorem along_document
    {root : Node}
    (hRoot : root.kind = .document)
    {path : Chain}
    (hPath : ∀ n ∈ path, n.kind ≠ .document)
    (parent : Node)
    (hParent : parent.kind = .document) :
    along schema (root :: path) =
      (alongFrom schema (some parent) {} path).within
        (some root) := by
  have hEnter :
      ({} : Context).enter schema none root =
        ({} : Context).within (some root) := by
    unfold enter
    rw [hRoot]
    rfl
  unfold along
  rw [alongFrom, hEnter]
  apply alongFrom_within schema ?_ (some root) hPath
  simp [hRoot, hParent]

end Context

/-
  A path is described alike in two documents, unless it ends
  on the spread of a fragment that differs.
-/
theorem annotate?_within
    (schema : Option Schema)
    {root root' : Node}
    (hRoot : root.kind = .document)
    (hRoot' : root'.kind = .document)
    {path : Chain}
    (hPath : ∀ n ∈ path, n.kind ≠ .document)
    (hSpread :
      ∀ leaf ∈ path.getLast?, leaf.kind = .fragmentSpread →
        root'.fragmentNamed? leaf.name =
          root.fragmentNamed? leaf.name) :
    annotate? schema (root' :: path) =
      annotate? schema (root :: path) := by
  cases schema with
  | none => rfl
  | some schema =>
      have hAlong := Context.along_document schema hRoot hPath
        root hRoot
      have hAlong' := Context.along_document schema hRoot'
        hPath root hRoot
      unfold annotate? Chain.leaf?
      rw [List.getLast?_cons, List.getLast?_cons]
      simp only [Option.bind_eq_bind, Option.bind_some, hAlong,
        hAlong']
      cases hLeaf : path.getLast? with
      | none =>
          rw [List.getLast?_eq_none_iff] at hLeaf
          subst hLeaf
          simp only [Option.getD_none, Context.entity?, hRoot,
            hRoot']
          rfl
      | some leaf =>
          exact Context.entity?_within schema
            (hSpread leaf hLeaf) _

------------------------------------------------------------
-- Composition
------------------------------------------------------------

/- No node below another one is a document. -/
theorem Node.WellKinded.kind_ne_document
    {root n : Node}
    (h : root.WellKinded)
    (hn : root.Above n) :
    n.kind ≠ .document := by
  rcases Relation.TransGen.tail'_iff.mp hn with
    ⟨p, hHolds, hChild⟩
  have hMem := h p hHolds n hChild
  intro hKind
  rw [hKind] at hMem
  cases hParent : p.kind
  all_goals
    rw [hParent] at hMem
    revert hMem
    simp [Kind.childKinds, Kind.definitions, Kind.types,
      Kind.constants, Kind.selections]

/- A fragment that the first part lacks is that of the other. -/
theorem Node.fragmentNamed?_join
    {d : Int}
    {joined root root' : Node}
    {name : String}
    (hChildren :
      joined.children =
        root.children ++ root'.children.map (Node.shift d))
    (hNone : root.fragmentNamed? name = none) :
    joined.erase.fragmentNamed? name =
      root'.erase.fragmentNamed? name := by
  have hErase : Node.erase ∘ Node.shift d = Node.erase :=
    funext fun c => c.erase_shift d
  have hSame :
      (fun c : Node =>
          decide (c.kind = .fragmentDefinition) &&
            decide (c.name = name)) ∘ Node.shift d =
        fun c =>
          decide (c.kind = .fragmentDefinition) &&
            decide (c.name = name) := by
    funext c
    simp
  unfold Node.fragmentNamed? at hNone ⊢
  rw [Node.childNamed?_erase, Node.childNamed?_erase]
  unfold Node.childNamed? at hNone ⊢
  rw [hChildren, List.find?_append, hNone, Option.none_or,
    List.find?_map, hSame, Option.map_map, hErase]

namespace Document

variable {text text' : List Char}
variable {root root' joined : Node}
variable {d : Int}

/-
  At an offset of the second part, a hover meets the nodes
  that it meets in the second document alone, all moved.
-/
theorem resolve_join
    (h : parse text = .ok root)
    (hChildren :
      joined.children =
        root.children ++ root'.children.map (Node.shift d))
    (hBehind : text.length < d)
    (k : Nat) :
    Chain.resolve joined (k + d) =
      joined ::
        (Chain.resolve root' k).tail.map (Node.shift d) := by
  apply Chain.resolve_shift
  rw [← Node.childAt?_shift]
  apply Node.childAt?_append
  · rw [hChildren, Node.shift_children]
  · intro c hc
    have hStop := stop_le_of_parse h c hc
    omega

/-
  It describes them alike, unless they end on the spread of a
  fragment that the first document defines.
-/
theorem annotate?_join
    (h' : parse text' = .ok root')
    (hJoined : joined.kind = .document)
    (hChildren :
      joined.children =
        root.children ++ root'.children.map (Node.shift d))
    {k : Nat}
    (hSpread :
      ∀ leaf ∈ (Chain.resolve root' k).leaf?,
        leaf.kind = .fragmentSpread →
          root.fragmentNamed? leaf.name = none)
    (schema : Option Schema) :
    annotate? schema
        (joined ::
          (Chain.resolve root' k).tail.map (Node.shift d)) =
      annotate? schema (Chain.resolve root' k) := by
  have hRoot := (parse_spells h').1
  have hChain :
      Chain.resolve root' k =
        root' :: (Chain.resolve root' k).tail := rfl
  have hErase :
      ((Chain.resolve root' k).tail.map (Node.shift d)).map
          Node.erase =
        (Chain.resolve root' k).tail.map Node.erase := by
    rw [List.map_map]
    exact List.map_congr_left fun c _ => c.erase_shift d
  have hLinked := (Chain.leads_resolve root' k).linked
  rw [hChain] at hLinked
  conv_rhs => rw [hChain]
  rw [← annotate?_erase schema (joined :: _),
    ← annotate?_erase schema (root' :: _), List.map_cons,
    List.map_cons, hErase]
  apply annotate?_within
  · rw [Node.erase_kind, hRoot]
  · rw [Node.erase_kind, hJoined]
  · intro n hn
    rcases List.mem_map.mp hn with ⟨m, hm, rfl⟩
    rw [Node.erase_kind]
    exact (parse_wellKinded h').kind_ne_document
      (Node.above_of_isChain hLinked hm)
  · intro leaf hLeaf hKind
    rw [List.getLast?_map, Option.mem_def,
      Option.map_eq_some_iff] at hLeaf
    rcases hLeaf with ⟨m, hm, rfl⟩
    rw [Node.erase_name]
    apply Node.fragmentNamed?_join hChildren
    apply hSpread m
    · unfold Chain.leaf?
      rw [hChain, List.getLast?_cons, hm]
      rfl
    · rwa [Node.erase_kind] at hKind

/-
  Documents compose. Two documents with a newline between
  them are a document: its definitions are those of the
  first, and then those of the second moved by the length of
  the first and one. At any offset of the second part, the
  chain below the root is the moved chain of the second
  document, and it is described alike, unless it ends on the
  spread of a fragment that the first document defines.
-/
theorem join_composes
    (h : parse text = .ok root)
    (h' : parse text' = .ok root') :
    ∃ joined,
      parse (text ++ '\n' :: text') = .ok joined ∧
        joined.kind = .document ∧
        joined.span = ⟨0, text.length + 1 + text'.length⟩ ∧
        joined.children =
          root.children ++
            root'.children.map (Node.shift (text.length + 1)) ∧
        ∀ k : Nat,
          Chain.resolve joined (text.length + 1 + k) =
              joined ::
                (Chain.resolve root' k).tail.map
                  (Node.shift (text.length + 1)) ∧
            ∀ schema : Option Schema,
              (∀ leaf ∈ (Chain.resolve root' k).leaf?,
                leaf.kind = .fragmentSpread →
                  root.fragmentNamed? leaf.name = none) →
              annotate? schema
                  (Chain.resolve joined
                    (text.length + 1 + k)) =
                annotate? schema (Chain.resolve root' k) := by
  rcases parse_join h h' with
    ⟨joined, hParse, hKind, hSpan, hChildren⟩
  refine ⟨joined, hParse, hKind, hSpan, hChildren, ?_⟩
  intro k
  have hResolve := resolve_join h hChildren (by omega) k
  rw [Int.add_comm (text.length + 1 : Int) k, hResolve]
  refine ⟨rfl, ?_⟩
  intro schema hSpread
  exact annotate?_join h' hKind hChildren hSpread schema

theorem join_composes_spread :
    ∃ (schema : Schema) (t : TypeDefinition)
      (root root' leaf joined : Node),
      parse "fragment A on T\x7bg\x7d#".toList = .ok root ∧
        parse "\x7b...B\x7dfragment B on T\x7bg\x7d".toList =
          .ok root' ∧
        (Chain.resolve root' 4).leaf? = some leaf ∧
        leaf.kind = .fragmentSpread ∧
        root.fragmentNamed? leaf.name = none ∧
        parse
            ("fragment A on T\x7bg\x7d#".toList ++ '\n' ::
              "\x7b...B\x7dfragment B on T\x7bg\x7d".toList) =
          .ok joined ∧
        annotate? (some schema) (Chain.resolve joined 24) =
          some (.type (some t) none none) := by
  let t : TypeDefinition := { kind := .object, name := "T" }
  let schema : Schema := { types := [t] }
  have hSeen :=
    exists_leaf
      "\x7b...B\x7dfragment B on T\x7bg\x7d".toList 4
      (fun leaf ancestors =>
        (leaf.kind, leaf.name,
          annotate? (some schema) (leaf :: ancestors).reverse))
      (show _ = some (.fragmentSpread, "B",
          some (.type (some t) none none)) by
        decide +kernel)
  have hLacks :
      (parse "fragment A on T\x7bg\x7d#".toList).toOption.map
          (fun root => (root.fragmentNamed? "B").isNone) =
        some true := by
    decide +kernel
  rcases hSeen with
    ⟨root', leaf, ancestors, h', hChain, hView⟩
  simp only [Prod.mk.injEq] at hView
  rcases Option.map_eq_some_iff.mp hLacks with
    ⟨root, hRoot, hNone⟩
  have h := eq_ok_of_toOption hRoot
  have hLeaf : (Chain.resolve root' 4).leaf? = some leaf := by
    rw [hChain]
    simp [Chain.leaf?]
  have hLacks' : root.fragmentNamed? leaf.name = none := by
    rw [hView.2.1]
    exact Option.isNone_iff_eq_none.mp hNone
  rcases join_composes h h' with
    ⟨joined, hParse, _, _, _, hHover⟩
  have hSame := (hHover 4).2 (some schema)
    (by
      intro other hOther _
      cases hLeaf.symm.trans hOther
      exact hLacks')
  refine ⟨schema, t, root, root', leaf, joined, h, h', hLeaf,
    hView.1, hLacks', hParse, hSame.trans ?_⟩
  exact (congrArg (annotate? (some schema)) hChain).trans
    hView.2.2

end Document

end QueryHover
