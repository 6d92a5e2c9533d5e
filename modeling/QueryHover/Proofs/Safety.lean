import QueryHover.Proofs.Accesses
import QueryHover.Proofs.Joining

/-
  No access of a hover fails.

  The kinds of the nodes of a document tell what stands
  around them: an argument belongs to a field or a directive,
  and all that a definition holds is inside of it. A chain
  starts at a document. So a hover finds whatever it looks
  for around a node, and the line where its target starts is
  a line of the text.

  Main declarations:
    * `Node.definition?_isSome`
    * `exists_owner`
    * `exists_definition`
    * `Checked.hover_succeeds`
-/

namespace QueryHover

------------------------------------------------------------
-- What Stands Around a Node
------------------------------------------------------------

namespace Node

/- The definition around some nodes is one of them. -/
theorem definition?_mem
    {ancestors : List Node}
    {d : Node}
    (h : definition? ancestors = some d) :
    d ∈ ancestors ∧
      (d.kind = .operationDefinition ∨
        d.kind = .fragmentDefinition) := by
  induction ancestors with
  | nil => cases h
  | cons n outer ih =>
      unfold definition? at h
      split at h
      · cases h
      next hKind =>
        cases h
        exact ⟨List.mem_cons_self, .inl hKind⟩
      next hKind =>
        cases h
        exact ⟨List.mem_cons_self, .inr hKind⟩
      · exact ⟨List.mem_cons_of_mem n (ih h).1, (ih h).2⟩

/- Below a document every node is inside of a definition. -/
theorem definition?_isSome
    {n : Node}
    {outer : List Node}
    (hDescends : Descends (n :: outer))
    (hRoot :
      ∀ root ∈ (n :: outer).getLast?, root.kind = .document)
    (hKind : n.kind ≠ .document) :
    (definition? (n :: outer)).isSome := by
  induction outer generalizing n with
  | nil => exact absurd (hRoot n rfl) hKind
  | cons m outer ih =>
      have hChild := (List.isChain_cons_cons.mp hDescends).1
      unfold definition?
      split
      next hDocument => exact absurd hDocument hKind
      · rfl
      · rfl
      next hOperation hFragment =>
        apply ih hDescends.outer
        · intro root hLast
          apply hRoot root
          rwa [List.getLast?_cons_cons]
        · intro hDocument
          rw [hDocument] at hChild
          rcases List.mem_pair.mp hChild with h | h
          · exact hOperation h
          · exact hFragment h

end Node

------------------------------------------------------------
-- Chains of a Document
------------------------------------------------------------

section

variable {text : List Char}
variable {root n : Node}
variable {chain : Chain}
variable {index : Nat}
variable (h : Document.parse text = .ok root)
variable (hLeads : root.Leads chain)

include h hLeads

/- Variables of a document are used inside of definitions. -/
theorem sheltered_of_leads :
    Checked.Sheltered chain := by
  intro n outer hStart hKind
  have hWhole : root.Leads chain.reverse.reverse := by
    rwa [List.reverse_reverse]
  have hInner : root.Leads (n :: outer).reverse := by
    apply hWhole.of_suffix
    · rwa [← List.reverse_prefix, List.reverse_reverse]
    · exact List.cons_ne_nil n outer
  have hDescends := descends_of_leads h hInner
  have hRoot :
      ∀ m ∈ (n :: outer).getLast?, m.kind = .document := by
    intro m hm
    rw [← List.head?_reverse, hInner.head] at hm
    rw [← Option.some.inj hm]
    exact (Document.parse_spells h).1
  have hSome :=
    Node.definition?_isSome hDescends hRoot (by simp [hKind])
  unfold Node.definition? at hSome
  rwa [hKind] at hSome

/- A chain of a document starts at one. -/
theorem document_of_leads
    (schema : Schema) :
    (Context.along schema chain).document.isSome := by
  have hRoot := (Document.parse_spells h).1
  cases chain with
  | nil => cases hLeads.head
  | cons n path =>
      obtain rfl := Option.some.inj hLeads.head
      have hPath : ∀ m ∈ path, m.kind ≠ .document := by
        intro m hm
        exact (Document.parse_wellKinded h).kind_ne_document
          (Node.above_of_isChain hLeads.linked hm)
      rw [Context.along_document schema hRoot hPath n hRoot]
      rfl

theorem exists_definition
    (hn : chain[index]? = some n)
    (hKind : n.kind = .variableUse) :
    ∃ i d,
      i < index ∧ chain[i]? = some d ∧
        (d.kind = .operationDefinition ∨
          d.kind = .fragmentDefinition) := by
  have hStart :
      (n :: (chain.take index).reverse).reverse <+: chain := by
    have hTake :
        chain.take (index + 1) = chain.take index ++ [n] := by
      rw [List.take_add_one, hn]
      rfl
    rw [List.reverse_cons, List.reverse_reverse, ← hTake]
    exact List.take_prefix (index + 1) chain
  have hSome :=
    sheltered_of_leads h hLeads n _ hStart hKind
  rcases Option.isSome_iff_exists.mp hSome with ⟨d, hd⟩
  rcases Node.definition?_mem hd with ⟨hMem, hDefinition⟩
  rw [List.mem_reverse] at hMem
  rcases List.mem_iff_getElem?.mp hMem with ⟨i, hi⟩
  rw [List.getElem?_take] at hi
  split_ifs at hi with hLess
  exact ⟨i, d, hLess, hi, hDefinition⟩

/- An argument belongs to a field or to a directive. -/
theorem exists_owner
    (hn : chain[index]? = some n)
    (hKind : n.kind = .argument) :
    ∃ i m,
      index = i + 1 ∧ chain[i]? = some m ∧
        (m.kind = .field ∨ m.kind = .directive) := by
  cases index with
  | zero =>
      rw [← List.head?_eq_getElem?, hLeads.head] at hn
      rw [← Option.some.inj hn,
        (Document.parse_spells h).1] at hKind
      cases hKind
  | succ i =>
      have hBelow := (List.getElem?_eq_some_iff.mp hn).1
      have hm : chain[i]? = some chain[i] :=
        List.getElem?_eq_getElem (by omega)
      have hChild := Document.parse_wellKinded h chain[i]
        (hLeads.holds (List.getElem_mem _)) n
        (hLeads.hasChild hm hn)
      have hOwner := Node.Kind.mem_parentKinds hChild
      have hKinds :
          Node.Kind.parentKinds .argument =
            [.directive, .field] := by
        decide
      rw [hKind, hKinds] at hOwner
      exact ⟨i, chain[i], rfl, hm,
        (List.mem_pair.mp hOwner).symm⟩

theorem around_argument
    (hn : chain.leaf? = some n)
    (hKind : n.kind = .argument) :
    (Chain.leaf? chain.dropLast).isSome := by
  unfold Chain.leaf? at hn
  rw [List.getLast?_eq_getElem?] at hn
  rcases exists_owner h hLeads hn hKind with ⟨i, m, hi, _⟩
  have hSome : chain.dropLast.length ≠ 0 := by
    rw [List.length_dropLast, hi]
    exact Nat.succ_ne_zero i
  rcases Checked.exists_leaf? hSome with ⟨around, hAround⟩
  rw [hAround]
  rfl

end

/- The line of an offset is a line of the text. -/
theorem Position.exists_line
    {text : List Char}
    {offset : Int}
    (hFront : 0 ≤ offset)
    (hEnd : offset ≤ text.length) :
    ∃ line,
      (Text.lines text)[(ofOffset text offset).line.toNat]? =
        some line := by
  have hLast :=
    upTo_of_le hFront hEnd (Int.le_refl (text.length : Int))
  have hFirst := (ofOffset_le text offset).1
  rw [ofOffset_length] at hLast
  have hLines :
      (endOf text).line = (Text.lines text).length - 1 := by
    rw [Text.lines_eq_splitOn]
    rfl
  have hSome := Text.lines_ne_nil text
  have hLength := List.length_pos_iff.mpr hSome
  refine ⟨_, List.getElem?_eq_getElem ?_⟩
  unfold UpTo at hLast
  omega

/- The target of an answer starts in the text. -/
theorem Answer.target?_bounds
    {schema : Option Schema}
    {text : List Char}
    {root : Node}
    {offset : Nat}
    {span : Span}
    (h : Document.parse text = .ok root)
    (hTarget :
      (ofTree schema text root offset).target? = some span) :
    0 ≤ span.start ∧ span.start ≤ text.length := by
  by_cases hContent :
      (ofTree schema text root offset).content = ""
  · unfold target? at hTarget
    rw [if_pos hContent] at hTarget
    cases hTarget
  · rcases exists_above h hContent with
      ⟨leaf, hLeaf, hAbove⟩
    have hSpan := Document.span_bounds h hAbove.to_reflTransGen
    have hInside := Document.target_bounds h hAbove
    rw [target?_of_content hContent hLeaf] at hTarget
    rw [← Option.some.inj hTarget]
    omega

------------------------------------------------------------
-- Hovers
------------------------------------------------------------

namespace Checked

theorem resolve_eq
    (schema : Option Schema)
    (text : List Char)
    (p : Position) :
    resolve schema text p =
      .ok (Answer.resolve schema text p) := by
  unfold resolve Answer.resolve
  cases hParse : Document.parse text with
  | error e => rfl
  | ok root =>
      have hLeads := Chain.leads_resolve root (p.offsetIn text)
      have hEntity :=
        annotate_eq (sheltered_of_leads hParse hLeads)
          (document_of_leads hParse hLeads) schema
      dsimp only
      rw [trim_eq]
      change (annotate schema (Chain.resolve root _) >>= _) = _
      rw [hEntity]
      change (content _ >>= _) = _
      rw [content_eq]
      rfl

/-
  No access of a hover fails, whatever the schema, the text
  and the position are: each step yields what it yields
  without checks. In the chain of an answer every argument
  stands below a field or a directive, and every variable
  inside of a definition; the target starts on a line of the
  text. However many tokens have been read, the next one and
  the end of the last one are there.
-/
theorem hover_succeeds
    (schema : Option Schema)
    (text : List Char)
    (p : Position)
    (color : Bool)
    (source : String) :
    resolve schema text p =
        .ok (Answer.resolve schema text p) ∧
      hover schema text p =
        .ok
          (((Answer.resolve schema text p).toOption.map
            Answer.content).getD "") ∧
      ∀ a,
        Answer.resolve schema text p = .ok a →
          target a = .ok a.target? ∧
            range a = .ok a.range? ∧
            candidates schema a.chain =
              .ok (candidates? schema a.chain) ∧
            suggestion schema a.chain =
              .ok (suggestion? schema a.chain) ∧
            pretty color source a =
              .ok (a.pretty color source) ∧
            (∀ (index : Nat) (n : Node),
              a.chain[index]? = some n →
                n.kind = .argument → ∃ (i : Nat) (m : Node),
                  index = i + 1 ∧ a.chain[i]? = some m ∧
                    (m.kind = .field ∨
                      m.kind = .directive)) ∧
            (∀ (index : Nat) (n : Node),
              a.chain[index]? = some n →
                n.kind = .variableUse →
                  ∃ (i : Nat) (d : Node),
                    i < index ∧ a.chain[i]? = some d ∧
                      (d.kind = .operationDefinition ∨
                        d.kind = .fragmentDefinition)) ∧
            (∀ span, a.target? = some span → ∃ line,
              0 ≤ (Position.ofOffset text span.start).line ∧
                (Text.lines text)[
                    (Position.ofOffset text
                      span.start).line.toNat]? =
                  some line) ∧
            ∀ count, ∃ c,
              (Cursor.ofText text).skip count = .ok c ∧
                c.peek =
                  .ok
                    (TokenStream.tail^[count]
                      (Document.tokens text)).head ∧
                c.readTo =
                  .ok
                    (TokenStream.tail^[count]
                      (Document.tokens text)).readTo := by
  have hResolve := resolve_eq schema text p
  refine ⟨hResolve, ?_, ?_⟩
  · unfold hover
    rw [hResolve]
    cases Answer.resolve schema text p
    all_goals rfl
  · intro a hAnswer
    cases hParse : Document.parse text with
    | error e =>
        unfold Answer.resolve at hAnswer
        rw [hParse] at hAnswer
        cases hAnswer
    | ok root =>
        have hTree :
            Answer.ofTree schema text root (p.offsetIn text) =
              a := by
          unfold Answer.resolve at hAnswer
          rw [hParse] at hAnswer
          exact Except.ok.inj hAnswer
        subst hTree
        have hLeads :
            root.Leads
              (Answer.ofTree schema text root
                (p.offsetIn text)).chain :=
          Chain.leads_resolve root (p.offsetIn text)
        have hSheltered := sheltered_of_leads hParse hLeads
        have hOwner (n : Node) :=
          around_argument (n := n) hParse hLeads
        refine ⟨target_eq _, range_eq _,
          candidates_eq hSheltered hOwner schema,
          suggestion_eq hSheltered hOwner schema,
          pretty_eq color source _, ?_, ?_, ?_, ?_⟩
        · intro index n hn hKind
          exact exists_owner hParse hLeads hn hKind
        · intro index n hn hKind
          exact exists_definition hParse hLeads hn hKind
        · intro span hTarget
          have hBounds := Answer.target?_bounds hParse hTarget
          rcases Position.exists_line hBounds.1 hBounds.2 with
            ⟨line, hLine⟩
          exact ⟨line, (Position.ofOffset_le text _).1, hLine⟩
        · intro count
          rcases (Cursor.ofText_at hParse).skip count with
            ⟨c, hSkip, hAt⟩
          exact ⟨c, hSkip, hAt.peek, hAt.readTo⟩

/- An argument that the field does not have. -/
theorem hover_succeeds_argument :
    let b : ArgumentDefinition :=
      { name := "b", type := .named "Int" false }
    let f : FieldDefinition :=
      { name := "f"
        arguments := [b]
        type := .named "Int" false }
    let schema : Schema :=
      { types :=
          [ { kind := .object
              name := "Query"
              fields := [f] } ]
        query := some "Query" }
    ∃ a m,
      Answer.resolve (some schema)
          "query($v:T)\x7bf(bb:$v)\x7d".toList ⟨0, 14⟩ =
        .ok a ∧
        a.chain.map Node.kind =
          [ .document, .operationDefinition, .selectionSet,
            .field, .argument ] ∧
        a.chain[3]? = some m ∧
        (m.kind = .field ∨ m.kind = .directive) ∧
        candidates (some schema) a.chain = .ok (some ["b"]) ∧
        suggestion (some schema) a.chain =
          .ok (some "did you mean `b`?") := by
  intro b f schema
  let text := "query($v:T)\x7bf(bb:$v)\x7d".toList
  have hSeen :
      (Answer.resolve (some schema) text
        ⟨0, 14⟩).toOption.map (fun a =>
          (a.chain.map Node.kind,
            candidates? (some schema) a.chain,
            suggestion? (some schema) a.chain)) =
        some
          ([ .document, .operationDefinition, .selectionSet,
              .field, .argument ],
            some ["b"], some "did you mean `b`?") := by
    decide +kernel
  rcases Option.map_eq_some_iff.mp hSeen with ⟨a, ha, hView⟩
  simp only [Prod.mk.injEq] at hView
  have hAnswer := eq_ok_of_toOption ha
  have hLast :
      (a.chain.map Node.kind)[4]? = some .argument := by
    rw [hView.1]
    rfl
  rw [List.getElem?_map, Option.map_eq_some_iff] at hLast
  rcases hLast with ⟨n, hn, hKind⟩
  have hSucceeds :=
    (hover_succeeds (some schema) text ⟨0, 14⟩ false
      "stdin").2.2 a hAnswer
  rcases hSucceeds.2.2.2.2.2.1 4 n hn hKind with
    ⟨i, m, hIndex, hm, hOwner⟩
  cases hIndex
  refine ⟨a, m, hAnswer, hView.1, hm, hOwner, ?_, ?_⟩
  · exact hView.2.1 ▸ hSucceeds.2.2.1
  · exact hView.2.2 ▸ hSucceeds.2.2.2.1

end Checked

end QueryHover
