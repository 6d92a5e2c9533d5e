import QueryHover.Command.Run
import QueryHover.Proofs.FieldTyping
import QueryHover.Proofs.Unbroken
import QueryHover.Proofs.Underlining

/-
  The nodes of a chain, listed as text.

  Each node is written as a row of its own: two spaces for
  each node around it, its kind, its name and its range. Rows
  are parted by newlines, and the name of a string is all
  that it denotes. So there is one line for each node, unless
  the innermost one is a string of several lines.

  Main declarations:
    * `Text.lines_intercalate`
    * `Node.row`
    * `Chain.rows`
    * `Chain.lines_rows`
    * `Command.nodes_lists_chain`
-/

namespace QueryHover

------------------------------------------------------------
-- Lines of Rows
------------------------------------------------------------

namespace Text

/- A text has one more line than it has newlines. -/
theorem length_lines
    (text : List Char) :
    (lines text).length = text.count '\n' + 1 := by
  induction text with
  | nil => rfl
  | cons c text ih =>
      by_cases hc : c = '\n'
      · subst hc
        rw [lines_newline, List.length_cons, ih,
          List.count_cons_self]
      · rcases lines_cons hc text with ⟨l, ls, hLines, hFront⟩
        rw [hFront, List.count_cons_of_ne hc, ← ih, hLines]
        rfl

/- Rows of one line each come before the lines of the last. -/
theorem lines_intercalate
    {rows : List (List Char)}
    (h : ∀ row ∈ rows, '\n' ∉ row)
    (last : List Char) :
    lines (['\n'].intercalate (rows ++ [last])) =
      rows ++ lines last := by
  induction rows with
  | nil => simp
  | cons row rows ih =>
      rw [List.forall_mem_cons] at h
      have hSome : rows ++ [last] ≠ [] := by
        simp
      rw [List.cons_append,
        List.intercalate_cons_of_ne_nil hSome,
        List.append_assoc, List.singleton_append, lines_append,
        lines_of_plain h.1, ih h.2]
      rfl

/- A text is its only line if it has no newline. -/
theorem lines_eq_singleton_iff
    {text : List Char} :
    lines text = [text] ↔ '\n' ∉ text := by
  constructor
  · intro h
    have hLength := length_lines text
    rw [h, List.length_singleton] at hLength
    exact List.count_eq_zero.mp (by omega)
  · exact lines_of_plain

end Text

------------------------------------------------------------
-- Rows
------------------------------------------------------------

/- A range as it is listed. -/
def Range.shown
    (r : Range) : List Char :=
  (toString r.start.line).toList ++ ":".toList ++
    (toString r.start.character).toList ++ "-".toList ++
    (toString r.stop.line).toList ++ ":".toList ++
    (toString r.stop.character).toList

namespace Node

/- The name of a node as it is listed, if it has one. -/
def shownName
    (n : Node) : List Char :=
  if n.aliasName ≠ "" then
    " ".toList ++ n.aliasName.toList ++ ": ".toList ++
      n.name.toList
  else if n.name ≠ "" then
    " ".toList ++ n.name.toList
  else
    []

/- The row of a node with some nodes around it. -/
def row
    (text : List Char)
    (depth : Nat)
    (n : Node) : List Char :=
  List.replicate (2 * depth) ' ' ++ n.kind.label.toList ++
    n.shownName ++ " ".toList ++
    (Range.ofSpan text n.span).shown

end Node

/- The rows of a chain, from the outermost node on. -/
def Chain.rows
    (text : List Char)
    (chain : Chain) : List (List Char) :=
  chain.zipIdx.map fun entry => entry.1.row text entry.2

/- Entries are written as the rows of their nodes. -/
theorem NodeEntry.map_line
    (text : List Char)
    (chain : Chain) :
    (ofChain text chain).map (fun e => e.line.toList) =
      chain.rows text := by
  unfold ofChain Chain.rows
  rw [List.map_map]
  refine List.map_congr_left fun entry _ => ?_
  rcases entry with ⟨n, depth⟩
  by_cases hAlias : n.aliasName = ""
  · by_cases hName : n.name = ""
    · simp [line, title, range, Node.row, Node.shownName,
        Range.shown, Range.ofSpan, Snippet.repeated, hAlias,
        hName]
    · simp [line, title, range, Node.row, Node.shownName,
        Range.shown, Range.ofSpan, Snippet.repeated, hAlias,
        hName]
  · simp [line, title, range, Node.row, Node.shownName,
      Range.shown, Range.ofSpan, Snippet.repeated, hAlias]

------------------------------------------------------------
-- Newlines in Rows
------------------------------------------------------------

/- The range of a span is listed on one line. -/
theorem Range.shown_plain
    (text : List Char)
    (span : Span) :
    '\n' ∉ (ofSpan text span).shown := by
  have hDigits {n : Int} (h : 0 ≤ n) :
      '\n' ∉ (toString n).toList :=
    fun hMem => (isPlain_of_mem_toString h hMem).2.1 rfl
  have hStart := Position.ofOffset_le text span.start
  have hStop := Position.ofOffset_le text span.stop
  simp only [shown, ofSpan, List.mem_append, not_or]
  exact ⟨⟨⟨⟨⟨⟨hDigits hStart.1, by decide⟩,
    hDigits hStart.2.1⟩, by decide⟩, hDigits hStop.1⟩,
    by decide⟩, hDigits hStop.2.1⟩

theorem Node.Kind.label_plain
    (kind : Node.Kind) :
    '\n' ∉ kind.label.toList := by
  have hUnknown : '\n' ∉ "Unknown".toList := by
    decide
  cases kind with
  | unknown number => exact hUnknown
  | _ => decide

/- The newlines of a row are those of the name. -/
theorem Node.count_row
    {n : Node}
    (h : '\n' ∉ n.aliasName.toList)
    (text : List Char)
    (depth : Nat) :
    (n.row text depth).count '\n' =
      n.name.toList.count '\n' := by
  have hKind := List.count_eq_zero.mpr n.kind.label_plain
  have hRange := List.count_eq_zero.mpr
    (Range.shown_plain text n.span)
  have hName :
      n.shownName.count '\n' = n.name.toList.count '\n' := by
    have hAlias := List.count_eq_zero.mpr h
    unfold shownName
    split_ifs with hAliased hNamed
    · simp [List.count_append, hAlias]
    · simp
    · simp at hNamed
      simp [hNamed]
  simp [row, List.count_append, List.count_replicate, hKind,
    hRange, hName]

namespace Chain

variable {text : List Char}
variable {root leaf : Node}
variable {init chain : Chain}

/- Where a chain leads there is an innermost node. -/
theorem exists_leaf
    (h : root.Leads chain) :
    ∃ init leaf, chain = init ++ [leaf] := by
  rcases List.eq_nil_or_concat chain with
    rfl | ⟨init, leaf, hChain⟩
  · cases h.head
  · exact ⟨init, leaf, hChain.trans List.concat_eq_append⟩

/- The rows of a chain end with that of its leaf. -/
theorem rows_concat :
    rows text (init ++ [leaf]) =
      rows text init ++ [leaf.row text init.length] := by
  unfold rows
  rw [List.zipIdx_append, List.map_append, Nat.zero_add]
  rfl

/- A node with others inside it is no string. -/
theorem kind_ne_stringValue
    (h : Document.parse text = .ok root)
    (hLeads : root.Leads (init ++ [leaf])) :
    ∀ n ∈ init, n.kind ≠ .stringValue := by
  intro n hn hKind
  rcases List.append_of_mem hn with ⟨before, after, rfl⟩
  have hHolds := hLeads.holds (List.mem_append_left _ hn)
  have hLinked := hLeads.linked
  rw [List.append_assoc] at hLinked
  have hBelow := hLinked.right_of_append
  have hNone (c : Node) : c ∉ n.children := by
    intro hc
    have hMem := Document.parse_wellKinded h n hHolds c hc
    rw [hKind] at hMem
    cases hMem
  cases after with
  | nil => exact hNone leaf (List.isChain_cons_cons.mp hBelow).1
  | cons m after =>
      exact hNone m (List.isChain_cons_cons.mp hBelow).1

/-
  The lines of a chain's rows. All rows but the last are one
  line each, since only a string may be named over several
  lines, and nothing is inside a string.
-/
theorem lines_rows
    (h : Document.parse text = .ok root)
    (hLeads : root.Leads (init ++ [leaf])) :
    Text.lines
        (['\n'].intercalate (rows text (init ++ [leaf]))) =
      rows text init ++
        Text.lines (leaf.row text init.length) := by
  rw [rows_concat]
  apply Text.lines_intercalate
  intro row hRow
  rcases List.mem_map.mp hRow with ⟨⟨n, depth⟩, hEntry, rfl⟩
  have hn : n ∈ init := List.fst_mem_of_mem_zipIdx hEntry
  have hUnbroken := Document.parse_unbroken h
    (hLeads.holds (List.mem_append_left _ hn))
  have hName := hUnbroken.1 (kind_ne_stringValue h hLeads n hn)
  rw [← List.count_eq_zero, Node.count_row hUnbroken.2]
  exact List.count_eq_zero.mpr hName

/- Each newline in the name of a leaf makes one more line. -/
theorem length_lines_rows
    (h : Document.parse text = .ok root)
    (hLeads : root.Leads (init ++ [leaf])) :
    (Text.lines
        (['\n'].intercalate
          (rows text (init ++ [leaf])))).length =
      (init ++ [leaf]).length +
        leaf.name.toList.count '\n' := by
  have hUnbroken := Document.parse_unbroken h
    (hLeads.holds List.mem_concat_self)
  rw [lines_rows h hLeads, List.length_append,
    Text.length_lines, Node.count_row hUnbroken.2, rows,
    List.length_map, List.length_zipIdx, List.length_append,
    List.length_singleton]
  omega

/- The lines are the rows, unless the leaf is a long string. -/
theorem lines_rows_eq_iff
    (h : Document.parse text = .ok root)
    (hLeads : root.Leads (init ++ [leaf])) :
    Text.lines
          (['\n'].intercalate (rows text (init ++ [leaf]))) =
        rows text (init ++ [leaf]) ↔
      ¬ (leaf.kind = .stringValue ∧
        '\n' ∈ leaf.name.toList) := by
  have hUnbroken := Document.parse_unbroken h
    (hLeads.holds List.mem_concat_self)
  rw [lines_rows h hLeads, rows_concat, List.append_right_inj,
    Text.lines_eq_singleton_iff, ← List.count_eq_zero,
    Node.count_row hUnbroken.2, List.count_eq_zero, not_and]
  constructor
  · exact fun hPlain _ => hPlain
  · intro hString hMem
    by_cases hKind : leaf.kind = .stringValue
    · exact hString hKind hMem
    · exact hUnbroken.1 hKind hMem

end Chain

------------------------------------------------------------
-- The Nodes Command
------------------------------------------------------------

namespace Command

variable {w : Surroundings}
variable {o : Options}
variable {arguments : List String}
variable {source text : String}
variable {root : Node}

/- What is written for a document: the rows of the chain. -/
theorem runNodes_text
    (hLine : 0 ≤ o.line)
    (hCharacter : 0 ≤ o.character)
    (hQuery : readQuery w arguments = .ok (source, text))
    (hRoot : Document.parse text.toList = .ok root) :
    let chain :=
      Chain.resolve root
        ((⟨o.line, o.character⟩ : Position).offsetIn
          text.toList)
    let outcome := runNodes w o .text arguments
    outcome.error = none ∧
      outcome.stdout =
        String.ofList
            (['\n'].intercalate (chain.rows text.toList)) ++
          "\n" := by
  have hPosition :
      position o = .ok ⟨o.line, o.character⟩ :=
    if_pos ⟨hLine, hCharacter⟩
  intro chain outcome
  have hOutcome :
      outcome.error = none ∧
        outcome.stdout =
          "\n".intercalate
              ((NodeEntry.ofChain text.toList chain).map
                NodeEntry.line) ++
            "\n" := by
    simp only [outcome]
    unfold runNodes
    rw [hPosition, hQuery]
    dsimp only
    rw [hRoot]
    exact ⟨rfl, rfl⟩
  have hRows :
      ("\n".intercalate
        ((NodeEntry.ofChain text.toList chain).map
          NodeEntry.line)).toList =
        ['\n'].intercalate (chain.rows text.toList) := by
    rw [String.toList_intercalate, List.map_map]
    exact congrArg ['\n'].intercalate
      (NodeEntry.map_line text.toList chain)
  rw [← hRows, String.ofList_toList]
  exact hOutcome

/-
  What is listed for a document as text. The rows of all nodes
  but the innermost are lines of their own, and the rest are
  the lines of that last row: one, and one more for each
  newline in its name. So the lines are the rows of the chain,
  one for each node, if and only if the innermost node is not
  a string that has a newline.
-/
theorem nodes_lists_chain
    (hLine : 0 ≤ o.line)
    (hCharacter : 0 ≤ o.character)
    (hQuery : readQuery w arguments = .ok (source, text))
    (hRoot : Document.parse text.toList = .ok root) :
    let chain :=
      Chain.resolve root
        ((⟨o.line, o.character⟩ : Position).offsetIn
          text.toList)
    let outcome := runNodes w o .text arguments
    ∃ written init leaf,
      chain = init ++ [leaf] ∧ outcome.error = none ∧
        outcome.stdout = String.ofList written ++ "\n" ∧
        Text.lines written =
          Chain.rows text.toList init ++
            Text.lines (leaf.row text.toList init.length) ∧
        (Text.lines written).length =
          chain.length + leaf.name.toList.count '\n' ∧
        (Text.lines written = chain.rows text.toList ↔
          ¬ (leaf.kind = .stringValue ∧
            '\n' ∈ leaf.name.toList)) := by
  intro chain outcome
  have hLeads : root.Leads chain := Chain.leads_resolve _ _
  have hText := runNodes_text hLine hCharacter hQuery hRoot
  rcases Chain.exists_leaf hLeads with ⟨init, leaf, hChain⟩
  refine ⟨['\n'].intercalate (chain.rows text.toList), init,
    leaf, hChain, hText.1, hText.2, ?_⟩
  rw [hChain] at hLeads ⊢
  exact ⟨Chain.lines_rows hRoot hLeads,
    Chain.length_lines_rows hRoot hLeads,
    Chain.lines_rows_eq_iff hRoot hLeads⟩

/- A field with an alias, inside three other nodes. -/
theorem nodes_lists_chain_aliased :
    let w : Surroundings :=
      { directory := "/"
        read := fun path => .error (.missing path)
        input := "\x7ba:b\x7d"
        color := false }
    let o : Options := { character := 3 }
    ∃ root written,
      0 ≤ o.line ∧ 0 ≤ o.character ∧
        readQuery w [] = .ok ("stdin", w.input) ∧
        Document.parse w.input.toList = .ok root ∧
        (runNodes w o .text []).stdout =
          String.ofList written ++ "\n" ∧
        Text.lines written =
          [ "Document 0:0-0:5".toList,
            "  OperationDefinition 0:0-0:5".toList,
            "    SelectionSet 0:0-0:5".toList,
            "      Field a: b 0:1-0:4".toList ] := by
  intro w o
  have hQuery : readQuery w [] = .ok ("stdin", w.input) :=
    rfl
  have hOffset :
      (⟨o.line, o.character⟩ : Position).offsetIn
        w.input.toList = 3 := by
    decide +kernel
  rcases exists_leaf w.input.toList ((3 : Nat) : Int)
      (fun leaf ancestors =>
        (leaf.kind,
          Chain.rows w.input.toList (leaf :: ancestors).reverse))
      (show _ = some
        (Node.Kind.field,
          [ "Document 0:0-0:5".toList,
            "  OperationDefinition 0:0-0:5".toList,
            "    SelectionSet 0:0-0:5".toList,
            "      Field a: b 0:1-0:4".toList ]) by
        decide +kernel) with
    ⟨root, leaf, ancestors, hRoot, hChain, hView⟩
  simp only [Prod.mk.injEq] at hView
  rcases nodes_lists_chain (o := o) (by decide) (by decide)
      hQuery hRoot with
    ⟨written, init, leaf', hInit, _, hStdout, _, _, hIff⟩
  rw [hOffset, hChain] at hIff hInit
  have hLeaf : leaf = leaf' := by
    rw [List.reverse_cons] at hInit
    exact (List.cons.inj
      (List.append_inj_right' hInit rfl)).1
  refine ⟨root, written, by decide, by decide, hQuery, hRoot,
    hStdout, (hIff.mpr ?_).trans hView.2⟩
  rw [← hLeaf, hView.1]
  rintro ⟨hKind, _⟩
  cases hKind

/-
  A string with an escaped newline: six nodes, and seven
  lines.
-/
theorem nodes_breaks_string :
    let w : Surroundings :=
      { directory := "/"
        read := fun path => .error (.missing path)
        input := "\x7bf(a:\"x\\ny\")\x7d"
        color := false }
    let o : Options := { character := 6 }
    ∃ root written,
      Document.parse w.input.toList = .ok root ∧
        (Chain.resolve root 6).length = 6 ∧
        (runNodes w o .text []).stdout =
          String.ofList written ++ "\n" ∧
        Text.lines written =
          [ "Document 0:0-0:13".toList,
            "  OperationDefinition 0:0-0:13".toList,
            "    SelectionSet 0:0-0:13".toList,
            "      Field f 0:1-0:12".toList,
            "        Argument a 0:3-0:11".toList,
            "          StringValue x".toList,
            "y 0:5-0:11".toList ] := by
  intro w o
  have hQuery : readQuery w [] = .ok ("stdin", w.input) :=
    rfl
  have hOffset :
      (⟨o.line, o.character⟩ : Position).offsetIn
        w.input.toList = 6 := by
    decide +kernel
  rcases exists_leaf w.input.toList ((6 : Nat) : Int)
      (fun leaf ancestors =>
        let chain := (leaf :: ancestors).reverse
        (chain.length,
          Text.lines
            (['\n'].intercalate
              (Chain.rows w.input.toList chain))))
      (show _ = some
        (6,
          [ "Document 0:0-0:13".toList,
            "  OperationDefinition 0:0-0:13".toList,
            "    SelectionSet 0:0-0:13".toList,
            "      Field f 0:1-0:12".toList,
            "        Argument a 0:3-0:11".toList,
            "          StringValue x".toList,
            "y 0:5-0:11".toList ]) by
        decide +kernel) with
    ⟨root, leaf, ancestors, hRoot, hChain, hView⟩
  simp only [Prod.mk.injEq] at hView
  have hStdout := (runNodes_text (o := o) (by decide)
    (by decide) hQuery hRoot).2
  rw [hOffset, hChain] at hStdout
  exact ⟨root, _, hRoot,
    (congrArg List.length hChain).trans hView.1, hStdout,
    hView.2⟩

end Command

end QueryHover
