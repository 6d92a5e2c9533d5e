import QueryHover.Proofs.Edges
import QueryHover.Proofs.Variables

/-
  Names without line ends.

  Only the text of a string may have more than one line. The
  names and numbers of a text have no newline, and so neither
  do the names and aliases of its nodes, strings apart.

  Main declarations:
    * `Token.Unbroken`
    * `Scanner.step_unbroken`
    * `TokenStream.ofText_unbroken`
    * `Node.Unbroken`
    * `Document.parse_unbroken`
-/

namespace QueryHover

/- A name or a number without a newline. -/
def Token.Unbroken
    (t : Token) : Prop :=
  t.kind ∈ [Token.Kind.name, .int, .float] →
    '\n' ∉ t.value.toList

------------------------------------------------------------
-- Single Steps
------------------------------------------------------------

namespace Scanner

/- No newline has been read of a name or a number. -/
def Mode.Unbroken :
    Mode → Prop
  | .name _ read | .number _ read _ => '\n' ∉ read
  | _ => True

/- A step that reads no newline into a name or a number. -/
abbrev Step.Unbroken
    (offset : Nat) :
    Step → Prop :=
  Step.Keeps Mode.Unbroken Token.Unbroken offset

variable {s : Scanner}
variable {c : Char}

/- A token of any other kind. -/
theorem unbroken_of_kind
    {t : Token}
    (kind : Token.Kind)
    (hKind : t.kind = kind)
    (h : kind ∉ [Token.Kind.name, .int, .float]) :
    t.Unbroken :=
  fun hMem => absurd (hKind ▸ hMem) h

theorem unbroken_empty
    (kind : Token.Kind)
    (start stop : Nat) :
    (s.token kind [] start stop).Unbroken := by
  intro _
  simp [token]

theorem unbroken_read
    {read : List Char}
    (h : '\n' ∉ read)
    (kind : Token.Kind)
    (start stop : Nat) :
    (s.token kind read.reverse start stop).Unbroken := by
  intro _
  simpa [token] using h

theorem stepBlank_unbroken :
    (s.stepBlank c).Unbroken (s.offset + 1) := by
  unfold stepBlank
  refine iteInduction (fun _ => goOn_keeps rfl trivial)
    fun _ => ?_
  refine iteInduction (fun _ => newLine_keeps rfl trivial)
    fun hNewline => ?_
  have hFirst : '\n' ∉ [c] := by
    simpa using Ne.symm hNewline
  refine iteInduction (fun _ => newLine_keeps rfl trivial)
    fun _ => ?_
  refine iteInduction (fun _ => goOn_keeps rfl trivial)
    fun _ => ?_
  refine iteInduction (fun _ => goOn_keeps rfl hFirst)
    fun _ => ?_
  refine iteInduction (fun _ => goOn_keeps rfl hFirst)
    fun _ => ?_
  refine iteInduction (fun _ => goOn_keeps rfl hFirst)
    fun _ => ?_
  refine iteInduction (fun _ => goOn_keeps rfl hFirst)
    fun _ => ?_
  refine iteInduction (fun _ => goOn_keeps rfl trivial)
    fun _ => ?_
  refine iteInduction (fun _ => goOn_keeps rfl trivial)
    fun _ => ?_
  cases punctuator? c with
  | none => exact stopAt_keeps _ _
  | some kind =>
      exact emit_keeps rfl trivial
        (unbroken_empty kind _ _)

theorem stepNumber_unbroken
    {read : List Char}
    (h : '\n' ∉ read)
    (start : Nat)
    (part : NumberPart) :
    (s.stepNumber start read part c).Unbroken
      (s.offset + 1) := by
  unfold stepNumber
  cases hNext : part.next? c with
  | some after =>
      refine goOn_keeps rfl ?_
      have hShows := NumberPart.shows_of_next? hNext
      exact List.not_mem_cons_of_ne_of_not_mem
        (Ne.symm hShows.1) h
  | none =>
      refine iteInduction (fun _ => stopAt_keeps _ _)
        fun _ => ?_
      cases part.kind? with
      | none => exact stopAt_keeps _ _
      | some kind =>
          exact stepBlank_unbroken.after (unbroken_read h _ _ _)

theorem stepString_unbroken
    (start : Nat)
    (read : List Char) :
    (s.stepString start read c).Unbroken (s.offset + 1) := by
  unfold stepString
  refine iteInduction (fun _ => emit_keeps rfl trivial
    (unbroken_of_kind .string rfl (by decide))) fun _ => ?_
  refine iteInduction (fun _ => goOn_keeps rfl trivial)
    fun _ => ?_
  exact iteInduction (fun _ => stopAt_keeps _ _) fun _ =>
    goOn_keeps rfl trivial

theorem stepBlock_unbroken
    (start : Nat)
    (read : List Char) :
    (s.stepBlock start read c).Unbroken (s.offset + 1) := by
  unfold stepBlock
  refine iteInduction (fun _ => goOn_keeps rfl trivial)
    fun _ => ?_
  refine iteInduction (fun _ => goOn_keeps rfl trivial)
    fun _ => ?_
  refine iteInduction (fun _ => newLine_keeps rfl trivial)
    fun _ => ?_
  refine iteInduction (fun _ => newLine_keeps rfl trivial)
    fun _ => ?_
  exact iteInduction (fun _ => stopAt_keeps _ _) fun _ =>
    goOn_keeps rfl trivial

/- Every step keeps names and numbers without newlines. -/
theorem step_unbroken
    (hMode : s.mode.Unbroken)
    (c : Char) :
    (s.step c).Unbroken (s.offset + 1) := by
  unfold step
  cases hCase : s.mode
  all_goals
    rw [hCase] at hMode
  case blank => exact stepBlank_unbroken
  case blankAfterReturn =>
    exact iteInduction (fun _ => goOn_keeps rfl trivial)
      fun _ => stepBlank_unbroken
  case comment start read =>
    refine iteInduction (fun _ => ?_)
      fun _ => goOn_keeps rfl trivial
    exact stepBlank_unbroken.after
      (unbroken_of_kind .comment rfl (by decide))
  case name start read =>
    refine iteInduction (fun hPart => ?_) fun _ => ?_
    · refine goOn_keeps rfl
        (List.not_mem_cons_of_ne_of_not_mem ?_ hMode)
      rintro rfl
      exact absurd hPart (by decide)
    · exact stepBlank_unbroken.after
        (unbroken_read hMode _ _ _)
  case number start read part =>
    exact stepNumber_unbroken hMode start part
  case dots start count =>
    refine iteInduction (fun _ => ?_)
      fun _ => stopAt_keeps _ _
    refine iteInduction (fun _ => goOn_keeps rfl trivial)
      fun _ => ?_
    exact emit_keeps rfl trivial
      (unbroken_of_kind .spread rfl (by decide))
  case quotes start count =>
    refine iteInduction (fun _ => ?_) fun _ => ?_
    · exact iteInduction (fun _ => goOn_keeps rfl trivial)
        fun _ => stepString_unbroken start []
    · refine iteInduction (fun _ => goOn_keeps rfl trivial)
        fun _ => ?_
      exact stepBlank_unbroken.after
        (unbroken_of_kind .string rfl (by decide))
  case string start read escape =>
    exact stepString_unbroken start read
  case stringEscape start read =>
    refine iteInduction (fun _ => goOn_keeps rfl trivial)
      fun _ => ?_
    cases unescape? c with
    | some d => exact goOn_keeps rfl trivial
    | none => exact stopAt_keeps _ _
  case stringCode start read escape digits =>
    refine iteInduction (fun _ => stopAt_keeps _ _)
      fun _ => ?_
    exact iteInduction (fun _ => goOn_keeps rfl trivial)
      fun _ => goOn_keeps rfl trivial
  case block start read =>
    exact stepBlock_unbroken start read
  case blockAfterReturn start read =>
    refine iteInduction (fun _ => ?_) fun _ =>
      stepBlock_unbroken start read
    exact ⟨List.forall_mem_nil _, trivial, rfl⟩
  case blockEscape start read quotes =>
    refine iteInduction (fun _ => ?_) fun _ =>
      stepBlock_unbroken start _
    exact iteInduction (fun _ => goOn_keeps rfl trivial)
      fun _ => goOn_keeps rfl trivial
  case blockQuotes start read quotes =>
    refine iteInduction (fun _ => goOn_keeps rfl trivial)
      fun _ => ?_
    refine iteInduction (fun _ => stepBlock_unbroken start _)
      fun _ => ?_
    exact stepBlank_unbroken.after
      (unbroken_of_kind .blockString rfl (by decide))

theorem finish_unbroken
    (hMode : s.mode.Unbroken) :
    ∀ t ∈ s.finish.tokens, t.Unbroken := by
  unfold finish
  cases hCase : s.mode with
  | comment start read =>
      exact List.forall_mem_singleton.mpr
        (unbroken_of_kind .comment rfl (by decide))
  | name start read =>
      rw [hCase] at hMode
      exact List.forall_mem_singleton.mpr
        (unbroken_read hMode _ _ _)
  | number start read part =>
      rw [hCase] at hMode
      dsimp only
      cases part.kind? with
      | none => exact List.forall_mem_nil _
      | some kind =>
          exact List.forall_mem_singleton.mpr
            (unbroken_read hMode _ _ _)
  | quotes start count =>
      dsimp only
      split_ifs
      · exact List.forall_mem_nil _
      · exact List.forall_mem_singleton.mpr
          (unbroken_of_kind .string rfl (by decide))
  | blockQuotes start read quotes =>
      dsimp only
      split_ifs
      · exact List.forall_mem_nil _
      · exact List.forall_mem_singleton.mpr
          (unbroken_of_kind .blockString rfl (by decide))
  | string start read escape =>
      cases escape with
      | none => exact List.forall_mem_nil _
      | some code => exact List.forall_mem_nil _
  | _ => exact List.forall_mem_nil _

end Scanner

/- No name and no number of a text has a newline. -/
theorem TokenStream.ofText_unbroken
    (file : String)
    (text : List Char)
    {t : Token}
    (ht : t ∈ (ofText file text).ahead) :
    t.Unbroken := by
  refine ofText_keeps (P := fun _ => Scanner.Mode.Unbroken)
    (Q := fun _ => Token.Unbroken) ?_ ?_ ?_ trivial file text
    ht
  · intro text cs t h
    exact h
  · intro s front c hOffset _ hMode
    have hStep := Scanner.step_unbroken hMode c
    rwa [Scanner.next_offset hOffset] at hStep
  · intro s front _ _ hMode
    exact Scanner.finish_unbroken hMode

------------------------------------------------------------
-- Nodes
------------------------------------------------------------

/- A node whose name and alias have no newline. -/
def Node.Unbroken
    (n : Node) : Prop :=
  (n.kind ≠ .stringValue → '\n' ∉ n.name.toList) ∧
    '\n' ∉ n.aliasName.toList

namespace Phrase

variable {p : Phrase}
variable {ts : List Token}
variable {ns : List Node}

/- A single token that is no string names its value. -/
theorem unbroken_scalar
    {t : Token}
    (hScalar : IsScalar t)
    (h : t.Unbroken)
    (hKind : Node.Reading.scalarKind t ≠ .stringValue) :
    '\n' ∉ t.value.toList := by
  apply h
  unfold Node.Reading.scalarKind at hKind
  rcases hScalar with hCase | hCase | hCase | hCase | hCase
  · simp [hCase]
  · simp [hCase]
  · simp [hCase] at hKind
  · simp [hCase] at hKind
  · simp [hCase]

/- A single node whose name and alias have no newline. -/
theorem unbroken_over
    {us : List Token}
    {n : Node}
    (hName : '\n' ∉ n.name.toList)
    (hAlias : '\n' ∉ n.aliasName.toList) :
    ∀ m ∈ [Node.over us n], m.Unbroken :=
  List.forall_mem_singleton.mpr ⟨fun _ => hName, hAlias⟩

/- The name of the only node of a phrase without strings. -/
theorem Spells.name_unbroken
    {n : Node}
    (h : Spells p ts [n])
    (hNodes : ∀ m ∈ [n], m.Unbroken)
    (hKinds : .stringValue ∉ p.kinds) :
    '\n' ∉ n.name.toList := by
  apply (hNodes n List.mem_cons_self).1
  intro hKind
  have hMem := h.mem_kinds n List.mem_cons_self
  exact hKinds (hKind ▸ hMem)

/-
  Names without newlines spell nodes without them. The
  induction is over the derivation.
-/
theorem Spells.unbroken
    (h : Spells p ts ns) :
    (∀ t ∈ ts, t.Unbroken) → ∀ n ∈ ns, n.Unbroken := by
  induction h with
  | nil | absent => exact fun _ => List.forall_mem_nil _
  | cons hItem hRest ihItem ihRest =>
      intro hTokens
      rw [List.forall_mem_append] at hTokens
      rw [List.forall_mem_cons]
      exact ⟨ihItem hTokens.1 _ List.mem_cons_self,
        ihRest hTokens.2⟩
  | present hItem ih => exact ih
  | plainType hType ih => exact ih
  | nullable hType ih => exact ih
  | reference hVariable ih => exact ih
  | parens hOpen hItems hSome hClose ih =>
      intro hTokens
      rw [List.forall_mem_append, List.forall_mem_cons]
        at hTokens
      exact ih hTokens.1.2
  | initial hEquals hValue ih =>
      intro hTokens
      exact ih (List.forall_mem_cons.mp hTokens).2
  | listType | list | object | selectionSet | inlineFragment
  | shorthand =>
      exact fun _ => unbroken_over (by simp) (by simp)
  | nonNull hType hBang ih =>
      intro hTokens
      have hNodes := ih (List.forall_mem_append.mp hTokens).1
      exact unbroken_over
        (hType.name_unbroken hNodes (by decide)) (by simp)
  | scalar hScalar =>
      intro hTokens
      rw [List.forall_mem_singleton] at hTokens ⊢
      exact ⟨unbroken_scalar hScalar hTokens, by simp [Node.over]⟩
  | variableDefinition hVariable _ _ _ _ ih =>
      intro hTokens
      have hNodes := ih (List.forall_mem_append.mp hTokens).1
      exact unbroken_over
        (hVariable.name_unbroken hNodes (by decide)) (by simp)
  | typedFragment _ _ hCondition _ _ ih =>
      intro hTokens
      simp only [List.forall_mem_cons, List.forall_mem_append]
        at hTokens
      have hNodes := ih hTokens.2.2.1
      exact unbroken_over
        (hCondition.name_unbroken hNodes (by decide)) (by simp)
  | operation hKeyword hOperation hName =>
      rename_i name _ _ _ _ _ _ _ _ _ _ _ _ _
      intro hTokens
      cases name with
      | none => exact unbroken_over (by simp) (by simp)
      | some t =>
          refine unbroken_over (hTokens t ?_
            (by simp [hName t rfl])) (by simp)
          simp
  | aliasedField hAlias hColon hName =>
      intro hTokens
      simp only [List.forall_mem_cons] at hTokens
      exact unbroken_over (hTokens.2.2.1 (by simp [hName]))
        (hTokens.1 (by simp [hAlias]))
  | namedType hName | entry _ hName | field hName =>
      intro hTokens
      simp only [List.forall_mem_cons] at hTokens
      exact unbroken_over (hTokens.1 (by simp [hName]))
        (by simp)
  | variableUse _ hName | directive _ hName
  | fragmentSpread _ hName | fragmentDefinition _ hName =>
      intro hTokens
      simp only [List.forall_mem_cons] at hTokens
      exact unbroken_over (hTokens.2.1 (by simp [hName]))
        (by simp)

end Phrase

/- The names of a tree have no newlines, strings apart. -/
theorem Document.parse_unbroken
    {text : List Char}
    {root n : Node}
    (h : parse text = .ok root)
    (hn : root.Holds n) :
    n.Unbroken := by
  rcases Relation.reflTransGen_iff_eq_or_transGen.mp hn with
    rfl | hAbove
  · rcases parse_eq_ok_iff.mp h with ⟨_, rfl⟩
    have hEmpty : '\n' ∉ "".toList := by
      decide
    exact ⟨fun _ => hEmpty, hEmpty⟩
  · rcases parse_spelledIn h hAbove with
      ⟨_, _, _, hInfix, hSpells, hMem⟩
    refine hSpells.unbroken ?_ n hMem
    intro t ht
    exact TokenStream.ofText_unbroken "input" text
      (hInfix.subset ht)

end QueryHover
