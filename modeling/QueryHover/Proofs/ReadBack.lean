import Mathlib.Tactic.SplitIfs
import QueryHover.Proofs.Agreement

/-
  Reading a tree back.

  The words of a node are what it says in the order of the
  grammar: its keyword, names and punctuators, and the words
  of its children. A tree that was read from a text says what
  the tokens of the text say. Three things are lost: which of
  the two kinds of quotes a string has, whether the `on` after
  a spread was quoted, and, but for its place, the keyword of
  a query.

  Main declarations:
    * `Node.words`
    * `Word.settle`
    * `Phrase.Spells.says`
    * `Document.parse_reads_back`
-/

namespace QueryHover

------------------------------------------------------------
-- The Words of a Tree
------------------------------------------------------------

namespace Word

/- The word of a punctuator. -/
def mark
    (kind : Token.Kind) : Word :=
  (kind, "")

/- Words between two others, if there are any. -/
def surround
    (before after words : List Word) : List Word :=
  if words = [] then [] else before ++ words ++ after

/- Words in parentheses, if there are any. -/
def parenthesise
    (words : List Word) : List Word :=
  surround [mark .parenL] [mark .parenR] words

/- A name that may be left out. -/
def ofName?
    (name : String) : List Word :=
  if name = "" then [] else [(.name, name)]

end Word

namespace Node

/- A node that starts where its selections start. -/
def startsAtSelections
    (span : Span)
    (children : List Node) : Bool :=
  let selections :=
    children.find? fun c => c.kind = .selectionSet
  selections.map (fun c => c.span.start) = some span.start

mutual

/- What a node says, in the order of the grammar. -/
def words :
    Node → List Word
  | ⟨kind, span, name, _, aliasName, operation, children⟩ =>
      match kind with
      | .document => wordsAmong Kind.definitions children
      | .operationDefinition =>
          if startsAtSelections span children then
            wordsAmong [.selectionSet] children
          else
            operation.toList.map
                (fun o => (.name, o.keyword)) ++
              Word.ofName? name ++
              Word.parenthesise
                (wordsAmong [.variableDefinition] children) ++
              wordsAmong [.directive] children ++
              wordsAmong [.selectionSet] children
      | .fragmentDefinition =>
          [(.name, "fragment"), (.name, name)] ++
            Word.parenthesise
              (wordsAmong [.variableDefinition] children) ++
            Word.surround [(.name, "on")] []
              (wordsAmong [.namedType] children) ++
            wordsAmong [.directive] children ++
            wordsAmong [.selectionSet] children
      | .variableDefinition =>
          wordsAmong [.variableUse] children ++
            [Word.mark .colon] ++
            wordsAmong Kind.types children ++
            Word.surround [Word.mark .equals] []
              (wordsAmong Kind.constants children) ++
            wordsAmong [.directive] children
      | .variableUse => [Word.mark .dollar, (.name, name)]
      | .namedType => [(.name, name)]
      | .listType =>
          [Word.mark .bracketL] ++
            wordsAmong Kind.types children ++
            [Word.mark .bracketR]
      | .nonNullType =>
          wordsAmong Kind.types children ++ [Word.mark .bang]
      | .selectionSet =>
          [Word.mark .braceL] ++
            wordsAmong Kind.selections children ++
            [Word.mark .braceR]
      | .field =>
          Word.surround [] [Word.mark .colon]
              (Word.ofName? aliasName) ++
            [(.name, name)] ++
            Word.parenthesise
              (wordsAmong [.argument] children) ++
            wordsAmong [.directive] children ++
            wordsAmong [.selectionSet] children
      | .argument | .objectField =>
          [(.name, name), Word.mark .colon] ++
            wordsAmong (.variableUse :: Kind.constants)
              children
      | .directive =>
          [Word.mark .atSign, (.name, name)] ++
            Word.parenthesise
              (wordsAmong [.argument] children)
      | .fragmentSpread =>
          [Word.mark .spread, (.name, name)] ++
            wordsAmong [.directive] children
      | .inlineFragment =>
          [Word.mark .spread] ++
            Word.surround [(.name, "on")] []
              (wordsAmong [.namedType] children) ++
            wordsAmong [.directive] children ++
            wordsAmong [.selectionSet] children
      | .intValue => [(.int, name)]
      | .floatValue => [(.float, name)]
      | .stringValue => [(.string, name)]
      | .booleanValue | .nullValue | .enumValue =>
          [(.name, name)]
      | .listValue =>
          [Word.mark .bracketL] ++
            wordsAmong (.variableUse :: Kind.constants)
              children ++
            [Word.mark .bracketR]
      | .objectValue =>
          [Word.mark .braceL] ++
            wordsAmong [.objectField] children ++
            [Word.mark .braceR]
      | .unknown _ => []

/- What those of some nodes say that are of certain kinds. -/
def wordsAmong
    (kinds : List Node.Kind) :
    List Node → List Word
  | [] => []
  | n :: ns =>
      (if n.kind ∈ kinds then words n else []) ++
        wordsAmong kinds ns

end

/- What some nodes say. -/
def allWords
    (ns : List Node) : List Word :=
  ns.flatMap words

@[simp]
theorem allWords_nil :
    allWords [] = [] :=
  rfl

@[simp]
theorem allWords_cons
    (n : Node)
    (ns : List Node) :
    allWords (n :: ns) = n.words ++ allWords ns :=
  rfl

theorem wordsAmong_append
    (kinds : List Node.Kind)
    (ns ms : List Node) :
    wordsAmong kinds (ns ++ ms) =
      wordsAmong kinds ns ++ wordsAmong kinds ms := by
  induction ns with
  | nil => rfl
  | cons n ns ih =>
      simp only [List.cons_append, wordsAmong, ih,
        List.append_assoc]

theorem wordsAmong_of_mem
    {kinds : List Node.Kind}
    {ns : List Node}
    (h : ∀ n ∈ ns, n.kind ∈ kinds) :
    wordsAmong kinds ns = allWords ns := by
  induction ns with
  | nil => rfl
  | cons n ns ih =>
      have hRest := ih fun m hm =>
        h m (List.mem_cons_of_mem n hm)
      rw [wordsAmong, if_pos (h n List.mem_cons_self), hRest,
        allWords_cons]

theorem wordsAmong_of_not_mem
    {kinds : List Node.Kind}
    {ns : List Node}
    (h : ∀ n ∈ ns, n.kind ∉ kinds) :
    wordsAmong kinds ns = [] := by
  induction ns with
  | nil => rfl
  | cons n ns ih =>
      have hRest := ih fun m hm =>
        h m (List.mem_cons_of_mem n hm)
      rw [wordsAmong, if_neg (h n List.mem_cons_self), hRest,
        List.append_nil]

end Node

------------------------------------------------------------
-- What is Lost
------------------------------------------------------------

namespace Word

/-
  What a tree keeps of a word: all strings look alike, and
  after a spread the string `on` looks like the name.
-/
def kept
    (afterSpread : Bool)
    (word : Word) : Word :=
  match word.1 with
  | .string | .blockString =>
      if afterSpread && word.2 = "on" then (.name, "on")
      else (.string, word.2)
  | _ => word

/- What a tree keeps of the words of a text. -/
def settle
    (afterSpread : Bool) :
    List Word → List Word
  | [] => []
  | w :: ws =>
      w.kept afterSpread :: settle (w.1 = .spread) ws

theorem length_settle
    (afterSpread : Bool)
    (ws : List Word) :
    (settle afterSpread ws).length = ws.length := by
  induction ws generalizing afterSpread with
  | nil => rfl
  | cons w ws ih =>
      simp only [settle, List.length_cons, ih]

/- A spread matters only to a string right after it. -/
theorem settle_cons_of_ne
    {w : Word}
    (hString : w.1 ≠ .string)
    (hBlock : w.1 ≠ .blockString)
    (afterSpread : Bool)
    (ws : List Word) :
    settle afterSpread (w :: ws) = settle false (w :: ws) := by
  have hKept : ∀ b, w.kept b = w := by
    intro b
    unfold kept
    split
    · exact absurd ‹_› hString
    · exact absurd ‹_› hBlock
    · rfl
  rw [settle, settle, hKept, hKept]

end Word

/-
  Tokens that say certain words, whatever tokens follow: they
  do not end in a spread.
-/
def Token.Say
    (ts : List Token)
    (words : List Word) : Prop :=
  ∀ us : List Token,
    Word.settle false ((ts ++ us).map Token.word) =
      words ++ Word.settle false (us.map Token.word)

namespace Token.Say

variable {ts us : List Token}
variable {ws vs : List Word}
variable {t : Token}

theorem nil :
    Token.Say [] [] :=
  fun _ => rfl

theorem append
    (hLeft : Token.Say ts ws)
    (hRight : Token.Say us vs) :
    Token.Say (ts ++ us) (ws ++ vs) := by
  intro rest
  rw [List.append_assoc, hLeft, hRight, List.append_assoc]

theorem of_eq
    (h : Token.Say ts ws)
    (hWords : vs = ws) :
    Token.Say ts vs := by
  rw [hWords]
  exact h

/- Tokens say as many words as there are tokens. -/
theorem ne_nil
    (h : Token.Say ts ws)
    (hSome : ts ≠ []) :
    ws ≠ [] := by
  have hLength := congrArg List.length (h [])
  simp only [Word.length_settle, List.length_map,
    List.append_nil, List.map_nil, Word.settle] at hLength
  intro hNil
  rw [hNil] at hLength
  exact hSome (List.length_eq_zero_iff.mp hLength)

theorem surround
    {os cs : List Token}
    {before after : List Word}
    (hBefore : Token.Say os before)
    (hInside : Token.Say ts ws)
    (hAfter : Token.Say cs after)
    (hSome : ts ≠ []) :
    Token.Say (os ++ ts ++ cs)
      (Word.surround before after ws) := by
  rw [Word.surround, if_neg (hInside.ne_nil hSome)]
  exact (hBefore.append hInside).append hAfter

end Token.Say

/- The punctuators other than a spread. -/
def Token.Kind.marks : List Token.Kind :=
  [ .bang, .dollar, .parenL, .parenR, .colon, .equals,
    .atSign, .bracketL, .bracketR, .braceL, .braceR ]

namespace Token.Say

variable {ts : List Token}
variable {ws : List Word}
variable {t : Token}

theorem name
    (hName : t.kind = .name) :
    Token.Say [t] [(.name, t.value)] := by
  intro rest
  simp [Word.settle, Word.kept, Token.word, hName]

theorem mark
    {kind : Token.Kind}
    (hProper : t.Proper)
    (hKind : t.kind = kind)
    (hMark : kind ∈ Token.Kind.marks) :
    Token.Say [t] [Word.mark kind] := by
  intro rest
  subst hKind
  have hValue : t.value = "" := by
    cases hKind : t.kind
    all_goals simp [Token.Proper, hKind] at hProper
    all_goals first
      | exact hProper
      | simp [hKind, Token.Kind.marks] at hMark
  cases hKind : t.kind
  all_goals simp [hKind, Token.Kind.marks] at hMark
  all_goals
    simp [Word.settle, Word.kept, Token.word, hKind,
      Word.mark, hValue]

theorem word
    {text : String}
    (hWord : t.isWord text) :
    Token.Say [t] [(.name, text)] := by
  simp only [Token.isWord, Bool.and_eq_true,
    decide_eq_true_eq] at hWord
  have hName := Token.Say.name hWord.1
  rwa [hWord.2] at hName

/- A name that may be left out. -/
theorem name?
    {name : Option Token}
    (hName : ∀ t ∈ name, t.kind = .name)
    (hProper : ∀ t ∈ name, t.Proper) :
    Token.Say name.toList
      (Word.ofName? ((name.map Token.value).getD "")) := by
  cases name with
  | none => exact Token.Say.nil
  | some t =>
      have hKind := hName t rfl
      have hValue := hProper t rfl
      simp only [Token.Proper, hKind] at hValue
      simp only [Word.ofName?, Option.map_some,
        Option.getD_some, if_neg hValue]
      exact Token.Say.name hKind

/- Words between two punctuators. -/
theorem enclose
    {o c : Token}
    {opening closing : Token.Kind}
    (hTokens : ∀ t ∈ [o, c], t.Proper)
    (hOpen : o.kind = opening)
    (hClose : c.kind = closing)
    (hMarks :
      opening ∈ Token.Kind.marks ∧ closing ∈ Token.Kind.marks)
    (hInside : Token.Say ts ws) :
    Token.Say (o :: ts ++ [c])
      ([Word.mark opening] ++ ws ++ [Word.mark closing]) := by
  have hLeft := Token.Say.mark
    (hTokens o (by simp)) hOpen hMarks.1
  have hRight := Token.Say.mark
    (hTokens c (by simp)) hClose hMarks.2
  exact (hLeft.append hInside).append hRight

/- A scalar value says its own token. -/
theorem scalar
    (hScalar : Phrase.IsScalar t) :
    Token.Say [t]
      (Node.over [t]
        { kind := Node.Reading.scalarKind t
          name := t.value
          nameSpan := t.span }).words := by
  intro rest
  rcases hScalar with hKind | hKind | hKind | hKind | hKind
  case inr.inr.inr.inr =>
    simp only [Node.over, Node.Reading.scalarKind, hKind]
    split_ifs
    all_goals
      simp [Word.settle, Word.kept, Token.word, hKind,
        Node.words]
  all_goals
    simp [Word.settle, Word.kept, Token.word, hKind,
      Node.words, Node.over, Node.Reading.scalarKind]

/- A spread before tokens that start with no string. -/
theorem spread
    {e : Token}
    (hSpread : e.kind = .spread)
    (hProper : e.Proper)
    (hWords : Token.Say (t :: ts) ws)
    (hString : t.kind ≠ .string)
    (hBlock : t.kind ≠ .blockString) :
    Token.Say (e :: t :: ts) (Word.mark .spread :: ws) := by
  intro rest
  have hValue : e.value = "" := by
    simpa [Token.Proper, hSpread] using hProper
  have hHead : e.word = Word.mark .spread := by
    simp [Token.word, Word.mark, hSpread, hValue]
  have hTail :=
    Word.settle_cons_of_ne (w := t.word) hString hBlock true
      ((ts ++ rest).map Token.word)
  have hRest := hWords rest
  simp only [List.cons_append, List.map_cons, Word.settle,
    hHead] at hTail hRest ⊢
  simp only [Word.mark, decide_true, hTail]
  rw [← hRest]
  rfl

/- A spread and the word `on`, quoted or not. -/
theorem spreadOn
    {e : Token}
    (hSpread : e.kind = .spread)
    (hProper : e.Proper)
    (hOn : t.value = "on")
    (hWord : t.Proper)
    (hComment : t.kind ≠ .comment) :
    Token.Say [e, t] [Word.mark .spread, (.name, "on")] := by
  intro rest
  have hValue : e.value = "" := by
    simpa [Token.Proper, hSpread] using hProper
  cases hKind : t.kind
  case comment => exact absurd hKind hComment
  all_goals simp [Token.Proper, hKind, hOn] at hWord
  all_goals
    simp [Word.settle, Word.kept, Word.mark, Token.word,
      hSpread, hValue, hKind, hOn]

end Token.Say

------------------------------------------------------------
-- Tokens in Order
------------------------------------------------------------

/- Proper tokens without comments, one after the other. -/
def Token.Orderly
    (ts : List Token) : Prop :=
  (∀ t ∈ ts, t.Proper ∧ t.kind ≠ .comment) ∧
    ∃ lo hi, Token.Between lo hi ts

namespace Token.Orderly

variable {ts us : List Token}
variable {t : Token}

theorem left
    (h : Token.Orderly (ts ++ us)) :
    Token.Orderly ts := by
  rcases h with ⟨hProper, lo, hi, hBetween⟩
  rcases hBetween.divide with ⟨mid, hLeft, hRight⟩
  exact ⟨fun t ht => hProper t (List.mem_append_left us ht),
    lo, mid, hLeft⟩

theorem right
    (h : Token.Orderly (ts ++ us)) :
    Token.Orderly us := by
  rcases h with ⟨hProper, lo, hi, hBetween⟩
  rcases hBetween.divide with ⟨mid, hLeft, hRight⟩
  exact ⟨fun t ht => hProper t (List.mem_append_right ts ht),
    mid, hi, hRight⟩

theorem tail
    (h : Token.Orderly (t :: ts)) :
    Token.Orderly ts :=
  @right [t] ts h

theorem head
    (h : Token.Orderly (t :: ts)) :
    t.Proper :=
  (h.1 t List.mem_cons_self).1

theorem head_ne_comment
    (h : Token.Orderly (t :: ts)) :
    t.kind ≠ .comment :=
  (h.1 t List.mem_cons_self).2

/- The first and the last token are proper. -/
theorem proper_ends
    {o c : Token}
    (h : Token.Orderly (o :: ts ++ [c])) :
    ∀ t ∈ [o, c], t.Proper := by
  intro t ht
  simp only [List.mem_cons, List.not_mem_nil,
    or_false] at ht
  rcases ht with rfl | rfl
  · exact h.left.head
  · exact h.right.head

/- Later tokens start after the first one. -/
theorem start_lt
    (h : Token.Orderly (t :: (ts ++ us)))
    (hSome : us ≠ []) :
    t.start < (Token.extent us).start := by
  rcases h with ⟨_, lo, hi, _, hStop, hBetween⟩
  rcases hBetween.divide with ⟨mid, hLeft, hRight⟩
  have hMid := hLeft.le
  cases us with
  | nil => exact absurd rfl hSome
  | cons u us =>
      have hStart := hRight.1
      simp only [Token.extent, List.head?_cons,
        Option.map_some, Option.getD_some]
      omega

end Token.Orderly

------------------------------------------------------------
-- Phrases Read Back
------------------------------------------------------------

namespace Phrase

/- How the nodes of a phrase are written. -/
def written :
    Phrase → List Node → List Word
  | .many item, ns =>
      ns.flatMap fun n => item.written [n]
  | .optional item, ns => item.written ns
  | .parenthesised item, ns =>
      Word.parenthesise
        (ns.flatMap fun n => item.written [n])
  | .initial, ns =>
      Word.surround [Word.mark .equals] []
        (Node.allWords ns)
  | _, ns => Node.allWords ns

/- Phrases with nothing around the words of their nodes. -/
def plain :
    Phrase → Bool
  | .many item | .optional item => item.plain
  | .parenthesised _ | .initial => false
  | _ => true

theorem written_nil
    (p : Phrase) :
    p.written [] = [] := by
  induction p with
  | optional item ih => exact ih
  | _ => rfl

theorem written_of_plain
    {p : Phrase}
    (hPlain : p.plain = true)
    (ns : List Node) :
    p.written ns = Node.allWords ns := by
  induction p generalizing ns with
  | many item ih =>
      simp only [written, ih hPlain, Node.allWords,
        List.flatMap_cons, List.flatMap_nil,
        List.append_nil]
  | optional item ih => exact ih hPlain ns
  | parenthesised item ih => cases hPlain
  | initial => cases hPlain
  | _ => rfl

theorem written_single
    {p : Phrase}
    (hPlain : p.plain = true)
    (n : Node) :
    p.written [n] = n.words := by
  rw [written_of_plain hPlain, Node.allWords_cons,
    Node.allWords_nil, List.append_nil]

theorem written_parens
    {item : Phrase}
    (hPlain : item.plain = true)
    (ns : List Node) :
    (Phrase.optional (.parenthesised item)).written ns =
      Word.parenthesise (Node.allWords ns) := by
  simp only [written, written_single hPlain, Node.allWords]

variable {p : Phrase}
variable {ts : List Token}
variable {ns : List Node}

theorem Spells.wordsAmong_all
    (h : Spells p ts ns)
    {kinds : List Node.Kind}
    (hKinds : ∀ kind ∈ p.kinds, kind ∈ kinds) :
    Node.wordsAmong kinds ns = Node.allWords ns :=
  Node.wordsAmong_of_mem fun n hn =>
    hKinds n.kind (h.mem_kinds n hn)

theorem Spells.wordsAmong_nil
    (h : Spells p ts ns)
    {kinds : List Node.Kind}
    (hKinds : ∀ kind ∈ p.kinds, kind ∉ kinds) :
    Node.wordsAmong kinds ns = [] :=
  Node.wordsAmong_of_not_mem fun n hn =>
    hKinds n.kind (h.mem_kinds n hn)

/- Selections in braces: the node and its first token. -/
theorem Spells.selectionSet_span
    {n : Node}
    (h : Spells .selectionSet ts [n]) :
    n.kind = .selectionSet ∧ n.span = Token.extent ts := by
  cases h with
  | selectionSet hOpen hItems hSome hClose =>
      exact ⟨rfl, rfl⟩

/- Directives and selections start with no string. -/
theorem Spells.directives_head
    {n : Node}
    {us : List Token}
    (hDirectives : Spells directives ts ns)
    (hSelections : Spells .selectionSet us [n]) :
    ∃ t rest, ts ++ us = t :: rest ∧
      (t.kind = .atSign ∨ t.kind = .braceL) := by
  cases hDirectives with
  | nil =>
      cases hSelections with
      | selectionSet hOpen hItems hSome hClose =>
          exact ⟨_, _, rfl, .inr hOpen⟩
  | cons hItem hRest =>
      cases hItem with
      | directive hAt hName hArguments =>
          exact ⟨_, _, rfl, .inl hAt⟩

theorem keyword_of_ofKeyword?
    {word : String}
    {operation : Operation}
    (h : Operation.ofKeyword? word = some operation) :
    operation.keyword = word := by
  unfold Operation.ofKeyword? at h
  split_ifs at h with hQuery hMutation hSubscription
  all_goals
    cases h
    simp [Operation.keyword, *]

theorem Spells.find?_selectionSet
    (h : Spells p ts ns)
    (hKinds : .selectionSet ∉ p.kinds) :
    ns.find? (fun c => c.kind = .selectionSet) = none := by
  rw [List.find?_eq_none]
  intro c hc hSelections
  rw [decide_eq_true_eq] at hSelections
  exact hKinds (hSelections ▸ h.mem_kinds c hc)

/- An operation with a keyword starts before its selections. -/
theorem startsAtSelections_operation
    {k : Token}
    {ks vs ds ss : List Token}
    {vns dns : List Node}
    {n : Node}
    (hTokens :
      Token.Orderly (k :: (ks ++ (vs ++ (ds ++ ss)))))
    (hVariables : Spells variableDefinitions vs vns)
    (hDirectives : Spells directives ds dns)
    (hSelections : Spells .selectionSet ss [n]) :
    Node.startsAtSelections
        (Token.extent (k :: (ks ++ (vs ++ (ds ++ ss)))))
        (vns ++ dns ++ [n]) = false := by
  rcases hSelections.selectionSet_span with ⟨hKind, hSpan⟩
  have hOrder :
      Token.Orderly (k :: ((ks ++ vs ++ ds) ++ ss)) := by
    simpa only [List.append_assoc] using hTokens
  have hStart := hOrder.start_lt
    (hSelections.ne_nil (by simp))
  have hFirst :
      (Token.extent
        (k :: (ks ++ (vs ++ (ds ++ ss))))).start = k.start :=
    rfl
  have hNe :
      (Token.extent ss).start ≠
        (Token.extent
          (k :: (ks ++ (vs ++ (ds ++ ss))))).start := by
    omega
  simp [Node.startsAtSelections, List.find?_append,
    hVariables.find?_selectionSet (by decide),
    hDirectives.find?_selectionSet (by decide), hKind, hSpan,
    hNe]

------------------------------------------------------------
-- Nodes with Parts
------------------------------------------------------------

/-
  A node with parts says what its parts say: each place of
  the grammar finds the children that were read for it.
-/

variable {as vs cs is ds ss : List Token}
variable {ans vns cns ins dns sns : List Node}
variable {v n : Node}

theorem words_variableDefinition
    (hVariable : Spells .variableUse vs [v])
    (hType : Spells .typeRef ts [n])
    (hInitial : Spells (.optional .initial) is ins)
    (hDirectives : Spells directives ds dns)
    (us : List Token)
    (name : String)
    (nameSpan : Span) :
    (Node.over us
      { kind := .variableDefinition
        name := name
        nameSpan := nameSpan
        children := v :: n :: ins ++ dns }).words =
      Node.allWords [v] ++ ([Word.mark .colon] ++
        (Node.allWords [n] ++
          (Word.surround [Word.mark .equals] []
              (Node.allWords ins) ++
            Node.allWords dns))) := by
  have hChildren :
      v :: n :: ins ++ dns =
        [v] ++ ([n] ++ (ins ++ dns)) := rfl
  simp (disch := decide) only [Node.over, Node.words,
    hChildren, Node.wordsAmong_append,
    hVariable.wordsAmong_all, hVariable.wordsAmong_nil,
    hType.wordsAmong_all, hType.wordsAmong_nil,
    hInitial.wordsAmong_all, hInitial.wordsAmong_nil,
    hDirectives.wordsAmong_all, hDirectives.wordsAmong_nil,
    List.append_nil, List.nil_append, List.append_assoc]

theorem words_field
    (hArguments : Spells arguments as ans)
    (hDirectives : Spells directives ds dns)
    (hSelections : Spells (.optional .selectionSet) ss sns)
    (us : List Token)
    (aliasName name : String)
    (nameSpan : Span) :
    (Node.over us
      { kind := .field
        name := name
        nameSpan := nameSpan
        aliasName := aliasName
        children := ans ++ dns ++ sns }).words =
      Word.surround [] [Word.mark .colon]
          (Word.ofName? aliasName) ++
        ([(.name, name)] ++
          (Word.parenthesise (Node.allWords ans) ++
            (Node.allWords dns ++ Node.allWords sns))) := by
  simp (disch := decide) only [Node.over, Node.words,
    Node.wordsAmong_append,
    hArguments.wordsAmong_all, hArguments.wordsAmong_nil,
    hDirectives.wordsAmong_all, hDirectives.wordsAmong_nil,
    hSelections.wordsAmong_all, hSelections.wordsAmong_nil,
    List.append_nil, List.nil_append, List.append_assoc]

theorem words_inlineFragment
    (hCondition : Spells (.optional .namedType) cs cns)
    (hDirectives : Spells directives ds dns)
    (hSelections : Spells .selectionSet ss [n])
    (us : List Token)
    (name : String)
    (nameSpan : Span) :
    (Node.over us
      { kind := .inlineFragment
        name := name
        nameSpan := nameSpan
        children := cns ++ dns ++ [n] }).words =
      [Word.mark .spread] ++
        (Word.surround [(.name, "on")] []
            (Node.allWords cns) ++
          (Node.allWords dns ++ Node.allWords [n])) := by
  simp (disch := decide) only [Node.over, Node.words,
    Node.wordsAmong_append,
    hCondition.wordsAmong_all, hCondition.wordsAmong_nil,
    hDirectives.wordsAmong_all, hDirectives.wordsAmong_nil,
    hSelections.wordsAmong_all, hSelections.wordsAmong_nil,
    List.append_nil, List.nil_append, List.append_assoc]

/- The keyword is said where the node does not start late. -/
theorem words_operation
    {us : List Token}
    (hVariables : Spells variableDefinitions vs vns)
    (hDirectives : Spells directives ds dns)
    (hSelections : Spells .selectionSet ss [n])
    (hStarts :
      Node.startsAtSelections (Token.extent us)
        (vns ++ dns ++ [n]) = false)
    (operation : Operation)
    (name : String) :
    (Node.over us
      { kind := .operationDefinition
        name := name
        operation := some operation
        children := vns ++ dns ++ [n] }).words =
      [(.name, operation.keyword)] ++
        (Word.ofName? name ++
          (Word.parenthesise (Node.allWords vns) ++
            (Node.allWords dns ++ Node.allWords [n]))) := by
  simp only [Node.over, Node.words, hStarts,
    Bool.false_eq_true, if_false]
  simp (disch := decide) only [Node.wordsAmong_append,
    hVariables.wordsAmong_all, hVariables.wordsAmong_nil,
    hDirectives.wordsAmong_all, hDirectives.wordsAmong_nil,
    hSelections.wordsAmong_all, hSelections.wordsAmong_nil,
    List.append_nil, List.nil_append, List.append_assoc,
    Option.toList_some, List.map_cons, List.map_nil]

theorem words_fragmentDefinition
    (hVariables : Spells variableDefinitions vs vns)
    (hCondition : Spells .namedType cs [v])
    (hDirectives : Spells directives ds dns)
    (hSelections : Spells .selectionSet ss [n])
    (us : List Token)
    (name : String)
    (nameSpan : Span) :
    (Node.over us
      { kind := .fragmentDefinition
        name := name
        nameSpan := nameSpan
        children := vns ++ v :: dns ++ [n] }).words =
      [(.name, "fragment"), (.name, name)] ++
        (Word.parenthesise (Node.allWords vns) ++
          (Word.surround [(.name, "on")] []
              (Node.allWords [v]) ++
            (Node.allWords dns ++ Node.allWords [n]))) := by
  have hChildren :
      vns ++ v :: dns ++ [n] =
        vns ++ ([v] ++ (dns ++ [n])) := by
    simp
  simp (disch := decide) only [Node.over, Node.words,
    hChildren, Node.wordsAmong_append,
    hVariables.wordsAmong_all, hVariables.wordsAmong_nil,
    hCondition.wordsAmong_all, hCondition.wordsAmong_nil,
    hDirectives.wordsAmong_all, hDirectives.wordsAmong_nil,
    hSelections.wordsAmong_all, hSelections.wordsAmong_nil,
    List.append_nil, List.nil_append, List.append_assoc]

theorem Spells.value_ne_nil
    {constant : Bool}
    (h : Spells (.value constant) ts ns) :
    ts ≠ [] := by
  apply h.ne_nil
  cases h
  all_goals simp

/-
  The tokens of a phrase say what its nodes say. The
  induction is over the derivation.
-/
theorem Spells.says
    {p : Phrase}
    {ts : List Token}
    {ns : List Node}
    (h : Spells p ts ns)
    (hTokens : Token.Orderly ts) :
    Token.Say ts (p.written ns) := by
  induction h with
  | nil => exact Token.Say.nil
  | cons hItem hRest ihItem ihRest =>
      exact (ihItem hTokens.left).append
        (ihRest hTokens.right)
  | absent =>
      rw [written_nil]
      exact Token.Say.nil
  | present hItem ih => exact ih hTokens
  | parens hOpen hItems hSome hClose ih =>
      have hInside := ih hTokens.left.tail
      have hL := Token.Say.mark hTokens.left.head hOpen
        (by decide)
      have hR := Token.Say.mark hTokens.right.head hClose
        (by decide)
      exact hL.surround hInside hR (hItems.ne_nil hSome)
  | namedType hName => exact Token.Say.name hName
  | plainType hType ih => exact ih hTokens
  | listType hOpen hElement hClose ih =>
      have hInside := ih hTokens.left.tail
      rw [written_of_plain rfl] at hInside
      rw [written_single rfl]
      simp (disch := decide) only [Node.over, Node.words,
        hElement.wordsAmong_all]
      exact hInside.enclose hTokens.proper_ends hOpen hClose
        (by decide)
  | nullable hType ih => exact ih hTokens
  | nonNull hType hBang ih =>
      have hInside := ih hTokens.left
      have hMark := Token.Say.mark hTokens.right.head hBang
        (by decide)
      rw [written_of_plain rfl] at hInside
      rw [written_single rfl]
      simp (disch := decide) only [Node.over, Node.words,
        hType.wordsAmong_all]
      exact hInside.append hMark
  | variableUse hDollar hName =>
      have hMark := Token.Say.mark hTokens.head hDollar
        (by decide)
      exact hMark.append (Token.Say.name hName)
  | scalar hScalar =>
      rw [written_single rfl]
      exact Token.Say.scalar hScalar
  | reference hVariable ih => exact ih hTokens
  | list hOpen hItems hClose ih =>
      have hInside := ih hTokens.left.tail
      rw [written_of_plain rfl] at hInside
      rw [written_single rfl]
      simp only [Node.over, Node.words,
        hItems.wordsAmong_all (value_kinds _)]
      exact hInside.enclose hTokens.proper_ends hOpen hClose
        (by decide)
  | object hOpen hItems hClose ih =>
      have hInside := ih hTokens.left.tail
      rw [written_of_plain rfl] at hInside
      rw [written_single rfl]
      have hWords :
          Node.wordsAmong [.objectField] _ = _ :=
        hItems.wordsAmong_all fun _ hKind => hKind
      simp only [Node.over, Node.words, hWords]
      exact hInside.enclose hTokens.proper_ends hOpen hClose
        (by decide)
  | entry hKind hName hColon hValue ih =>
      have hInside := ih hTokens.tail.tail
      have hMark := Token.Say.mark hTokens.tail.head hColon
        (by decide)
      rw [written_of_plain rfl] at hInside
      rw [written_single rfl]
      simp only [Node.Kind.entries, List.mem_cons,
        List.not_mem_nil, or_false] at hKind
      rcases hKind with rfl | rfl
      all_goals
        simp only [Node.over, Node.words,
          hValue.wordsAmong_all (value_kinds _)]
        exact ((Token.Say.name hName).append hMark).append
          hInside
  | directive hAt hName hArguments ih =>
      have hMark := Token.Say.mark hTokens.head hAt
        (by decide)
      have hInside := ih hTokens.tail.tail
      rw [written_parens rfl] at hInside
      rw [written_single rfl]
      simp (disch := decide) only [Node.over, Node.words,
        hArguments.wordsAmong_all]
      exact (hMark.append (Token.Say.name hName)).append
        hInside
  | initial hEquals hValue ih =>
      have hMark := Token.Say.mark hTokens.head hEquals
        (by decide)
      have hInside := ih hTokens.tail
      rw [written_of_plain rfl] at hInside
      have hAll := hMark.surround hInside Token.Say.nil
        hValue.value_ne_nil
      rwa [List.append_nil] at hAll
  | variableDefinition hVariable hColon hType hInitial
      hDirectives ihVariable ihType ihInitial ihDirectives =>
      have hV := ihVariable hTokens.left
      have hC := Token.Say.mark hTokens.right.head hColon
        (by decide)
      have hRest := hTokens.right.tail
      have hT := ihType hRest.left
      have hI := ihInitial hRest.right.left
      have hD := ihDirectives hRest.right.right
      rw [written_of_plain rfl] at hV hT hD
      rw [written_single rfl]
      have hAll :=
        hV.append (hC.append (hT.append (hI.append hD)))
      exact hAll.of_eq (words_variableDefinition hVariable
        hType hInitial hDirectives _ _ _)
  | selectionSet hOpen hItems hSome hClose ih =>
      have hInside := ih hTokens.left.tail
      rw [written_of_plain rfl] at hInside
      rw [written_single rfl]
      simp (disch := decide) only [Node.over, Node.words,
        hItems.wordsAmong_all]
      exact hInside.enclose hTokens.proper_ends hOpen hClose
        (by decide)
  | field hName hArguments hDirectives hSelections ihArguments
      ihDirectives ihSelections =>
      have hRest := hTokens.tail
      have hA := ihArguments hRest.left
      have hD := ihDirectives hRest.right.left
      have hS := ihSelections hRest.right.right
      rw [written_parens rfl] at hA
      rw [written_of_plain rfl] at hD hS
      rw [written_single rfl]
      have hAll := (Token.Say.name hName).append
        (hA.append (hD.append hS))
      exact hAll.of_eq (words_field hArguments hDirectives
        hSelections _ "" _ _)
  | aliasedField hAlias hColon hName hArguments hDirectives
      hSelections ihArguments ihDirectives ihSelections =>
      have hValue := hTokens.head
      simp only [Token.Proper, hAlias] at hValue
      have hC := Token.Say.mark hTokens.tail.head hColon
        (by decide)
      have hRest := hTokens.tail.tail.tail
      have hA := ihArguments hRest.left
      have hD := ihDirectives hRest.right.left
      have hS := ihSelections hRest.right.right
      rw [written_parens rfl] at hA
      rw [written_of_plain rfl] at hD hS
      rw [written_single rfl, words_field hArguments
        hDirectives hSelections, Word.ofName?,
        if_neg hValue]
      exact ((Token.Say.name hAlias).append hC).append
        ((Token.Say.name hName).append
          (hA.append (hD.append hS)))
  | fragmentSpread hSpread hName hWord hDirectives ih =>
      have hD := ih hTokens.tail.tail
      rw [written_of_plain rfl] at hD
      rw [written_single rfl]
      simp (disch := decide) only [Node.over, Node.words,
        hDirectives.wordsAmong_all]
      apply Token.Say.spread hSpread hTokens.head
        ((Token.Say.name hName).append hD)
      · simp [hName]
      · simp [hName]
  | inlineFragment hSpread hDirectives hSelections ihDirectives
      ihSelections =>
      have hD := ihDirectives hTokens.tail.left
      have hS := ihSelections hTokens.tail.right
      rw [written_of_plain rfl] at hD hS
      have hBody := hD.append hS
      rw [written_single rfl]
      -- What follows the spread is no string.
      rcases hDirectives.directives_head hSelections with
        ⟨t, rest, hHead, hKind⟩
      have hString :
          t.kind ≠ .string ∧ t.kind ≠ .blockString := by
        rcases hKind with hKind | hKind
        all_goals simp [hKind]
      apply Token.Say.of_eq _ (words_inlineFragment .absent
        hDirectives hSelections _ "" {})
      rw [hHead] at hBody ⊢
      exact Token.Say.spread hSpread hTokens.head hBody
        hString.1 hString.2
  | typedFragment hSpread hOn hCondition hDirectives
      hSelections ihCondition ihDirectives ihSelections =>
      have hE := Token.Say.spreadOn hSpread hTokens.head hOn
        hTokens.tail.head hTokens.tail.head_ne_comment
      have hRest := hTokens.tail.tail
      have hC := ihCondition hRest.left
      have hD := ihDirectives hRest.right.left
      have hS := ihSelections hRest.right.right
      rw [written_of_plain rfl] at hC hD hS
      have hSome :=
        hC.ne_nil (hCondition.ne_nil (by simp))
      have hAll := hE.append (hC.append (hD.append hS))
      have hWords := words_inlineFragment
        (.present hCondition) hDirectives hSelections
      simp only [Word.surround, if_neg hSome] at hWords
      rw [written_single rfl]
      apply hAll.of_eq ((hWords _ _ _).trans _)
      simp only [List.append_nil, List.append_assoc]
      rfl
  | shorthand hSelections ih =>
      rename_i ss n
      have hInside := ih hTokens
      rcases hSelections.selectionSet_span with ⟨hKind, hSpan⟩
      rw [written_of_plain rfl] at hInside
      rw [written_single rfl]
      have hStarts :
          Node.startsAtSelections (Token.extent ss) [n] =
            true := by
        simp [Node.startsAtSelections, hKind, hSpan]
      simp (disch := decide) only [Node.over, Node.words,
        hStarts, hSelections.wordsAmong_all, if_true]
      exact hInside
  | operation hKeyword hOperation hName hVariables hDirectives
      hSelections ihVariables ihDirectives ihSelections =>
      have hStarts := startsAtSelections_operation hTokens
        hVariables hDirectives hSelections
      have hK := Token.Say.name hKeyword
      rw [← keyword_of_ofKeyword? hOperation] at hK
      have hN := Token.Say.name? hName fun t ht =>
        (hTokens.1 t (by simp [Option.mem_toList.mpr ht])).1
      have hRest := hTokens.tail.right
      have hV := ihVariables hRest.left
      have hD := ihDirectives hRest.right.left
      have hS := ihSelections hRest.right.right
      rw [written_parens rfl] at hV
      rw [written_of_plain rfl] at hD hS
      rw [written_single rfl, words_operation hVariables
        hDirectives hSelections hStarts]
      exact hK.append
        (hN.append (hV.append (hD.append hS)))
  | fragmentDefinition hKeyword hName hWord hVariables hOn
      hCondition hDirectives hSelections ihVariables
      ihCondition ihDirectives ihSelections =>
      have hRest := hTokens.tail.tail
      have hV := ihVariables hRest.left
      have hC := ihCondition hRest.right.tail.left
      have hD := ihDirectives hRest.right.tail.right.left
      have hS := ihSelections hRest.right.tail.right.right
      rw [written_parens rfl] at hV
      rw [written_of_plain rfl] at hC hD hS
      have hSome :=
        hC.ne_nil (hCondition.ne_nil (by simp))
      rw [written_single rfl, words_fragmentDefinition
        hVariables hCondition hDirectives hSelections,
        Word.surround, if_neg hSome, List.append_nil,
        List.append_assoc]
      exact (Token.Say.word hKeyword).append
        ((Token.Say.name hName).append (hV.append
          ((Token.Say.word hOn).append
            (hC.append (hD.append hS)))))

end Phrase

------------------------------------------------------------
-- Documents Read Back
------------------------------------------------------------

namespace Document

/- The tokens of a text are in order. -/
theorem tokens_orderly
    (text : List Char) :
    Token.Orderly (tokens text).ahead :=
  ⟨fun _ ht => TokenStream.ofText_proper "input" text ht,
    0, text.length,
    TokenStream.ofText_between "input" text⟩

/- A document says what its tokens say. -/
theorem words_of_parse
    {text : List Char}
    {root : Node}
    (h : parse text = .ok root) :
    root.words =
      Word.settle false
        ((tokens text).ahead.map Token.word) := by
  rcases parse_spells h with ⟨hKind, _, hSpells⟩
  have hSays := hSpells.says (tokens_orderly text) []
  rw [Phrase.written_of_plain rfl, List.append_nil,
    List.map_nil, Word.settle, List.append_nil] at hSays
  rw [hSays]
  cases root with
  | mk kind span name nameSpan aliasName operation ns =>
      simp only at hKind hSpells
      subst hKind
      simp only [Node.words]
      exact hSpells.wordsAmong_all fun _ hKind => hKind

/-
  The tree of a text loses nothing. A text that the grammar
  admits has a tree; all its tokens are read, each definition
  takes some of them, and reading stops at the end of the
  text. The tree says what the tokens say. Any other text is
  refused for the reason that the grammar gives.
-/
theorem parse_reads_back
    (text : List Char) :
    match Grammar.check (tokens text) with
    | .error e => parse text = .error e
    | .ok _ =>
        ∃ root u,
          parse text = .ok root ∧
            (tokens text).fault = none ∧
            Node.Reading.definitions.run (tokens text) =
              (root.children, u) ∧
            TokenStream.Iterates
              (fun t => decide (t.kind ≠ .eof))
              Node.Reading.definition (tokens text)
              root.children u ∧
            u.ahead = [] ∧ u.head.kind = .eof ∧
            root.words =
              Word.settle false
                ((tokens text).ahead.map Token.word) := by
  cases hCheck : Grammar.check (tokens text) with
  | error e =>
      dsimp only
      rw [parse_eq, hCheck]
      rfl
  | ok a =>
      dsimp only
      have hParse := parse_eq_ok_iff.mpr ⟨hCheck, rfl⟩
      rcases Grammar.check_spells
          (TokenStream.ofText_mirrors "input" text) hCheck with
        ⟨ns, u, hIterates, hNil, hEof, _, _⟩
      have hRun :
          Node.Reading.definitions.run (tokens text) =
            (ns, u) :=
        hIterates.readWhile_eq
      have hChildren := children_of_iterates hIterates
        text.length
      have hFault := (last_of_parse hParse).2.2
      refine ⟨_, u, hParse, hFault, ?_, ?_, hNil, hEof,
        words_of_parse hParse⟩
      · rw [hChildren]
        exact hRun
      · rw [hChildren]
        exact hIterates

/- No keyword, a quoted `on` and a block string. -/
example :
    (parse (String.toList
        "\x7b...\"on\"T\x7ba(b:\"\"\"c\"\"\")\x7d\x7d")
      ).toOption.map Node.words =
      some
        [ Word.mark .braceL, Word.mark .spread,
          (.name, "on"), (.name, "T"), Word.mark .braceL,
          (.name, "a"), Word.mark .parenL, (.name, "b"),
          Word.mark .colon, (.string, "c"),
          Word.mark .parenR, Word.mark .braceR,
          Word.mark .braceR ] := by
  decide +kernel

end Document

end QueryHover
