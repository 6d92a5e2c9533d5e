import QueryHover.Proofs.Acceptance
import QueryHover.Proofs.Sources
import QueryHover.Proofs.Variables

/-
  Type references, from their writing to their reading and
  back.

  A type reference is written as its tokens stand in the
  text, without what is between them. Conversely, what is
  written for a reference declares a variable of just that
  type. So two references are written alike only if they are
  the same.

  Main declarations:
    * `Document.writtenIn`
    * `TypeRef.Legible`
    * `Node.Writes`
    * `Document.parse_writes`
    * `TypeRef.parse_declaration`
    * `TypeRef.writing_roundTrips`
-/

namespace QueryHover

------------------------------------------------------------
-- What Is Written in a Part of a Text
------------------------------------------------------------

namespace Token

/- The token lies in a part of the text. -/
def Inside
    (span : Span)
    (t : Token) : Prop :=
  span.start ≤ t.start ∧ t.stop ≤ span.stop

instance
    (span : Span)
    (t : Token) :
    Decidable (t.Inside span) := by
  unfold Inside
  infer_instance

/- The tokens between two of them are those in between. -/
theorem Between.filter_inside
    {lo hi : Nat}
    {ts us : List Token}
    (h : Between lo hi ts)
    (hInfix : us <:+: ts)
    (hSome : us ≠ []) :
    (ts.filter fun t => t.Inside (extent us)) = us := by
  rcases hInfix with ⟨before, after, rfl⟩
  rcases h.divide with ⟨mid, hLeft, hAfter⟩
  rcases hLeft.divide with ⟨low, hBefore, hMiddle⟩
  rcases hMiddle.exists_extent hSome with
    ⟨a, _, b, _, hExtent, hLow, _, hHigh, hTight⟩
  have hFront :
      (before.filter fun t => t.Inside (extent us)) = [] := by
    refine List.filter_eq_nil_iff.mpr fun t ht hInside => ?_
    have hBounds := hBefore.bounds ht
    have hStart := (of_decide_eq_true hInside).1
    rw [hExtent] at hStart
    dsimp only at hStart
    omega
  have hRest :
      (after.filter fun t => t.Inside (extent us)) = [] := by
    refine List.filter_eq_nil_iff.mpr fun t ht hInside => ?_
    have hBounds := hAfter.bounds ht
    have hStop := (of_decide_eq_true hInside).2
    rw [hExtent] at hStop
    dsimp only at hStop
    omega
  have hSame :
      (us.filter fun t => t.Inside (extent us)) = us := by
    refine List.filter_eq_self.mpr fun t ht => ?_
    have hBounds := hTight.bounds ht
    rw [hExtent]
    refine decide_eq_true ⟨?_, ?_⟩
    · dsimp only
      omega
    · dsimp only
      omega
  rw [List.filter_append, List.filter_append, hFront, hRest,
    hSame, List.nil_append, List.append_nil]

/- How a name or a punctuator is written. -/
def lexeme
    (t : Token) : List Char :=
  if t.kind = .name then
    t.value.toList
  else
    t.kind.label.toList

/- The kinds of tokens in a type reference. -/
def Kind.inTypes : List Token.Kind :=
  [.name, .bracketL, .bracketR, .bang]

theorem ReadIn.sourceIn_eq
    {text : List Char}
    {t : Token}
    (h : t.ReadIn text)
    (hKind : t.kind ∈ Kind.inTypes) :
    t.sourceIn text = t.lexeme := by
  have hRead := h.2
  unfold lexeme
  simp only [Kind.inTypes, List.mem_cons, List.not_mem_nil,
    or_false] at hKind
  rcases hKind with hKind | hKind | hKind | hKind
  · rw [hKind] at hRead ⊢
    exact hRead.2
  all_goals
    rw [hKind] at hRead ⊢
    exact hRead

end Token

/-
  What is written in a part of a text: the characters of its
  tokens, without blanks, commas and comments.
-/
def Document.writtenIn
    (text : List Char)
    (span : Span) : List Char :=
  ((tokens text).ahead.filter fun t =>
    t.Inside span).flatMap (Token.sourceIn text)

------------------------------------------------------------
-- Types as They Are Written
------------------------------------------------------------

namespace TypeRef

/- A reference whose name is one of the grammar. -/
def Legible
    (type : TypeRef) : Prop :=
  Text.IsName type.baseName.toList

instance
    (type : TypeRef) :
    Decidable type.Legible := by
  unfold Legible
  infer_instance

/- A type is marked by one more character. -/
theorem render_required
    {type : TypeRef}
    (h : type.isRequired = false) :
    type.required.render = type.render ++ "!" := by
  cases type with
  | named name nonNull =>
      cases h
      simp [required, render, mark]
  | list element nonNull =>
      cases h
      simp [required, render, mark, String.append_assoc]

end TypeRef

/- Some tokens write the type that is read at a node. -/
structure Node.Writes
    (n : Node)
    (ts : List Token)
    (type : TypeRef) : Prop where
  read : n.typeRef? = some type
  written : type.render.toList = ts.flatMap Token.lexeme
  named : ∃ t ∈ ts, t.kind = .name ∧ type.baseName = t.value
  kinds : ∀ t ∈ ts, t.kind ∈ Token.Kind.inTypes

/- A node that covers the tokens which write its type. -/
def Node.WrittenIn
    (ts : List Token)
    (n : Node) : Prop :=
  ∃ us type,
    us <:+: ts ∧ us ≠ [] ∧ n.span = Token.extent us ∧
      n.Writes us type

theorem Node.WrittenIn.of_part
    {ts us : List Token}
    {n : Node}
    (h : n.WrittenIn us)
    (hInfix : us <:+: ts) :
    n.WrittenIn ts := by
  rcases h with ⟨vs, type, hPart, hWrites⟩
  exact ⟨vs, type, hPart.trans hInfix, hWrites⟩

namespace Phrase

variable {p : Phrase}
variable {ts : List Token}
variable {ns : List Node}

/-
  A type is written by its tokens, and without a mark unless
  one follows it.
-/
theorem Spells.writes
    (h : Spells p ts ns)
    (hp : p ∈ [.namedType, .unmarkedType, .typeRef]) :
    ∀ n ∈ ns, ∃ type,
      n.Writes ts type ∧
        (p ≠ .typeRef → type.isRequired = false) := by
  induction h with
  | namedType hName =>
      rename_i t
      rw [List.forall_mem_singleton]
      refine ⟨.named t.value false, ⟨rfl, ?_, ?_, ?_⟩,
        fun _ => rfl⟩
      · simp [TypeRef.render, TypeRef.mark, Token.lexeme, hName]
      · exact ⟨t, List.mem_singleton_self t, hName, rfl⟩
      · simp [hName, Token.Kind.inTypes]
  | plainType hType ih =>
      intro n hn
      rcases ih (by simp) n hn with ⟨type, hWrites, hPlain⟩
      exact ⟨type, hWrites,
        fun _ => hPlain Phrase.noConfusion⟩
  | listType hOpen hElement hClose ih =>
      rename_i o c ts n
      have hItem := List.forall_mem_singleton.mp (ih (by simp))
      rcases hItem with ⟨type, hWrites, _⟩
      rw [List.forall_mem_singleton]
      refine ⟨.list type false, ⟨?_, ?_, ?_, ?_⟩, fun _ => rfl⟩
      · simp [Node.over, Node.typeRef?, Node.headTypeRef?,
          hWrites.read]
      · simp [TypeRef.render, TypeRef.mark, hWrites.written,
          Token.lexeme, hOpen, hClose, Token.Kind.label]
      · rcases hWrites.named with ⟨t, ht, hName⟩
        exact ⟨t, by simp [ht], hName⟩
      · refine List.forall_mem_append.mpr
          ⟨List.forall_mem_cons.mpr ⟨?_, hWrites.kinds⟩,
            List.forall_mem_singleton.mpr ?_⟩
        · simp [hOpen, Token.Kind.inTypes]
        · simp [hClose, Token.Kind.inTypes]
  | nullable hType ih =>
      intro n hn
      rcases ih (by simp) n hn with ⟨type, hWrites, _⟩
      exact ⟨type, hWrites, fun hOther => absurd rfl hOther⟩
  | nonNull hType hBang ih =>
      rename_i b ts n
      have hItem := List.forall_mem_singleton.mp (ih (by simp))
      rcases hItem with ⟨type, hWrites, hPlain⟩
      have hUnmarked := hPlain Phrase.noConfusion
      rw [List.forall_mem_singleton]
      refine ⟨type.required, ⟨?_, ?_, ?_, ?_⟩,
        fun hOther => absurd rfl hOther⟩
      · simp [Node.over, Node.typeRef?, Node.headTypeRef?,
          hWrites.read]
      · rw [TypeRef.render_required hUnmarked]
        simp [hWrites.written, Token.lexeme, hBang,
          Token.Kind.label]
      · rcases hWrites.named with ⟨t, ht, hName⟩
        rw [TypeRef.baseName_required]
        exact ⟨t, List.mem_append_left _ ht, hName⟩
      · refine List.forall_mem_append.mpr ⟨hWrites.kinds, ?_⟩
        simp [hBang, Token.Kind.inTypes]
  | _ => simp at hp

/- Every type node of a phrase is written by its tokens. -/
theorem Spells.writtenIn
    (h : Spells p ts ns) :
    ∀ n ∈ ns, n.kind ∈ Node.Kind.types → n.WrittenIn ts := by
  have hOwn {q : Phrase} {vs : List Token} {m : Node}
      (hSpells : Spells q vs [Node.over vs m])
      (hq : q ∈ [.namedType, .unmarkedType, .typeRef]) :
      (Node.over vs m).WrittenIn vs := by
    rcases hSpells.writes hq _ List.mem_cons_self with
      ⟨type, hWrites, _⟩
    exact ⟨vs, type, List.infix_rfl,
      hSpells.ne_nil (by simp), rfl, hWrites⟩
  induction h with
  | nil | absent => exact List.forall_mem_nil _
  | cons hItem hRest ihItem ihRest =>
      rw [List.forall_mem_cons]
      constructor
      · intro hKind
        exact (ihItem _ List.mem_cons_self hKind).of_part
          (List.prefix_append _ _).isInfix
      · intro n hn hKind
        exact (ihRest n hn hKind).of_part
          (List.suffix_append _ _).isInfix
  | present hItem ih => exact ih
  | plainType hType ih => exact ih
  | nullable hType ih => exact ih
  | reference hVariable ih => exact ih
  | parens hOpen hItems hSome hClose ih =>
      intro n hn hKind
      exact (ih n hn hKind).of_part ⟨[_], [_], rfl⟩
  | initial hEquals hValue ih =>
      intro n hn hKind
      exact (ih n hn hKind).of_part
        (List.suffix_cons _ _).isInfix
  | namedType hName =>
      rw [List.forall_mem_singleton]
      exact fun _ => hOwn (.namedType hName) (by simp)
  | listType hOpen hElement hClose =>
      rw [List.forall_mem_singleton]
      exact fun _ => hOwn (.listType hOpen hElement hClose)
        (by simp)
  | nonNull hType hBang =>
      rw [List.forall_mem_singleton]
      exact fun _ => hOwn (.nonNull hType hBang) (by simp)
  | scalar hScalar =>
      rename_i constant t
      rw [List.forall_mem_singleton]
      intro hKind
      have hOther :
          ∀ kind ∈ Node.Kind.types,
            kind ∉ Node.Kind.constants := by
        decide
      exact absurd (scalarKind_mem t) (hOther _ hKind)
  | entry hKind =>
      rename_i kind constant _ _ _ _
      rw [List.forall_mem_singleton]
      intro hType
      have hOther :
          ∀ kind ∈ Node.Kind.types,
            kind ∉ Node.Kind.entries := by
        decide
      exact absurd hKind (hOther _ hType)
  | _ =>
      rw [List.forall_mem_singleton]
      intro hKind
      exact absurd hKind (by simp [Node.over, Node.Kind.types])

end Phrase

namespace Document

variable {text : List Char}
variable {root n : Node}

/- A type node reads back what is written there. -/
theorem parse_writes
    (h : parse text = .ok root)
    (hn : root.Above n)
    (hKind : n.kind ∈ Node.Kind.types) :
    ∃ type,
      n.typeRef? = some type ∧ type.Legible ∧
        type.render.toList = writtenIn text n.span := by
  rcases parse_spelledIn h hn with
    ⟨p, ts, ns, hPart, hSpells, hMem⟩
  rcases hSpells.writtenIn n hMem hKind with
    ⟨us, type, hInfix, hSome, hSpan, hWrites⟩
  have hUs := hInfix.trans hPart
  have hRead : ∀ t ∈ us, t.ReadIn text := fun t ht =>
    TokenStream.ofText_readIn "input" text (hUs.subset ht)
  have hTokens :=
    (TokenStream.ofText_between "input" text).filter_inside
      hUs hSome
  refine ⟨type, hWrites.read, ?_, ?_⟩
  · rcases hWrites.named with ⟨t, ht, hName, hBase⟩
    have hValue := (hRead t ht).2
    rw [hName] at hValue
    unfold TypeRef.Legible
    rw [hBase]
    exact hValue.1
  · unfold writtenIn
    rw [hSpan, hTokens, hWrites.written]
    refine List.flatMap_congr fun t ht => ?_
    exact ((hRead t ht).sourceIn_eq (hWrites.kinds t ht)).symm

end Document

------------------------------------------------------------
-- Types as They Are Read
------------------------------------------------------------

namespace TypeRef

/- The word of the mark of a non-null type. -/
def markWords
    (nonNull : Bool) : List Word :=
  if nonNull then [(.bang, "")] else []

/- The words that a reference is written with. -/
def words :
    TypeRef → List Word
  | named name nonNull => (.name, name) :: markWords nonNull
  | list element nonNull =>
      (.bracketL, "") ::
        (element.words ++
          (.bracketR, "") :: markWords nonNull)

theorem words_mark
    (nonNull : Bool)
    (rest : List Char) :
    Text.words ((mark nonNull).toList ++ rest) =
      Text.before (markWords nonNull) (Text.words rest) := by
  cases nonNull with
  | false => rfl
  | true => exact Text.words_punctuator rfl rest

/- No mark goes on with what is before it. -/
theorem mark_head
    (nonNull : Bool)
    {rest : List Char}
    (hRest : ∀ d ∈ rest.head?, ¬ Scanner.isNamePart d) :
    ∀ d ∈ ((mark nonNull).toList ++ rest).head?,
      ¬ Scanner.isNamePart d := by
  cases nonNull with
  | false => exact hRest
  | true =>
      intro d hd
      obtain rfl := Option.some.inj hd
      decide

/- What is written for a reference is scanned as its words. -/
theorem words_render
    {type : TypeRef}
    (h : type.Legible)
    {rest : List Char}
    (hRest : ∀ d ∈ rest.head?, ¬ Scanner.isNamePart d) :
    Text.words (type.render.toList ++ rest) =
      Text.before type.words (Text.words rest) := by
  induction type generalizing rest with
  | named name nonNull =>
      have hFront := Text.words_name h (mark_head nonNull hRest)
      rw [words_mark, ← Text.before_append] at hFront
      rw [render, String.toList_append, List.append_assoc]
      simpa [baseName, words] using hFront
  | list element nonNull ih =>
      have hClose :
          ∀ d ∈ (']' :: ((mark nonNull).toList ++ rest)).head?,
            ¬ Scanner.isNamePart d := by
        intro d hd
        obtain rfl := Option.some.inj hd
        decide
      have hText :
          (list element nonNull).render.toList ++ rest =
            '[' :: (element.render.toList ++
              ']' :: ((mark nonNull).toList ++ rest)) := by
        simp [render]
      rw [hText, Text.words_punctuator rfl, ih h hClose,
        Text.words_punctuator rfl, words_mark,
        ← Text.before_append, ← Text.before_append,
        ← Text.before_append]
      simp [words]

theorem words_kind
    (type : TypeRef) :
    ∀ w ∈ type.words, w.1 ≠ .comment := by
  have hMark (nonNull : Bool) :
      ∀ w ∈ markWords nonNull, w.1 ≠ .comment := by
    cases nonNull
    all_goals simp [markWords]
  induction type with
  | named name nonNull =>
      exact List.forall_mem_cons.mpr
        ⟨Token.Kind.noConfusion, hMark nonNull⟩
  | list element nonNull ih =>
      refine List.forall_mem_cons.mpr
        ⟨Token.Kind.noConfusion, List.forall_mem_append.mpr
          ⟨ih, List.forall_mem_cons.mpr
            ⟨Token.Kind.noConfusion, hMark nonNull⟩⟩⟩

end TypeRef

namespace Phrase

theorem Spells.of_tokens_eq
    {p : Phrase}
    {ts us : List Token}
    {ns : List Node}
    (h : Spells p ts ns)
    (hSame : us = ts) :
    Spells p us ns := by
  rw [hSame]
  exact h

/- A type with its mark, if there is one. -/
theorem spells_marked
    {ts bs : List Token}
    {n : Node}
    {type : TypeRef}
    {nonNull : Bool}
    (h : Spells .unmarkedType ts [n])
    (hType : n.typeRef? = some type)
    (hMark : bs.map Token.word = TypeRef.markWords nonNull) :
    ∃ m,
      Spells .typeRef (ts ++ bs) [m] ∧
        m.typeRef? =
          some (if nonNull then type.required else type) := by
  cases nonNull with
  | false =>
      obtain rfl := List.map_eq_nil_iff.mp hMark
      rw [List.append_nil]
      exact ⟨n, .nullable h, hType⟩
  | true =>
      rcases List.map_eq_singleton_iff.mp hMark with
        ⟨b, rfl, hWord⟩
      have hBang : b.kind = .bang := congrArg Prod.fst hWord
      refine ⟨_, .nonNull h hBang, ?_⟩
      simp [Node.over, Node.typeRef?, Node.headTypeRef?, hType]

/- The words of a reference spell a node of that type. -/
theorem spells_of_words
    (type : TypeRef)
    {ts : List Token}
    (h : ts.map Token.word = type.words) :
    ∃ n, Spells .typeRef ts [n] ∧ n.typeRef? = some type := by
  induction type generalizing ts with
  | named name nonNull =>
      rcases List.map_eq_cons_iff.mp h with
        ⟨t, bs, rfl, hWord, hMark⟩
      have hName : t.kind = .name := congrArg Prod.fst hWord
      have hValue : t.value = name := congrArg Prod.snd hWord
      rcases spells_marked (.plainType (.namedType hName)) rfl
          hMark with ⟨m, hSpells, hType⟩
      refine ⟨m, hSpells, hType.trans ?_⟩
      cases nonNull
      all_goals simp [TypeRef.required, hValue]
  | list element nonNull ih =>
      rcases List.map_eq_cons_iff.mp h with
        ⟨o, rest, rfl, hOpen, hRest⟩
      rcases List.map_eq_append_iff.mp hRest with
        ⟨es, cs, rfl, hElement, hClosing⟩
      rcases List.map_eq_cons_iff.mp hClosing with
        ⟨c, bs, rfl, hClose, hMark⟩
      rcases ih hElement with ⟨n, hItem, hItemType⟩
      have hList := Spells.listType
        (congrArg Prod.fst hOpen) hItem
        (congrArg Prod.fst hClose)
      have hType :
          (Node.over (o :: es ++ [c])
            { kind := .listType, children := [n] }).typeRef? =
              some (.list element false) := by
        simp [Node.over, Node.typeRef?, Node.headTypeRef?,
          hItemType]
      rcases spells_marked hList hType hMark with
        ⟨m, hSpells, hMarked⟩
      refine ⟨m, by simpa using hSpells, hMarked.trans ?_⟩
      cases nonNull
      all_goals simp [TypeRef.required]

end Phrase

------------------------------------------------------------
-- Declared Types
------------------------------------------------------------

/- A text without comments has the tokens of its words. -/
theorem Document.tokens_of_words
    {text : List Char}
    {words : List Word}
    {kind : Token.Kind}
    (h : Text.words text = (words, kind))
    (hKinds : ∀ w ∈ words, w.1 ≠ .comment) :
    (tokens text).ahead.map Token.word = words ∧
      (tokens text).last.kind = kind := by
  have hWords :
      (Scanner.run {} text).tokens.map Token.word = words :=
    congrArg Prod.fst h
  refine ⟨?_, congrArg Prod.snd h⟩
  rw [← hWords] at hKinds ⊢
  congr 1
  refine List.filter_eq_self.mpr fun t ht => ?_
  exact decide_eq_true
    (hKinds t.word (List.mem_map_of_mem ht))

namespace Node

/- A definition that declares a variable first. -/
theorem variableNamed?_head
    {n d : Node}
    {rest : List Node}
    {name : String}
    (hChildren : n.children = d :: rest)
    (hKind : d.kind = .variableDefinition)
    (hName : d.name = name) :
    n.variableNamed? name = some d := by
  unfold variableNamed? childNamed?
  rw [hChildren]
  exact List.find?_cons_of_pos (by simp [hKind, hName])

/- The second of some nodes has the first type. -/
theorem firstTypeRef?_second
    {v t : Node}
    {rest : List Node}
    {type : TypeRef}
    (hVariable : v.typeRef? = none)
    (hType : t.typeRef? = some type) :
    firstTypeRef? (v :: t :: rest) = some type := by
  rw [firstTypeRef?, hVariable]
  dsimp only
  rw [firstTypeRef?, hType]

end Node

/- A query that declares one variable of a type. -/
def TypeRef.declaration
    (type : TypeRef)
    (name : String) : List Char :=
  ("query($" ++ name ++ ":" ++ type.render ++
    ")\x7bf\x7d").toList

namespace TypeRef

/- The words after a declared variable. -/
def closingWords : List Word :=
  [(.parenR, ""), (.braceL, ""), (.name, "f"), (.braceR, "")]

/- The words of a declaration. -/
def declarationWords
    (type : TypeRef)
    (name : String) : List Word :=
  (.name, "query") :: (.parenL, "") :: (.dollar, "") ::
    (.name, name) :: (.colon, "") ::
    (type.words ++ closingWords)

theorem words_declaration
    {type : TypeRef}
    {name : String}
    (hName : Text.IsName name.toList)
    (hType : type.Legible) :
    Text.words (type.declaration name) =
      (type.declarationWords name, .eof) := by
  have hClosing :
      Text.words ")\x7bf\x7d".toList = (closingWords, .eof) := by
    decide +kernel
  have hQuery : Text.IsName "query".toList := by
    decide +kernel
  have hOther {c : Char} {cs : List Char}
      (hc : ¬ Scanner.isNamePart c) :
      ∀ d ∈ (c :: cs).head?, ¬ Scanner.isNamePart d := by
    intro d hd
    obtain rfl := Option.some.inj hd
    exact hc
  have hEnd :
      ∀ d ∈ ")\x7bf\x7d".toList.head?,
        ¬ Scanner.isNamePart d :=
    hOther (by decide)
  have hText :
      type.declaration name =
        "query".toList ++ '(' :: '$' :: (name.toList ++
          ':' :: (type.render.toList ++
            ")\x7bf\x7d".toList)) := by
    simp [declaration]
  rw [hText, Text.words_name hQuery (hOther (by decide)),
    Text.words_punctuator rfl, Text.words_punctuator rfl,
    Text.words_name hName (hOther (by decide)),
    Text.words_punctuator rfl,
    words_render hType hEnd, hClosing]
  simp [Text.before, declarationWords]

theorem declarationWords_kind
    (type : TypeRef)
    (name : String) :
    ∀ w ∈ type.declarationWords name, w.1 ≠ .comment := by
  have hOpening :
      ∀ w ∈ [(.name, "query"), (.parenL, ""), (.dollar, ""),
          (.name, name), ((.colon, "") : Word)],
        w.1 ≠ .comment := by
    simp
  have hClosing : ∀ w ∈ closingWords, w.1 ≠ .comment := by
    decide
  exact List.forall_mem_append.mpr
    ⟨hOpening, List.forall_mem_append.mpr
      ⟨type.words_kind, hClosing⟩⟩

/- A declaration is a document whose variable has the type. -/
theorem parse_declaration
    {type : TypeRef}
    {name : String}
    (hName : Text.IsName name.toList)
    (hType : type.Legible) :
    ∃ operation d,
      Document.parse (type.declaration name) =
          .ok
            { kind := .document
              span := ⟨0, (type.declaration name).length⟩
              children := [operation] } ∧
        operation.variableNamed? name = some d ∧
        d.typeRef? = some type := by
  have hWords := Document.tokens_of_words
    (words_declaration hName hType)
    (type.declarationWords_kind name)
  rcases hWords with ⟨hTokens, hEof⟩
  -- One token for each word around the type.
  simp only [declarationWords, List.map_eq_cons_iff,
    List.map_eq_append_iff, closingWords,
    List.map_eq_nil_iff] at hTokens
  obtain ⟨k, _, hAhead, hk, o, _, rfl, ho, d, _, rfl, hd, v, _,
    rfl, hv, c, _, rfl, hc, ts, _, rfl, hts, p, _, rfl, hp, b,
    _, rfl, hb, f, _, rfl, hf, e, _, rfl, he, rfl⟩ := hTokens
  have hKind {t : Token} {w : Word} (h : t.word = w) :
      t.kind = w.1 := congrArg Prod.fst h
  rcases Phrase.spells_of_words type hts with
    ⟨n, hSpells, hRead⟩
  have hDefinition := Phrase.Spells.variableDefinition
    (.variableUse (hKind hd) (hKind hv)) (hKind hc) hSpells
    .absent .nil
  have hDeclared := Phrase.Spells.parens (hKind ho)
    (.cons hDefinition .nil) (by simp) (hKind hp)
  have hSelections := Phrase.Spells.selectionSet (hKind hb)
    (.cons (.field (hKind hf) .absent .nil .absent) .nil)
    (by simp) (hKind he)
  have hKeyword :
      Operation.ofKeyword? k.value = some .query := by
    rw [show k.value = "query" from congrArg Prod.snd hk]
    rfl
  have hNameless :
      ∀ t ∈ (none : Option Token), t.kind = .name := by
    simp
  have hOperation := Phrase.Spells.operation (hKind hk)
    hKeyword hNameless (.present hDeclared) .nil hSelections
  have hAll := (Phrase.Spells.cons hOperation .nil).of_tokens_eq
    (hAhead.trans (by simp))
  have hValue : v.value = name := congrArg Prod.snd hv
  refine ⟨_, _, Document.parse_of_spells hAll hEof,
    Node.variableNamed?_head rfl rfl hValue, ?_⟩
  rw [Node.typeRef?_variableDefinition rfl]
  exact Node.firstTypeRef?_second rfl hRead

end TypeRef

------------------------------------------------------------
-- Round Trips
------------------------------------------------------------

/- The children that write a type. -/
def Node.typeChildren
    (n : Node) : List Node :=
  n.children.filter fun c => c.kind ∈ Node.Kind.types

/- A variable has the type of the one type child. -/
theorem Document.parse_typeChildren
    {text : List Char}
    {root d : Node}
    (h : parse text = .ok root)
    (hd : root.Above d)
    (hKind : d.kind = .variableDefinition) :
    ∃ c,
      d.typeChildren = [c] ∧ d.typeRef? = c.typeRef? := by
  rcases parse_spelledIn h hd with
    ⟨p, ts, ns, _, hSpells, hMem⟩
  rcases hSpells.parts_of_variableDefinition d hMem hKind with
    ⟨_, _, _, _, v, t, ins, dns, hVariable, hType, hInitial,
      hDirectives, _, hChildren⟩
  have hNone {q : Phrase} {us : List Token} {ms : List Node}
      (hPart : q.Spells us ms)
      (hOther : ∀ kind ∈ q.kinds, kind ∉ Node.Kind.types) :
      (ms.filter fun c => c.kind ∈ Node.Kind.types) = [] := by
    refine List.filter_eq_nil_iff.mpr fun m hm hTypes => ?_
    exact hOther _ (hPart.mem_kinds m hm)
      (of_decide_eq_true hTypes)
  have hSelf :
      ([t].filter fun c => c.kind ∈ Node.Kind.types) = [t] :=
    List.filter_eq_self.mpr fun m hm =>
      decide_eq_true (hType.mem_kinds m hm)
  have hWritten := hType.writes (by simp) t
    (List.mem_singleton_self t)
  rcases hWritten with ⟨type, hWrites, _⟩
  refine ⟨t, ?_, ?_⟩
  · have hParts : d.children = [v] ++ ([t] ++ (ins ++ dns)) :=
      hChildren
    unfold Node.typeChildren
    rw [hParts, List.filter_append, List.filter_append,
      List.filter_append, hNone hVariable (by decide), hSelf,
      hNone hInitial (by decide), hNone hDirectives (by decide)]
    rfl
  · have hUse : v.typeRef? = none := by
      cases hVariable
      rfl
    rw [Node.typeRef?_variableDefinition hKind, hChildren,
      hWrites.read]
    exact Node.firstTypeRef?_second hUse hWrites.read

namespace TypeRef

/- References that are written alike are the same. -/
theorem eq_of_render_eq
    {t u : TypeRef}
    (ht : t.Legible)
    (hu : u.Legible)
    (h : t.render = u.render) :
    t = u := by
  have hName : Text.IsName "v".toList := by
    decide +kernel
  rcases parse_declaration hName ht with
    ⟨o, d, hParse, hFound, hType⟩
  rcases parse_declaration hName hu with
    ⟨o', d', hParse', hFound', hType'⟩
  have hText : t.declaration "v" = u.declaration "v" := by
    unfold declaration
    rw [h]
  rw [hText, hParse'] at hParse
  injection hParse with hRoot
  injection hRoot with _ _ _ _ _ _ hChildren
  obtain rfl := List.singleton_inj.mp hChildren
  rw [hFound] at hFound'
  obtain rfl := Option.some.inj hFound'
  rw [hType] at hType'
  exact Option.some.inj hType'

/-
  Type references survive the way from a text to its tree and
  back. At every type node of a document the reference read
  is written as the tokens of the node are. A variable has
  the type of the one type child of its definition, whatever
  else is declared there; where that child writes a given
  reference, the variable has this type. Every reference with
  a name of the grammar can be declared so, and no two of
  them are written alike.
-/
theorem writing_roundTrips :
    (∀ text root, Document.parse text = .ok root →
      (∀ n, root.Above n → n.kind ∈ Node.Kind.types →
        ∃ type,
          n.typeRef? = some type ∧
            type.render.toList =
              Document.writtenIn text n.span) ∧
        ∀ d, root.Above d → d.kind = .variableDefinition →
          ∃ c,
            d.typeChildren = [c] ∧ d.typeRef? = c.typeRef? ∧
              ∀ type : TypeRef, type.Legible →
                Document.writtenIn text c.span =
                    type.render.toList →
                  d.typeRef? = some type) ∧
      (∀ (name : String) (type : TypeRef),
        Text.IsName name.toList → type.Legible →
          ∃ operation d,
            Document.parse (type.declaration name) =
                .ok
                  { kind := .document
                    span :=
                      ⟨0, (type.declaration name).length⟩
                    children := [operation] } ∧
              operation.variableNamed? name = some d ∧
              d.typeRef? = some type) ∧
      ∀ t u : TypeRef, t.Legible → u.Legible →
        t.render = u.render → t = u := by
  refine ⟨?_, ?_, ?_⟩
  · intro text root h
    constructor
    · intro n hn hKind
      rcases Document.parse_writes h hn hKind with
        ⟨type, hRead, _, hWritten⟩
      exact ⟨type, hRead, hWritten⟩
    · intro d hd hKind
      rcases Document.parse_typeChildren h hd hKind with
        ⟨c, hOnly, hSame⟩
      have hMem : c ∈ d.typeChildren := by
        rw [hOnly]
        exact List.mem_singleton_self c
      rcases List.mem_filter.mp hMem with ⟨hChild, hTypes⟩
      rcases Document.parse_writes h (hd.tail hChild)
          (of_decide_eq_true hTypes) with
        ⟨read, hRead, hLegible, hWritten⟩
      refine ⟨c, hOnly, hSame, ?_⟩
      intro type hType hText
      rw [← hWritten] at hText
      rw [hSame, hRead,
        eq_of_render_eq hLegible hType
          (String.toList_inj.mp hText)]
  · intro name type hName hType
    exact parse_declaration hName hType
  · intro t u ht hu h
    exact eq_of_render_eq ht hu h

/- A list type with blanks and a comma, and more behind it. -/
theorem writing_roundTrips_spaced :
    ∃ root d,
      Document.parse
            "query($v:[Int !,]=[1]@d)\x7bf\x7d".toList =
          .ok root ∧
        root.Above d ∧ d.kind = .variableDefinition ∧
        d.typeRef? =
          some (.list (.named "Int" true) false) := by
  let text := "query($v:[Int !,]=[1]@d)\x7bf\x7d".toList
  let type : TypeRef := .list (.named "Int" true) false
  have hAdmitted : (Document.parse text).toBool = true := by
    decide +kernel
  have hSeen :
      ((Document.parse text).toOption.bind fun root =>
        root.children.head?.bind fun o =>
          (o.variableNamed? "v").bind fun d =>
            d.typeChildren.head?.map fun c =>
              (d.kind, Document.writtenIn text c.span)) =
        some (.variableDefinition, type.render.toList) := by
    decide +kernel
  rcases Document.exists_root hAdmitted with ⟨root, h⟩
  rw [h] at hSeen
  change (root.children.head?.bind _) = _ at hSeen
  rcases Option.bind_eq_some_iff.mp hSeen with ⟨o, ho, hSeen⟩
  rcases Option.bind_eq_some_iff.mp hSeen with ⟨d, hd, hSeen⟩
  rcases Option.map_eq_some_iff.mp hSeen with ⟨c, hc, hView⟩
  injection hView with hKind hWritten
  have hAbove : root.Above d :=
    .tail (.single (List.mem_of_head? ho))
      (List.mem_of_find?_eq_some hd)
  have hText := (writing_roundTrips.1 text root h).2 d hAbove
    hKind
  rcases hText with ⟨c', hOnly, _, hType⟩
  rw [hOnly] at hc
  obtain rfl := Option.some.inj hc
  exact ⟨root, d, h, hAbove, hKind,
    hType type (by decide +kernel) hWritten⟩

end TypeRef

end QueryHover
