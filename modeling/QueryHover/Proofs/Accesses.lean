import QueryHover.Hover.Candidates
import QueryHover.Output.Hovering
import QueryHover.Proofs.Ranges
import QueryHover.Proofs.Surroundings

/-
  A hover whose accesses are checked.

  Here a value that is used has to be there, an index has to
  lie in its list, and a text is repeated a number of times
  that is not negative; any other access ends in a mishap.
  Each step of a hover is stated in this form, and is shown
  to agree with the step itself wherever no access fails.

  Main declarations:
    * `Mishap`
    * `Checked`
    * `Checked.Cursor`
    * `Checked.walk`
    * `Checked.candidates`
    * `Checked.pretty`
-/

namespace QueryHover

------------------------------------------------------------
-- Accesses
------------------------------------------------------------

/- What an access may end in. -/
inductive Mishap where
  | absent
  | outOfRange
  | negativeCount
deriving DecidableEq, Repr

/- A result, unless some access fails. -/
abbrev Checked (α : Type) :=
  Except Mishap α

namespace Checked

variable {α : Type}

/- A value that has to be there. -/
def value :
    Option α → Checked α
  | some a => .ok a
  | none => .error .absent

/- The item at an index that has to lie in the list. -/
def item
    (items : List α)
    (index : Int) : Checked α :=
  if 0 ≤ index then
    match items[index.toNat]? with
    | some a => .ok a
    | none => .error .outOfRange
  else
    .error .outOfRange

/- The first items, of which there have to be enough. -/
def front
    (items : List α)
    (count : Int) : Checked (List α) :=
  if 0 ≤ count ∧ count ≤ items.length then
    .ok (items.take count.toNat)
  else
    .error .outOfRange

/- A character, repeated no negative number of times. -/
def repeated
    (count : Int)
    (c : Char) : Checked String :=
  if 0 ≤ count then
    .ok (Snippet.repeated count.toNat c)
  else
    .error .negativeCount

theorem item_eq
    {items : List α}
    {index : Nat}
    {a : α}
    (h : items[index]? = some a) :
    item items index = .ok a := by
  unfold item
  rw [if_pos (Int.natCast_nonneg index), Int.toNat_natCast, h]

theorem front_eq
    {items : List α}
    {count : Nat}
    (h : count ≤ items.length) :
    front items count = .ok (items.take count) := by
  unfold front
  rw [if_pos (by omega), Int.toNat_natCast]

theorem repeated_eq
    {count : Int}
    (h : 0 ≤ count)
    (c : Char) :
    repeated count c = .ok (Snippet.repeated count.toNat c) :=
  if_pos h

------------------------------------------------------------
-- Tokens
------------------------------------------------------------

/- A place in a list of tokens that ends with a mark. -/
structure Cursor where
  tokens : List Token
  read : Nat

namespace Cursor

/- The token to be read next. -/
def peek
    (c : Cursor) : Checked Token :=
  item c.tokens c.read

/- Read the next token, but never the mark. -/
def next
    (c : Cursor) : Checked Cursor := do
  let t ← c.peek
  if t.kind = .eof then
    pure c
  else
    pure { c with read := c.read + 1 }

/- Where the last token read ended. -/
def readTo
    (c : Cursor) : Checked Nat :=
  if 0 < c.read then
    Token.stop <$> item c.tokens ((c.read : Int) - 1)
  else
    pure 0

/- Read a number of tokens. -/
def skip :
    Nat → Cursor → Checked Cursor
  | 0, c => pure c
  | count + 1, c => do
      let after ← c.next
      skip count after

/- A cursor that is at the same place as a stream. -/
structure At
    (c : Cursor)
    (s : TokenStream) : Prop where
  ahead : c.tokens.drop c.read = s.ahead ++ [s.last]
  readTo : c.readTo = .ok s.readTo
  inner : ∀ t ∈ s.ahead, t.kind ≠ .eof
  last : s.last.kind = .eof

variable {c : Cursor}
variable {s : TokenStream}

theorem At.head
    (h : c.At s) :
    c.tokens[c.read]? = some s.head := by
  have hHead := congrArg List.head? h.ahead
  rw [List.head?_drop] at hHead
  rw [hHead, TokenStream.head]
  cases s.ahead
  all_goals rfl

theorem At.peek
    (h : c.At s) :
    c.peek = .ok s.head :=
  item_eq h.head

/- Reading a token keeps both at the same place. -/
theorem At.next
    (h : c.At s) :
    ∃ c', c.next = .ok c' ∧ c'.At s.tail := by
  unfold Cursor.next
  rw [h.peek]
  cases hAhead : s.ahead with
  | nil =>
      have hHead : s.head = s.last := by
        rw [TokenStream.head, hAhead]
        rfl
      have hTail : s.tail = s := by
        rw [TokenStream.tail, hAhead]
      refine ⟨c, ?_, ?_⟩
      · change (if s.head.kind = .eof then _ else _) = _
        rw [hHead, if_pos h.last]
        rfl
      · rw [hTail]
        exact h
  | cons t ts =>
      have hHead : s.head = t := by
        rw [TokenStream.head, hAhead]
        rfl
      have hInner : ∀ u ∈ t :: ts, u.kind ≠ .eof :=
        hAhead ▸ h.inner
      have hTail :
          s.tail = { s with ahead := ts, readTo := t.stop } := by
        rw [TokenStream.tail, hAhead]
      refine ⟨{ c with read := c.read + 1 }, ?_, ?_⟩
      · change (if s.head.kind = .eof then _ else _) = _
        rw [hHead, if_neg (hInner t List.mem_cons_self)]
        rfl
      · rw [hTail]
        refine ⟨?_, ?_, ?_, h.last⟩
        · have hDrop := congrArg List.tail h.ahead
          rw [List.tail_drop, hAhead] at hDrop
          exact hDrop
        · have hItem := h.head
          rw [hHead] at hItem
          have hRead :
              ((c.read + 1 : Nat) : Int) - 1 = c.read := by
            omega
          unfold Cursor.readTo
          rw [if_pos (Nat.succ_pos _), hRead, item_eq hItem]
          rfl
        · intro u hu
          exact hInner u (List.mem_cons_of_mem t hu)

/- However many tokens are read, no access fails. -/
theorem At.skip
    (h : c.At s)
    (count : Nat) :
    ∃ c',
      c.skip count = .ok c' ∧
        c'.At (TokenStream.tail^[count] s) := by
  induction count generalizing c s with
  | zero => exact ⟨c, rfl, h⟩
  | succ count ih =>
      rcases h.next with ⟨after, hNext, hAfter⟩
      rcases ih hAfter with ⟨c', hSkip, hAt⟩
      refine ⟨c', ?_, hAt⟩
      rw [Cursor.skip, hNext]
      exact hSkip

/- The cursor in front of the tokens of a text. -/
def ofText
    (text : List Char) : Cursor :=
  let s := Document.tokens text
  { tokens := s.ahead ++ [s.last], read := 0 }

theorem ofText_at
    {text : List Char}
    {root : Node}
    (h : Document.parse text = .ok root) :
    (ofText text).At (Document.tokens text) := by
  refine ⟨rfl, rfl, ?_, ?_⟩
  · intro t ht hKind
    have hProper :=
      (TokenStream.ofText_proper "input" text ht).1
    unfold Token.Proper at hProper
    rw [hKind] at hProper
    exact hProper
  · exact congrArg Prod.fst (Document.last_of_parse h).1

end Cursor

------------------------------------------------------------
-- Chains
------------------------------------------------------------

/- The innermost node of a chain, if the chain has nodes. -/
def leaf
    (chain : Chain) : Checked (Option Node) :=
  if chain.length = 0 then
    pure none
  else
    some <$> item chain (chain.length - 1)

/- The node around the one at an index, if there is one. -/
def parent
    (chain : Chain)
    (index : Int) : Checked (Option Node) :=
  if index ≤ 0 ∨ (chain.length : Int) - 1 < index then
    pure none
  else
    some <$> item chain (index - 1)

theorem leaf_eq
    (chain : Chain) :
    leaf chain = .ok chain.leaf? := by
  unfold leaf Chain.leaf?
  split_ifs with hEmpty
  · rw [List.length_eq_zero_iff.mp hEmpty]
    rfl
  · have hLast :
        (chain.length : Int) - 1 =
          ((chain.length - 1 : Nat) : Int) := by
      omega
    have hItem :
        chain[chain.length - 1]? =
          some chain[chain.length - 1] :=
      List.getElem?_eq_getElem (by omega)
    rw [hLast, item_eq hItem, List.getLast?_eq_getElem?, hItem]
    rfl

theorem parent_eq
    {chain : Chain}
    {index : Nat}
    (h : index < chain.length) :
    parent chain index =
      .ok (Chain.leaf? (chain.take index)) := by
  unfold parent Chain.leaf?
  cases index with
  | zero => rfl
  | succ index =>
      have hItem : chain[index]? = some chain[index] :=
        List.getElem?_eq_getElem (by omega)
      have hBefore :
          ((index + 1 : Nat) : Int) - 1 = (index : Int) := by
        omega
      rw [if_neg (by omega), hBefore, item_eq hItem,
        List.getLast?_take, if_neg (Nat.succ_ne_zero _),
        Nat.add_sub_cancel, hItem]
      rfl

theorem exists_leaf?
    {chain : Chain}
    (h : chain.length ≠ 0) :
    ∃ n, chain.leaf? = some n := by
  cases hLeaf : chain.leaf? with
  | some n => exact ⟨n, rfl⟩
  | none =>
      rw [List.getLast?_eq_none_iff.mp hLeaf] at h
      exact absurd rfl h

theorem length_of_front
    {items kept : List α}
    {count : Int}
    (h : front items count = .ok kept) :
    (kept.length : Int) = count := by
  unfold front at h
  split_ifs at h with hCount
  cases h
  rw [List.length_take]
  omega

/- Leave out selection sets at the end, one at a time. -/
def trim
    (chain : Chain) : Checked Chain :=
  if 1 < chain.length then do
    let last ← value (← leaf chain)
    if last.kind = .selectionSet then
      match _h : front chain (chain.length - 1) with
      | .ok shorter => trim shorter
      | .error e => .error e
    else
      pure chain
  else
    pure chain
termination_by chain.length
decreasing_by
  have hLength := length_of_front _h
  omega

theorem trim_eq
    (root : Node)
    (path : List Node) :
    trim (root :: path) =
      .ok (Chain.dropSelectionSets (root :: path)) := by
  induction path using List.reverseRecOn with
  | nil =>
      rw [trim]
      rfl
  | append_singleton path last ih =>
      have hLeaf :
          leaf (root :: (path ++ [last])) = .ok (some last) := by
        rw [leaf_eq, Chain.leaf?, ← List.cons_append,
          List.getLast?_concat]
      have hFront :
          front (root :: (path ++ [last]))
              ((root :: (path ++ [last])).length - 1) =
            .ok (root :: path) := by
        have hCount :
            ((root :: (path ++ [last])).length : Int) - 1 =
              ((path.length + 1 : Nat) : Int) := by
          simp
        rw [hCount, front_eq (by simp)]
        simp
      rw [trim, if_pos (by simp), hLeaf]
      change (if last.kind = .selectionSet then _ else _) = _
      split_ifs with hKind
      · split
        next shorter hShorter =>
          rw [hFront] at hShorter
          cases hShorter
          rw [ih]
          simp [Chain.dropSelectionSets, hKind]
        next e hError =>
          rw [hFront] at hError
          cases hError
      · simp [Chain.dropSelectionSets, hKind]
        rfl

------------------------------------------------------------
-- Contexts
------------------------------------------------------------

section

variable (schema : Schema)

/- Enter a node; a variable needs a definition around it. -/
def enter
    (parent : Option Node)
    (n : Node)
    (c : Context) : Checked Context :=
  match n.kind with
  | .variableUse => do
      let definition ← value c.definition
      pure
        { c with
          variableType :=
            (definition.variableNamed? n.name).bind
              Node.typeRef? }
  | _ => pure (c.enter schema parent n)

/- Enter nodes of a chain, from the one at an index on. -/
def walk
    (chain : Chain) :
    Nat → Context → List Node → Checked Context
  | _, c, [] => pure c
  | index, c, n :: nodes => do
      let around ← parent chain index
      let c ← enter schema around n c
      walk chain (index + 1) c nodes

/- The context after a number of nodes of a chain. -/
def along
    (chain : Chain)
    (count : Int) : Checked Context := do
  walk schema chain 0 {} (← front chain count)

end

/- Variables are used inside of definitions. -/
def Sheltered
    (chain : Chain) : Prop :=
  ∀ n outer,
    (n :: outer).reverse <+: chain → n.kind = .variableUse →
      (Node.definition? outer).isSome

section

variable {schema : Schema}
variable {chain : Chain}

theorem enter_eq
    {n : Node}
    {c : Context}
    (h : n.kind = .variableUse → c.definition.isSome)
    (around : Option Node) :
    enter schema around n c =
      .ok (c.enter schema around n) := by
  unfold enter
  split
  next hKind =>
    rcases Option.isSome_iff_exists.mp (h hKind) with ⟨d, hd⟩
    unfold Context.enter
    rw [hd, hKind]
    rfl
  next => rfl

theorem walk_eq
    (h : Sheltered chain)
    (nodes outer : List Node)
    (hStart : outer.reverse ++ nodes <+: chain) :
    walk schema chain outer.length
        (Context.along schema outer.reverse) nodes =
      .ok (Context.along schema (outer.reverse ++ nodes)) := by
  induction nodes generalizing outer with
  | nil =>
      rw [List.append_nil]
      rfl
  | cons n nodes ih =>
      have hNode :
          outer.reverse ++ n :: nodes =
            (n :: outer).reverse ++ nodes := by
        simp
      have hOuter : chain.take outer.length = outer.reverse := by
        have hTake := List.prefix_iff_eq_take.mp
          ((List.prefix_append _ _).trans hStart)
        rw [hTake, List.length_reverse]
      have hLength : outer.length < chain.length := by
        have hLe := hStart.length_le
        simp at hLe
        omega
      have hAround :
          parent chain outer.length = .ok outer.head? := by
        rw [parent_eq hLength, hOuter, Chain.leaf?,
          List.getLast?_reverse]
      rw [hNode] at hStart ⊢
      have hEnter :
          enter schema outer.head? n
              (Context.along schema outer.reverse) =
            .ok (Context.along schema (n :: outer).reverse) := by
        rw [Context.along_reverse_cons]
        apply enter_eq
        intro hKind
        rw [Context.along_definition]
        exact h n outer
          ((List.prefix_append _ _).trans hStart) hKind
      rw [walk, hAround]
      change (enter schema outer.head? n _ >>= _) = _
      rw [hEnter]
      exact ih (n :: outer) hStart

/- The accesses on the way down a chain succeed. -/
theorem along_eq
    (h : Sheltered chain)
    {count : Nat}
    (hCount : count ≤ chain.length) :
    along schema chain count =
      .ok (Context.along schema (chain.take count)) := by
  unfold along
  rw [front_eq hCount]
  exact walk_eq h (chain.take count) []
    (List.take_prefix count chain)

end

------------------------------------------------------------
-- Entities and Their Content
------------------------------------------------------------

/- The entity of a leaf; a spread needs a document. -/
def entity
    (schema : Schema)
    (c : Context)
    (n : Node) : Checked (Option Entity) :=
  match n.kind with
  | .fragmentSpread => do
      let document ← value c.document
      pure do
        let fragment ← document.fragmentNamed? n.name
        let condition ← fragment.childOfKind? .namedType
        let t ← schema.type? condition.name
        pure (.type (some t) none none)
  | _ => pure (c.entity? schema n)

/- The entity that the leaf of a chain stands for. -/
def annotate
    (schema : Option Schema)
    (chain : Chain) : Checked (Option Entity) :=
  match schema with
  | none => pure none
  | some schema =>
      if chain.length = 0 then
        pure none
      else do
        let c ← along schema chain chain.length
        let n ← value (← leaf chain)
        entity schema c n

/- The text of an entity, all of whose parts are used. -/
def content :
    Option Entity → Checked String
  | some (.field parent field) =>
      if parent.isNone || field.isNone then
        pure ""
      else do
        let p ← value parent
        let f ← value field
        pure
          (Content.join (Entity.fieldSignature p f)
            (Entity.documentation f.description
              f.directives))
  | some (.argument parent field directive argument) =>
      if argument.isNone then
        pure ""
      else do
        let a ← value argument
        let describe := fun owner =>
          Content.join
            (owner ++ "(" ++ a.name ++ ": " ++
              a.type.render ++ ")")
            (Entity.documentation a.description a.directives)
        if directive.isSome then
          let d ← value directive
          pure (describe ("@" ++ d.name))
        else if parent.isSome && field.isSome then
          let p ← value parent
          let f ← value field
          pure (describe (p.name ++ "." ++ f.name))
        else
          pure ""
  | some (.directive directive) =>
      if directive.isNone then
        pure ""
      else do
        let d ← value directive
        pure (Content.join ("@" ++ d.name) d.description)
  | some (.enumValue enum element) =>
      if enum.isNone || element.isNone then
        pure ""
      else do
        let e ← value enum
        let v ← value element
        pure
          (Content.join (e.name ++ "." ++ v.name)
            (Entity.documentation v.description
              v.directives))
  | some (.type type parent field) =>
      if parent.isSome && field.isSome then do
        let p ← value parent
        let f ← value field
        pure (Entity.fieldSignature p f)
      else if type.isNone then
        pure ""
      else do
        let t ← value type
        pure (Content.join t.name t.description)
  | some (.variableType type) =>
      if type.isNone then
        pure ""
      else do
        let t ← value type
        pure t.render
  | none => pure ""

/- The guards of the text make sure of its parts. -/
theorem content_eq
    (e : Option Entity) :
    content e = .ok (Entity.content e) := by
  cases e with
  | none => rfl
  | some e =>
      cases e with
      | field parent field =>
          cases parent
          all_goals
            cases field
            all_goals rfl
      | argument parent field directive argument =>
          cases argument with
          | none => rfl
          | some a =>
              cases directive
              all_goals
                cases parent
                all_goals
                  cases field
                  all_goals rfl
      | directive directive =>
          cases directive
          all_goals rfl
      | enumValue enum element =>
          cases enum
          all_goals
            cases element
            all_goals rfl
      | type type parent field =>
          cases type
          all_goals
            cases parent
            all_goals
              cases field
              all_goals rfl
      | variableType type =>
          cases type
          all_goals rfl

theorem entity_eq
    {schema : Schema}
    {c : Context}
    {n : Node}
    (h : n.kind = .fragmentSpread → c.document.isSome) :
    entity schema c n = .ok (c.entity? schema n) := by
  unfold entity
  split
  next hKind =>
    rcases Option.isSome_iff_exists.mp (h hKind) with ⟨d, hd⟩
    unfold Context.entity? Context.spreadEntity?
    rw [hd, hKind]
    rfl
  next => rfl

theorem annotate_eq
    {chain : Chain}
    (h : Sheltered chain)
    (hDocument :
      ∀ schema, (Context.along schema chain).document.isSome)
    (schema : Option Schema) :
    annotate schema chain = .ok (annotate? schema chain) := by
  cases schema with
  | none => rfl
  | some schema =>
      unfold annotate
      dsimp only
      split_ifs with hEmpty
      · rw [List.length_eq_zero_iff.mp hEmpty]
        rfl
      · rcases exists_leaf? hEmpty with ⟨n, hLeaf⟩
        rw [along_eq h (Nat.le_refl _), List.take_length,
          leaf_eq]
        unfold annotate?
        rw [hLeaf]
        exact entity_eq fun _ => hDocument schema

------------------------------------------------------------
-- Answers
------------------------------------------------------------

/- The answer for a position, unless the text is refused. -/
def resolve
    (schema : Option Schema)
    (text : List Char)
    (p : Position) : Checked (Except SyntaxError Answer) :=
  match Document.parse text with
  | .error e => pure (.error e)
  | .ok root => do
      let offset := p.offsetIn text
      let chain ← trim (root :: root.descend offset)
      let entity ← annotate schema chain
      let content ← content entity
      pure (.ok { text, offset, chain, entity, content })

/- The content for a position, if there is any. -/
def hover
    (schema : Option Schema)
    (text : List Char)
    (p : Position) : Checked String := do
  match ← resolve schema text p with
  | .error _ => pure ""
  | .ok a => pure a.content

/- The part of the text that the content is about. -/
def target
    (a : Answer) : Checked (Option Span) :=
  if a.content = "" ∨ a.chain.length = 0 then
    pure none
  else do
    let n ← value (← leaf a.chain)
    pure (some n.target)

/- The range of the target. -/
def range
    (a : Answer) : Checked (Option Range) := do
  let span? ← target a
  pure
    (span?.map fun span =>
      { start := (Position.ofOffset a.text span.start).clamped
        stop := (Position.ofOffset a.text span.stop).clamped })

theorem target_eq
    (a : Answer) :
    target a = .ok a.target? := by
  unfold target Answer.target?
  by_cases hContent : a.content = ""
  · rw [if_pos (.inl hContent), if_pos hContent]
    rfl
  · rw [if_neg hContent]
    by_cases hEmpty : a.chain.length = 0
    · rw [if_pos (.inr hEmpty),
        List.length_eq_zero_iff.mp hEmpty]
      rfl
    · rcases exists_leaf? hEmpty with ⟨n, hLeaf⟩
      rw [if_neg (not_or.mpr ⟨hContent, hEmpty⟩), leaf_eq,
        hLeaf]
      rfl

theorem range_eq
    (a : Answer) :
    range a = .ok a.range? := by
  unfold range
  rw [target_eq]
  rfl

------------------------------------------------------------
-- Candidates
------------------------------------------------------------

/-
  The names that could stand at the leaf of a chain. An
  argument needs a node around it.
-/
def names
    (schema : Schema)
    (chain : Chain) : Checked (Option (List String)) := do
  let c ← along schema chain (chain.length - 1)
  let n ← value (← leaf chain)
  match n.kind with
  | .field =>
      pure
        (c.composite.map fun t =>
          typenameField.name ::
            t.fields.map FieldDefinition.name)
  | .directive =>
      pure
        (some
          (schema.directives.map DirectiveDefinition.name))
  | .argument => do
      let around ←
        value (← parent chain (chain.length - 1))
      if around.kind = .directive then
        pure
          (c.directive.map fun d =>
            d.arguments.map ArgumentDefinition.name)
      else
        pure
          (c.field.map fun f =>
            f.arguments.map ArgumentDefinition.name)
  | _ => pure none

/- The names that could stand at a leaf, in order. -/
def candidates
    (schema : Option Schema)
    (chain : Chain) : Checked (Option (List String)) :=
  match schema with
  | none => pure none
  | some schema =>
      if chain.length = 0 then
        pure none
      else
        Option.map sortTexts <$> names schema chain

theorem names_eq
    {chain : Chain}
    (h : Sheltered chain)
    (hSome : chain.length ≠ 0)
    (hArgument :
      ∀ n, chain.leaf? = some n → n.kind = .argument →
        (Chain.leaf? chain.dropLast).isSome)
    (schema : Schema) :
    names schema chain = .ok (Context.names? schema chain) := by
  rcases exists_leaf? hSome with ⟨n, hLeaf⟩
  have hCount :
      (chain.length : Int) - 1 =
        ((chain.length - 1 : Nat) : Int) := by
    omega
  have hParent :
      parent chain ((chain.length - 1 : Nat) : Int) =
        .ok (Chain.leaf? chain.dropLast) := by
    rw [parent_eq (by omega), ← List.dropLast_eq_take]
  unfold names Context.names? Context.around
  rw [hCount, along_eq h (Nat.sub_le _ _),
    ← List.dropLast_eq_take, leaf_eq, hLeaf, hParent]
  generalize Context.along schema chain.dropLast = c
  specialize hArgument n hLeaf
  rcases n with ⟨kind, _, _, _, _, _, _⟩
  cases kind
  case field =>
    change Except.ok (c.composite.map _) =
      Except.ok (c.composite.bind _)
    cases c.composite
    all_goals rfl
  case argument =>
    rcases Option.isSome_iff_exists.mp (hArgument rfl) with
      ⟨around, hAround⟩
    rw [hAround]
    change (if around.kind = .directive then _ else _) =
      Except.ok (if around.kind = .directive then _ else _)
    split_ifs
    · cases c.directive
      all_goals rfl
    · cases c.field
      all_goals rfl
  all_goals rfl

theorem candidates_eq
    {chain : Chain}
    (h : Sheltered chain)
    (hArgument :
      ∀ n, chain.leaf? = some n → n.kind = .argument →
        (Chain.leaf? chain.dropLast).isSome)
    (schema : Option Schema) :
    candidates schema chain =
      .ok (candidates? schema chain) := by
  cases schema with
  | none => rfl
  | some schema =>
      unfold candidates
      dsimp only
      split_ifs with hEmpty
      · rw [List.length_eq_zero_iff.mp hEmpty]
        rfl
      · rw [names_eq h hEmpty hArgument]
        change Except.ok
            ((Context.names? schema chain).map sortTexts) =
          Except.ok ((Context.names? schema chain).bind _)
        cases Context.names? schema chain
        all_goals rfl

/- An argument by itself cannot be looked up. -/
example :
    candidates (some {}) [{ kind := .argument }] =
      .error .absent := by
  rfl

/- The hint that goes with a name that is not known. -/
def suggestion
    (schema : Option Schema)
    (chain : Chain) : Checked (Option String) := do
  match ← candidates schema chain with
  | none => pure none
  | some names =>
      let n ← value (← leaf chain)
      if names.contains n.name then
        pure none
      else
        match Text.closest? n.name names with
        | none => pure none
        | some name =>
            if name = "" then
              pure none
            else
              pure (some ("did you mean `" ++ name ++ "`?"))

theorem suggestion_eq
    {chain : Chain}
    (h : Sheltered chain)
    (hArgument :
      ∀ n, chain.leaf? = some n → n.kind = .argument →
        (Chain.leaf? chain.dropLast).isSome)
    (schema : Option Schema) :
    suggestion schema chain =
      .ok (suggestion? schema chain) := by
  unfold suggestion suggestion? correction?
  rw [candidates_eq h hArgument, leaf_eq]
  cases hNames : candidates? schema chain with
  | none => rfl
  | some names =>
      cases hLeaf : chain.leaf? with
      | none =>
          rw [List.getLast?_eq_none_iff.mp hLeaf] at hNames
          cases schema
          all_goals cases hNames
      | some n =>
          change (if names.contains n.name then _ else _) =
            Except.ok
              (Option.bind
                (if names.contains n.name then _ else _) _)
          split_ifs
          · rfl
          · cases Text.closest? n.name names with
            | none => rfl
            | some name =>
                change (if name = "" then _ else _) =
                  Except.ok (if name = "" then _ else _)
                split_ifs
                all_goals rfl

------------------------------------------------------------
-- Display
------------------------------------------------------------

/- A source line with its number, and carets below it. -/
def snippet
    (color : Bool)
    (severity : Severity)
    (source : String)
    (line column length : Int)
    (message : String) : Checked String := do
  let length := if length < 1 then 1 else length
  let column := if column < 1 then 1 else column
  let number := toString line
  let bar := Snippet.gutter.render color "|"
  let style := Snippet.mark severity
  let margin ← repeated number.length ' '
  let padding ← repeated (column - 1) ' '
  let carets ← repeated length '^'
  let note :=
    if message = "" then
      ""
    else
      " " ++ style.render color message
  pure
    (Snippet.gutter.render color number ++ " " ++ bar ++ " " ++
      source ++ "\n" ++ margin ++ " " ++ bar ++ " " ++
      padding ++ style.render color carets ++ note)

theorem snippet_eq
    (color : Bool)
    (severity : Severity)
    (source : String)
    (line column length : Int)
    (message : String) :
    snippet color severity source line column length message =
      .ok
        (Snippet.render color severity source line column
          length message) := by
  have hLength :
      (if length < 1 then 1 else length) = max length 1 := by
    split_ifs
    all_goals omega
  have hColumn :
      (if column < 1 then 1 else column) = max column 1 := by
    split_ifs
    all_goals omega
  unfold snippet
  simp only [hLength, hColumn]
  rw [repeated_eq (Int.natCast_nonneg _),
    repeated_eq (by omega), repeated_eq (by omega)]
  rfl

/- The source line where a span starts, if there is one. -/
def lineOf
    (a : Answer)
    (span : Span) : Checked (Option (List Char)) :=
  let start := Position.ofOffset a.text span.start
  let lines := Text.lines a.text
  if (lines.length : Int) ≤ start.line then
    pure none
  else
    some <$> item lines start.line

/- A line with the target underlined. -/
def underline
    (a : Answer)
    (color : Bool)
    (source : String)
    (span : Span)
    (line : List Char) : Checked String := do
  let start := Position.ofOffset a.text span.start
  let below ←
    snippet color .info
      (String.ofList (Text.withoutReturn line))
      (start.line + 1) (start.character + 1)
      (a.width span line) ""
  pure
    (Snippet.location color source (start.line + 1)
        (start.character + 1) ++
      "\n" ++ below)

/- An answer for display. -/
def pretty
    (color : Bool)
    (source : String)
    (a : Answer) : Checked String := do
  let signature :=
    Answer.signatureStyle.render color
      (Content.signature a.content)
  let documentation := Content.documentation a.content
  let styled :=
    if documentation = "" then
      signature
    else
      signature ++ "\n\n" ++
        Answer.documentationStyle.render color documentation
  match ← target a with
  | none => pure styled
  | some span =>
      match ← lineOf a span with
      | none => pure styled
      | some line =>
          let shown ← underline a color source span line
          pure (styled ++ "\n\n" ++ shown)

/- No position has a negative line. -/
theorem lineOf_eq
    (a : Answer)
    (span : Span) :
    lineOf a span = .ok (a.lineOf? span) := by
  have hStart := (Position.ofOffset_le a.text span.start).1
  obtain ⟨line, hLine⟩ := Int.eq_ofNat_of_zero_le hStart
  unfold lineOf Answer.lineOf?
  dsimp only
  rw [hLine, Int.toNat_natCast]
  split_ifs with hOutside
  · rw [List.getElem?_eq_none (Int.ofNat_le.mp hOutside)]
    rfl
  · have hItem :=
      List.getElem?_eq_getElem (Nat.lt_of_not_le fun hLe =>
        hOutside (Int.ofNat_le.mpr hLe))
    rw [item_eq hItem, hItem]
    rfl

theorem underline_eq
    (a : Answer)
    (color : Bool)
    (source : String)
    (span : Span)
    (line : List Char) :
    underline a color source span line =
      .ok (a.underline color source span line) := by
  simp only [underline, snippet_eq]
  rfl

theorem pretty_eq
    (color : Bool)
    (source : String)
    (a : Answer) :
    pretty color source a = .ok (a.pretty color source) := by
  unfold pretty Answer.pretty
  rw [target_eq]
  cases a.target? with
  | none => rfl
  | some span =>
      dsimp only
      change (lineOf a span >>= _) = _
      rw [lineOf_eq]
      cases a.lineOf? span with
      | none => rfl
      | some line =>
          change (underline a color source span line >>= _) = _
          rw [underline_eq]
          rfl

end Checked

end QueryHover
