import Mathlib.Tactic.SplitIfs
import QueryHover.Node.Reading

/-
  Phrases of a query document and the nodes they spell.

  A phrase is a part of the grammar. It is spelled by a list
  of tokens, and these tokens determine the nodes that stand
  for it: their names, and the part of the text they cover.

  Main declarations:
    * `Token.extent`
    * `Phrase`
    * `Phrase.Spells`
    * `Phrase.Spells.ne_nil`
    * `Phrase.Spells.mem_kinds`
-/

namespace QueryHover

------------------------------------------------------------
-- The Part of a Text that Tokens Cover
------------------------------------------------------------

namespace Token

/- The part of the text that a token covers. -/
def span
    (t : Token) : Span :=
  ⟨t.start, t.stop⟩

/- From the start of the first token to the last one's end. -/
def extent
    (ts : List Token) : Span :=
  { start := ((ts.head?.map Token.start).getD 0 : Nat)
    stop := ((ts.getLast?.map Token.stop).getD 0 : Nat) }

end Token

/- A node that covers exactly some tokens. -/
def Node.over
    (ts : List Token)
    (n : Node) : Node :=
  { n with span := Token.extent ts }

------------------------------------------------------------
-- Families of Kinds
------------------------------------------------------------

namespace Node.Kind

/- The kinds of type references. -/
def types : List Node.Kind :=
  [.namedType, .listType, .nonNullType]

/- The kinds of values without a variable at the top. -/
def constants : List Node.Kind :=
  [ .intValue, .floatValue, .stringValue, .booleanValue,
    .nullValue, .enumValue, .listValue, .objectValue ]

/- The kinds of names with a value. -/
def entries : List Node.Kind :=
  [.argument, .objectField]

/- The kinds of selections. -/
def selections : List Node.Kind :=
  [.field, .fragmentSpread, .inlineFragment]

/- The kinds of definitions. -/
def definitions : List Node.Kind :=
  [.operationDefinition, .fragmentDefinition]

end Node.Kind

------------------------------------------------------------
-- Phrases
------------------------------------------------------------

/-
  The phrases of a query document. A value may be restricted
  to constants. An entry is a name, a colon and a value: an
  argument or a field of an object.
-/
inductive Phrase where
  | many (item : Phrase)
  | optional (item : Phrase)
  | parenthesised (item : Phrase)
  | namedType
  | unmarkedType
  | typeRef
  | variableUse
  | value (constant : Bool)
  | entry (kind : Node.Kind) (constant : Bool)
  | directive
  | initial
  | variableDefinition
  | selectionSet
  | selection
  | definition

namespace Phrase

/- Arguments in parentheses, if there are any. -/
abbrev arguments : Phrase :=
  .optional (.parenthesised (.entry .argument false))

/- Variable declarations in parentheses, if there are any. -/
abbrev variableDefinitions : Phrase :=
  .optional (.parenthesised .variableDefinition)

/- The directives applied to what stands before them. -/
abbrev directives : Phrase :=
  .many .directive

/- A token that is a value by itself. -/
def IsScalar
    (t : Token) : Prop :=
  t.kind = .int ∨ t.kind = .float ∨ t.kind = .string ∨
    t.kind = .blockString ∨ t.kind = .name

/-
  A phrase, the tokens that spell it and the nodes that stand
  for it.
-/
inductive Spells :
    Phrase → List Token → List Node → Prop where
  -- repetition
  | nil
      {p : Phrase} :
      Spells (.many p) [] []
  | cons
      {p : Phrase} {ts us : List Token}
      {n : Node} {ns : List Node}
      (hItem : Spells p ts [n])
      (hRest : Spells (.many p) us ns) :
      Spells (.many p) (ts ++ us) (n :: ns)
  | absent
      {p : Phrase} :
      Spells (.optional p) [] []
  | present
      {p : Phrase} {ts : List Token} {ns : List Node}
      (hItem : Spells p ts ns) :
      Spells (.optional p) ts ns
  | parens
      {p : Phrase} {o c : Token}
      {ts : List Token} {ns : List Node}
      (hOpen : o.kind = .parenL)
      (hItems : Spells (.many p) ts ns)
      (hSome : ns ≠ [])
      (hClose : c.kind = .parenR) :
      Spells (.parenthesised p) (o :: ts ++ [c]) ns
  -- types
  | namedType
      {t : Token}
      (hName : t.kind = .name) :
      Spells .namedType [t]
        [Node.over [t]
          { kind := .namedType
            name := t.value
            nameSpan := t.span }]
  | plainType
      {ts : List Token} {n : Node}
      (hType : Spells .namedType ts [n]) :
      Spells .unmarkedType ts [n]
  | listType
      {o c : Token} {ts : List Token} {n : Node}
      (hOpen : o.kind = .bracketL)
      (hElement : Spells .typeRef ts [n])
      (hClose : c.kind = .bracketR) :
      Spells .unmarkedType (o :: ts ++ [c])
        [Node.over (o :: ts ++ [c])
          { kind := .listType, children := [n] }]
  | nullable
      {ts : List Token} {n : Node}
      (hType : Spells .unmarkedType ts [n]) :
      Spells .typeRef ts [n]
  | nonNull
      {b : Token} {ts : List Token} {n : Node}
      (hType : Spells .unmarkedType ts [n])
      (hBang : b.kind = .bang) :
      Spells .typeRef (ts ++ [b])
        [Node.over (ts ++ [b])
          { kind := .nonNullType
            name := n.name
            nameSpan := n.nameSpan
            children := [n] }]
  -- values
  | variableUse
      {d t : Token}
      (hDollar : d.kind = .dollar)
      (hName : t.kind = .name) :
      Spells .variableUse [d, t]
        [Node.over [d, t]
          { kind := .variableUse
            name := t.value
            nameSpan := Token.extent [d, t] }]
  | scalar
      {constant : Bool} {t : Token}
      (hScalar : IsScalar t) :
      Spells (.value constant) [t]
        [Node.over [t]
          { kind := Node.Reading.scalarKind t
            name := t.value
            nameSpan := t.span }]
  | reference
      {ts : List Token} {n : Node}
      (hVariable : Spells .variableUse ts [n]) :
      Spells (.value false) ts [n]
  | list
      {constant : Bool} {o c : Token}
      {ts : List Token} {ns : List Node}
      (hOpen : o.kind = .bracketL)
      (hItems : Spells (.many (.value constant)) ts ns)
      (hClose : c.kind = .bracketR) :
      Spells (.value constant) (o :: ts ++ [c])
        [Node.over (o :: ts ++ [c])
          { kind := .listValue, children := ns }]
  | object
      {constant : Bool} {o c : Token}
      {ts : List Token} {ns : List Node}
      (hOpen : o.kind = .braceL)
      (hItems :
        Spells (.many (.entry .objectField constant)) ts ns)
      (hClose : c.kind = .braceR) :
      Spells (.value constant) (o :: ts ++ [c])
        [Node.over (o :: ts ++ [c])
          { kind := .objectValue, children := ns }]
  | entry
      {kind : Node.Kind} {constant : Bool}
      {t c : Token} {ts : List Token} {n : Node}
      (hKind : kind ∈ Node.Kind.entries)
      (hName : t.kind = .name)
      (hColon : c.kind = .colon)
      (hValue : Spells (.value constant) ts [n]) :
      Spells (.entry kind constant) (t :: c :: ts)
        [Node.over (t :: c :: ts)
          { kind := kind
            name := t.value
            nameSpan := t.span
            children := [n] }]
  -- directives and variable definitions
  | directive
      {a t : Token} {ts : List Token} {ns : List Node}
      (hAt : a.kind = .atSign)
      (hName : t.kind = .name)
      (hArguments : Spells arguments ts ns) :
      Spells .directive (a :: t :: ts)
        [Node.over (a :: t :: ts)
          { kind := .directive
            name := t.value
            nameSpan := t.span
            children := ns }]
  | initial
      {e : Token} {ts : List Token} {ns : List Node}
      (hEquals : e.kind = .equals)
      (hValue : Spells (.value true) ts ns) :
      Spells .initial (e :: ts) ns
  | variableDefinition
      {c : Token} {vs ts is ds : List Token}
      {v n : Node} {ins dns : List Node}
      (hVariable : Spells .variableUse vs [v])
      (hColon : c.kind = .colon)
      (hType : Spells .typeRef ts [n])
      (hInitial : Spells (.optional .initial) is ins)
      (hDirectives : Spells directives ds dns) :
      Spells .variableDefinition
        (vs ++ c :: (ts ++ (is ++ ds)))
        [Node.over (vs ++ c :: (ts ++ (is ++ ds)))
          { kind := .variableDefinition
            name := v.name
            nameSpan := v.nameSpan
            children := v :: n :: ins ++ dns }]
  -- selections
  | selectionSet
      {o c : Token} {ts : List Token} {ns : List Node}
      (hOpen : o.kind = .braceL)
      (hItems : Spells (.many .selection) ts ns)
      (hSome : ns ≠ [])
      (hClose : c.kind = .braceR) :
      Spells .selectionSet (o :: ts ++ [c])
        [Node.over (o :: ts ++ [c])
          { kind := .selectionSet, children := ns }]
  | field
      {t : Token} {as ds ss : List Token}
      {ans dns sns : List Node}
      (hName : t.kind = .name)
      (hArguments : Spells arguments as ans)
      (hDirectives : Spells directives ds dns)
      (hSelections : Spells (.optional .selectionSet) ss sns) :
      Spells .selection (t :: (as ++ (ds ++ ss)))
        [Node.over (t :: (as ++ (ds ++ ss)))
          { kind := .field
            name := t.value
            nameSpan := t.span
            children := ans ++ dns ++ sns }]
  | aliasedField
      {a c t : Token} {as ds ss : List Token}
      {ans dns sns : List Node}
      (hAlias : a.kind = .name)
      (hColon : c.kind = .colon)
      (hName : t.kind = .name)
      (hArguments : Spells arguments as ans)
      (hDirectives : Spells directives ds dns)
      (hSelections : Spells (.optional .selectionSet) ss sns) :
      Spells .selection (a :: c :: t :: (as ++ (ds ++ ss)))
        [Node.over (a :: c :: t :: (as ++ (ds ++ ss)))
          { kind := .field
            name := t.value
            nameSpan := t.span
            aliasName := a.value
            children := ans ++ dns ++ sns }]
  | fragmentSpread
      {e t : Token} {ds : List Token} {dns : List Node}
      (hSpread : e.kind = .spread)
      (hName : t.kind = .name)
      (hWord : t.value ≠ "on")
      (hDirectives : Spells directives ds dns) :
      Spells .selection (e :: t :: ds)
        [Node.over (e :: t :: ds)
          { kind := .fragmentSpread
            name := t.value
            nameSpan := t.span
            children := dns }]
  | inlineFragment
      {e : Token} {ds ss : List Token}
      {n : Node} {dns : List Node}
      (hSpread : e.kind = .spread)
      (hDirectives : Spells directives ds dns)
      (hSelections : Spells .selectionSet ss [n]) :
      Spells .selection (e :: (ds ++ ss))
        [Node.over (e :: (ds ++ ss))
          { kind := .inlineFragment
            children := dns ++ [n] }]
  | typedFragment
      {e o : Token} {cs ds ss : List Token}
      {n condition : Node} {dns : List Node}
      (hSpread : e.kind = .spread)
      (hOn : o.value = "on")
      (hCondition : Spells .namedType cs [condition])
      (hDirectives : Spells directives ds dns)
      (hSelections : Spells .selectionSet ss [n]) :
      Spells .selection (e :: o :: (cs ++ (ds ++ ss)))
        [Node.over (e :: o :: (cs ++ (ds ++ ss)))
          { kind := .inlineFragment
            name := condition.name
            nameSpan := condition.nameSpan
            children := condition :: dns ++ [n] }]
  -- definitions
  | shorthand
      {ss : List Token} {n : Node}
      (hSelections : Spells .selectionSet ss [n]) :
      Spells .definition ss
        [Node.over ss
          { kind := .operationDefinition
            operation := some .query
            children := [n] }]
  | operation
      {k : Token} {name : Option Token}
      {vs ds ss : List Token}
      {operation : Operation}
      {n : Node} {vns dns : List Node}
      (hKeyword : k.kind = .name)
      (hOperation :
        Operation.ofKeyword? k.value = some operation)
      (hName : ∀ t ∈ name, t.kind = .name)
      (hVariables : Spells variableDefinitions vs vns)
      (hDirectives : Spells directives ds dns)
      (hSelections : Spells .selectionSet ss [n]) :
      Spells .definition
        (k :: (name.toList ++ (vs ++ (ds ++ ss))))
        [Node.over
          (k :: (name.toList ++ (vs ++ (ds ++ ss))))
          { kind := .operationDefinition
            name := (name.map Token.value).getD ""
            operation := some operation
            children := vns ++ dns ++ [n] }]
  | fragmentDefinition
      {f t o : Token} {vs cs ds ss : List Token}
      {n condition : Node} {vns dns : List Node}
      (hKeyword : f.isWord "fragment")
      (hName : t.kind = .name)
      (hWord : t.value ≠ "on")
      (hVariables : Spells variableDefinitions vs vns)
      (hOn : o.isWord "on")
      (hCondition : Spells .namedType cs [condition])
      (hDirectives : Spells directives ds dns)
      (hSelections : Spells .selectionSet ss [n]) :
      Spells .definition
        (f :: t :: (vs ++ o :: (cs ++ (ds ++ ss))))
        [Node.over
          (f :: t :: (vs ++ o :: (cs ++ (ds ++ ss))))
          { kind := .fragmentDefinition
            name := t.value
            nameSpan := t.span
            children := vns ++ condition :: dns ++ [n] }]

------------------------------------------------------------
-- Tokens and Kinds of Nodes
------------------------------------------------------------

/- Only a phrase without nodes may have no tokens. -/
theorem Spells.ne_nil
    {p : Phrase}
    {ts : List Token}
    {ns : List Node}
    (h : Spells p ts ns)
    (hSome : ns ≠ []) :
    ts ≠ [] := by
  induction h with
  | nil => exact absurd rfl hSome
  | absent => exact absurd rfl hSome
  | cons hItem hRest ihItem ihRest =>
      have hFirst := ihItem (by simp)
      simp [hFirst]
  | present hItem ih => exact ih hSome
  | plainType hType ih => exact ih hSome
  | nullable hType ih => exact ih hSome
  | reference hVariable ih => exact ih hSome
  | shorthand hSelections ih => exact ih (by simp)
  | _ => simp

/- A single token stands for one of the kinds of constants. -/
theorem scalarKind_mem
    (t : Token) :
    Node.Reading.scalarKind t ∈ Node.Kind.constants := by
  unfold Node.Reading.scalarKind
  cases t.kind
  case int | float | string | blockString =>
    dsimp only
    decide
  all_goals
    dsimp only
    split_ifs
    all_goals decide

/- The kinds of the nodes that may stand for a phrase. -/
def kinds :
    Phrase → List Node.Kind
  | .many item | .optional item | .parenthesised item =>
      item.kinds
  | .namedType => [.namedType]
  | .unmarkedType => [.namedType, .listType]
  | .typeRef => Node.Kind.types
  | .variableUse => [.variableUse]
  | .value true | .initial => Node.Kind.constants
  | .value false => .variableUse :: Node.Kind.constants
  | .entry kind _ => [kind]
  | .directive => [.directive]
  | .variableDefinition => [.variableDefinition]
  | .selectionSet => [.selectionSet]
  | .selection => Node.Kind.selections
  | .definition => Node.Kind.definitions

/- A value is a variable or a constant. -/
theorem value_kinds
    (constant : Bool) :
    ∀ kind ∈ (Phrase.value constant).kinds,
      kind ∈ .variableUse :: Node.Kind.constants := by
  cases constant
  all_goals decide

/- A phrase stands for nodes of its own kinds only. -/
theorem Spells.mem_kinds
    {p : Phrase}
    {ts : List Token}
    {ns : List Node}
    (h : Spells p ts ns) :
    ∀ n ∈ ns, n.kind ∈ p.kinds := by
  induction h with
  | nil | absent => simp
  | cons hItem hRest ihItem ihRest =>
      intro n hn
      rcases List.mem_cons.mp hn with rfl | hn
      · exact ihItem n (by simp)
      · exact ihRest n hn
  | present hItem ih => exact ih
  | parens hOpen hItems hSome hClose ih => exact ih
  | initial hEquals hValue ih => exact ih
  | scalar hScalar =>
      rename_i constant t
      have hKind := scalarKind_mem t
      cases constant with
      | true => simpa [Node.over, kinds] using hKind
      | false => simp [Node.over, kinds, hKind]
  | plainType hType ih =>
      intro n hn
      have hKind := ih n hn
      simp only [kinds, List.mem_singleton] at hKind
      simp [kinds, hKind]
  | nullable hType ih =>
      intro n hn
      have hKind := ih n hn
      simp only [kinds, List.mem_cons,
        List.not_mem_nil, or_false] at hKind
      rcases hKind with hKind | hKind
      · simp [kinds, Node.Kind.types, hKind]
      · simp [kinds, Node.Kind.types, hKind]
  | reference hVariable ih =>
      intro n hn
      have hKind := ih n hn
      simp only [kinds, List.mem_singleton] at hKind
      simp [kinds, hKind]
  | list hOpen hItems hClose ih =>
      rename_i constant _ _ _ _
      cases constant
      all_goals
        simp [Node.over, kinds, Node.Kind.constants]
  | object hOpen hItems hClose ih =>
      rename_i constant _ _ _ _
      cases constant
      all_goals
        simp [Node.over, kinds, Node.Kind.constants]
  | _ =>
      simp [Node.over, kinds, Node.Kind.types,
        Node.Kind.selections, Node.Kind.definitions]

end Phrase

end QueryHover
