import QueryHover.Node.Basic

/-
  Chains of nodes.

  The chain at an offset leads from the root of a tree down
  to the innermost node there. A child that contains the
  offset comes before one that only ends at it, so a cursor
  right after a name still finds that name. A selection set
  at the end is left out: its braces belong to the node
  around it.

  Key definitions include:
    * `Node.childAt?`
    * `Node.descend`
    * `Chain`
    * `Chain.resolve`
-/

namespace QueryHover

------------------------------------------------------------
-- Descent
------------------------------------------------------------

namespace Node

/- The last of some nodes with a property. -/
def lastWith?
    (p : Node → Bool)
    (nodes : List Node) : Option Node :=
  nodes.reverse.find? p

/- The child to descend into at an offset. -/
def childAt?
    (n : Node)
    (offset : Int) : Option Node :=
  let inside :=
    lastWith? (fun c => c.span.Contains offset) n.children
  let touching :=
    lastWith? (fun c => c.span.stop = offset) n.children
  inside.or touching

theorem lastWith?_mem
    {p : Node → Bool}
    {nodes : List Node}
    {n : Node}
    (h : lastWith? p nodes = some n) :
    n ∈ nodes :=
  List.mem_reverse.mp (List.mem_of_find?_eq_some h)

/- The child to descend into is a child. -/
theorem childAt?_mem
    {n c : Node}
    {offset : Int}
    (h : n.childAt? offset = some c) :
    c ∈ n.children := by
  unfold childAt? at h
  rcases Option.or_eq_some_iff.mp h with h | ⟨_, h⟩
  · exact lastWith?_mem h
  · exact lastWith?_mem h

/- A child is smaller than its parent. -/
theorem sizeOf_lt_of_mem_children
    {n c : Node}
    (h : c ∈ n.children) :
    sizeOf c < sizeOf n := by
  cases n with
  | mk kind span name nameSpan aliasName operation children =>
      have := List.sizeOf_lt_of_mem h
      simp only [Node.mk.sizeOf_spec]
      simp only at this
      omega

/- The nodes met below a node on the way to an offset. -/
def descend
    (n : Node)
    (offset : Int) : List Node :=
  match _h : n.childAt? offset with
  | none => []
  | some c => c :: descend c offset
termination_by sizeOf n
decreasing_by
  exact sizeOf_lt_of_mem_children (childAt?_mem _h)

end Node

------------------------------------------------------------
-- Chains
------------------------------------------------------------

/- Nodes from the outermost to the innermost. -/
abbrev Chain :=
  List Node

namespace Chain

/- The innermost node. -/
def leaf?
    (chain : Chain) : Option Node :=
  chain.getLast?

/- The node around the one at an index. -/
def parent?
    (chain : Chain)
    (index : Int) : Option Node :=
  if 0 < index ∧ index < chain.length then
    chain[index.toNat - 1]?
  else
    none

/- Leave out selection sets at the end, never the root. -/
def dropSelectionSets
    (chain : Chain) : Chain :=
  match chain with
  | [] => []
  | root :: rest =>
      let kept :=
        rest.reverse.dropWhile fun n =>
          n.kind = .selectionSet
      root :: kept.reverse

/- The chain at an offset of a tree. -/
def resolve
    (root : Node)
    (offset : Int) : Chain :=
  dropSelectionSets (root :: root.descend offset)

/- How a chain is printed. -/
def describe
    (chain : Chain) : String :=
  " > ".intercalate (chain.map Node.label)

end Chain

end QueryHover
