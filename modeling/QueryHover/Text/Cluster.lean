import QueryHover.Text.Bytes
import QueryHover.Text.ClusterClass

/-
  Clusters: the characters that a reader sees as one.

  A cluster is a base character with its marks, a syllable,
  a pair of regional indicators, or pictographs held together
  by joiners. Whether a character joins a cluster depends on
  the cluster's edge, which is all that is kept of it.

  Key definitions include:
    * `Cluster.Edge`
    * `Cluster.Edge.joins`
    * `Cluster.first`
-/

namespace QueryHover

namespace Cluster

------------------------------------------------------------
-- Edges
------------------------------------------------------------

/-
  The end of a cluster: the class of its last character,
  whether it ends in a pictograph with perhaps marks after
  it, whether it ends in that and one joiner, and whether its
  last regional indicator has no partner.
-/
structure Edge where
  last : ClusterClass
  pictograph : Bool
  joined : Bool
  unpaired : Bool
deriving DecidableEq, Repr

namespace Edge

/- The edge of a single character. -/
def ofClass
    (k : ClusterClass) : Edge :=
  { last := k
    pictograph := k = .pictograph
    joined := false
    unpaired := k = .regional }

/- The edge after one more character. -/
def extend
    (e : Edge)
    (k : ClusterClass) : Edge :=
  { last := k
    pictograph :=
      k = .pictograph || (e.pictograph && k = .mark)
    joined := e.pictograph && k = .joiner
    unpaired := k = .regional && !e.unpaired }

/- Whether a character of a class joins a cluster. -/
def joins
    (e : Edge)
    (k : ClusterClass) : Bool :=
  match e.last, k with
  | .carriageReturn, .newline => true
  | .carriageReturn, _ | .newline, _ | .control, _ => false
  | _, .carriageReturn | _, .newline | _, .control => false
  | _, .mark | _, .spacingMark | _, .joiner => true
  | .prepended, _ => true
  | .leading, .leading | .leading, .vowel => true
  | .leading, .openSyllable | .leading, .closedSyllable =>
      true
  | .openSyllable, .vowel | .openSyllable, .trailing => true
  | .vowel, .vowel | .vowel, .trailing => true
  | .closedSyllable, .trailing => true
  | .trailing, .trailing => true
  | .joiner, .pictograph => e.joined
  | .regional, .regional => e.unpaired
  | _, _ => false

end Edge

------------------------------------------------------------
-- Reading a Cluster
------------------------------------------------------------

/-
  The bytes that join a cluster before them, the given number
  of them because their character has joined it.
-/
def joined :
    Nat → Edge → List UInt8 → List UInt8
  | _, _, [] => []
  | n + 1, e, b :: bytes => b :: joined n e bytes
  | 0, e, b :: bytes =>
      let (c, more) := Text.charFrom b bytes
      let k := ClusterClass.ofChar c
      if e.joins k then
        b :: joined more (e.extend k) bytes
      else
        []

/- The cluster that starts with a byte before others. -/
def first
    (b : UInt8)
    (bytes : List UInt8) : List UInt8 :=
  let (c, more) := Text.charFrom b bytes
  b :: joined more (.ofClass (.ofChar c)) bytes

end Cluster

end QueryHover
