/-
  Edit distance between two sequences.

  The distance is the least number of insertions, deletions
  and substitutions that turn one sequence into the other.
  It is computed row by row: the row of a prefix of the
  first sequence holds its distances to all prefixes of the
  second.

  Key definitions include:
    * `Text.editDistance`
    * `Text.closest?`
-/

namespace QueryHover

namespace Text

variable {α : Type} [DecidableEq α]

/-
  The distances of a row from the second one on, given the
  distance to the left and the row above.
-/
def extendRow
    (x : α) :
    Nat → List α → List Nat → List Nat
  | left, y :: ys, corner :: above :: row =>
      let change := corner + if x = y then 0 else 1
      let entry := min change (min left above + 1)
      entry :: extendRow x entry ys (above :: row)
  | _, _, _ => []

/- The row after one more entry of the first sequence. -/
def nextRow
    (ys : List α)
    (row : List Nat)
    (x : α) : List Nat :=
  match row with
  | [] => []
  | corner :: _ =>
      (corner + 1) :: extendRow x (corner + 1) ys row

/- The edit distance of two sequences. -/
def editDistance
    (xs ys : List α) : Nat :=
  let first := List.range (ys.length + 1)
  (xs.foldl (nextRow ys) first).getLastD 0

/- The first text at the least distance, with that distance. -/
def nearest?
    (word : String) :
    List String → Option (String × Nat)
  | [] => none
  | candidate :: rest =>
      let distance :=
        editDistance word.toList candidate.toList
      match nearest? word rest with
      | some (other, least) =>
          if least < distance then
            some (other, least)
          else
            some (candidate, distance)
      | none => some (candidate, distance)

/- Further texts are no help as a correction. -/
def correctionLimit : Nat := 5

/-
  The candidate closest to a word, the first of several, if
  it is near enough to be offered as a correction.
-/
def closest?
    (word : String)
    (candidates : List String) : Option String :=
  match nearest? word candidates with
  | some (candidate, distance) =>
      if distance ≤ correctionLimit then
        some candidate
      else
        none
  | none => none

end Text

end QueryHover
