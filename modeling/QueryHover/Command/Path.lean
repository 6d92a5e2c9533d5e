/-
  File paths.

  A path is brought into its shortest form without looking
  at any files: empty parts and single dots are dropped, and
  two dots cancel the part before them.

  Key definitions include:
    * `Path.clean`
    * `Path.absolute`
    * `Path.base`
-/

namespace QueryHover

namespace Path

/- The parts of a path between slashes. -/
def parts :
    List Char → List (List Char)
  | [] => [[]]
  | c :: cs =>
      if c = '/' then
        [] :: parts cs
      else
        match parts cs with
        | [] => [[c]]
        | p :: ps => (c :: p) :: ps

/- Whether a path starts at the root. -/
def isRooted
    (path : String) : Bool :=
  path.toList.head? = some '/'

/- Add a part to the parts kept, last one first. -/
def push
    (rooted : Bool)
    (kept : List (List Char))
    (part : List Char) : List (List Char) :=
  if part = [] || part = ['.'] then
    kept
  else if part = ['.', '.'] then
    match kept with
    | [] => if rooted then [] else [part]
    | last :: rest =>
        if last = ['.', '.'] then part :: kept else rest
  else
    part :: kept

/- The shortest form of a path. -/
def clean
    (path : String) : String :=
  let rooted := isRooted path
  let kept := (parts path.toList).foldl (push rooted) []
  let joined := ['/'].intercalate kept.reverse
  if rooted then
    String.ofList ('/' :: joined)
  else if kept.isEmpty then
    "."
  else
    String.ofList joined

/- A path as seen from a directory, in its shortest form. -/
def absolute
    (directory path : String) : String :=
  if isRooted path then
    clean path
  else
    clean (directory ++ "/" ++ path)

/- The last part of a path in its shortest form. -/
def base
    (path : String) : String :=
  match (parts path.toList).getLast? with
  | none => path
  | some [] => "/"
  | some part => String.ofList part

end Path

end QueryHover
