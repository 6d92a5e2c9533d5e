import QueryHover.Text.Quoted

/-
  JSON values and how they are written.

  A number is kept as the literal it is written with, and an
  object as its members in order. Values are written over
  several lines, two spaces for each level of nesting;
  characters that have a meaning in markup are escaped.

  Key definitions include:
    * `Json`
    * `Json.sorted`
    * `Json.escapeChar`
    * `Json.render`
-/

namespace QueryHover

/- A JSON value. -/
inductive Json where
  | null
  | bool (b : Bool)
  | number (literal : String)
  | string (s : String)
  | array (items : List Json)
  | object (members : List (String × Json))
deriving Inhabited, Repr

namespace Json

/- An integer as a value. -/
def int
    (n : Int) : Json :=
  number (toString n)

------------------------------------------------------------
-- Order of Members
------------------------------------------------------------

/- Keep the last of several members with one key. -/
def lastMembers :
    List (String × Json) → List (String × Json)
  | [] => []
  | member :: rest =>
      let kept := lastMembers rest
      if kept.any fun other => other.1 = member.1 then
        kept
      else
        member :: kept

/- Members in the order of their keys, the last of each key. -/
def sortMembers
    (members : List (String × Json)) :
    List (String × Json) :=
  (lastMembers members).mergeSort fun a b =>
    !(decide (b.1 < a.1))

mutual

/- The value with the members of all objects in key order. -/
def sorted :
    Json → Json
  | null => null
  | bool b => bool b
  | number literal => number literal
  | string s => string s
  | array items => array (sortedItems items)
  | object members =>
      object (sortMembers (sortedMembers members))

def sortedItems :
    List Json → List Json
  | [] => []
  | item :: items => item.sorted :: sortedItems items

def sortedMembers :
    List (String × Json) → List (String × Json)
  | [] => []
  | (key, value) :: members =>
      (key, value.sorted) :: sortedMembers members

end

------------------------------------------------------------
-- Writing
------------------------------------------------------------

/- One character inside a written string. -/
def escapeChar
    (c : Char) : List Char :=
  if c = '"' || c = '\\' then
    ['\\', c]
  else if c = '\x08' then
    ['\\', 'b']
  else if c = '\x0c' then
    ['\\', 'f']
  else if c = '\n' then
    ['\\', 'n']
  else if c = '\r' then
    ['\\', 'r']
  else if c = '\t' then
    ['\\', 't']
  else if c.toNat < 0x20 || c = '<' || c = '>' || c = '&' ||
      c = '\u2028' || c = '\u2029' then
    '\\' :: 'u' :: Text.hexadecimal 4 c.toNat
  else
    [c]

/- A string between its quotes. -/
def writeString
    (s : String) : List Char :=
  '"' :: s.toList.flatMap escapeChar ++ ['"']

/- The start of a line at a level of nesting. -/
def newline
    (depth : Nat) : List Char :=
  '\n' :: List.replicate (2 * depth) ' '

mutual

/- A value whose lines are nested at a depth. -/
def write
    (depth : Nat) :
    Json → List Char
  | null => "null".toList
  | bool true => "true".toList
  | bool false => "false".toList
  | number literal => literal.toList
  | string s => writeString s
  | array [] => ['[', ']']
  | array (item :: items) =>
      '[' :: newline (depth + 1) ++ item.write (depth + 1) ++
        writeItems (depth + 1) items ++
        newline depth ++ [']']
  | object [] => ['\x7b', '\x7d']
  | object ((key, value) :: members) =>
      '\x7b' :: newline (depth + 1) ++
        writeString key ++ [':', ' '] ++
        value.write (depth + 1) ++
        writeMembers (depth + 1) members ++
        newline depth ++ ['\x7d']

/- Further items of an array. -/
def writeItems
    (depth : Nat) :
    List Json → List Char
  | [] => []
  | item :: items =>
      ',' :: newline depth ++ item.write depth ++
        writeItems depth items

/- Further members of an object. -/
def writeMembers
    (depth : Nat) :
    List (String × Json) → List Char
  | [] => []
  | (key, value) :: members =>
      ',' :: newline depth ++
        writeString key ++ [':', ' '] ++
        value.write depth ++
        writeMembers depth members

end

/- The text of a value. -/
def render
    (value : Json) : String :=
  String.ofList (value.write 0)

end Json

end QueryHover
