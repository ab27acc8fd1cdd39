import Dataflow.Hex
import Dataflow.Json.Value

/-!
# Writing JSON text

Two layouts of the same value.  `Json.compact` has no blanks; `Json.pretty` puts every element and
every member on a line of its own, two spaces further in than its container, and writes an empty
container as its two brackets.

**Strings.**  A quote, a backslash and the characters below the blank are escaped, the usual ones by
a letter and the others by four hexadecimal digits.  All other characters stand for themselves.
-/

namespace Dataflow

section Leaves

/-- A character inside a string literal. -/
def escapeChar (c : Char) : List Char :=
  if c = '"' then ['\\', '"']
  else if c = '\\' then ['\\', '\\']
  else if c = '\x08' then ['\\', 'b']
  else if c = '\x0c' then ['\\', 'f']
  else if c = '\n' then ['\\', 'n']
  else if c = '\r' then ['\\', 'r']
  else if c = '\t' then ['\\', 't']
  else if c < ' ' then ['\\', 'u', '0', '0', hexChar (c.toNat / 16), hexChar (c.toNat % 16)]
  else [c]

/-- A string literal. -/
def literalChars (s : String) : List Char :=
  '"' :: s.toList.flatMap escapeChar ++ ['"']

/-- A number literal. -/
def numberChars : Number → List Char
  | .natural n => (toString n).toList
  | .spelled literal => literal

/-- A leaf literal; one that cannot be read is written empty. -/
def keyChars (s : Literal) : List Char := literalChars (s.getD "")

end Leaves

section Compact

mutual

/-- A value without blanks. -/
def Json.chars : Json → List Char
  | .null => ['n', 'u', 'l', 'l']
  | .bool true => ['t', 'r', 'u', 'e']
  | .bool false => ['f', 'a', 'l', 's', 'e']
  | .num n => numberChars n
  | .str s => keyChars s
  | .arr items => '[' :: items.chars ++ [']']
  | .obj fields => '\x7b' :: fields.chars ++ ['\x7d']
  | .cut _ => []

/-- Elements, with a comma between each two. -/
def Items.chars : Items → List Char
  | .nil => []
  | .cons j rest => j.chars ++ rest.moreChars
  | .cut _ => []

/-- Elements that follow another one. -/
def Items.moreChars : Items → List Char
  | .nil => []
  | .cons j rest => ',' :: j.chars ++ rest.moreChars
  | .cut _ => []

/-- Members, with a comma between each two. -/
def Fields.chars : Fields → List Char
  | .nil => []
  | .cons k v rest => keyChars k ++ ':' :: v.chars ++ rest.moreChars
  | .cut _ => []

/-- Members that follow another one. -/
def Fields.moreChars : Fields → List Char
  | .nil => []
  | .cons k v rest => ',' :: keyChars k ++ ':' :: v.chars ++ rest.moreChars
  | .cut _ => []

end

/-- A value without blanks. -/
def Json.compact (j : Json) : String := String.ofList j.chars

end Compact

section Pretty

/-- A new line, indented by `depth` levels. -/
def newline (depth : Nat) : List Char := '\n' :: List.replicate (2 * depth) ' '

mutual

/-- A value over several lines, inside `depth` containers. -/
def Json.lines (depth : Nat) : Json → List Char
  | .null => ['n', 'u', 'l', 'l']
  | .bool true => ['t', 'r', 'u', 'e']
  | .bool false => ['f', 'a', 'l', 's', 'e']
  | .num n => numberChars n
  | .str s => keyChars s
  | .arr .nil => ['[', ']']
  | .arr items => '[' :: items.lines (depth + 1) ++ newline depth ++ [']']
  | .obj .nil => ['\x7b', '\x7d']
  | .obj fields => '\x7b' :: fields.lines (depth + 1) ++ newline depth ++ ['\x7d']
  | .cut _ => []

/-- Elements on lines of their own. -/
def Items.lines (depth : Nat) : Items → List Char
  | .nil => []
  | .cons j rest => newline depth ++ j.lines depth ++ rest.moreLines depth
  | .cut _ => []

/-- Elements that follow another one. -/
def Items.moreLines (depth : Nat) : Items → List Char
  | .nil => []
  | .cons j rest => ',' :: newline depth ++ j.lines depth ++ rest.moreLines depth
  | .cut _ => []

/-- Members on lines of their own. -/
def Fields.lines (depth : Nat) : Fields → List Char
  | .nil => []
  | .cons k v rest =>
      newline depth ++ keyChars k ++ ':' :: ' ' :: v.lines depth ++ rest.moreLines depth
  | .cut _ => []

/-- Members that follow another one. -/
def Fields.moreLines (depth : Nat) : Fields → List Char
  | .nil => []
  | .cons k v rest =>
      ',' :: newline depth ++ keyChars k ++ ':' :: ' ' :: v.lines depth ++ rest.moreLines depth
  | .cut _ => []

end

/-- A value over several lines. -/
def Json.pretty (j : Json) : String := String.ofList (j.lines 0)

end Pretty

end Dataflow
