/-!
# JSON values

Documents are read and written as JSON.  A `Json` is what a text holds, as far as the text is JSON
at all: where the grammar breaks, or the text ends too early, the tree ends in a `cut` that says
how.  Whoever takes a tree apart from left to right therefore meets the faults of shape and the
faults of grammar in the order of the text.

**Leaves.**  A string literal is its characters, or `none` when it holds half of a surrogate pair:
such a literal can be passed over but not read.  A number keeps its spelling unless it is a natural
number.

**Cuts.**  `Stop` says where the text was cut, since that decides which fault is met first.  Passing
over a value differs from reading it in two places: it does not look at surrogates, and it takes a
number that the text breaks off for a misspelt one.
-/

namespace Dataflow

section Defs

/-- Where a text stops being JSON. -/
inductive Stop where
  /-- A character that cannot stand here. -/
  | malformed
  /-- The end of the text, where a token should stand. -/
  | ended
  /-- The end of the text after the comma between two members. -/
  | endedAfterComma
  /-- The end of the text inside a keyword. -/
  | endedInWord
  /-- The end of the text inside a number. -/
  | endedInNumber
  /-- The end of the text inside a string. -/
  | endedInString
  /-- The end of the text inside a string that already holds half of a surrogate pair. -/
  | endedInSurrogate
deriving DecidableEq, Repr

/-- Number literals. -/
inductive Number where
  /-- Digits only. -/
  | natural (n : Nat)
  /-- Any other literal, by its spelling. -/
  | spelled (literal : List Char)
deriving DecidableEq, Repr

/-- A string literal; `none` when it holds half of a surrogate pair. -/
abbrev Literal := Option String

mutual

/-- What a text holds, as far as it is JSON. -/
inductive Json where
  | null
  | bool (b : Bool)
  | num (n : Number)
  | str (s : Literal)
  | arr (items : Items)
  | obj (fields : Fields)
  | cut (stop : Stop)

/-- The elements of an array, up to its end or to where the text stops. -/
inductive Items where
  | nil
  | cons (head : Json) (tail : Items)
  | cut (stop : Stop)

/-- The members of an object, up to its end or to where the text stops. -/
inductive Fields where
  | nil
  | cons (key : Literal) (value : Json) (tail : Fields)
  | cut (stop : Stop)

end

/-- Array elements from a list. -/
def Items.ofList : List Json → Items
  | [] => .nil
  | j :: rest => .cons j (ofList rest)

/-- Object members from a list. -/
def Fields.ofList : List (String × Json) → Fields
  | [] => .nil
  | (k, v) :: rest => .cons (some k) v (ofList rest)

/-- The elements that the text holds whole or in part. -/
def Items.toList : Items → List Json
  | .nil => []
  | .cons j rest => j :: rest.toList
  | .cut _ => []

/-- The members that the text holds whole or in part. -/
def Fields.toList : Fields → List (Literal × Json)
  | .nil => []
  | .cons k v rest => (k, v) :: rest.toList
  | .cut _ => []

namespace Json

/-- A string. -/
def text (s : String) : Json := .str (some s)

/-- A natural number. -/
def nat (n : Nat) : Json := .num (.natural n)

/-- An array of given elements. -/
def array (l : List Json) : Json := .arr (.ofList l)

/-- An object of given members, in order. -/
def object (l : List (String × Json)) : Json := .obj (.ofList l)

/-- A value or `null`. -/
def orNull {α : Type} (f : α → Json) : Option α → Json
  | none => .null
  | some a => f a

end Json

end Defs

end Dataflow
