import Dataflow.Json.Reader

/-!
# Taking documents apart

Decoders turn a `Json` into a value of the program.  They go through the tree in the order of the
text and stop at the first flaw, whether it is one of shape or one of grammar.

**Records.**  A record is written as an object, whose members may come in any order, or as an array
of its fields in order.  Of an object unknown members are passed over and a repeated one is a flaw;
of an array the last fields may be left off when they have defaults.

**Origins.**  A value is taken either straight from the text or from a buffer that was filled before
its meaning was known.  The two agree on what is accepted, but for one spelling of a choice, and
disagree on some flaws: the text has a grammar, a buffer only a shape (`Origin`).
-/

namespace Dataflow

section Flaws

/-- What is wrong with a document. -/
inductive Flaw where
  /-- The text breaks the grammar. -/
  | grammar
  /-- The text is JSON, of another shape than asked for. -/
  | shape
  /-- The text ends too early. -/
  | ending
deriving DecidableEq, Repr

/-- Name of the category of a flaw. -/
def Flaw.category : Flaw → String
  | .grammar => "syntax"
  | .shape => "data"
  | .ending => "eof"

/-- Results of decoding. -/
abbrev Decoded (α : Type) := Except Flaw α

/-- The flaw of a cut, for one who reads the value. -/
def Stop.flaw : Stop → Flaw
  | .malformed => .grammar
  | .endedInSurrogate => .grammar
  | _ => .ending

/-- The flaw of a cut, for one who passes over the value. -/
def Stop.flawPassed : Stop → Flaw
  | .malformed => .grammar
  | .endedInNumber => .grammar
  | _ => .ending

/-- The flaw of a cut where a name or a brace should stand. -/
def Stop.flawOfChoice : Stop → Flaw
  | .malformed => .grammar
  | .endedInWord => .grammar
  | .endedInNumber => .grammar
  | .endedInSurrogate => .grammar
  | _ => .ending

end Flaws

section Numbers

/-- Digits taken into a 64-bit significand as long as they fit; how many, and how many are left. -/
def significand : Nat → List Char → Nat × Nat × Nat
  | n, [] => (n, 0, 0)
  | n, c :: rest =>
      let next := n * 10 + (c.toNat - '0'.toNat)
      if next < UInt64.size then
        match significand next rest with
        | (n, taken, left) => (n, taken + 1, left)
      else (n, 0, rest.length + 1)

/-- Whether `n · 10 ^ e` is a finite double. -/
def isFinite (n : Nat) (e : Int) : Bool :=
  if n = 0 ∨ e ≤ 0 then true
  else if 308 < e then false
  else !(Float.ofNat n * Float.ofScientific 1 false e.toNat).isInf

/-- The exponent that a spelling gives, zero when it gives none. -/
def spelledExponent : List Char → Int
  | [] => 0
  | '+' :: digits => digitsValue digits
  | '-' :: digits => -(digitsValue digits : Int)
  | digits => digitsValue digits

/-- Whether a spelled number is in the range of a double. -/
def spelledInRange (literal : List Char) : Bool :=
  let body := literal.dropWhile (· = '-')
  let whole := body.takeWhile isDigit
  let rest := body.dropWhile isDigit
  let fraction := match rest with
    | '.' :: r => r.takeWhile isDigit
    | _ => []
  let mark := match rest with
    | '.' :: r => r.dropWhile isDigit
    | r => r
  let exponent := spelledExponent (mark.drop 1)
  match significand 0 whole with
  | (n, _, left) =>
      match significand n fraction with
      | (n, taken, _) => isFinite n (left - taken + exponent)

/-- Whether a number is in the range of a double, which every number that is read has to be. -/
def Number.inRange : Number → Bool
  | .natural n =>
      if n < UInt64.size then true
      else
        match significand 0 (toString n).toList with
        | (m, _, left) => isFinite m left
  | .spelled literal => spelledInRange literal

end Numbers

section Walks

mutual

/-- Pass over a value. -/
def Json.pass : Json → Decoded Unit
  | .arr items => items.pass
  | .obj fields => fields.pass
  | .cut stop => .error stop.flawPassed
  | _ => .ok ()

/-- Pass over the elements of an array. -/
def Items.pass : Items → Decoded Unit
  | .nil => .ok ()
  | .cons j rest => do
      j.pass
      rest.pass
  | .cut stop => .error stop.flawPassed

/-- Pass over the members of an object. -/
def Fields.pass : Fields → Decoded Unit
  | .nil => .ok ()
  | .cons _ v rest => do
      v.pass
      rest.pass
  | .cut stop => .error stop.flawPassed

end

mutual

/-- Read a value of any shape that nests at most `room` containers. -/
def Json.check (room : Nat) : Json → Decoded Unit
  | .num n => if n.inRange then .ok () else .error .grammar
  | .str none => .error .grammar
  | .arr items =>
      match room with
      | 0 => .error .grammar
      | room + 1 => items.check room
  | .obj fields =>
      match room with
      | 0 => .error .grammar
      | room + 1 => fields.check room
  | .cut stop => .error stop.flaw
  | _ => .ok ()

/-- Read the elements of an array. -/
def Items.check (room : Nat) : Items → Decoded Unit
  | .nil => .ok ()
  | .cons j rest => do
      j.check room
      rest.check room
  | .cut stop => .error stop.flaw

/-- Read the members of an object. -/
def Fields.check (room : Nat) : Fields → Decoded Unit
  | .nil => .ok ()
  | .cons k v rest => do
      if k.isNone then .error .grammar
      v.check room
      rest.check room
  | .cut stop => .error stop.flaw

end

end Walks

section Leaves

/-- The flaw of a value that was to have another shape.  A leaf is read before it is refused. -/
def Json.misfit : Json → Flaw
  | .num n => if n.inRange then .shape else .grammar
  | .str none => .grammar
  | .cut stop => stop.flaw
  | _ => .shape

/-- A natural number below `limit`. -/
def Json.naturalBelow (limit : Nat) : Json → Decoded Nat
  | .num (.natural n) => if n < limit then .ok n else .error (Json.num (.natural n)).misfit
  | j => .error j.misfit

/-- A 32-bit word. -/
def Json.word (j : Json) : Decoded UInt32 := (j.naturalBelow UInt32.size).map UInt32.ofNat

/-- A 16-bit word. -/
def Json.halfWord (j : Json) : Decoded UInt16 := (j.naturalBelow UInt16.size).map UInt16.ofNat

/-- A 64-bit word. -/
def Json.long (j : Json) : Decoded UInt64 := (j.naturalBelow UInt64.size).map UInt64.ofNat

/-- A truth value. -/
def Json.flag : Json → Decoded Bool
  | .bool b => .ok b
  | j => .error j.misfit

/-- A string. -/
def Json.string : Json → Decoded String
  | .str (some s) => .ok s
  | j => .error j.misfit

/-- A value that may be `null`. -/
def Json.optional {α : Type} (decode : Json → Decoded α) : Json → Decoded (Option α)
  | .null => .ok none
  | j => (decode j).map some

/-- The elements of an array. -/
def Items.decode {α : Type} (decode : Json → Decoded α) : Items → Decoded (List α)
  | .nil => .ok []
  | .cons j rest => do
      let a ← decode j
      let as ← rest.decode decode
      return a :: as
  | .cut stop => .error stop.flaw

/-- An array. -/
def Json.list {α : Type} (decode : Json → Decoded α) : Json → Decoded (List α)
  | .arr items => items.decode decode
  | j => .error j.misfit

end Leaves

section Choices

/-- Where a value is taken from. -/
inductive Origin where
  /-- The text itself. -/
  | text
  /-- A buffer filled before the meaning was known. -/
  | buffer
deriving DecidableEq, Repr

/-- The flaw of a container that holds more than it should. -/
def Origin.excess : Origin → Flaw
  | .text => .grammar
  | .buffer => .shape

/-- The member that stands for a choice without content. -/
def Json.vacant (origin : Origin) : Json → Decoded Unit
  | .null => .ok ()
  | .obj .nil => if origin = .buffer then .ok () else .error .shape
  | j => .error j.misfit

/-- The end of an object that holds one member. -/
def Fields.close (origin : Origin) : Fields → Decoded Unit
  | .nil => .ok ()
  | .cut .ended => .error .ending
  | _ => .error origin.excess

/-- A choice: a name, or an object with the name as its only key and the content as its value.
`plain` decides on a name alone, `full` on a name with content. -/
def Json.choice {α : Type} (origin : Origin) (plain : String → Decoded α)
    (full : String → Json → Decoded α) : Json → Decoded α
  | .str (some s) => plain s
  | .obj (.cons (some s) v rest) =>
      match origin with
      | .text => do
          let a ← full s v
          rest.close .text
          return a
      | .buffer => do
          rest.close .buffer
          full s v
  | .obj (.cons none _ _) => .error .grammar
  | .obj .nil => .error origin.excess
  | .obj (.cut stop) => .error stop.flaw
  | .str none => .error .grammar
  | .cut stop => .error stop.flawOfChoice
  | _ => .error origin.excess

/-- A choice among names without content. -/
def Json.name {α : Type} (origin : Origin) (names : List (String × α)) (j : Json) : Decoded α :=
  let find (s : String) : Decoded α :=
    match names.lookup s with
    | some a => .ok a
    | none => .error .shape
  j.choice origin find fun s v => do
    let a ← find s
    v.vacant origin
    return a

end Choices

section Records

/-- Fill a field that has not been filled before. -/
def fillOnce {α : Type} (slot : Option α) (decode : Json → Decoded α) (j : Json) :
    Decoded (Option α) :=
  match slot with
  | some _ => .error .shape
  | none => (decode j).map some

/-- The content of a field that has to be there. -/
def required {α : Type} : Option α → Decoded α
  | some a => .ok a
  | none => .error .shape

/-- Go through the members of an object.  `step` takes a member it knows and answers `none` to one
it does not know, which is then passed over. -/
def Fields.visit {σ : Type} (step : σ → String → Json → Option (Decoded σ)) (s : σ) :
    Fields → Decoded σ
  | .nil => .ok s
  | .cons none _ _ => .error .grammar
  | .cons (some k) v rest =>
      match step s k v with
      | some r => do
          let s ← r
          rest.visit step s
      | none => do
          v.pass
          rest.visit step s
  | .cut stop => .error stop.flaw

/-- The next element of an array that has to be there. -/
def Items.next {α : Type} (decode : Json → Decoded α) : Items → Decoded (α × Items)
  | .nil => .error .shape
  | .cons j rest => do
      let a ← decode j
      return (a, rest)
  | .cut stop => .error stop.flaw

/-- The next element of an array, or a default when the array has ended. -/
def Items.nextOr {α : Type} (default : α) (decode : Json → Decoded α) : Items → Decoded (α × Items)
  | .nil => .ok (default, .nil)
  | items => items.next decode

/-- The end of an array. -/
def Items.close (origin : Origin) : Items → Decoded Unit
  | .nil => .ok ()
  | .cons .. => .error origin.excess
  | .cut stop => .error stop.flaw

/-- Decode a whole text, after which only blanks may follow. -/
def decodeText {α : Type} (decode : Json → Decoded α) (text : String) : Decoded α :=
  match Json.read text with
  | (j, trailing) => do
      let a ← decode j
      if trailing then .error .grammar else .ok a

end Records

end Dataflow
