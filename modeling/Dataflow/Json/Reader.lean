import Dataflow.Hex
import Dataflow.Json.Value

/-!
# Reading JSON text

`Json.read` turns a text into a tree of `Dataflow.Json.Value`.  It never fails: a text that is not
JSON gives a tree that ends in a cut.

**Algorithm.**  Recursive descent over the list of characters.  Every reader returns what it has
read and the rest of the text, or no rest when the text was cut.  One function says what may follow
an opening bracket and another what may follow an element, so a comma before a closing bracket is a
fault.  A container holds at least one character more than each of its parts, so the length of the
text bounds the depth of the descent.
-/

namespace Dataflow

section Leaves

/-- The four characters that may stand between tokens. -/
def isBlank (c : Char) : Bool := c = ' ' || c = '\n' || c = '\t' || c = '\r'

/-- The text from the next token on. -/
def skipBlank (cs : List Char) : List Char := cs.dropWhile isBlank

/-- Decimal digits. -/
def isDigit (c : Char) : Bool := '0' ≤ c && c ≤ '9'

/-- Whether fewer than `n` bytes of text are left. -/
def shorterThan : Nat → List Char → Bool
  | 0, _ => false
  | _ + 1, [] => true
  | n + 1, c :: rest => shorterThan (n + 1 - c.utf8Size) rest

/-- The four hexadecimal digits of a code unit. -/
def readUnit (cs : List Char) : Except Stop (Nat × List Char) :=
  if shorterThan 4 cs then .error .endedInString
  else
    match cs with
    | a :: b :: c :: d :: rest =>
        match hexDigit? a, hexDigit? b, hexDigit? c, hexDigit? d with
        | some a, some b, some c, some d => .ok (((a * 16 + b) * 16 + c) * 16 + d, rest)
        | _, _, _, _ => .error .malformed
    | _ => .error .malformed

/-- First half of a surrogate pair. -/
def isLeading (unit : Nat) : Bool := 0xD800 ≤ unit && unit ≤ 0xDBFF

/-- Second half of a surrogate pair. -/
def isTrailing (unit : Nat) : Bool := 0xDC00 ≤ unit && unit ≤ 0xDFFF

/-- The character that a surrogate pair stands for. -/
def pairChar (leading trailing : Nat) : Char :=
  Char.ofNat ((leading - 0xD800) * 1024 + (trailing - 0xDC00) + 0x10000)

/-- The character that a one-letter escape stands for. -/
def simpleEscape? (c : Char) : Option Char :=
  match c with
  | '"' => some '"'
  | '\\' => some '\\'
  | '/' => some '/'
  | 'b' => some '\x08'
  | 'f' => some '\x0c'
  | 'n' => some '\n'
  | 'r' => some '\r'
  | 't' => some '\t'
  | _ => none

/-- An escape that follows a backslash: the character, or `none` for half of a surrogate pair. -/
def readEscape : List Char → Except Stop (Option Char × List Char)
  | [] => .error .endedInString
  | 'u' :: rest => do
      let (unit, rest) ← readUnit rest
      if isTrailing unit then
        return (none, rest)
      else if isLeading unit then
        match rest with
        | [] => .error .endedInString
        | ['\\'] => .error .endedInString
        | '\\' :: 'u' :: more =>
            let (second, more) ← readUnit more
            if isTrailing second then
              return (some (pairChar unit second), more)
            else
              return (none, more)
        | _ => return (none, rest)
      else
        return (some (Char.ofNat unit), rest)
  | c :: rest =>
      match simpleEscape? c with
      | some c => .ok (some c, rest)
      | none => .error .malformed

/-- A stop inside a string, given whether the string already holds half of a surrogate pair. -/
def stopInString (lone : Bool) : Stop → Stop
  | .endedInString => if lone then .endedInSurrogate else .endedInString
  | stop => stop

/-- The characters of a string up to its closing quote.  `acc` holds those read so far, last
first. -/
def readString : Nat → Bool → List Char → List Char → Except Stop (Literal × List Char)
  | 0, lone, _, _ => .error (stopInString lone .endedInString)
  | _ + 1, lone, _, [] => .error (stopInString lone .endedInString)
  | fuel + 1, lone, acc, c :: rest =>
      if c = '"' then
        .ok (if lone then none else some (String.ofList acc.reverse), rest)
      else if c = '\\' then
        match readEscape rest with
        | .error stop => .error (stopInString lone stop)
        | .ok (some c, rest) => readString fuel lone (c :: acc) rest
        | .ok (none, rest) => readString fuel true acc rest
      else if c < ' ' then
        .error .malformed
      else
        readString fuel lone (c :: acc) rest

/-- A string literal, from after its opening quote, within `fuel` characters and escapes. -/
def readLiteral (fuel : Nat) (cs : List Char) : Except Stop (Literal × List Char) :=
  readString fuel false [] cs

/-- One or more digits. -/
def readDigits (cs : List Char) : Except Stop (List Char × List Char) :=
  match cs with
  | [] => .error .endedInNumber
  | c :: _ =>
      if isDigit c then .ok (cs.takeWhile isDigit, cs.dropWhile isDigit) else .error .malformed

/-- The digits before the point: a zero is not followed by another digit. -/
def readWhole (cs : List Char) : Except Stop (List Char × List Char) :=
  match readDigits cs with
  | .ok ('0' :: _ :: _, _) => .error .malformed
  | other => other

/-- The point and the digits after it, if there is a point. -/
def readFraction (cs : List Char) : Except Stop (List Char × List Char) :=
  match cs with
  | '.' :: rest => do
      let (digits, rest) ← readDigits rest
      return ('.' :: digits, rest)
  | _ => .ok ([], cs)

/-- The mark, the sign and the digits of an exponent, if there is a mark. -/
def readExponent (cs : List Char) : Except Stop (List Char × List Char) :=
  match cs with
  | c :: rest =>
      if c = 'e' ∨ c = 'E' then do
        let (sign, rest) := match rest with
          | '+' :: r => (['+'], r)
          | '-' :: r => (['-'], r)
          | r => ([], r)
        let (digits, rest) ← readDigits rest
        return (c :: sign ++ digits, rest)
      else .ok ([], cs)
  | [] => .ok ([], cs)

/-- Value of a list of digits. -/
def digitsValue (cs : List Char) : Nat :=
  cs.foldl (fun n c => n * 10 + (c.toNat - '0'.toNat)) 0

/-- A number literal. -/
def readNumber (cs : List Char) : Except Stop (Number × List Char) := do
  let (sign, rest) := match cs with
    | '-' :: r => (['-'], r)
    | r => ([], r)
  let (whole, rest) ← readWhole rest
  let (fraction, rest) ← readFraction rest
  let (exponent, rest) ← readExponent rest
  match sign, fraction, exponent with
  | [], [], [] => return (.natural (digitsValue whole), rest)
  | _, _, _ => return (.spelled (sign ++ whole ++ fraction ++ exponent), rest)

/-- What remains after a keyword whose first letter has been read. -/
def readKeyword : List Char → List Char → Except Stop (List Char)
  | [], cs => .ok cs
  | _ :: _, [] => .error .endedInWord
  | k :: keys, c :: cs => if k = c then readKeyword keys cs else .error .malformed

end Leaves

section Trees

/-- A leaf and the rest of the text, or a cut and no rest. -/
def leafOf {α : Type} (f : α → Json) : Except Stop (α × List Char) → Json × Option (List Char)
  | .ok (a, rest) => (f a, some rest)
  | .error stop => (.cut stop, none)

/-- A keyword and the rest of the text, or a cut and no rest. -/
def keywordOf (j : Json) : Except Stop (List Char) → Json × Option (List Char)
  | .ok rest => (j, some rest)
  | .error stop => (.cut stop, none)

mutual

/-- The next value, and the rest of the text unless it was cut. -/
def readValue : Nat → List Char → Json × Option (List Char)
  | 0, _ => (.cut .ended, none)
  | fuel + 1, cs =>
      match skipBlank cs with
      | [] => (.cut .ended, none)
      | 'n' :: rest => keywordOf .null (readKeyword ['u', 'l', 'l'] rest)
      | 't' :: rest => keywordOf (.bool true) (readKeyword ['r', 'u', 'e'] rest)
      | 'f' :: rest => keywordOf (.bool false) (readKeyword ['a', 'l', 's', 'e'] rest)
      | '"' :: rest => leafOf .str (readLiteral fuel rest)
      | '[' :: rest =>
          match readItems fuel rest with
          | (items, rest) => (.arr items, rest)
      | '\x7b' :: rest =>
          match readFields fuel rest with
          | (fields, rest) => (.obj fields, rest)
      | c :: rest =>
          if c = '-' ∨ isDigit c then leafOf .num (readNumber (c :: rest))
          else (.cut .malformed, none)

/-- What follows an opening bracket. -/
def readItems : Nat → List Char → Items × Option (List Char)
  | 0, _ => (.cut .ended, none)
  | fuel + 1, cs =>
      match skipBlank cs with
      | [] => (.cut .ended, none)
      | ']' :: rest => (.nil, some rest)
      | cs => readElement fuel cs

/-- An element and what follows it. -/
def readElement : Nat → List Char → Items × Option (List Char)
  | 0, _ => (.cut .ended, none)
  | fuel + 1, cs =>
      match readValue fuel cs with
      | (head, none) => (.cons head .nil, none)
      | (head, some rest) =>
          match readMoreItems fuel rest with
          | (tail, rest) => (.cons head tail, rest)

/-- What follows an element. -/
def readMoreItems : Nat → List Char → Items × Option (List Char)
  | 0, _ => (.cut .ended, none)
  | fuel + 1, cs =>
      match skipBlank cs with
      | [] => (.cut .ended, none)
      | ']' :: rest => (.nil, some rest)
      | ',' :: rest =>
          match skipBlank rest with
          | ']' :: _ => (.cut .malformed, none)
          | rest => readElement fuel rest
      | _ => (.cut .malformed, none)

/-- What follows an opening brace. -/
def readFields : Nat → List Char → Fields × Option (List Char)
  | 0, _ => (.cut .ended, none)
  | fuel + 1, cs =>
      match skipBlank cs with
      | [] => (.cut .ended, none)
      | '\x7d' :: rest => (.nil, some rest)
      | cs => readMember fuel cs

/-- A member and what follows it. -/
def readMember : Nat → List Char → Fields × Option (List Char)
  | 0, _ => (.cut .ended, none)
  | fuel + 1, cs =>
      match cs with
      | [] => (.cut .ended, none)
      | '"' :: rest =>
          match readLiteral fuel rest with
          | .error stop => (.cut stop, none)
          | .ok (key, rest) =>
              match skipBlank rest with
              | [] => (.cons key (.cut .ended) .nil, none)
              | ':' :: rest =>
                  match readValue fuel rest with
                  | (value, none) => (.cons key value .nil, none)
                  | (value, some rest) =>
                      match readMoreFields fuel rest with
                      | (tail, rest) => (.cons key value tail, rest)
              | _ => (.cons key (.cut .malformed) .nil, none)
      | _ => (.cut .malformed, none)

/-- What follows a member. -/
def readMoreFields : Nat → List Char → Fields × Option (List Char)
  | 0, _ => (.cut .ended, none)
  | fuel + 1, cs =>
      match skipBlank cs with
      | [] => (.cut .ended, none)
      | '\x7d' :: rest => (.nil, some rest)
      | ',' :: rest =>
          match skipBlank rest with
          | [] => (.cut .endedAfterComma, none)
          | rest => readMember fuel rest
      | _ => (.cut .malformed, none)

end

/-- Steps of descent that suffice for a text: at most four for each of its characters. -/
def readFuel (cs : List Char) : Nat := 4 * cs.length + 4

/-- What a text holds, and whether anything but blanks follows it. -/
def Json.read (text : String) : Json × Bool :=
  let cs := text.toList
  match readValue (readFuel cs) cs with
  | (j, none) => (j, false)
  | (j, some rest) => (j, !(skipBlank rest).isEmpty)

end Trees

end Dataflow
