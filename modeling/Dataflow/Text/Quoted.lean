import Dataflow.Text.Unseen

/-!
# Quoted text

A text between quotes, for people who look for a fault: everything in it can be seen and told apart.
-/

namespace Dataflow

section Defs

/-- A character by its number. -/
def numberedChar (c : Char) : String :=
  "\\u\x7b" ++ String.ofList (Nat.toDigits 16 c.toNat) ++ "\x7d"

/-- A character inside quotes.  What cannot be seen is written by its number. -/
def quotedChar (c : Char) : String :=
  match c with
  | '"' => "\\\""
  | '\\' => "\\\\"
  | '\n' => "\\n"
  | '\r' => "\\r"
  | '\t' => "\\t"
  | '\x00' => "\\0"
  | c => if isUnseen c then numberedChar c else String.singleton c

/-- A text in quotes. -/
def quoted (s : String) : String := "\"" ++ String.join (s.toList.map quotedChar) ++ "\""

end Defs

end Dataflow
