import TopicFeed.Text.Quoted.Shown

/-!
# Quoted text

A text between double quotes, on one line and without ambiguity: the quote and the backslash are
escaped, five controls have letters, and whatever would not be seen is written by its code point.
-/

namespace TopicFeed.Text.Quoted

/-- The digits of a number in base sixteen, lower case. -/
def hexDigits (n : Nat) : String := String.ofList (Nat.toDigits 16 n)

/-- One character inside the quotes. -/
def escape (c : Char) : String :=
  match c with
  | '\x00' => "\\0"
  | '\t' => "\\t"
  | '\n' => "\\n"
  | '\r' => "\\r"
  | '"' => "\\\""
  | '\\' => "\\\\"
  | c => if shown c then c.toString else "\\u\x7b" ++ hexDigits c.toNat ++ "\x7d"

/-- The text between quotes. -/
def encode (s : String) : String := "\"" ++ String.join (s.toList.map escape) ++ "\""

end TopicFeed.Text.Quoted
