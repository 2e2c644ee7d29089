import TopicFeed.Text.Ascii
import TopicFeed.Text.Utf8

/-!
# Percent-encoding

A byte that a place of a URL does not allow is written as `%` and two hexadecimal digits. Which
bytes these are depends on the place; every byte beyond ASCII is always among them.
-/

namespace TopicFeed.Url.Percent

open Ascii

/-- The digit of a number below sixteen, in upper case. -/
def hexDigit (n : Nat) : Char := Char.ofNat (if n < 10 then 0x30 + n else 0x37 + n)

/-- The written form of a byte. -/
def encodeByte (b : UInt8) : List Char := ['%', hexDigit (b.toNat / 16), hexDigit (b.toNat % 16)]

/-- Bytes in which those of the given class are encoded. -/
def encode (encoded : UInt8 → Bool) (s : Bytes) : List Char :=
  s.flatMap fun b => if encoded b then encodeByte b else [Char.ofNat b.toNat]

/-- Characters in which the bytes of the given class are encoded. -/
def encodeChars (encoded : UInt8 → Bool) (cs : List Char) : List Char :=
  cs.flatMap fun c => encode encoded (String.utf8EncodeChar c)

/-- The sign that begins a written byte. -/
abbrev sign : UInt8 := 0x25

/-- The bytes that are meant. A sign without two digits behind it stands for itself. -/
def decode : Bytes → Bytes
  | a :: b :: c :: r =>
    if a = sign then
      match hexDigit? b, hexDigit? c with
      | some high, some low => (16 * high + low).toUInt8 :: decode r
      | _, _ => a :: decode (b :: c :: r)
    else a :: decode (b :: c :: r)
  | [a, b] => [a, b]
  | [a] => [a]
  | [] => []

/-! ### The classes of the places of a URL -/

/-- Controls, and all bytes beyond ASCII. -/
def control (b : UInt8) : Bool := b < 0x20 || 0x7E < b

/-- One of the given characters. -/
def among (chars : String) (b : UInt8) : Bool := chars.toList.contains (Char.ofNat b.toNat)

/-- What is encoded in a query. -/
def query (b : UInt8) : Bool := control b || among " \"#<>" b

/-- What is encoded in a query of a special scheme. -/
def specialQuery (b : UInt8) : Bool := query b || among "'" b

/-- What is encoded in a fragment. -/
def fragment (b : UInt8) : Bool := control b || among " \"<>`" b

/-- What is encoded in a path. -/
def path (b : UInt8) : Bool := fragment b || among "#?\x7b\x7d" b

/-- What is encoded in a user's name or password. -/
def userinfo (b : UInt8) : Bool := path b || among "/:;=@[\\]^|" b

end TopicFeed.Url.Percent
