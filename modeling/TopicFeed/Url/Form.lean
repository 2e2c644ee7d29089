import TopicFeed.Url.Percent

/-!
# Form-encoded pairs

Pairs of texts as the query of a URL: `name=value`, with `&` between pairs. A space is written
`+`; letters, digits and `*-._` stand for themselves; all else is percent-encoded byte by byte, so
neither separator can come from inside a text.
-/

namespace TopicFeed.Url.Form

open Ascii

/-- The byte between pairs. -/
abbrev ampersand : UInt8 := 0x26

/-- The byte between a name and its value. -/
abbrev equals : UInt8 := 0x3D

/-- A byte that stands for itself. -/
def isPlain (b : UInt8) : Bool :=
  isDigit b || (0x41 ≤ b && b ≤ 0x5A) || (0x61 ≤ b && b ≤ 0x7A) ||
    b == 0x2A || b == minus || b == dot || b == 0x5F

/-- The written form of a byte. -/
def encodeByte (b : UInt8) : List Char :=
  if b = space then ['+'] else if isPlain b then [Char.ofNat b.toNat] else Percent.encodeByte b

/-- The written form of a name or a value. -/
def encodeText (s : String) : List Char := (Bytes.ofString s).flatMap encodeByte

/-- The written form of a pair. -/
def encodePair (p : String × String) : List Char := encodeText p.1 ++ '=' :: encodeText p.2

/-- The written form of pairs. -/
def encode (pairs : List (String × String)) : List Char :=
  List.intercalate ['&'] (pairs.map encodePair)

/-- The pieces between the bytes equal to `b`; one more than there are such bytes. -/
def split (b : UInt8) : Bytes → List Bytes
  | [] => [[]]
  | c :: r =>
    if c = b then [] :: split b r
    else match split b r with
      | [] => [[c]]
      | piece :: pieces => (c :: piece) :: pieces

/-- The text that a written name or value means. -/
def decodeText (s : Bytes) : String :=
  Utf8.lenient (Percent.decode (s.map fun b => if b = plus then space else b))

/-- The pair that a written pair means. Without a sign between them all of it is the name. -/
def decodePair (s : Bytes) : String × String :=
  (decodeText (s.takeWhile (· ≠ equals)), decodeText ((s.dropWhile (· ≠ equals)).drop 1))

/-- The pairs that a query means. Empty pieces mean nothing. -/
def decode (s : String) : List (String × String) :=
  ((split ampersand (Bytes.ofString s)).filter (!·.isEmpty)).map decodePair

end TopicFeed.Url.Form
