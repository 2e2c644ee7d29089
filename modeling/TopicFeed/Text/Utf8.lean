/-!
# UTF-8

Bytes read as characters, in one pass over the bytes. The scan never fails: it cuts the bytes into
pieces, each a well-formed character or a *bad run*, the longest stretch that could have begun a
character and does not. Checking (`Utf8.check?`) reports the first bad run with its place;
lenient reading (`Utf8.lenient`) puts one U+FFFD where each bad run stood. Both are functions of
the same pieces, so they agree on what is well-formed.
-/

namespace TopicFeed

/-- A sequence of bytes, as it comes off the wire. -/
abbrev Bytes := List UInt8

/-- The bytes that write a text. -/
def Bytes.ofString (s : String) : Bytes := s.toUTF8.data.toList

namespace Utf8

/-- A stretch of the input: one character, or a bad run of `length` bytes. A bad run is `cut` when
it only lacks the bytes that would have followed the end of the input. -/
inductive Piece where
  | char (c : Char)
  | bad (length : Nat) (cut : Bool)
  deriving DecidableEq, Repr

/-- Inside a character: `read` bytes seen, `missing` more to come, the next of them in `[lo, hi]`,
and the bits collected so far. -/
structure Partial where
  read : Nat
  missing : Nat
  lo : UInt8
  hi : UInt8
  bits : Nat
  deriving DecidableEq, Repr

/-- Where the scan stands: between characters, or inside one. -/
inductive State where
  | between
  | inside (p : Partial)
  deriving DecidableEq, Repr

/-- A byte met between characters. The ranges of the second byte shut out overlong forms,
surrogates and everything beyond U+10FFFF. -/
def first (b : UInt8) : List Piece × State :=
  if b < 0x80 then ([.char (Char.ofNat b.toNat)], .between)
  else if b < 0xC2 then ([.bad 1 false], .between)
  else if b < 0xE0 then ([], .inside ⟨1, 1, 0x80, 0xBF, b.toNat % 0x20⟩)
  else if b = 0xE0 then ([], .inside ⟨1, 2, 0xA0, 0xBF, 0⟩)
  else if b = 0xED then ([], .inside ⟨1, 2, 0x80, 0x9F, 0xD⟩)
  else if b < 0xF0 then ([], .inside ⟨1, 2, 0x80, 0xBF, b.toNat % 0x10⟩)
  else if b = 0xF0 then ([], .inside ⟨1, 3, 0x90, 0xBF, 0⟩)
  else if b < 0xF4 then ([], .inside ⟨1, 3, 0x80, 0xBF, b.toNat % 0x8⟩)
  else if b = 0xF4 then ([], .inside ⟨1, 3, 0x80, 0x8F, 4⟩)
  else ([.bad 1 false], .between)

/-- One byte: the pieces it completes, and where the scan stands after it. A byte that cannot
continue a character ends a bad run and is looked at again as a first byte. -/
def step : State → UInt8 → List Piece × State
  | .between, b => first b
  | .inside p, b =>
    if p.lo ≤ b ∧ b ≤ p.hi then
      let bits := p.bits * 0x40 + b.toNat % 0x40
      if p.missing ≤ 1 then ([.char (Char.ofNat bits)], .between)
      else ([], .inside ⟨p.read + 1, p.missing - 1, 0x80, 0xBF, bits⟩)
    else
      let (pieces, state) := first b
      (.bad p.read false :: pieces, state)

/-- The scan from a given state to the end of the input, pieces in reverse. -/
def scan (done : List Piece) : State → Bytes → List Piece
  | .between, [] => done
  | .inside p, [] => .bad p.read true :: done
  | q, b :: r =>
    let (pieces, q') := step q b
    scan (pieces.reverse ++ done) q' r

/-- The pieces of the input, in order. -/
def pieces (s : Bytes) : List Piece := (scan [] .between s).reverse

/-- The number of bytes a piece takes. -/
def Piece.size : Piece → Nat
  | .char c => c.utf8Size
  | .bad n _ => n

/-- Why bytes are not UTF-8: the first bad run, by its place. -/
inductive Fault where
  | invalid (length index : Nat)
  | incomplete (index : Nat)
  deriving DecidableEq, Repr

/-- The wording of a fault. -/
def Fault.message : Fault → String
  | .invalid n i => s!"invalid utf-8 sequence of {n} bytes from index {i}"
  | .incomplete i => s!"incomplete utf-8 byte sequence from index {i}"

/-- The characters of the pieces, `index` bytes into the input, or the first fault. -/
def collect (done : List Char) (index : Nat) : List Piece → Except Fault (List Char)
  | [] => .ok done.reverse
  | .char c :: r => collect (c :: done) (index + c.utf8Size) r
  | .bad n cut :: _ => .error (if cut then .incomplete index else .invalid n index)

/-- The text the bytes write, or why they write none. -/
def check? (s : Bytes) : Except Fault String :=
  (collect [] 0 (pieces s)).map String.ofList

/-- The character that stands for a piece in lenient reading. -/
def Piece.shown : Piece → Char
  | .char c => c
  | .bad _ _ => '\uFFFD'

/-- The text the bytes write, with one U+FFFD for each bad run. -/
def lenient (s : Bytes) : String := String.ofList ((pieces s).map Piece.shown)

/-- The text the bytes write, if they write one. -/
def decode? (s : Bytes) : Option String := (check? s).toOption

end Utf8

end TopicFeed
