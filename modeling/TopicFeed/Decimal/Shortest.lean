/-!
# Shortest decimals

The decimal with the fewest digits that a reader rounds back to a given binary64 number. A finite
double is `m · 2^q`; the reals that round to it form an interval around it, closed when `m` is
even. For one digit, two digits and so on, the two neighbours of the value on the decimal grid of
that many digits are tested against the interval in exact integer arithmetic, and the first grid
with a hit wins: the nearer neighbour if both hit, the one with an even last digit on a tie.
-/

namespace TopicFeed.Decimal

/-- A positive real `num / den`. -/
structure Ratio where
  num : Nat
  den : Nat

/-- `m · 2^q` as a quotient of naturals. -/
def Ratio.ofBinary (m : Nat) (q : Int) : Ratio :=
  if 0 ≤ q then ⟨m * Nat.pow 2 q.toNat, 1⟩ else ⟨m, Nat.pow 2 (-q).toNat⟩

/-- The value times `10^e`. -/
def Ratio.scale (x : Ratio) (e : Int) : Ratio :=
  if 0 ≤ e then ⟨x.num * Nat.pow 10 e.toNat, x.den⟩ else ⟨x.num, x.den * Nat.pow 10 (-e).toNat⟩

/-- A finite positive double: its value `m · 2^q`, and whether the gap below it is half the gap
above it, as it is at the powers of two. -/
structure Binary where
  m : Nat
  q : Int
  narrowBelow : Bool

/-- The magnitude of a finite double, given by its bits. -/
def Binary.ofBits (bits : UInt64) : Binary :=
  let fraction : Nat := bits.toNat % 0x10000000000000
  let exponent : Nat := bits.toNat / 0x10000000000000 % 0x800
  if exponent = 0 then ⟨fraction, -1074, false⟩
  else ⟨0x10000000000000 + fraction, (exponent : Int) - 1075, fraction == 0 && exponent != 1⟩

/-- `n · 10^e` rounds to `b`. Everything is scaled by four, so that the ends of the interval are
whole multiples of the last binary place. -/
def Binary.isReadFrom (b : Binary) (n : Nat) (e : Int) : Bool :=
  let x := Ratio.scale ⟨4 * n, 1⟩ e
  let low := Ratio.ofBinary (if b.narrowBelow then 4 * b.m - 1 else 4 * b.m - 2) b.q
  let high := Ratio.ofBinary (4 * b.m + 2) b.q
  if b.m % 2 == 0 then
    low.num * x.den ≤ x.num * low.den && x.num * high.den ≤ high.num * x.den
  else
    low.num * x.den < x.num * low.den && x.num * high.den < high.num * x.den

/-- The neighbours of `b` on the grid of the multiples of `10^e`: the one that reads back as `b`,
if one does, and the nearer one if both do. -/
def Binary.onGrid? (b : Binary) (e : Int) : Option Nat :=
  let v := (Ratio.ofBinary b.m b.q).scale (-e)
  let below := v.num / v.den
  let twice := 2 * (v.num % v.den)
  let lowFirst := twice < v.den || (twice == v.den && below % 2 == 0)
  match b.isReadFrom below e, b.isReadFrom (below + 1) e with
  | true, true => some (if lowFirst then below else below + 1)
  | true, false => some below
  | false, true => some (below + 1)
  | false, false => none

/-- The power of ten of the leading digit: the largest `k` with `10^k` at most the value. The
search starts at an estimate from the binary exponent that is at most one too low. -/
def Binary.magnitude (b : Binary) : Int :=
  let bitLength : Int := Nat.log2 b.m + b.q
  let guess := Int.fdiv (bitLength * 30103) 100000
  let reaches (k : Int) : Bool :=
    let v := Ratio.ofBinary b.m b.q
    let p := Ratio.scale ⟨1, 1⟩ k
    p.num * v.den ≤ v.num * p.den
  if reaches (guess + 1) then guess + 1 else if reaches guess then guess else guess - 1

/-- Tries grids of more and more digits, `left` of them. Seventeen digits always suffice. -/
def Binary.search (b : Binary) (lead : Int) (digits : Nat) : Nat → Nat × Int
  | 0 => (b.m, 0)
  | left + 1 =>
    let e := lead + 1 - digits
    match b.onGrid? e with
    | some n => (n, e)
    | none => b.search lead (digits + 1) left

/-- The shortest decimal `n · 10^e` of a positive finite double. The first grid is the one just
above the leading digit, for values whose shortest decimal is the next power of ten. -/
def Binary.shortest (b : Binary) : Nat × Int := b.search b.magnitude 0 18

/-- How a number is written: positionally up to sixteen places before the point and from the
fifth place behind it on, otherwise with one digit before the point and an exponent with a sign
and at least two digits. An integral value ends in `.0` unless it has an exponent. -/
def layout (n : Nat) (e : Int) : String :=
  let digits := Nat.toDigits 10 n
  let point : Int := digits.length + e
  if 0 < point && point ≤ 16 then
    if 0 ≤ e then String.ofList (digits ++ List.replicate e.toNat '0') ++ ".0"
    else String.ofList (digits.take point.toNat) ++ "." ++ String.ofList (digits.drop point.toNat)
  else if -5 < point && point ≤ 0 then
    "0." ++ String.ofList (List.replicate (-point).toNat '0' ++ digits)
  else
    let exponent := point - 1
    let rest := digits.drop 1
    let power := Nat.toDigits 10 exponent.natAbs
    String.ofList (digits.take 1) ++ (if rest.isEmpty then "" else "." ++ String.ofList rest) ++
      (if exponent < 0 then "e-" else "e+") ++
      (if power.length < 2 then "0" else "") ++ String.ofList power

/-- The text of a finite double, given by its bits. -/
def text (bits : UInt64) : String :=
  let b := Binary.ofBits bits
  let sign := if bits.toNat / 0x8000000000000000 = 1 then "-" else ""
  if b.m = 0 then sign ++ "0.0" else
    let (n, e) := b.shortest
    sign ++ layout n e

end TopicFeed.Decimal
