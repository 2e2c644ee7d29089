import TopicFeed.Text.Ascii

/-!
# Punycode

A label of a domain name in ASCII. The ASCII characters come first; the others follow as
differences, in the order of their code points, each a number in base thirty-six whose digits
have thresholds that adapt to the sizes seen so far.
-/

namespace TopicFeed.Url.Punycode

/-- The character of a digit: letters, then the ten digits. -/
def digitChar (n : Nat) : Char := Char.ofNat (if n < 26 then 0x61 + n else 0x30 + (n - 26))

/-- The digit of a character, in either letter case. -/
def digit? (c : Char) : Option Nat :=
  if 'a' ≤ c && c ≤ 'z' then some (c.toNat - 0x61)
  else if 'A' ≤ c && c ≤ 'Z' then some (c.toNat - 0x41)
  else if '0' ≤ c && c ≤ '9' then some (c.toNat - 0x30 + 26)
  else none

/-- The threshold of the digit at place `k`: a digit below it is the last one. -/
def threshold (k bias : Nat) : Nat :=
  if k ≤ bias then 1 else if bias + 26 ≤ k then 26 else k - bias

theorem threshold_le (k bias : Nat) : threshold k bias ≤ 26 := by
  unfold threshold
  split
  · omega
  · split <;> omega

theorem threshold_pos (k bias : Nat) : 1 ≤ threshold k bias := by
  unfold threshold
  split
  · omega
  · split <;> omega

/-- The bias that suits differences of about the given size. -/
def settle (delta k : Nat) : Nat :=
  if 455 < delta then settle (delta / 35) (k + 36) else k + 36 * delta / (delta + 38)
termination_by delta

/-- The bias after a difference, of which the first one weighs less. -/
def adapt (delta count : Nat) (isFirst : Bool) : Nat :=
  let delta := if isFirst then delta / 700 else delta / 2
  settle (delta + delta / count) 0

/-- A difference in digits, from the place `k` on. -/
def digits (bias k n : Nat) : List Char :=
  let t := threshold k bias
  if n < t then [digitChar n]
  else digitChar (t + (n - t) % (36 - t)) :: digits bias (k + 36) ((n - t) / (36 - t))
termination_by n
decreasing_by
  have hle := threshold_le k bias
  have hpos := threshold_pos k bias
  exact Nat.lt_of_le_of_lt (Nat.div_le_self _ _) (by omega)

/-- Writing: the digits so far, the difference since the last of them, the bias, and how many
characters have been written. -/
structure Writing where
  out : List Char := []
  delta : Nat := 0
  bias : Nat := 72
  count : Nat

/-- One character of the label, while those of code point `n` are written. -/
def Writing.step (basic n : Nat) (w : Writing) (c : Char) : Writing :=
  if c.toNat < n then { w with delta := w.delta + 1 }
  else if c.toNat = n then
    { out := w.out ++ digits w.bias 36 w.delta, delta := 0,
      bias := adapt w.delta (w.count + 1) (w.count == basic), count := w.count + 1 }
  else w

/-- All characters of the given code points, of which every one lies at `start` or beyond. -/
def Writing.run (label : List Char) (basic : Nat) : List Nat → Nat → Writing → Writing
  | [], _, w => w
  | n :: ns, start, w =>
    let w := { w with delta := w.delta + (n - start) * (w.count + 1) }
    let w := label.foldl (Writing.step basic n) w
    Writing.run label basic ns (n + 1) { w with delta := w.delta + 1 }

/-- A label that holds other characters than ASCII, in ASCII. -/
def encode (label : List Char) : List Char :=
  let basic := label.filter (·.toNat < 0x80)
  let others := ((label.filter (0x80 ≤ ·.toNat)).map Char.toNat).mergeSort.eraseDups
  let head := if basic.isEmpty then [] else basic ++ ['-']
  head ++ (Writing.run label basic.length others 0x80 { count := basic.length }).out

/-- Reading: the characters so far, the last code point and place, the bias; and of the difference
in progress its sum, the weight and the place of the next digit. -/
structure Reading where
  out : List Char
  code : Nat := 0x80
  start : Nat := 0
  bias : Nat := 72
  sum : Nat := 0
  weight : Nat := 1
  place : Nat := 36

/-- The digits behind the ASCII characters. -/
def Reading.run (r : Reading) : List Char → Option (List Char)
  | [] => if r.place = 36 then some r.out else none
  | c :: rest =>
    (digit? c).bind fun d =>
      let sum := r.sum + d * r.weight
      let t := threshold r.place r.bias
      if d < t then
        let count := r.out.length + 1
        let code := r.code + sum / count
        let index := sum % count
        if code.isValidChar then
          Reading.run
            { out := r.out.insertIdx index (Char.ofNat code), code := code, start := index + 1,
              bias := adapt (sum - r.start) count (r.start == 0), sum := index + 1 } rest
        else none
      else
        Reading.run
          { r with sum := sum, weight := r.weight * (36 - t), place := r.place + 36 } rest

/-- The label that is written in ASCII. -/
def decode? (s : List Char) : Option (List Char) :=
  let tail := (s.reverse.takeWhile (· ≠ '-')).reverse
  if tail.length = s.length then Reading.run { out := [] } s
  else Reading.run { out := s.take (s.length - tail.length - 1) } tail

end TopicFeed.Url.Punycode
