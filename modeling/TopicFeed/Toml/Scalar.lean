import TopicFeed.Text.Ascii

/-!
# TOML scalars

Strings in their four forms, and everything that is written as one word: numbers, dates and times,
logical values. Of a number with a fraction only its form and its range matter.
-/

namespace TopicFeed.Toml

/-- A space or a tab. -/
def isBlank (c : Char) : Bool := c == ' ' || c == '\t'

/-- A character that may stand in a comment or a string: all but controls, with the tab. -/
def isShown (c : Char) : Bool := c == '\t' || (' ' ≤ c && c != '\x7F')

/-- The value of a hexadecimal digit. -/
def hexDigit? (c : Char) : Option Nat :=
  if c.toNat < 0x80 then Ascii.hexDigit? c.toNat.toUInt8 else none

/-- The value of a digit of a base. -/
def digit? (base : Nat) (c : Char) : Option Nat := (hexDigit? c).filter (· < base)

/-- The character of a code point in hexadecimal digits. -/
def codePoint? (digits : List Char) : Option Char :=
  (digits.foldlM (fun n c => (hexDigit? c).map (16 * n + ·)) 0).bind fun n =>
    if n.isValidChar then some (Char.ofNat n) else none

/-- The character that a one-letter escape means. -/
def letterEscape? (c : Char) : Option Char :=
  match c with
  | 'b' => some '\x08'
  | 't' => some '\t'
  | 'n' => some '\n'
  | 'f' => some '\x0C'
  | 'r' => some '\r'
  | 'e' => some '\x1B'
  | '"' | '\\' => some c
  | _ => none

/-! ### Strings -/

/-- A string between double quotes, from behind the first one. -/
def basic (done : List Char) : List Char → Option (String × List Char)
  | '"' :: r => some (String.ofList done.reverse, r)
  | '\\' :: 'x' :: a :: b :: r => (codePoint? [a, b]).bind fun c => basic (c :: done) r
  | '\\' :: 'u' :: a :: b :: c :: d :: r =>
    (codePoint? [a, b, c, d]).bind fun c => basic (c :: done) r
  | '\\' :: 'U' :: a :: b :: c :: d :: e :: f :: g :: h :: r =>
    (codePoint? [a, b, c, d, e, f, g, h]).bind fun c => basic (c :: done) r
  | '\\' :: c :: r => (letterEscape? c).bind fun c => basic (c :: done) r
  | c :: r => if isShown c && c != '\\' then basic (c :: done) r else none
  | [] => none

/-- A string between single quotes, from behind the first one. -/
def literal (done : List Char) : List Char → Option (String × List Char)
  | '\'' :: r => some (String.ofList done.reverse, r)
  | c :: r => if isShown c then literal (c :: done) r else none
  | [] => none

/-- A string of lines without the line break at its beginning. -/
def withoutBreak : List Char → List Char
  | '\n' :: r => r
  | '\r' :: '\n' :: r => r
  | s => s

/-- Nothing but blanks is left of the line. -/
def isLineEnd : List Char → Bool
  | '\n' :: _ => true
  | '\r' :: '\n' :: _ => true
  | c :: r => isBlank c && isLineEnd r
  | [] => false

/-- A string of lines between three double quotes, from behind the first ones. Up to two more
quotes may stand before the last ones. Behind a backslash at the end of a line all white space is
left out; `inGap` holds inside of it. -/
def basicLines (inGap : Bool) (done : List Char) : List Char → Option (String × List Char)
  | '"' :: '"' :: '"' :: '"' :: '"' :: r => some (String.ofList ('"' :: '"' :: done).reverse, r)
  | '"' :: '"' :: '"' :: '"' :: r => some (String.ofList ('"' :: done).reverse, r)
  | '"' :: '"' :: '"' :: r => some (String.ofList done.reverse, r)
  | '\\' :: 'x' :: a :: b :: r =>
    (codePoint? [a, b]).bind fun c => basicLines false (c :: done) r
  | '\\' :: 'u' :: a :: b :: c :: d :: r =>
    (codePoint? [a, b, c, d]).bind fun c => basicLines false (c :: done) r
  | '\\' :: 'U' :: a :: b :: c :: d :: e :: f :: g :: h :: r =>
    (codePoint? [a, b, c, d, e, f, g, h]).bind fun c => basicLines false (c :: done) r
  | '\\' :: c :: r =>
    if isLineEnd (c :: r) then basicLines true done (c :: r)
    else (letterEscape? c).bind fun c => basicLines false (c :: done) r
  | '\r' :: '\n' :: r => basicLines inGap (if inGap then done else '\n' :: '\r' :: done) r
  | c :: r =>
    if inGap && (isBlank c || c == '\n') then basicLines true done r
    else if (isShown c || c == '\n') && c != '\\' then basicLines false (c :: done) r
    else none
  | [] => none

/-- A string of lines between three single quotes, from behind the first ones. -/
def literalLines (done : List Char) : List Char → Option (String × List Char)
  | '\'' :: '\'' :: '\'' :: '\'' :: '\'' :: r =>
    some (String.ofList ('\'' :: '\'' :: done).reverse, r)
  | '\'' :: '\'' :: '\'' :: '\'' :: r => some (String.ofList ('\'' :: done).reverse, r)
  | '\'' :: '\'' :: '\'' :: r => some (String.ofList done.reverse, r)
  | '\r' :: '\n' :: r => literalLines ('\n' :: '\r' :: done) r
  | c :: r => if isShown c || c == '\n' then literalLines (c :: done) r else none
  | [] => none

/-- A string in any form. -/
def string? : List Char → Option (String × List Char)
  | '"' :: '"' :: '"' :: r => basicLines false [] (withoutBreak r)
  | '"' :: r => basic [] r
  | '\'' :: '\'' :: '\'' :: r => literalLines [] (withoutBreak r)
  | '\'' :: r => literal [] r
  | _ => none

/-! ### Numbers -/

/-- The number that digits of a base write, with a single underscore between two digits. -/
def digitsFrom (base n : Nat) : List Char → Option Nat
  | [] => some n
  | '_' :: c :: r => (digit? base c).bind fun d => digitsFrom base (base * n + d) r
  | c :: r => (digit? base c).bind fun d => digitsFrom base (base * n + d) r

/-- One or more digits of a base. -/
def digits? (base : Nat) : List Char → Option Nat
  | [] => none
  | c :: r => (digit? base c).bind fun d => digitsFrom base d r

/-- A decimal number without needless zeros. -/
def decimal? (cs : List Char) : Option Nat :=
  match cs with
  | '0' :: _ :: _ => none
  | _ => digits? 10 cs

/-- A sign, and what follows it. -/
def signed (cs : List Char) : Bool × List Char :=
  match cs with
  | '+' :: r => (false, r)
  | '-' :: r => (true, r)
  | _ => (false, cs)

/-- A whole number. It must fit into 128 bits, with or without a sign. -/
def integer? (cs : List Char) : Option Int :=
  let n : Option Int := match cs with
    | '0' :: 'x' :: r => (digits? 16 r).map Int.ofNat
    | '0' :: 'o' :: r => (digits? 8 r).map Int.ofNat
    | '0' :: 'b' :: r => (digits? 2 r).map Int.ofNat
    | _ =>
      let (isNegative, r) := signed cs
      (decimal? r).map fun n => if isNegative then -Int.ofNat n else Int.ofNat n
  n.filter fun n => -Int.ofNat (Nat.pow 2 127) ≤ n && n < Int.ofNat (Nat.pow 2 128)

/-- The digits of a number with a fraction, the places behind its point, and its exponent. -/
def fraction? (cs : List Char) : Option (Nat × Nat × Int) :=
  let isMark (c : Char) : Bool := c == 'e' || c == 'E'
  let body := cs.takeWhile (!isMark ·)
  let whole := body.takeWhile (· != '.')
  let places := (body.drop whole.length).drop 1
  let exponent? : Option Int :=
    if body.length = cs.length then some 0
    else
      let (isNegative, r) := signed (cs.drop (body.length + 1))
      (digits? 10 r).map fun n => if isNegative then -Int.ofNat n else Int.ofNat n
  let hasPoint := whole.length ≠ body.length
  match decimal? whole, (if hasPoint then digits? 10 places else some 0), exponent? with
  | some w, some f, some e =>
    if !hasPoint && body.length = cs.length then none
    else
      let count := (places.filter (· != '_')).length
      some (w * Nat.pow 10 count + f, count, e)
  | _, _, _ => none

/-- The number is too large for a binary one of 64 bits. -/
def isTooLarge (digits places : Nat) (exponent : Int) : Bool :=
  let e := exponent - Int.ofNat places
  let size := Int.ofNat (Nat.toDigits 10 digits).length + e
  if digits = 0 || size < 300 then false
  else if 320 < size then true
  else
    let bound := Nat.pow 2 1024 - Nat.pow 2 970
    if 0 ≤ e then bound ≤ digits * Nat.pow 10 e.toNat else bound * Nat.pow 10 (-e).toNat ≤ digits

/-- The word is a number with a fraction or an exponent, or one that is none. -/
def isFloat (cs : List Char) : Bool :=
  let (_, r) := signed cs
  r == "inf".toList || r == "nan".toList ||
    (fraction? r).any fun (digits, places, exponent) => !isTooLarge digits places exponent

/-! ### Dates and times -/

/-- A number of exactly so many decimal digits. -/
def fixed? (count : Nat) (cs : List Char) : Option (Nat × List Char) :=
  let ds := cs.take count
  if ds.length = count then
    (ds.foldlM (fun n c => (digit? 10 c).map (10 * n + ·)) 0).map (·, cs.drop count)
  else none

/-- A number of two digits behind a sign. -/
def behind? (sign : Char) : List Char → Option (Nat × List Char)
  | c :: r => if c = sign then fixed? 2 r else none
  | [] => none

/-- The number of days of a month. -/
def daysOf (year month : Nat) : Nat :=
  if month = 2 then
    if year % 4 = 0 && (year % 100 ≠ 0 || year % 400 = 0) then 29 else 28
  else if month = 4 || month = 6 || month = 9 || month = 11 then 30
  else 31

/-- A number in so many digits. -/
def padded (count n : Nat) : String :=
  let ds := Nat.toDigits 10 n
  String.ofList (List.replicate (count - ds.length) '0' ++ ds)

/-- A day. -/
def day? (cs : List Char) : Option (String × List Char) := do
  let (year, cs) ← fixed? 4 cs
  let (month, cs) ← behind? '-' cs
  let (day, cs) ← behind? '-' cs
  if 1 ≤ month && month ≤ 12 && 1 ≤ day && day ≤ daysOf year month then
    return (padded 4 year ++ "-" ++ padded 2 month ++ "-" ++ padded 2 day, cs)
  else none

/-- The fraction of a second, of which nine places count, without zeros at its end. -/
def subsecond? (cs : List Char) : Option (String × List Char) :=
  match cs with
  | '.' :: r =>
    let ds := r.takeWhile (·.isDigit)
    if ds.isEmpty then none
    else
      let kept := ((ds.take 9).reverse.dropWhile (· == '0')).reverse
      some (if kept.isEmpty then "" else "." ++ String.ofList kept, r.drop ds.length)
  | _ => some ("", cs)

/-- A time of day; the seconds may be left out. -/
def time? (cs : List Char) : Option (String × List Char) := do
  let (hour, cs) ← fixed? 2 cs
  let (minute, cs) ← behind? ':' cs
  if 23 < hour || 59 < minute then none
  let short := padded 2 hour ++ ":" ++ padded 2 minute
  if cs.head? != some ':' then return (short, cs)
  let (second, cs) ← behind? ':' cs
  if 60 < second then none
  let (fraction, cs) ← subsecond? cs
  return (short ++ ":" ++ padded 2 second ++ fraction, cs)

/-- The offset of a time zone, or none. -/
def offset? (cs : List Char) : Option (String × List Char) :=
  match cs with
  | 'Z' :: r | 'z' :: r => some ("Z", r)
  | sign :: r =>
    if sign = '+' || sign = '-' then do
      let (hour, r) ← fixed? 2 r
      let (minute, r) ← behind? ':' r
      if 23 < hour || 59 < minute then none
      return (sign.toString ++ padded 2 hour ++ ":" ++ padded 2 minute, r)
    else some ("", cs)
  | [] => some ("", [])

/-- The signs between a day and a time. -/
def isBetween (c : Char) : Bool := c == 'T' || c == 't' || c == ' '

/-- A date, a time, or both, in its usual form. -/
def date? (cs : List Char) : Option String :=
  let result : Option (String × List Char) :=
    match day? cs with
    | none => time? cs
    | some (day, []) => some (day, [])
    | some (day, c :: r) => do
      if !isBetween c then none
      let (time, r) ← time? r
      let (offset, r) ← offset? r
      return (day ++ "T" ++ time ++ offset, r)
  match result with
  | some (text, []) => some text
  | _ => none

end TopicFeed.Toml
