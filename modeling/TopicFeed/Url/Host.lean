import TopicFeed.Url.Domain

/-!
# Hosts

The host of a URL: a domain name, or an address of version 4 or 6. A name whose last label is a
number is an address of version 4, or no host at all; an address of version 6 stands in brackets
and is written with its longest run of zeros left out.
-/

namespace TopicFeed.Url

/-- The host of a URL. -/
inductive Host where
  | domain (name : String)
  | ipv4 (address : Nat)
  | ipv6 (groups : List Nat)
  deriving DecidableEq, Repr

namespace Host

/-- The value of a character as a digit of the given base. -/
def digit? (base : Nat) (c : Char) : Option Nat :=
  (Ascii.hexDigit? c.toNat.toUInt8).filter fun d => c.toNat < 0x80 && d < base

/-- The number that digits write; none if a character is no digit. Without digits it is zero. -/
def number? (base : Nat) (cs : List Char) : Option Nat :=
  cs.foldlM (fun n c => (digit? base c).map (base * n + ·)) 0

/-! ### Version 4 -/

/-- A part of an address: decimal, octal behind `0`, or hexadecimal behind `0x`. -/
def part? (cs : List Char) : Option Nat :=
  match cs with
  | [] => none
  | '0' :: 'x' :: r | '0' :: 'X' :: r => number? 16 r
  | '0' :: c :: r => number? 8 (c :: r)
  | _ => number? 10 cs

/-- The labels of a name, less an empty one at its end. -/
def parts (name : List Char) : List (List Char) :=
  let labels := Domain.labels name
  if labels.getLast? = some [] then labels.dropLast else labels

/-- The last label is a number. -/
def endsInNumber (name : List Char) : Bool :=
  match (parts name).getLast? with
  | none => false
  | some last => (!last.isEmpty && last.all fun c => (digit? 10 c).isSome) || (part? last).isSome

/-- The address of up to four numbers, of which the last one fills all bytes that are left. -/
def ipv4? (name : List Char) : Option Nat :=
  let parts := parts name
  if 4 < parts.length then none
  else (parts.mapM part?).bind fun numbers =>
    match numbers.getLast? with
    | none => none
    | some last =>
      let leading := numbers.dropLast
      if leading.all (· < 256) && last < Nat.pow 256 (4 - leading.length) then
        some (leading.foldl (fun n k => n * 256 + k) 0 * Nat.pow 256 (4 - leading.length) + last)
      else none

/-- An address as four decimal numbers. -/
def ipv4Text (address : Nat) : String :=
  ".".intercalate <| [0x1000000, 0x10000, 0x100, 1].map fun unit => toString (address / unit % 256)

/-! ### Version 6 -/

/-- The pieces of a text between its colons. -/
def pieces : List Char → List (List Char)
  | [] => [[]]
  | c :: r =>
    if c = ':' then [] :: pieces r
    else match pieces r with
      | [] => [[c]]
      | piece :: rest => (c :: piece) :: rest

/-- Up to four hexadecimal digits. -/
def group? (cs : List Char) : Option Nat :=
  if 1 ≤ cs.length && cs.length ≤ 4 then number? 16 cs else none

/-- A decimal number below 256 without needless zeros. -/
def octet? (cs : List Char) : Option Nat :=
  if cs.isEmpty || (cs.head? == some '0' && 1 < cs.length) then none
  else (number? 10 cs).filter (· < 256)

/-- The two groups that an address of version 4 stands for. -/
def embedded? (cs : List Char) : Option (List Nat) :=
  match (Domain.labels cs).mapM octet? with
  | some [a, b, c, d] => some [a * 256 + b, c * 256 + d]
  | _ => none

/-- The groups of one side of an address. Only its end may be an address of version 4. -/
def side? (isEnd : Bool) (cs : List Char) : Option (List Nat) :=
  if cs.isEmpty then some []
  else
    let ps := pieces cs
    match (ps.dropLast).mapM group?, ps.getLast? with
    | some leading, some last =>
      match group? last with
      | some g => some (leading ++ [g])
      | none => if isEnd then (embedded? last).map (leading ++ ·) else none
    | _, _ => none

/-- What stands before and behind the first `::`, if there is one. -/
def splitGap : List Char → Option (List Char × List Char)
  | ':' :: ':' :: r => some ([], r)
  | c :: r => (splitGap r).map fun (before, behind) => (c :: before, behind)
  | [] => none

/-- The eight groups of an address; `::` stands for as many zeros as are missing. -/
def ipv6? (cs : List Char) : Option (List Nat) :=
  match splitGap cs with
  | none => (side? true cs).filter fun groups => groups.length = 8 && !cs.isEmpty
  | some (before, behind) =>
    match side? false before, side? true behind with
    | some xs, some ys =>
      if xs.length + ys.length ≤ 7 then
        some (xs ++ List.replicate (8 - (xs.length + ys.length)) 0 ++ ys)
      else none
    | _, _ => none

/-- The number of zeros at the beginning. -/
def zeros (groups : List Nat) : Nat := (groups.takeWhile (· = 0)).length

/-- The place and the length of the first longest run of zeros. -/
def longestGap (groups : List Nat) : Nat × Nat :=
  (List.range groups.length).foldl
    (fun best i =>
      let n := zeros (groups.drop i)
      if best.2 < n then (i, n) else best)
    (0, 0)

/-- Groups with colons between them. -/
def groupsText (groups : List Nat) : String :=
  ":".intercalate (groups.map fun g => String.ofList (Nat.toDigits 16 g))

/-- An address with its longest run of two or more zeros left out. -/
def ipv6Text (groups : List Nat) : String :=
  match longestGap groups with
  | (start, n) =>
    if n < 2 then groupsText groups
    else groupsText (groups.take start) ++ "::" ++ groupsText (groups.drop (start + n))

/-! ### Reading and writing -/

/-- The address between brackets. -/
def bracketed? (cs : List Char) : Option Host :=
  match cs with
  | '[' :: r => if r.getLast? = some ']' then (ipv6? r.dropLast).map .ipv6 else none
  | _ => none

/-- The host of a URL of a special scheme. It is never empty. -/
def special? (cs : List Char) : Option Host :=
  if cs.head? = some '[' then bracketed? cs
  else (Domain.ascii? cs).bind fun name =>
    if name.isEmpty then none
    else if endsInNumber name then (ipv4? name).map .ipv4
    else some (.domain (String.ofList name))

/-- A character that no host holds. -/
def isForbidden (c : Char) : Bool := "\x00\t\n\r #/:<>?@[\\]^|".toList.contains c

/-- The host of a URL of any other scheme: an address in brackets, or any text. -/
def general? (cs : List Char) : Option Host :=
  if cs.head? = some '[' then bracketed? cs
  else if cs.any isForbidden then none
  else some (.domain (String.ofList (Percent.encodeChars Percent.control cs)))

/-- The written form of a host. -/
def toText : Host → String
  | domain name => name
  | ipv4 address => ipv4Text address
  | ipv6 groups => "[" ++ ipv6Text groups ++ "]"

end Host

end TopicFeed.Url
