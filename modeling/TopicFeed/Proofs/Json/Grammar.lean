import Mathlib.Data.List.Forall2
import TopicFeed.Json.Record

/-!
The grammar of an event line.

What a JSON text is, byte by byte, without a word about how it is read. The first half is the
syntax of any value; the second half is what a typed value, a list or a record may look like, and
what it stands for.

An escape of a UTF-16 surrogate is part of the syntax like any other. It writes something only where
both halves of a pair follow each other; a text that counts must be written without lone halves.
-/

namespace TopicFeed.Json.Grammar

open Ascii

/-- Nothing but blanks. -/
def Blanks (s : Bytes) : Prop := ∀ b ∈ s, isBlank b = true

/-! ### Strings -/

/-- Four hexadecimal digits, and the code unit that they name. -/
inductive HexCode : Bytes → Nat → Prop
  | mk {a b c d : UInt8} {w x y z : Nat} (ha : hexDigit? a = some w) (hb : hexDigit? b = some x)
      (hc : hexDigit? c = some y) (hd : hexDigit? d = some z) :
      HexCode [a, b, c, d] (((w * 16 + x) * 16 + y) * 16 + z)

/-- The letters behind a backslash, and the bytes that they write. -/
def letters : List (UInt8 × UInt8) := [(quote, quote), (backslash, backslash), (0x2F, 0x2F),
  (0x62, 0x08), (0x66, 0x0C), (0x6E, 0x0A), (0x72, 0x0D), (0x74, 0x09)]

/-- A piece of a string, and the bytes that it writes. A lone surrogate writes none. -/
inductive Piece : Bytes → Option Bytes → Prop
  | plain {b : UInt8} (hquote : b ≠ quote) (hbackslash : b ≠ backslash) (hcontrol : 0x20 ≤ b) :
      Piece [b] (some [b])
  | letter {c b : UInt8} (h : (c, b) ∈ letters) : Piece [backslash, c] (some [b])
  | unit {d : Bytes} {n : Nat} (h : HexCode d n) (hn : n < 0xD800 ∨ 0xDFFF < n) :
      Piece (backslash :: 0x75 :: d) (some (String.utf8EncodeChar (Char.ofNat n)))
  | pair {d e : Bytes} {high low : Nat} (hd : HexCode d high) (he : HexCode e low)
      (hhigh : 0xD800 ≤ high ∧ high ≤ 0xDBFF) (hlow : 0xDC00 ≤ low ∧ low ≤ 0xDFFF) :
      Piece (backslash :: 0x75 :: d ++ backslash :: 0x75 :: e)
        (some (String.utf8EncodeChar (Char.ofNat (codePoint high low))))
  | lone {d : Bytes} {n : Nat} (h : HexCode d n) (hn : 0xD800 ≤ n ∧ n ≤ 0xDFFF) :
      Piece (backslash :: 0x75 :: d) none

/-- What may stand between two quotes. -/
inductive Chars : Bytes → Prop
  | nil : Chars []
  | cons {p s : Bytes} {w : Option Bytes} (hp : Piece p w) (hs : Chars s) : Chars (p ++ s)

/-- What may stand between two quotes if every surrogate is paired, and the bytes that it writes. -/
inductive PairedChars : Bytes → Bytes → Prop
  | nil : PairedChars [] []
  | cons {p s w v : Bytes} (hp : Piece p (some w)) (hs : PairedChars s v) :
      PairedChars (p ++ s) (w ++ v)

/-- A string. -/
def IsString (s : Bytes) : Prop := ∃ raw, Chars raw ∧ s = quote :: raw ++ [quote]

/-- A string with every surrogate paired, and the bytes that it writes. -/
def Writes (s w : Bytes) : Prop := ∃ raw, PairedChars raw w ∧ s = quote :: raw ++ [quote]

/-! ### Numbers -/

/-- One digit or more. -/
def Digits (s : Bytes) : Prop := s ≠ [] ∧ ∀ b ∈ s, isDigit b = true

/-- The digits before the point: a zero, or digits that do not begin with one. -/
def Whole (s : Bytes) : Prop := Digits s ∧ (s = [zero] ∨ s.head? ≠ some zero)

/-- The digits behind the point, with the point, or nothing. -/
inductive Fraction : Bytes → Bytes → Prop
  | none : Fraction [] []
  | some {ds : Bytes} (h : Digits ds) : Fraction ds (dot :: ds)

/-- The byte that begins an exponent. -/
def IsExponentMark (c : UInt8) : Prop := c = 0x65 ∨ c = 0x45

/-- An exponent with its sign, or nothing. -/
inductive Exponent : Option (Bool × Bytes) → Bytes → Prop
  | none : Exponent .none []
  | bare {c : UInt8} {ds : Bytes} (hc : IsExponentMark c) (h : Digits ds) :
      Exponent (.some (false, ds)) (c :: ds)
  | plus {c : UInt8} {ds : Bytes} (hc : IsExponentMark c) (h : Digits ds) :
      Exponent (.some (false, ds)) (c :: Ascii.plus :: ds)
  | minus {c : UInt8} {ds : Bytes} (hc : IsExponentMark c) (h : Digits ds) :
      Exponent (.some (true, ds)) (c :: Ascii.minus :: ds)

/-- A number without its sign. -/
inductive Unsigned : Numeral → Bytes → Prop
  | mk {negative : Bool} {whole fraction f e : Bytes} {exponent : Option (Bool × Bytes)}
      (hw : Whole whole) (hf : Fraction fraction f) (he : Exponent exponent e) :
      Unsigned ⟨negative, whole, fraction, exponent⟩ (whole ++ f ++ e)

/-- A number. -/
def IsNumber (s : Bytes) : Prop :=
  ∃ n t, Unsigned n t ∧ (s = t ∨ s = minus :: t)

/-! ### Values -/

/-- The three words. -/
def words : List Bytes := [
  [0x6E, 0x75, 0x6C, 0x6C],
  [0x74, 0x72, 0x75, 0x65],
  [0x66, 0x61, 0x6C, 0x73, 0x65]]

example : words = ["null", "true", "false"].map Bytes.ofString := by decide

/-- The byte that opens a container. -/
def opener : Bracket → UInt8
  | .list => openBracket
  | .object => openBrace

/-- What stands before each value of a container: nothing in a list, a key and a colon in an
object. -/
inductive Lead : Bracket → Bytes → Prop
  | list {a : Bytes} (ha : Blanks a) : Lead .list a
  | object {a k b c : Bytes} (ha : Blanks a) (hk : IsString k) (hb : Blanks b) (hc : Blanks c) :
      Lead .object (a ++ k ++ b ++ colon :: c)

/-- The parts of a text that nest: a value, or what stands between the brackets of a container that
is not empty. -/
inductive Part where
  | value
  | items (bracket : Bracket)

/-- The syntax of values, nested as deeply as one likes. -/
inductive Is : Part → Bytes → Prop
  | word {s : Bytes} (h : s ∈ words) : Is .value s
  | number {s : Bytes} (h : IsNumber s) : Is .value s
  | string {s : Bytes} (h : IsString s) : Is .value s
  | empty {a : Bytes} (b : Bracket) (ha : Blanks a) : Is .value (opener b :: a ++ [b.close])
  | full {s : Bytes} (b : Bracket) (h : Is (.items b) s) : Is .value (opener b :: s ++ [b.close])
  | last {b : Bracket} {e v a : Bytes} (he : Lead b e) (hv : Is .value v) (ha : Blanks a) :
      Is (.items b) (e ++ v ++ a)
  | more {b : Bracket} {e v a s : Bytes} (he : Lead b e) (hv : Is .value v) (ha : Blanks a)
      (hs : Is (.items b) s) : Is (.items b) (e ++ v ++ a ++ comma :: s)

/-- A value of any kind. -/
abbrev IsValue (s : Bytes) : Prop := Is .value s

/-! ### Typed values -/

/-- A text. -/
def TextValue (s : Bytes) (x : String) : Prop := ∃ w, Writes s w ∧ x = Utf8.lenient w

/-- The number that digits write. -/
def natural (ds : Bytes) : Nat := ds.foldl (fun n d => n * 10 + digit d) 0

/-- An integer of the given type: neither fraction nor exponent, and no negative zero. -/
inductive IntegerValue (k : IntegerType) : Bytes → Int → Prop
  | plain {w : Bytes} (hw : Whole w) (hlow : k.low ≤ natural w) (hhigh : natural w ≤ k.high) :
      IntegerValue k w (natural w)
  | minus {w : Bytes} (hw : Whole w) (hzero : w ≠ [zero]) (hlow : k.low ≤ -natural w)
      (hhigh : -natural w ≤ k.high) : IntegerValue k (Ascii.minus :: w) (-natural w)

/-- The elements of a list, separated by commas. -/
inductive Elements : List Bytes → Bytes → Prop
  | one {a v b : Bytes} (ha : Blanks a) (hb : Blanks b) : Elements [v] (a ++ v ++ b)
  | more {a v b s : Bytes} {vs : List Bytes} (ha : Blanks a) (hb : Blanks b) (hs : Elements vs s) :
      Elements (v :: vs) (a ++ v ++ b ++ comma :: s)

/-- A list with its elements. -/
inductive ListOf : List Bytes → Bytes → Prop
  | empty {a : Bytes} (ha : Blanks a) : ListOf [] (openBracket :: a ++ [closeBracket])
  | full {vs : List Bytes} {s : Bytes} (h : Elements vs s) :
      ListOf vs (openBracket :: s ++ [closeBracket])

/-- A list whose elements are all values of one type. -/
def ListValue {α : Type} (V : Bytes → α → Prop) (s : Bytes) (xs : List α) : Prop :=
  ∃ vs, ListOf vs s ∧ List.Forall₂ V vs xs

/-- A value that may be null. -/
inductive NullableValue {α : Type} (V : Bytes → α → Prop) : Bytes → Option α → Prop
  | null : NullableValue V [0x6E, 0x75, 0x6C, 0x6C] none
  | some {s : Bytes} {x : α} (h : V s x) : NullableValue V s (some x)

/-! ### Records -/

/-- A member of an object: what its key writes, and the text of its value. -/
abbrev Member := Bytes × Bytes

/-- A member, with blanks around its parts. -/
inductive MemberText : Member → Bytes → Prop
  | mk {a k b c v d key : Bytes} (ha : Blanks a) (hk : Writes k key) (hb : Blanks b)
      (hc : Blanks c) (hd : Blanks d) : MemberText (key, v) (a ++ k ++ b ++ colon :: c ++ v ++ d)

/-- The members of an object, separated by commas. -/
inductive Members : List Member → Bytes → Prop
  | one {m : Member} {s : Bytes} (hm : MemberText m s) : Members [m] s
  | more {m : Member} {ms : List Member} {s t : Bytes} (hm : MemberText m s) (hs : Members ms t) :
      Members (m :: ms) (s ++ comma :: t)

/-- An object with its members. -/
inductive ObjectOf : List Member → Bytes → Prop
  | empty {a : Bytes} (ha : Blanks a) : ObjectOf [] (openBrace :: a ++ [closeBrace])
  | full {ms : List Member} {s : Bytes} (h : Members ms s) :
      ObjectOf ms (openBrace :: s ++ [closeBrace])

/-- What a field of a record looks like: its key, and its values with the update that each of them
makes to the record. -/
structure Shape (ρ : Type) where
  key : String
  value : Bytes → (ρ → ρ) → Prop

/-- A field with values of a type and a way to put them into the record. -/
def Shape.of {ρ α : Type} (key : String) (V : Bytes → α → Prop) (put : α → ρ → ρ) : Shape ρ :=
  ⟨key, fun s u => ∃ x, V s x ∧ u = put x⟩

/-- The bytes of a key. -/
def Shape.keyBytes {ρ : Type} (f : Shape ρ) : Bytes := Bytes.ofString f.key

/-- The value of a member: of the type of its field, or any value at all if no field has its key. -/
def MemberValue {ρ : Type} (shapes : List (Shape ρ)) (m : Member) (u : ρ → ρ) : Prop :=
  match shapes.find? (·.keyBytes == m.1) with
  | some f => f.value m.2 u
  | none => IsValue m.2 ∧ u = id

/-- A record as an object: no key of a field occurs twice, and every value is what its key asks
for. -/
def ObjectForm {ρ : Type} (shapes : List (Shape ρ)) (default : ρ) (s : Bytes) (x : ρ) : Prop :=
  ∃ ms us, ObjectOf ms s ∧ (∀ f ∈ shapes, (ms.map (·.1)).count f.keyBytes ≤ 1) ∧
    List.Forall₂ (MemberValue shapes) ms us ∧ x = us.foldl (fun x u => u x) default

/-- A record as a list: the values of its first fields, in order. -/
def ListForm {ρ : Type} (shapes : List (Shape ρ)) (default : ρ) (s : Bytes) (x : ρ) : Prop :=
  ∃ vs us, ListOf vs s ∧ vs.length ≤ shapes.length ∧
    List.Forall₂ (fun p u => p.1.value p.2 u) (shapes.zip vs) us ∧
    x = us.foldl (fun x u => u x) default

/-- A record, in either form. -/
def RecordValue {ρ : Type} (shapes : List (Shape ρ)) (default : ρ) (s : Bytes) (x : ρ) : Prop :=
  ObjectForm shapes default s x ∨ ListForm shapes default s x

end TopicFeed.Json.Grammar
