import TopicFeed.Proofs.Utf8
import TopicFeed.Url.Form

/-!
Form-encoded pairs, written and read back.

A byte is written as itself, as a plus, or as its two digits behind a sign. None of these is one of
the two bytes that separate, so the places where a written query is cut are the places where it was
put together; and a plus is only ever read for a space, since a plus of the text is written by its
digits.
-/

namespace TopicFeed.Url

open Ascii Utf8

/-! ### Signs and digits -/

namespace Percent

lemma decode_cons {a : UInt8} (h : a ≠ sign) (r : Bytes) : decode (a :: r) = a :: decode r := by
  rcases r with _ | ⟨b, _ | ⟨c, r⟩⟩
  · rfl
  · rfl
  · rw [decode, if_neg h]

/-- The byte that writes a digit. -/
def digitByte (n : Nat) : UInt8 := (hexDigit n).toNat.toUInt8

lemma encodeChar_hexDigit : ∀ n < 16, String.utf8EncodeChar (hexDigit n) = [digitByte n] := by
  decide

lemma hexDigit?_digitByte : ∀ n < 16, hexDigit? (digitByte n) = some n := by decide

lemma encode_encodeByte (b : UInt8) :
    Utf8.encode (encodeByte b) = [sign, digitByte (b.toNat / 16), digitByte (b.toNat % 16)] := by
  have hb := b.toNat_lt
  have hsign : String.utf8EncodeChar '%' = [sign] := by decide
  simp only [encodeByte, encode_cons, encode_nil, hsign,
    encodeChar_hexDigit (b.toNat / 16) (by omega), encodeChar_hexDigit (b.toNat % 16) (by omega)]
  rfl

/-- A sign with its digits is read for the byte that they count. -/
lemma decode_digits (b : UInt8) (r : Bytes) :
    decode (sign :: digitByte (b.toNat / 16) :: digitByte (b.toNat % 16) :: r) = b :: decode r := by
  have hb := b.toNat_lt
  have hsum : 16 * (b.toNat / 16) + b.toNat % 16 = b.toNat := Nat.div_add_mod b.toNat 16
  rw [decode, if_pos rfl, hexDigit?_digitByte _ (by omega), hexDigit?_digitByte _ (by omega)]
  simp only [hsum, Nat.toUInt8_eq, UInt8.ofNat_toNat]

end Percent

namespace Form

open Percent (sign digitByte)

/-! ### Bytes -/

/-- A byte as it is meant: a plus means a space. -/
def meantByte (b : UInt8) : UInt8 := if b = plus then space else b

/-- The byte has a meaning of its own in a query. -/
def Special (b : UInt8) : Prop := b = ampersand ∨ b = equals

instance (b : UInt8) : Decidable (Special b) := inferInstanceAs (Decidable (_ ∨ _))

lemma digitByte_plain : ∀ n < 16, meantByte (digitByte n) = digitByte n ∧ ¬Special (digitByte n) := by
  decide

lemma plain_of_isPlain {b : UInt8} (h : isPlain b = true) :
    String.utf8EncodeChar (Char.ofNat b.toNat) = [b] ∧ b ≠ plus ∧ b ≠ sign ∧ ¬Special b := by
  have hall : ∀ n < 256, isPlain (UInt8.ofNat n) = true →
      UInt8.ofNat n < 0x80 ∧ UInt8.ofNat n ≠ plus ∧ UInt8.ofNat n ≠ sign ∧
        ¬Special (UInt8.ofNat n) := by
    decide +kernel
  have hb := hall b.toNat b.toNat_lt
  rw [UInt8.ofNat_toNat] at hb
  obtain ⟨hlt, hplain⟩ := hb h
  exact ⟨encode_one hlt rfl, hplain⟩

/-- **What a byte is written as:** a plus for a space, itself, or its two digits. -/
lemma encodeByte_cases (b : UInt8) :
    (b = space ∧ Utf8.encode (encodeByte b) = [plus]) ∨
    (Utf8.encode (encodeByte b) = [b] ∧ b ≠ plus ∧ b ≠ sign ∧ ¬Special b) ∨
    Utf8.encode (encodeByte b) = [sign, digitByte (b.toNat / 16), digitByte (b.toNat % 16)] := by
  unfold encodeByte
  split
  · next hspace =>
    refine .inl ⟨hspace, ?_⟩
    decide
  · split
    · next hplain =>
      obtain ⟨hone, hb⟩ := plain_of_isPlain hplain
      exact .inr (.inl ⟨by simp [hone], hb⟩)
    · exact .inr (.inr (Percent.encode_encodeByte b))

lemma decode_encodeByte (b : UInt8) (r : Bytes) :
    Percent.decode ((Utf8.encode (encodeByte b)).map meantByte ++ r) = b :: Percent.decode r := by
  have hb := b.toNat_lt
  rcases encodeByte_cases b with ⟨rfl, hwritten⟩ | ⟨hwritten, hplus, hsign, -⟩ | hwritten
  · rw [hwritten]
    exact Percent.decode_cons (by decide) r
  · rw [hwritten, List.map_singleton, meantByte, if_neg hplus]
    exact Percent.decode_cons hsign r
  · have hhigh := (digitByte_plain (b.toNat / 16) (by omega)).1
    have hlow := (digitByte_plain (b.toNat % 16) (by omega)).1
    have hsign : meantByte sign = sign := rfl
    rw [hwritten]
    simp only [List.map_cons, List.map_nil, hsign, hhigh, hlow]
    exact Percent.decode_digits b r

lemma not_special_encodeByte (b : UInt8) : ∀ x ∈ Utf8.encode (encodeByte b), ¬Special x := by
  have hb := b.toNat_lt
  rcases encodeByte_cases b with ⟨-, hwritten⟩ | ⟨hwritten, -, -, hplain⟩ | hwritten
  · rw [hwritten]
    exact List.forall_mem_singleton.mpr (by decide)
  · simpa [hwritten] using hplain
  · rw [hwritten]
    simp only [List.forall_mem_cons, List.not_mem_nil, false_implies, implies_true, and_true]
    exact ⟨by decide, (digitByte_plain _ (by omega)).2, (digitByte_plain _ (by omega)).2⟩

/-! ### Names and values -/

/-- The bytes that write a name or a value. -/
def written (s : String) : Bytes := Utf8.encode (encodeText s)

lemma written_eq (s : String) :
    written s = (Bytes.ofString s).flatMap fun b => Utf8.encode (encodeByte b) := by
  rw [written, encodeText, Utf8.encode, List.flatMap_assoc]
  rfl

/-- **A name or a value is read back,** whatever its characters are. -/
theorem decodeText_written (s : String) : decodeText (written s) = s := by
  have hbytes : ∀ bytes : Bytes,
      Percent.decode ((bytes.flatMap fun b => Utf8.encode (encodeByte b)).map meantByte) =
        bytes := by
    intro bytes
    induction bytes with
    | nil => rfl
    | cons b bytes ih => rw [List.flatMap_cons, List.map_append, decode_encodeByte, ih]
  show lenient (Percent.decode ((written s).map meantByte)) = s
  rw [written_eq, hbytes, lenient_ofString]

lemma not_special_written (s : String) : ∀ x ∈ written s, ¬Special x := by
  intro x hx
  rw [written_eq] at hx
  obtain ⟨b, -, hb⟩ := List.mem_flatMap.mp hx
  exact not_special_encodeByte b x hb

/-! ### Pairs -/

/-- The bytes that write a pair. -/
def writtenPair (p : String × String) : Bytes := written p.1 ++ equals :: written p.2

lemma encode_encodePair (p : String × String) : Utf8.encode (encodePair p) = writtenPair p := by
  have hequals : String.utf8EncodeChar '=' = [equals] := by decide
  rw [encodePair, Utf8.encode, List.flatMap_append, List.flatMap_cons, hequals]
  rfl

/-- The name ends at the first sign. -/
lemma decodePair_writtenPair (p : String × String) : decodePair (writtenPair p) = p := by
  have hname : ∀ x ∈ written p.1, decide (x ≠ equals) = true :=
    fun x hx => decide_eq_true fun h => not_special_written p.1 x hx (.inr h)
  have htake : (writtenPair p).takeWhile (· ≠ equals) = written p.1 := by
    rw [writtenPair, List.takeWhile_append_of_pos hname]
    simp
  have hdrop : (writtenPair p).dropWhile (· ≠ equals) = equals :: written p.2 := by
    rw [writtenPair, List.dropWhile_append_of_pos hname]
    simp
  rw [decodePair, htake, hdrop, List.drop_one, List.tail_cons, decodeText_written,
    decodeText_written]

lemma ampersand_not_mem_writtenPair (p : String × String) : ampersand ∉ writtenPair p := by
  intro hmem
  rcases List.mem_append.mp hmem with hname | hvalue
  · exact not_special_written p.1 _ hname (.inl rfl)
  · rcases List.mem_cons.mp hvalue with hsign | hvalue
    · exact absurd hsign (by decide)
    · exact not_special_written p.2 _ hvalue (.inl rfl)

section Split

variable {b : UInt8} {piece : Bytes}

lemma split_of_not_mem (h : b ∉ piece) : split b piece = [piece] := by
  induction piece with
  | nil => rfl
  | cons c piece ih =>
    obtain ⟨hc, hpiece⟩ : b ≠ c ∧ b ∉ piece := by simpa using h
    rw [split, if_neg (Ne.symm hc), ih hpiece]

lemma split_ne_nil (b : UInt8) (s : Bytes) : split b s ≠ [] := by
  cases s with
  | nil => simp [split]
  | cons c s =>
    rw [split]
    split
    · simp
    · split <;> simp

/-- What a separator joins, it separates. -/
lemma split_append (b : UInt8) (s r : Bytes) : split b (s ++ b :: r) = split b s ++ split b r := by
  induction s with
  | nil => simp [split]
  | cons c s ih =>
    rw [List.cons_append, split, split, ih]
    split
    · rfl
    · rcases hpieces : split b s with _ | ⟨piece, pieces⟩
      · exact absurd hpieces (split_ne_nil b s)
      · rfl

end Split

/-- Written pairs are cut where they were put together. -/
lemma split_encode (p : String × String) (pairs : List (String × String)) :
    split ampersand (Utf8.encode (encode (p :: pairs))) = (p :: pairs).map writtenPair := by
  induction pairs generalizing p with
  | nil =>
    have hone : encode [p] = encodePair p := List.append_nil _
    rw [hone, encode_encodePair, split_of_not_mem (ampersand_not_mem_writtenPair p)]
    rfl
  | cons q pairs ih =>
    have hsign : String.utf8EncodeChar '&' = [ampersand] := by decide
    have hmore : encode (p :: q :: pairs) = encodePair p ++ '&' :: encode (q :: pairs) := by
      simp [encode, List.intercalate]
    rw [hmore, Utf8.encode, List.flatMap_append, List.flatMap_cons, ← Utf8.encode, ← Utf8.encode,
      encode_encodePair, hsign, List.singleton_append,
      split_append, split_of_not_mem (ampersand_not_mem_writtenPair p), ih]
    rfl

/-- **Pairs are read back,** in their order, whatever their names and values are. -/
theorem decode_encode (pairs : List (String × String)) :
    decode (String.ofList (encode pairs)) = pairs := by
  have hpair : ∀ p, (!(writtenPair p).isEmpty) = true := by
    intro p
    simp [writtenPair]
  rcases pairs with _ | ⟨p, pairs⟩
  · rfl
  · rw [decode, ofString_ofList, split_encode, List.filter_eq_self.mpr, List.map_map]
    · calc (p :: pairs).map (decodePair ∘ writtenPair)
          = (p :: pairs).map id := List.map_congr_left fun q _ => decodePair_writtenPair q
        _ = p :: pairs := List.map_id _
    · intro s hs
      obtain ⟨q, -, rfl⟩ := List.mem_map.mp hs
      exact hpair q

end Form

end TopicFeed.Url
