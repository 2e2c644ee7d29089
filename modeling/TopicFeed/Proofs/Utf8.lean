import Mathlib.Data.List.Basic
import TopicFeed.Text.Utf8

/-!
The scan of UTF-8 against its encoding.

A byte that begins a character and the bytes that may follow it are the encoding of the character
that the scan collects. So the scan finds no bad run exactly in the bytes that write a text, and
then it finds the characters of that text.
-/

namespace TopicFeed.Utf8

/-- The bytes that write some characters. -/
def encode (cs : List Char) : Bytes := cs.flatMap String.utf8EncodeChar

@[simp] lemma encode_nil : encode [] = [] := rfl

@[simp] lemma encode_cons (c : Char) (cs : List Char) :
    encode (c :: cs) = String.utf8EncodeChar c ++ encode cs := rfl

lemma ofString_ofList (cs : List Char) : Bytes.ofString (String.ofList cs) = encode cs := by
  unfold Bytes.ofString encode
  rw [String.toUTF8_eq_toByteArray, String.toByteArray_ofList, List.utf8Encode]
  exact List.toList_data_toByteArray

lemma ofString_eq (text : String) : Bytes.ofString text = encode text.toList := by
  rw [← ofString_ofList, String.ofList_toList]

/-! ### The scan as a list of pieces -/

/-- The pieces from a given state on. -/
def run (q : State) (s : Bytes) : List Piece := (scan [] q s).reverse

lemma scan_eq (done : List Piece) (q : State) (s : Bytes) :
    scan done q s = scan [] q s ++ done := by
  induction s generalizing done q with
  | nil => cases q <;> simp [scan]
  | cons b r ih =>
    have hcons : ∀ done, scan done q (b :: r) =
        scan ((step q b).1.reverse ++ done) (step q b).2 r := by
      intro done
      cases q <;> rfl
    rw [hcons, hcons, ih ((step q b).1.reverse ++ done), ih ((step q b).1.reverse ++ [])]
    simp

@[simp] lemma run_between_nil : run .between [] = [] := rfl

@[simp] lemma run_inside_nil (p : Partial) : run (.inside p) [] = [.bad p.read true] := rfl

lemma run_cons (q : State) (b : UInt8) (r : Bytes) :
    run q (b :: r) = (step q b).1 ++ run (step q b).2 r := by
  have hcons : scan [] q (b :: r) = scan ((step q b).1.reverse ++ []) (step q b).2 r := by
    cases q <;> rfl
  rw [run, hcons, scan_eq, run]
  simp

lemma pieces_eq (s : Bytes) : pieces s = run .between s := rfl

/-! ### What a first byte begins -/

lemma toNat_ofNat_char {n : Nat} (h : n < 0xD800 ∨ (0xDFFF < n ∧ n < 0x110000)) :
    (Char.ofNat n).val.toNat = n := by
  have hv : n.isValidChar := by
    unfold Nat.isValidChar
    omega
  rw [Char.ofNat, dif_pos hv]
  rfl

lemma eq_ofNat {x : UInt8} {k : Nat} (h : x.toNat = k) : UInt8.ofNat k = x := by
  rw [← h, UInt8.ofNat_toNat]

lemma encode_one {n : Nat} {x : UInt8} (hn : n < 0x80) (hx : x.toNat = n) :
    String.utf8EncodeChar (Char.ofNat n) = [x] := by
  unfold String.utf8EncodeChar
  simp only [toNat_ofNat_char (.inl (by omega : n < 0xD800))]
  rw [if_pos (by omega), eq_ofNat hx]

lemma encode_two {n : Nat} {x y : UInt8} (hn : 0x80 ≤ n ∧ n < 0x800)
    (hx : x.toNat = n / 64 % 0x20 + 0xC0) (hy : y.toNat = n % 64 + 0x80) :
    String.utf8EncodeChar (Char.ofNat n) = [x, y] := by
  unfold String.utf8EncodeChar
  simp only [toNat_ofNat_char (.inl (by omega : n < 0xD800))]
  rw [if_neg (by omega), if_pos (by omega), eq_ofNat hx, eq_ofNat hy]

lemma encode_three {n : Nat} {x y z : UInt8} (hn : 0x800 ≤ n ∧ n < 0x10000)
    (hs : n < 0xD800 ∨ 0xDFFF < n) (hx : x.toNat = n / 4096 % 0x10 + 0xE0)
    (hy : y.toNat = n / 64 % 64 + 0x80) (hz : z.toNat = n % 64 + 0x80) :
    String.utf8EncodeChar (Char.ofNat n) = [x, y, z] := by
  unfold String.utf8EncodeChar
  simp only [toNat_ofNat_char (by omega : n < 0xD800 ∨ (0xDFFF < n ∧ n < 0x110000))]
  rw [if_neg (by omega), if_neg (by omega), if_pos (by omega), eq_ofNat hx, eq_ofNat hy,
    eq_ofNat hz]

lemma encode_four {n : Nat} {x y z w : UInt8} (hn : 0x10000 ≤ n ∧ n < 0x110000)
    (hx : x.toNat = n / 262144 % 8 + 0xF0) (hy : y.toNat = n / 4096 % 64 + 0x80)
    (hz : z.toNat = n / 64 % 64 + 0x80) (hw : w.toNat = n % 64 + 0x80) :
    String.utf8EncodeChar (Char.ofNat n) = [x, y, z, w] := by
  unfold String.utf8EncodeChar
  simp only [toNat_ofNat_char (by omega : n < 0xD800 ∨ (0xDFFF < n ∧ n < 0x110000))]
  rw [if_neg (by omega), if_neg (by omega), if_neg (by omega), eq_ofNat hx, eq_ofNat hy,
    eq_ofNat hz, eq_ofNat hw]

/-- The byte may follow the first one of a character. -/
def Follows (b : UInt8) : Prop := 0x80 ≤ b.toNat ∧ b.toNat ≤ 0xBF

def gather (bits : Nat) (suf : Bytes) : Nat := suf.foldl (fun n b => n * 0x40 + b.toNat % 0x40) bits

/-- Whatever may follow completes the encoding of the character that the scan collects. -/
def Completes (p : Partial) (pre : Bytes) : Prop :=
  ∀ b suf, suf.length + 1 = p.missing → p.lo.toNat ≤ b.toNat → b.toNat ≤ p.hi.toNat →
    (∀ x ∈ suf, Follows x) →
    String.utf8EncodeChar (Char.ofNat (gather p.bits (b :: suf))) = pre ++ b :: suf

lemma completes_two {b : UInt8} {bits : Nat} (hb : b.toNat = bits + 0xC0) (hbits : 2 ≤ bits)
    (hlt : bits < 32) : Completes ⟨1, 1, 0x80, 0xBF, bits⟩ [b] := by
  intro x suf hlen hlo hhi hsuf
  obtain rfl : suf = [] := List.eq_nil_of_length_eq_zero (by simpa using hlen)
  simp only [UInt8.reduceToNat] at hlo hhi
  refine encode_two ?_ ?_ ?_ <;> simp only [gather, List.foldl_cons, List.foldl_nil] <;> omega

/-- The least second byte behind the first of three. -/
def leastOfThree (bits : Nat) : UInt8 := if bits = 0 then 0xA0 else 0x80

def greatestOfThree (bits : Nat) : UInt8 := if bits = 13 then 0x9F else 0xBF

lemma toNat_leastOfThree (bits : Nat) :
    (leastOfThree bits).toNat = if bits = 0 then 0xA0 else 0x80 := by
  unfold leastOfThree
  split <;> rfl

lemma toNat_greatestOfThree (bits : Nat) :
    (greatestOfThree bits).toNat = if bits = 13 then 0x9F else 0xBF := by
  unfold greatestOfThree
  split <;> rfl

lemma completes_three {b : UInt8} {bits : Nat} (hb : b.toNat = bits + 0xE0) (hlt : bits < 16) :
    Completes ⟨1, 2, leastOfThree bits, greatestOfThree bits, bits⟩ [b] := by
  intro x suf hlen hlo hhi hsuf
  obtain ⟨y, rfl⟩ : ∃ y, suf = [y] := List.length_eq_one_iff.mp (by simpa using hlen)
  obtain ⟨hy, hy'⟩ : Follows y := hsuf y (by simp)
  simp only [toNat_leastOfThree, toNat_greatestOfThree] at hlo hhi
  have hx : 0x80 ≤ x.toNat ∧ x.toNat ≤ 0xBF := by
    split at hlo <;> split at hhi <;> omega
  have h0 : bits = 0 → 0xA0 ≤ x.toNat := fun h0 => by rwa [if_pos h0] at hlo
  have hd : bits = 13 → x.toNat ≤ 0x9F := fun hd => by rwa [if_pos hd] at hhi
  clear hlo hhi
  refine encode_three ?_ ?_ ?_ ?_ ?_ <;> simp only [gather, List.foldl_cons, List.foldl_nil] <;>
    omega

/-- The least second byte behind the first of four. -/
def leastOfFour (bits : Nat) : UInt8 := if bits = 0 then 0x90 else 0x80

def greatestOfFour (bits : Nat) : UInt8 := if bits = 4 then 0x8F else 0xBF

lemma toNat_leastOfFour (bits : Nat) :
    (leastOfFour bits).toNat = if bits = 0 then 0x90 else 0x80 := by
  unfold leastOfFour
  split <;> rfl

lemma toNat_greatestOfFour (bits : Nat) :
    (greatestOfFour bits).toNat = if bits = 4 then 0x8F else 0xBF := by
  unfold greatestOfFour
  split <;> rfl

lemma completes_four {b : UInt8} {bits : Nat} (hb : b.toNat = bits + 0xF0) (hlt : bits < 5) :
    Completes ⟨1, 3, leastOfFour bits, greatestOfFour bits, bits⟩ [b] := by
  intro x suf hlen hlo hhi hsuf
  obtain ⟨y, z, rfl⟩ : ∃ y z, suf = [y, z] := List.length_eq_two.mp (by simpa using hlen)
  obtain ⟨hy, hy'⟩ : Follows y := hsuf y (by simp)
  obtain ⟨hz, hz'⟩ : Follows z := hsuf z (by simp)
  simp only [toNat_leastOfFour, toNat_greatestOfFour] at hlo hhi
  have hx : 0x80 ≤ x.toNat ∧ x.toNat ≤ 0xBF := by
    split at hlo <;> split at hhi <;> omega
  have h0 : bits = 0 → 0x90 ≤ x.toNat := fun h0 => by rwa [if_pos h0] at hlo
  have h4 : bits = 4 → x.toNat ≤ 0x8F := fun h4 => by rwa [if_pos h4] at hhi
  clear hlo hhi
  refine encode_four ?_ ?_ ?_ ?_ ?_ <;> simp only [gather, List.foldl_cons, List.foldl_nil] <;>
    omega

section First

variable {b : UInt8} {bits : Nat}

lemma first_one (hb : b.toNat < 0x80) : first b = ([.char (Char.ofNat b.toNat)], .between) := by
  unfold first
  rw [if_pos]
  simpa [UInt8.lt_iff_toNat_lt] using hb

lemma first_two (hb : b.toNat = bits + 0xC0) (hbits : 2 ≤ bits) (hlt : bits < 32) :
    first b = ([], .inside ⟨1, 1, 0x80, 0xBF, bits⟩) := by
  unfold first
  simp only [UInt8.lt_iff_toNat_lt, UInt8.reduceToNat]
  rw [if_neg (by omega), if_neg (by omega), if_pos (by omega), hb]
  congr 3
  omega

lemma first_three (hb : b.toNat = bits + 0xE0) (hlt : bits < 16) :
    first b = ([], .inside ⟨1, 2, leastOfThree bits, greatestOfThree bits, bits⟩) := by
  unfold first leastOfThree greatestOfThree
  simp only [UInt8.lt_iff_toNat_lt, ← UInt8.toNat_inj, UInt8.reduceToNat]
  rw [if_neg (by omega), if_neg (by omega), if_neg (by omega), hb]
  by_cases h0 : bits = 0
  · subst h0
    rfl
  · rw [if_neg (by omega)]
    by_cases hd : bits = 13
    · subst hd
      rfl
    · rw [if_neg (by omega), if_pos (by omega), if_neg h0, if_neg hd]
      congr 3
      omega

lemma first_four (hb : b.toNat = bits + 0xF0) (hlt : bits < 5) :
    first b = ([], .inside ⟨1, 3, leastOfFour bits, greatestOfFour bits, bits⟩) := by
  unfold first leastOfFour greatestOfFour
  simp only [UInt8.lt_iff_toNat_lt, ← UInt8.toNat_inj, UInt8.reduceToNat]
  rw [if_neg (by omega), if_neg (by omega), if_neg (by omega), if_neg (by omega),
    if_neg (by omega), if_neg (by omega), hb]
  by_cases h0 : bits = 0
  · subst h0
    rfl
  · rw [if_neg (by omega), if_neg h0]
    by_cases h4 : bits = 4
    · subst h4
      rfl
    · rw [if_pos (by omega), if_neg h4]
      congr 3
      omega

lemma first_bad (hb : (0x80 ≤ b.toNat ∧ b.toNat < 0xC2) ∨ 0xF5 ≤ b.toNat) :
    first b = ([.bad 1 false], .between) := by
  unfold first
  simp only [UInt8.lt_iff_toNat_lt, ← UInt8.toNat_inj, UInt8.reduceToNat]
  rcases hb with hb | hb
  · rw [if_neg (by omega), if_pos (by omega)]
  · rw [if_neg (by omega), if_neg (by omega), if_neg (by omega), if_neg (by omega),
      if_neg (by omega), if_neg (by omega), if_neg (by omega), if_neg (by omega),
      if_neg (by omega)]

/-- What a first byte can be: a whole character, the beginning of one, or bad. -/
lemma first_cases (b : UInt8) :
    (∃ c, first b = ([.char c], .between) ∧ String.utf8EncodeChar c = [b]) ∨
    (∃ p, first b = ([], .inside p) ∧ Completes p [b] ∧ 1 ≤ p.missing) ∨
    first b = ([.bad 1 false], .between) := by
  have hlt := b.toNat_lt
  rcases Nat.lt_or_ge b.toNat 0x80 with h | h
  · exact .inl ⟨_, first_one h, encode_one h rfl⟩
  · rcases Nat.lt_or_ge b.toNat 0xC2 with h' | h'
    · exact .inr (.inr (first_bad (.inl ⟨h, h'⟩)))
    · rcases Nat.lt_or_ge b.toNat 0xE0 with h₂ | h₂
      · have hb : b.toNat = (b.toNat - 0xC0) + 0xC0 := by omega
        exact .inr (.inl ⟨_, first_two hb (by omega) (by omega),
          completes_two hb (by omega) (by omega), by simp⟩)
      · rcases Nat.lt_or_ge b.toNat 0xF0 with h₃ | h₃
        · have hb : b.toNat = (b.toNat - 0xE0) + 0xE0 := by omega
          exact .inr (.inl ⟨_, first_three hb (by omega), completes_three hb (by omega), by simp⟩)
        · rcases Nat.lt_or_ge b.toNat 0xF5 with h₄ | h₄
          · have hb : b.toNat = (b.toNat - 0xF0) + 0xF0 := by omega
            exact .inr (.inl ⟨_, first_four hb (by omega), completes_four hb (by omega), by simp⟩)
          · exact .inr (.inr (first_bad (.inr h₄)))

end First

/-! ### Inside a character -/

section Inside

variable {p : Partial} {b : UInt8}

/-- The scan looks for one more byte than it has met. -/
def Partial.next (p : Partial) (b : UInt8) : Partial :=
  ⟨p.read + 1, p.missing - 1, 0x80, 0xBF, p.bits * 0x40 + b.toNat % 0x40⟩

lemma run_inside_more (hlo : p.lo.toNat ≤ b.toNat) (hhi : b.toNat ≤ p.hi.toNat)
    (hm : 1 < p.missing) (r : Bytes) : run (.inside p) (b :: r) = run (.inside (p.next b)) r := by
  have hin : p.lo ≤ b ∧ b ≤ p.hi := ⟨hlo, hhi⟩
  rw [run_cons, step, if_pos hin]
  simp only
  rw [if_neg (Nat.not_le.mpr hm)]
  rfl

lemma run_inside_last (hlo : p.lo.toNat ≤ b.toNat) (hhi : b.toNat ≤ p.hi.toNat)
    (hm : p.missing ≤ 1) (r : Bytes) :
    run (.inside p) (b :: r) = .char (Char.ofNat (gather p.bits [b])) :: run .between r := by
  have hin : p.lo ≤ b ∧ b ≤ p.hi := ⟨hlo, hhi⟩
  rw [run_cons, step, if_pos hin]
  simp only
  rw [if_pos hm]
  rfl

lemma Completes.next {pre : Bytes} (h : Completes p pre) (hlo : p.lo.toNat ≤ b.toNat)
    (hhi : b.toNat ≤ p.hi.toNat) : Completes (p.next b) (pre ++ [b]) := by
  intro x suf hlen hx hx' hsuf
  have hfollows : ∀ y ∈ x :: suf, Follows y := by
    intro y hy
    rcases List.mem_cons.mp hy with rfl | hy
    · exact ⟨hx, hx'⟩
    · exact hsuf y hy
  have hmissing : (x :: suf).length + 1 = p.missing := by
    simp only [Partial.next] at hlen
    simp only [List.length_cons]
    omega
  rw [List.append_assoc]
  exact h b (x :: suf) hmissing hlo hhi hfollows

/-- Inside a character, the scan meets a bad run or completes the encoding of a character. -/
lemma run_inside {pre : Bytes} (h : Completes p pre) (hm : 1 ≤ p.missing) (s : Bytes) :
    (∃ n cut, .bad n cut ∈ run (.inside p) s) ∨
    ∃ c suf r, s = suf ++ r ∧ suf ≠ [] ∧ String.utf8EncodeChar c = pre ++ suf ∧
      run (.inside p) s = .char c :: run .between r := by
  induction s generalizing p pre with
  | nil => exact .inl ⟨p.read, true, by simp⟩
  | cons b s ih =>
    -- the bounds hold for this byte only: behind it any byte that may follow will do
    by_cases hin : p.lo ≤ b ∧ b ≤ p.hi
    · obtain ⟨hlo, hhi⟩ : p.lo.toNat ≤ b.toNat ∧ b.toNat ≤ p.hi.toNat := hin
      rcases Nat.lt_or_ge 1 p.missing with hlt | hge
      · rw [run_inside_more hlo hhi hlt]
        have hmissing : 1 ≤ (p.next b).missing := by
          simp only [Partial.next]
          omega
        rcases ih (h.next hlo hhi) hmissing with hbad | ⟨c, suf, r, rfl, -, hc, hrun⟩
        · exact .inl hbad
        · exact .inr ⟨c, b :: suf, r, rfl, by simp, by simpa using hc, hrun⟩
      · rw [run_inside_last hlo hhi hge]
        have hlen : ([] : Bytes).length + 1 = p.missing := by
          simp only [List.length_nil]
          omega
        exact .inr ⟨_, [b], s, rfl, by simp, h b [] hlen hlo hhi (by simp), rfl⟩
    · refine .inl ⟨p.read, false, ?_⟩
      rw [run_cons, step, if_neg hin]
      simp

end Inside

/-! ### Well-formed bytes -/

lemma step_between (b : UInt8) : step .between b = first b := rfl

/-- Bytes without a bad run are the encoding of the characters that the scan finds in them. -/
lemma eq_encode_of_pieces {s : Bytes} (h : ∀ n cut, .bad n cut ∉ pieces s) :
    ∃ cs, s = encode cs ∧ pieces s = cs.map .char := by
  rw [pieces_eq] at h ⊢
  -- one character goes at a time, and it has several bytes
  induction hn : s.length using Nat.strongRecOn generalizing s with
  | ind n ih =>
    subst hn
    cases s with
    | nil => exact ⟨[], rfl, rfl⟩
    | cons b s =>
      rw [run_cons, step_between] at h ⊢
      rcases first_cases b with ⟨c, hfirst, hc⟩ | ⟨p, hfirst, hp, hm⟩ | hfirst
      · rw [hfirst] at h ⊢
        obtain ⟨cs, hs, hrun⟩ :=
          ih s.length (by simp) (fun n cut hmem => h n cut (by simp [hmem])) rfl
        exact ⟨c :: cs, by simp [hc, ← hs], by simp [hrun]⟩
      · rw [hfirst] at h ⊢
        rcases run_inside hp hm s with ⟨n, cut, hbad⟩ | ⟨c, suf, r, rfl, -, hc, hrun⟩
        · exact absurd hbad (by simpa using h n cut)
        · rw [hrun] at h ⊢
          obtain ⟨cs, hs, hrun'⟩ := ih r.length
            (by simp only [List.length_cons, List.length_append]; omega)
            (fun n cut hmem => h n cut (by simp [hmem])) rfl
          exact ⟨c :: cs, by rw [encode_cons, hc, ← hs]; simp, by simp [hrun']⟩
      · rw [hfirst] at h
        exact absurd (by simp) (h 1 false)

lemma toNat_ofNat {k : Nat} (hk : k < 256) : (UInt8.ofNat k).toNat = k := by
  simp only [UInt8.toNat_ofNat']
  omega

section Written

variable {n : Nat} (r : Bytes)

lemma run_one (hn : n ≤ 0x7F) :
    run .between (UInt8.ofNat n :: r) = .char (Char.ofNat n) :: run .between r := by
  have hx := toNat_ofNat (k := n) (by omega)
  rw [run_cons, step_between, first_one (by rw [hx]; omega), hx]
  rfl

lemma run_two (hlo : 0x7F < n) (hhi : n ≤ 0x7FF) :
    run .between (UInt8.ofNat (n / 64 % 0x20 + 0xC0) :: UInt8.ofNat (n % 0x40 + 0x80) :: r) =
      .char (Char.ofNat n) :: run .between r := by
  have hx := toNat_ofNat (k := n / 64 % 0x20 + 0xC0) (by omega)
  have hy := toNat_ofNat (k := n % 0x40 + 0x80) (by omega)
  have hgather : gather (n / 64 % 0x20) [UInt8.ofNat (n % 0x40 + 0x80)] = n := by
    simp only [gather, List.foldl_cons, List.foldl_nil, hy]
    omega
  rw [run_cons, step_between, first_two hx (by omega) (by omega), List.nil_append,
    run_inside_last (by simp only [hy, UInt8.reduceToNat]; omega)
      (by simp only [hy, UInt8.reduceToNat]; omega) (by simp), hgather]

lemma run_three (hlo : 0x7FF < n) (hhi : n ≤ 0xFFFF) (hvalid : n < 0xD800 ∨ 0xDFFF < n) :
    run .between (UInt8.ofNat (n / 4096 % 0x10 + 0xE0) :: UInt8.ofNat (n / 64 % 0x40 + 0x80) ::
        UInt8.ofNat (n % 0x40 + 0x80) :: r) =
      .char (Char.ofNat n) :: run .between r := by
  have hx := toNat_ofNat (k := n / 4096 % 0x10 + 0xE0) (by omega)
  have hy := toNat_ofNat (k := n / 64 % 0x40 + 0x80) (by omega)
  have hz := toNat_ofNat (k := n % 0x40 + 0x80) (by omega)
  have hgather : gather (Partial.next ⟨1, 2, leastOfThree (n / 4096 % 0x10),
      greatestOfThree (n / 4096 % 0x10), n / 4096 % 0x10⟩
      (UInt8.ofNat (n / 64 % 0x40 + 0x80))).bits [UInt8.ofNat (n % 0x40 + 0x80)] = n := by
    simp only [gather, Partial.next, List.foldl_cons, List.foldl_nil, hy, hz]
    omega
  -- the bounds on the second byte leave out the surrogates and what needs fewer bytes
  rw [run_cons, step_between, first_three hx (by omega), List.nil_append,
    run_inside_more
      (by simp only [hy, toNat_leastOfThree]; split <;> omega)
      (by simp only [hy, toNat_greatestOfThree]; split <;> omega) (by simp),
    run_inside_last (by simp only [hz, Partial.next, UInt8.reduceToNat]; omega)
      (by simp only [hz, Partial.next, UInt8.reduceToNat]; omega) (by simp [Partial.next]),
    hgather]

lemma run_four (hlo : 0xFFFF < n) (hhi : n < 0x110000) :
    run .between (UInt8.ofNat (n / 262144 % 8 + 0xF0) :: UInt8.ofNat (n / 4096 % 0x40 + 0x80) ::
        UInt8.ofNat (n / 64 % 0x40 + 0x80) :: UInt8.ofNat (n % 0x40 + 0x80) :: r) =
      .char (Char.ofNat n) :: run .between r := by
  have hx := toNat_ofNat (k := n / 262144 % 8 + 0xF0) (by omega)
  have hy := toNat_ofNat (k := n / 4096 % 0x40 + 0x80) (by omega)
  have hz := toNat_ofNat (k := n / 64 % 0x40 + 0x80) (by omega)
  have hw := toNat_ofNat (k := n % 0x40 + 0x80) (by omega)
  have hgather : gather ((Partial.next ⟨1, 3, leastOfFour (n / 262144 % 8),
      greatestOfFour (n / 262144 % 8), n / 262144 % 8⟩
      (UInt8.ofNat (n / 4096 % 0x40 + 0x80))).next
      (UInt8.ofNat (n / 64 % 0x40 + 0x80))).bits [UInt8.ofNat (n % 0x40 + 0x80)] = n := by
    simp only [gather, Partial.next, List.foldl_cons, List.foldl_nil, hy, hz, hw]
    omega
  rw [run_cons, step_between, first_four hx (by omega), List.nil_append,
    run_inside_more
      (by simp only [hy, toNat_leastOfFour]; split <;> omega)
      (by simp only [hy, toNat_greatestOfFour]; split <;> omega) (by simp),
    run_inside_more (by simp only [hz, Partial.next, UInt8.reduceToNat]; omega)
      (by simp only [hz, Partial.next, UInt8.reduceToNat]; omega) (by simp [Partial.next]),
    run_inside_last (by simp only [hw, Partial.next, UInt8.reduceToNat]; omega)
      (by simp only [hw, Partial.next, UInt8.reduceToNat]; omega) (by simp [Partial.next]),
    hgather]

end Written

/-- The scan finds each character in its encoding. -/
lemma run_encodeChar (c : Char) (r : Bytes) :
    run .between (String.utf8EncodeChar c ++ r) = .char c :: run .between r := by
  have hc : Char.ofNat c.val.toNat = c := Char.ofNat_toNat c
  have hvalid : c.val.toNat < 0xD800 ∨ (0xDFFF < c.val.toNat ∧ c.val.toNat < 0x110000) := c.valid
  generalize hn : c.val.toNat = n at hc hvalid
  unfold String.utf8EncodeChar
  simp only [hn]
  split
  · next h1 => exact (run_one r h1).trans (by rw [hc])
  · next h1 =>
    split
    · next h2 => exact (run_two r (by omega) h2).trans (by rw [hc])
    · next h2 =>
      split
      · next h3 => exact (run_three r (by omega) h3 (by omega)).trans (by rw [hc])
      · next h3 => exact (run_four r (by omega) (by omega)).trans (by rw [hc])

lemma run_encode_append (cs : List Char) (s : Bytes) :
    run .between (encode cs ++ s) = cs.map .char ++ run .between s := by
  induction cs with
  | nil => rfl
  | cons c cs ih => rw [encode_cons, List.append_assoc, run_encodeChar, ih]; rfl

/-- **The scan reads back what the encoding writes.** -/
theorem pieces_encode (cs : List Char) : pieces (encode cs) = cs.map .char := by
  rw [pieces_eq, ← List.append_nil (encode cs), run_encode_append, run_between_nil,
    List.append_nil]

@[simp] lemma map_shown_chars (cs : List Char) : (cs.map Piece.char).map Piece.shown = cs := by
  have hshown : Piece.shown ∘ Piece.char = id := rfl
  rw [List.map_map, hshown, List.map_id]

lemma collect_chars (done : List Char) (index : Nat) (cs : List Char) :
    collect done index (cs.map .char) = .ok (done.reverse ++ cs) := by
  induction cs generalizing done index with
  | nil => simp [collect]
  | cons c cs ih => simp [collect, ih]

lemma collect_ok {done cs : List Char} {index : Nat} {ps : List Piece}
    (h : collect done index ps = .ok cs) : ∀ n cut, .bad n cut ∉ ps := by
  induction ps generalizing done index with
  | nil => simp
  | cons p ps ih =>
    cases p with
    | char c => simpa using ih h
    | bad n cut => simp [collect] at h

/-- **Bytes pass the check exactly if they write a text,** and then it is that text. -/
theorem check?_eq_ok_iff {s : Bytes} {text : String} :
    check? s = .ok text ↔ s = Bytes.ofString text := by
  constructor
  · intro h
    unfold check? at h
    rcases hcollect : collect [] 0 (pieces s) with e | cs
    · rw [hcollect] at h
      cases h
    · rw [hcollect] at h
      cases h
      obtain ⟨cs', hs, hpieces⟩ := eq_encode_of_pieces (collect_ok hcollect)
      rw [hpieces, collect_chars] at hcollect
      cases hcollect
      rw [ofString_ofList, List.reverse_nil, List.nil_append]
      exact hs
  · rintro rfl
    rw [check?, ofString_eq, pieces_encode, collect_chars]
    simp [Except.map]

/-- Lenient reading keeps what is well-formed as it is. -/
theorem lenient_ofString (text : String) : lenient (Bytes.ofString text) = text := by
  rw [lenient, ofString_eq, pieces_encode, map_shown_chars, String.ofList_toList]

/-- A text without U+FFFD is read leniently from its own bytes only. -/
theorem lenient_eq_iff {s : Bytes} {text : String} (h : '\uFFFD' ∉ text.toList) :
    lenient s = text ↔ s = Bytes.ofString text := by
  constructor
  · intro hs
    have hshown : (pieces s).map Piece.shown = text.toList := by
      rw [← hs, lenient, String.toList_ofList]
    have hgood : ∀ n cut, .bad n cut ∉ pieces s := by
      intro n cut hmem
      refine h (hshown ▸ List.mem_map.mpr ⟨_, hmem, rfl⟩)
    obtain ⟨cs, rfl, hpieces⟩ := eq_encode_of_pieces hgood
    rw [hpieces, map_shown_chars] at hshown
    rw [hshown, ofString_eq]
  · rintro rfl
    exact lenient_ofString text

end TopicFeed.Utf8
