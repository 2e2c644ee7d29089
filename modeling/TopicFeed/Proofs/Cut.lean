import TopicFeed.Proofs.Utf8

/-!
Texts that are cut off after so many bytes.

The cut falls between two characters or inside one. What is left of that character is a bad run, so
lenient reading gives the characters before the cut, and one U+FFFD behind them if it fell inside.
-/

namespace TopicFeed.Utf8

/-! ### Beginnings of a character -/

/-- Inside a character, a byte completes it, or is taken in, or shows that it is bad. -/
lemma step_inside (p : Partial) (b : UInt8) :
    (∃ c, step (.inside p) b = ([.char c], .between)) ∨
    (∃ q, step (.inside p) b = ([], .inside q)) ∨
    ∃ n ps q, step (.inside p) b = (.bad n false :: ps, q) := by
  rw [step]
  split
  · simp only
    split
    · exact .inl ⟨_, rfl⟩
    · exact .inr (.inl ⟨_, rfl⟩)
  · exact .inr (.inr ⟨_, _, _, rfl⟩)

lemma run_inside_ne_nil (p : Partial) (s : Bytes) : run (.inside p) s ≠ [] := by
  induction s generalizing p with
  | nil => simp
  | cons b s ih =>
    rw [run_cons]
    rcases step_inside p b with ⟨c, hstep⟩ | ⟨q, hstep⟩ | ⟨n, ps, q, hstep⟩
    · simp [hstep]
    · simpa [hstep] using ih q
    · simp [hstep]

lemma run_between_ne_nil {s : Bytes} (hs : s ≠ []) : run .between s ≠ [] := by
  obtain ⟨b, r, rfl⟩ := List.exists_cons_of_ne_nil hs
  rw [run_cons, step_between]
  rcases first_cases b with ⟨c, hfirst, -⟩ | ⟨p, hfirst, -⟩ | hfirst
  · simp [hfirst]
  · simpa [hfirst] using run_inside_ne_nil p r
  · simp [hfirst]

/-- If the scan goes on to one character, it stands inside that character until the last byte. -/
lemma run_inside_begun {p : Partial} {s t : Bytes} {c : Char} (ht : t ≠ [])
    (h : run (.inside p) (s ++ t) = [.char c]) : ∃ n, run (.inside p) s = [.bad n true] := by
  induction s generalizing p with
  | nil => exact ⟨p.read, rfl⟩
  | cons b s ih =>
    rw [List.cons_append, run_cons] at h
    rw [run_cons]
    rcases step_inside p b with ⟨d, hstep⟩ | ⟨q, hstep⟩ | ⟨n, ps, q, hstep⟩
    · -- the character would be complete before its last byte
      rw [hstep] at h
      exact absurd (List.cons.inj h).2 (run_between_ne_nil (by simp [ht]))
    · rw [hstep] at h ⊢
      exact ih h
    · rw [hstep] at h
      cases h

variable {c : Char} {s t : Bytes}

/-- The beginning of a character is a bad run. -/
lemma run_begun (h : String.utf8EncodeChar c = s ++ t) (hs : s ≠ []) (ht : t ≠ []) :
    ∃ n, run .between s = [.bad n true] := by
  have hwhole : run .between (s ++ t) = [.char c] := by
    rw [← h, ← List.append_nil (String.utf8EncodeChar c), run_encodeChar, run_between_nil]
  obtain ⟨b, r, rfl⟩ := List.exists_cons_of_ne_nil hs
  rw [List.cons_append, run_cons, step_between] at hwhole
  rw [run_cons, step_between]
  rcases first_cases b with ⟨d, hfirst, -⟩ | ⟨p, hfirst, -⟩ | hfirst
  · rw [hfirst] at hwhole
    exact absurd (List.cons.inj hwhole).2 (run_between_ne_nil (by simp [ht]))
  · rw [hfirst] at hwhole ⊢
    exact run_inside_begun ht hwhole
  · rw [hfirst] at hwhole
    cases hwhole

/-- A character of several bytes has no ASCII byte. -/
lemma le_of_mem_encodeChar (hlen : 1 < (String.utf8EncodeChar c).length) {x : UInt8}
    (hx : x ∈ String.utf8EncodeChar c) : 0x80 ≤ x.toNat := by
  have hc : c.val.toNat < 0x110000 := by
    have hvalid : c.val.toNat < 0xD800 ∨ (0xDFFF < c.val.toNat ∧ c.val.toNat < 0x110000) := c.valid
    omega
  unfold String.utf8EncodeChar at hx hlen
  simp only at hx hlen
  split at hx
  · next h1 =>
    rw [if_pos h1] at hlen
    exact absurd hlen (Nat.lt_irrefl 1)
  · clear hlen
    split at hx
    · simp only [List.mem_cons, List.not_mem_nil, or_false] at hx
      rcases hx with rfl | rfl <;> rw [toNat_ofNat (by omega)] <;> omega
    · split at hx
      · simp only [List.mem_cons, List.not_mem_nil, or_false] at hx
        rcases hx with rfl | rfl | rfl <;> rw [toNat_ofNat (by omega)] <;> omega
      · simp only [List.mem_cons, List.not_mem_nil, or_false] at hx
        rcases hx with rfl | rfl | rfl | rfl <;> rw [toNat_ofNat (by omega)] <;> omega

/-! ### The cut -/

/-- **A cut** falls between two characters or inside one. -/
theorem take_encode (cs : List Char) (room : Nat) :
    ∃ ds es, cs = ds ++ es ∧ ((encode cs).take room = encode ds ∨
      ∃ c fs s t, es = c :: fs ∧ String.utf8EncodeChar c = s ++ t ∧ s ≠ [] ∧ t ≠ [] ∧
        (encode cs).take room = encode ds ++ s) := by
  induction cs generalizing room with
  | nil => exact ⟨[], [], rfl, .inl (by simp)⟩
  | cons c cs ih =>
    rcases Nat.lt_or_ge room (String.utf8EncodeChar c).length with hlt | hge
    · refine ⟨[], c :: cs, rfl, ?_⟩
      rw [encode_cons, List.take_append_of_le_length (Nat.le_of_lt hlt)]
      rcases Nat.eq_zero_or_pos room with rfl | hpos
      · exact .inl rfl
      · refine .inr ⟨c, cs, _, _, rfl, (List.take_append_drop room _).symm, ?_, ?_, rfl⟩
        · exact List.ne_nil_of_length_pos (by rw [List.length_take]; omega)
        · exact List.ne_nil_of_length_pos (by rw [List.length_drop]; omega)
    · obtain ⟨ds, es, rfl, hcut⟩ := ih (room - (String.utf8EncodeChar c).length)
      refine ⟨c :: ds, es, rfl, ?_⟩
      rw [encode_cons, List.take_append, List.take_of_length_le hge, encode_cons]
      rcases hcut with hcut | ⟨d, fs, s, t, hes, hd, hs, ht, hcut⟩
      · exact .inl (by rw [hcut])
      · exact .inr ⟨d, fs, s, t, hes, hd, hs, ht, by rw [hcut, List.append_assoc]⟩

lemma lenient_encode (cs : List Char) : lenient (encode cs) = String.ofList cs := by
  rw [← ofString_ofList, lenient_ofString]

/-- **Inside a character,** the cut leaves one U+FFFD. -/
theorem lenient_begun (cs : List Char) (h : String.utf8EncodeChar c = s ++ t) (hs : s ≠ [])
    (ht : t ≠ []) : lenient (encode cs ++ s) = String.ofList (cs ++ ['\uFFFD']) := by
  obtain ⟨n, hbad⟩ := run_begun h hs ht
  rw [lenient, pieces_eq, run_encode_append, hbad, List.map_append, map_shown_chars]
  rfl

/-- **A text that is cut off** is read as a part of it, or as a part with one U+FFFD behind it. In
the second case the cut falls inside a character, so the byte behind it is not ASCII. -/
theorem lenient_take (text : String) (room : Nat) :
    Bytes.ofString (lenient ((Bytes.ofString text).take room)) = (Bytes.ofString text).take room ∨
    ∃ ds b, lenient ((Bytes.ofString text).take room) = String.ofList (ds ++ ['\uFFFD']) ∧
      (Bytes.ofString text)[room]? = some b ∧ 0x80 ≤ b.toNat := by
  rw [ofString_eq text]
  obtain ⟨ds, es, hsplit, hcut | ⟨c, fs, s, t, rfl, hc, hs, ht, hcut⟩⟩ :=
    take_encode text.toList room
  · left
    rw [hcut, lenient_encode, ofString_ofList]
  · right
    obtain ⟨b, r, rfl⟩ := List.exists_cons_of_ne_nil ht
    refine ⟨ds, b, by rw [hcut, lenient_begun ds hc hs ht], ?_, ?_⟩
    · have hdrop : (encode text.toList).drop room = b :: (r ++ encode fs) := by
        have hwhole := List.take_append_drop room (encode text.toList)
        have hparts : encode text.toList = encode ds ++ s ++ b :: (r ++ encode fs) := by
          rw [hsplit]
          simp [encode, hc]
        rw [hcut] at hwhole
        exact List.append_cancel_left (hwhole.trans hparts)
      rw [← List.head?_drop, hdrop, List.head?_cons]
    · have hlen : 1 < (String.utf8EncodeChar c).length := by
        have hpos := List.length_pos_of_ne_nil hs
        rw [hc, List.length_append, List.length_cons]
        omega
      exact le_of_mem_encodeChar hlen (by simp [hc])

/-! ### What fits -/

/-- The longest beginning of the characters that fits into so many bytes. -/
structure Longest (room : Nat) (cs ds : List Char) : Prop where
  beginning : ds <+: cs
  fits : (encode ds).length ≤ room
  longest : ∀ fs, fs <+: cs → (encode fs).length ≤ room → fs <+: ds

/-- So many bytes end inside a character. -/
def Inside (room : Nat) (cs : List Char) : Prop :=
  ∃ ds d fs, cs = ds ++ d :: fs ∧ (encode ds).length < room ∧ room < (encode (ds ++ [d])).length

section Longest

variable {cs ds es fs : List Char} {room : Nat}

lemma length_encode_mono (h : ds <+: fs) : (encode ds).length ≤ (encode fs).length := by
  obtain ⟨es, rfl⟩ := h
  simp [encode]

lemma length_encode_concat (ds : List Char) (c : Char) :
    (encode (ds ++ [c])).length = (encode ds).length + (String.utf8EncodeChar c).length := by
  simp [encode]

/-- A beginning ends before a character, or goes on behind it. -/
lemma prefix_cases (h : fs <+: ds ++ c :: es) : fs <+: ds ∨ ds ++ [c] <+: fs := by
  have hnext : ds ++ [c] <+: ds ++ c :: es := ⟨es, by simp⟩
  rcases List.prefix_or_prefix_of_prefix h hnext with hbefore | hbehind
  · rcases List.prefix_concat_iff.mp hbefore with rfl | hbefore
    · exact .inr (List.prefix_refl _)
    · exact .inl hbefore
  · exact .inr hbehind

lemma longest_of_next (hfits : (encode ds).length ≤ room)
    (hnext : room < (encode (ds ++ [c])).length) : Longest room (ds ++ c :: es) ds where
  beginning := List.prefix_append _ _
  fits := hfits
  longest := by
    intro fs hfs hle
    rcases prefix_cases hfs with hbefore | hbehind
    · exact hbefore
    · have := length_encode_mono hbehind
      omega

/-- A cut between two characters is inside none. -/
lemma not_inside_of_take (hds : ds <+: cs) (htake : (encode cs).take room = encode ds) :
    ¬Inside room cs := by
  rintro ⟨es, d, fs, rfl, hlt, hgt⟩
  have hlength := congrArg List.length htake
  rw [List.length_take] at hlength
  have hmore : (encode (es ++ [d])).length ≤ (encode (es ++ d :: fs)).length :=
    length_encode_mono ⟨fs, by simp⟩
  rcases prefix_cases hds with hbefore | hbehind
  · have := length_encode_mono hbefore
    omega
  · have := length_encode_mono hbehind
    omega

/-- **A text that is cut off** is read as the longest part of it that fits, with one U+FFFD behind
it exactly if the cut falls inside a character. -/
theorem lenient_longest (text : String) (room : Nat) :
    ∃ ds, Longest room text.toList ds ∧
      (¬Inside room text.toList →
        lenient ((Bytes.ofString text).take room) = String.ofList ds) ∧
      (Inside room text.toList →
        lenient ((Bytes.ofString text).take room) = String.ofList (ds ++ ['\uFFFD'])) := by
  rw [ofString_eq text]
  generalize text.toList = cs
  obtain ⟨ds, es, rfl, hcut | ⟨c, fs, s, t, rfl, hc, hs, ht, hcut⟩⟩ := take_encode cs room
  · have hlength := congrArg List.length hcut
    rw [List.length_take] at hlength
    refine ⟨ds, ?_, fun _ => by rw [hcut, lenient_encode], fun hinside => ?_⟩
    · rcases es with _ | ⟨c, es⟩
      · rw [List.append_nil] at hlength ⊢
        exact ⟨List.prefix_refl _, by omega, fun fs hfs _ => hfs⟩
      · have hmore : (encode (ds ++ [c])).length ≤ (encode (ds ++ c :: es)).length :=
          length_encode_mono ⟨es, by simp⟩
        have hpos := List.length_pos_of_ne_nil (String.utf8EncodeChar_ne_nil (c := c))
        have hnext := length_encode_concat ds c
        exact longest_of_next (by omega) (by omega)
    · exact absurd hinside (not_inside_of_take (List.prefix_append _ _) hcut)
  · have hlength := congrArg List.length hcut
    have hmore : (encode (ds ++ [c])).length ≤ (encode (ds ++ c :: fs)).length :=
      length_encode_mono ⟨fs, by simp⟩
    have hnext := length_encode_concat ds c
    have hspos := List.length_pos_of_ne_nil hs
    have htpos := List.length_pos_of_ne_nil ht
    rw [hc, List.length_append] at hnext
    rw [List.length_take, List.length_append] at hlength
    have hlongest : Longest room (ds ++ c :: fs) ds := longest_of_next (by omega) (by omega)
    refine ⟨ds, hlongest, fun hbetween => ?_, fun _ => ?_⟩
    · exact absurd ⟨ds, c, fs, rfl, by omega, by omega⟩ hbetween
    · rw [hcut, lenient_begun ds hc hs ht]

end Longest

end TopicFeed.Utf8
