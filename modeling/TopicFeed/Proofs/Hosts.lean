import TopicFeed.Proofs.Address
import TopicFeed.Proofs.Cut

/-!
No host ends in a blank.

A control or a space stays what it is when a domain name is read: percent-decoding, the check for
text and the folding of letters leave it alone, and then its label is refused. Nor does an address
or a number end in one. So a text with blanks at its end is no authority.
-/

namespace TopicFeed.Url

open Ascii

variable {c : Char} {cs gap : List Char}

/-! ### Blanks in a domain name -/

lemma Percent.mem_decode {x : UInt8} (hsign : x ≠ sign) (hdigit : hexDigit? x = none) {s : Bytes}
    (h : x ∈ s) : x ∈ decode s := by
  fun_induction decode s with
  | case1 b c r high low hlow hhigh ih =>
    simp only [List.mem_cons] at h
    rcases h with rfl | rfl | rfl | h
    · exact absurd rfl hsign
    · rw [hdigit] at hhigh
      cases hhigh
    · rw [hdigit] at hlow
      cases hlow
    · exact List.mem_cons_of_mem _ (ih h)
  | case2 b c r hno ih =>
    rcases List.mem_cons.mp h with rfl | h
    · exact List.mem_cons_self
    · exact List.mem_cons_of_mem _ (ih h)
  | case3 a b c r hsign' ih =>
    rcases List.mem_cons.mp h with rfl | h
    · exact List.mem_cons_self
    · exact List.mem_cons_of_mem _ (ih h)
  | case4 | case5 | case6 => exact h

lemma toNat_of_isMargin (hc : isMargin c = true) : c.toNat ≤ 0x20 := by
  simpa [isMargin, Char.le_def, UInt32.le_iff_toNat_le] using hc

/-- What holds of all codes up to that of the space holds of every blank. -/
lemma forall_isMargin {P : Char → Prop} (h : ∀ n ≤ 0x20, P (Char.ofNat n))
    (hc : isMargin c = true) : P c := by
  have hchar := h c.toNat (toNat_of_isMargin hc)
  rwa [Char.ofNat_toNat] at hchar

lemma encodeChar_blank (hc : isMargin c = true) :
    String.utf8EncodeChar c = [UInt8.ofNat c.toNat] :=
  forall_isMargin (P := fun c => String.utf8EncodeChar c = [UInt8.ofNat c.toNat])
    (by decide +kernel) hc

/-- An ASCII character among bytes is one of those that they write. -/
lemma mem_of_mem_encode (hc : c.toNat < 0x80) (h : UInt8.ofNat c.toNat ∈ Utf8.encode cs) :
    c ∈ cs := by
  obtain ⟨d, hd, hmem⟩ := List.mem_flatMap.mp h
  have hbyte : (UInt8.ofNat c.toNat).toNat = c.toNat := Utf8.toNat_ofNat (by omega)
  have hlen : ¬1 < (String.utf8EncodeChar d).length := fun hlen => by
    have hle := Utf8.le_of_mem_encodeChar hlen hmem
    omega
  suffices hcd : c = d from hcd ▸ hd
  unfold String.utf8EncodeChar at hmem hlen
  simp only at hmem hlen
  split at hmem
  · next hd =>
    have heq := congrArg UInt8.toNat (List.mem_singleton.mp hmem)
    rw [hbyte, Utf8.toNat_ofNat (by omega)] at heq
    exact Char.ext (UInt32.toNat_inj.mp heq)
  · next hd =>
    rw [if_neg hd] at hlen
    refine absurd ?_ hlen
    split
    · simp
    · split <;> simp

/-- A character that writes no byte is there because it was, and need not be encoded. -/
lemma mem_of_mem_encodeChars {encoded : UInt8 → Bool} (hc : c.toNat < 0x80)
    (hdigits : ∀ n < 256, c ∉ Percent.encodeByte (UInt8.ofNat n))
    (h : c ∈ Percent.encodeChars encoded cs) :
    c ∈ cs ∧ encoded (UInt8.ofNat c.toNat) = false := by
  simp only [Percent.encodeChars, Percent.encode, List.mem_flatMap] at h
  obtain ⟨d, hd, b, hb, hmem⟩ := h
  split at hmem
  · have hnone := hdigits b.toNat b.toNat_lt
    rw [UInt8.ofNat_toNat] at hnone
    exact absurd hmem hnone
  · next hplain =>
    have hbyte : UInt8.ofNat c.toNat = b := by
      have hlt : b.toNat < 0xD800 := b.toNat_lt.trans (by decide)
      rw [List.mem_singleton.mp hmem]
      exact Utf8.eq_ofNat (Utf8.toNat_ofNat_char (.inl hlt)).symm
    rw [hbyte]
    refine ⟨mem_of_mem_encode hc ?_, by simpa using hplain⟩
    exact List.mem_flatMap.mpr ⟨d, hd, hbyte ▸ hb⟩

namespace Domain

/-- A blank is what it is in any letter case, no dot, and forbidden. -/
lemma fold_blank (hc : isMargin c = true) :
    fold c = [c] ∧ c ≠ '.' ∧ isForbidden c = true :=
  forall_isMargin (P := fun c => fold c = [c] ∧ c ≠ '.' ∧ isForbidden c = true)
    (by decide +kernel) hc

lemma exists_label (hdot : c ≠ '.') (h : c ∈ cs) : ∃ label ∈ labels cs, c ∈ label := by
  induction cs with
  | nil => cases h
  | cons d cs ih =>
    rw [labels]
    rcases List.mem_cons.mp h with rfl | h
    · rw [if_neg hdot]
      split <;> exact ⟨_, List.mem_cons_self, List.mem_cons_self⟩
    · obtain ⟨label, hlabel, hmem⟩ := ih h
      split
      · exact ⟨label, List.mem_cons_of_mem _ hlabel, hmem⟩
      · rcases hlabels : labels cs with _ | ⟨first, rest⟩
        · rw [hlabels] at hlabel
          cases hlabel
        · rw [hlabels] at hlabel
          rcases List.mem_cons.mp hlabel with rfl | hlabel
          · exact ⟨_, List.mem_cons_self, List.mem_cons_of_mem _ hmem⟩
          · exact ⟨label, List.mem_cons_of_mem _ hlabel, hmem⟩

lemma mapM_eq_none {α β : Type} {f : α → Option β} {xs : List α} {x : α} (hx : x ∈ xs)
    (h : f x = none) : xs.mapM f = none := by
  induction xs with
  | nil => cases hx
  | cons y ys ih =>
    rw [List.mapM_cons]
    rcases List.mem_cons.mp hx with rfl | hx
    · rw [h]
      rfl
    · rw [ih hx]
      cases f y <;> rfl

/-- **A text with a blank in it is no domain name.** -/
theorem ascii?_of_blank (hc : isMargin c = true) (h : c ∈ cs) : ascii? cs = none := by
  have hplain : ∀ n ≤ 0x20, UInt8.ofNat n ≠ Percent.sign ∧ hexDigit? (UInt8.ofNat n) = none := by
    decide
  obtain ⟨hsign, hdigit⟩ := hplain c.toNat (toNat_of_isMargin hc)
  obtain ⟨hfold, hdot, hforbidden⟩ := fold_blank hc
  have hbyte : UInt8.ofNat c.toNat ∈ Bytes.ofString (String.ofList cs) := by
    rw [Utf8.ofString_ofList]
    exact List.mem_flatMap.mpr ⟨c, h, by simp [encodeChar_blank hc]⟩
  have hmeant := Percent.mem_decode hsign hdigit hbyte
  unfold ascii?
  rcases hname : Utf8.decode? (Percent.decode (Bytes.ofString (String.ofList cs))) with _ | name
  · rfl
  · have hwrites : Percent.decode (Bytes.ofString (String.ofList cs)) = Bytes.ofString name := by
      rw [← Utf8.check?_eq_ok_iff]
      rcases hcheck : Utf8.check? (Percent.decode (Bytes.ofString (String.ofList cs))) with f | text
      · simp [Utf8.decode?, hcheck, Except.toOption] at hname
      · simpa [Utf8.decode?, hcheck, Except.toOption] using hname
    rw [hwrites, Utf8.ofString_eq] at hmeant
    have hascii : c.toNat < 0x80 := Nat.lt_of_le_of_lt (toNat_of_isMargin hc) (by decide)
    have hin := mem_of_mem_encode hascii hmeant
    have hfolded : c ∈ name.toList.flatMap fold :=
      List.mem_flatMap.mpr ⟨c, hin, by simp [hfold]⟩
    obtain ⟨label, hlabel, hmem⟩ := exists_label hdot hfolded
    have hnone : label? label = none := by
      rw [label?, if_pos (List.any_eq_true.mpr ⟨c, hmem, hforbidden⟩)]
    rw [Option.bind_some, mapM_eq_none hlabel hnone]
    rfl

end Domain

/-! ### Blanks at the end of an authority -/

/-- Blanks that count, where there are some. -/
def Gap (gap : List Char) : Prop := gap ≠ [] ∧ ∀ c ∈ gap, isMargin c = true

lemma plain_blank (hc : isMargin c = true) :
    c ≠ '@' ∧ c ≠ ':' ∧ c ≠ '[' ∧ c ≠ ']' ∧ Host.digit? 10 c = none :=
  forall_isMargin (P := fun c => c ≠ '@' ∧ c ≠ ':' ∧ c ≠ '[' ∧ c ≠ ']' ∧ Host.digit? 10 c = none)
    (by decide +kernel) hc

/-- An address of version 6 ends in a bracket, and any other host is a domain name at first. -/
lemma special?_gap (hgap : Gap gap) (cs : List Char) : Host.special? (cs ++ gap) = none := by
  obtain ⟨front, c, rfl⟩ := (List.eq_nil_or_concat' gap).resolve_left hgap.1
  have hc := hgap.2 c (by simp)
  rw [← List.append_assoc]
  unfold Host.special?
  split
  · unfold Host.bracketed?
    split
    · next r hopen =>
      rw [if_neg]
      intro hlast
      have hwhole : (cs ++ front ++ [c]).getLast? = some ']' := by
        rw [hopen, List.getLast?_cons, hlast]
        rfl
      rw [List.getLast?_concat] at hwhole
      exact (plain_blank hc).2.2.2.1 (Option.some.inj hwhole)
    · rfl
  · rw [Domain.ascii?_of_blank hc (by simp)]
    rfl

lemma number?_gap (hgap : Gap gap) (digits : List Char) :
    number? (':' :: (digits ++ gap)) = none := by
  obtain ⟨c, rest, rfl⟩ := List.exists_cons_of_ne_nil hgap.1
  have hdigit := (plain_blank (hgap.2 c List.mem_cons_self)).2.2.2.2
  have hnone : Host.number? 10 (digits ++ c :: rest) = none := by
    rw [Host.number?, List.foldlM_append]
    rcases digits.foldlM (fun n c => (Host.digit? 10 c).map (10 * n + ·)) 0 with _ | n
    · rfl
    · simp [hdigit]
  simp [number?, hnone]

lemma splitHost_plain (hplain : ∀ c ∈ gap, c ≠ ':') (inBrackets : Bool) :
    splitHost inBrackets gap = (gap, []) := by
  induction gap generalizing inBrackets with
  | nil => rfl
  | cons c gap ih =>
    obtain ⟨hc, hgap⟩ := List.forall_mem_cons.mp hplain
    rw [splitHost]
    simp [hc, ih hgap]

lemma splitHost_append (hplain : ∀ c ∈ gap, c ≠ ':') (inBrackets : Bool) (cs : List Char) :
    splitHost inBrackets (cs ++ gap) =
      match splitHost inBrackets cs with
      | (host, []) => (host ++ gap, [])
      | (host, mark :: rest) => (host, mark :: rest ++ gap) := by
  induction cs generalizing inBrackets with
  | nil => exact splitHost_plain hplain inBrackets
  | cons c cs ih =>
    rw [List.cons_append, splitHost, splitHost]
    split
    · rfl
    · simp only [ih]
      generalize splitHost _ cs = split
      rcases split with ⟨host, _ | ⟨mark, rest⟩⟩ <;> rfl

/-- The part behind the host begins with the colon. -/
lemma splitHost_mark {inBrackets : Bool} {host rest : List Char} {mark : Char}
    (h : splitHost inBrackets cs = (host, mark :: rest)) : mark = ':' := by
  induction cs generalizing inBrackets host with
  | nil => cases h
  | cons c cs ih =>
    rw [splitHost] at h
    split at h
    · next hc =>
      cases h
      simpa using (Bool.and_eq_true_iff.mp hc).1
    · obtain ⟨-, hrest⟩ := Prod.mk.inj h
      exact ih (Prod.ext rfl hrest)

lemma splitUser_append (hplain : ∀ c ∈ gap, c ≠ '@') (cs : List Char) :
    splitUser (cs ++ gap) = (splitUser cs).map fun p => (p.1, p.2 ++ gap) := by
  have hgap : '@' ∉ gap := fun h => hplain _ h rfl
  have hpos : ∀ c ∈ gap.reverse, decide (c ≠ '@') = true := fun c hc =>
    decide_eq_true (hplain c (List.mem_reverse.mp hc))
  unfold splitUser
  rw [List.reverse_append, List.takeWhile_append_of_pos hpos]
  simp only [List.contains_eq_mem, List.mem_append, hgap, or_false, List.reverse_append,
    List.reverse_reverse, List.length_append, Nat.add_sub_add_right]
  split
  · have hle : cs.length - (cs.reverse.takeWhile (· ≠ '@')).reverse.length - 1 ≤ cs.length := by
      omega
    rw [Option.map_some, List.take_append_of_le_length hle]
  · rfl

/-- **A text that ends in blanks is no authority.** -/
theorem authority?_gap {scheme : String} (hscheme : isSpecialScheme scheme = true)
    (hgap : Gap gap) (cs : List Char) : authority? scheme (cs ++ gap) = none := by
  have hat : ∀ c ∈ gap, c ≠ '@' := fun c hc => (plain_blank (hgap.2 c hc)).1
  have hcolon : ∀ c ∈ gap, c ≠ ':' := fun c hc => (plain_blank (hgap.2 c hc)).2.1
  obtain ⟨user, hostPart, huser⟩ :
      ∃ user hostPart, (splitUser (cs ++ gap)).getD ([], cs ++ gap) = (user, hostPart ++ gap) := by
    rw [splitUser_append hat]
    rcases splitUser cs with _ | ⟨user, hostPart⟩
    · exact ⟨[], cs, rfl⟩
    · exact ⟨user, hostPart, rfl⟩
  unfold authority?
  rw [huser]
  simp only [hscheme, if_true, splitHost_append hcolon]
  rcases hsplit : splitHost false hostPart with ⟨host, _ | ⟨mark, rest⟩⟩
  · simp only [special?_gap hgap]
  · obtain rfl := splitHost_mark hsplit
    simp only [List.cons_append, number?_gap hgap]
    cases Host.special? host <;> rfl

end TopicFeed.Url
