import TopicFeed.Proofs.Utf8
import TopicFeed.Request.Header

/-!
Names of headers.

A name is kept in lower case, and which header it names depends on its lower-case form alone. So two
texts name the same header exactly if they differ in letter case only.
-/

namespace TopicFeed

namespace Ascii

variable {c : Char}

/-! ### Lower case -/

lemma lower_of_upper (h : 'A' ≤ c ∧ c ≤ 'Z') : 'a' ≤ lower c ∧ lower c ≤ 'z' := by
  have hlow : 65 ≤ c.toNat := h.1
  have hhigh : c.toNat ≤ 90 := h.2
  have hcode : (lower c).toNat = c.toNat + 0x20 := by
    rw [lower, if_pos (by simp [h])]
    exact Utf8.toNat_ofNat_char (by omega)
  constructor
  · show 97 ≤ (lower c).toNat
    omega
  · show (lower c).toNat ≤ 122
    omega

lemma lower_of_not_upper (h : ¬('A' ≤ c ∧ c ≤ 'Z')) : lower c = c := by
  rw [lower, if_neg (by simpa using h)]

lemma lower_lower (c : Char) : lower (lower c) = lower c := by
  by_cases h : 'A' ≤ c ∧ c ≤ 'Z'
  · refine lower_of_not_upper fun hupper => ?_
    exact absurd (Char.le_trans (lower_of_upper h).1 hupper.2) (by decide)
  · rw [lower_of_not_upper h, lower_of_not_upper h]

lemma isAlphanumeric_lower (c : Char) : isAlphanumeric (lower c) = isAlphanumeric c := by
  by_cases h : 'A' ≤ c ∧ c ≤ 'Z'
  · simp [isAlphanumeric, h, lower_of_upper h]
  · rw [lower_of_not_upper h]

end Ascii

namespace Request.Header

open Ascii

variable {name other key : String}

/-! ### The kept form of a name -/

lemma isNameChar_lower (c : Char) : isNameChar (lower c) = isNameChar c := by
  by_cases h : 'A' ≤ c ∧ c ≤ 'Z'
  · have hc : isAlphanumeric c = true := by simp [isAlphanumeric, h]
    rw [isNameChar, isNameChar, isAlphanumeric_lower, hc, Bool.true_or, Bool.true_or]
  · rw [lower_of_not_upper h]

lemma isSame_iff :
    isSame name other = true ↔ name.toList.map lower = other.toList.map lower :=
  beq_iff_eq

/-- Whether a text is a name, and of which header, depends on its lower-case form alone. -/
lemma name?_congr (h : isSame name other = true) : name? name = name? other := by
  have hchars : ∀ s : String, s.toList.all isNameChar = (s.toList.map lower).all isNameChar := by
    intro s
    have hlower : isNameChar ∘ lower = isNameChar := funext isNameChar_lower
    rw [List.all_map, hlower]
  have hlength : ∀ s : String, s.length = (s.toList.map lower).length := by
    intro s
    rw [List.length_map, String.length_toList]
  rw [name?, name?, hchars name, hchars other, hlength name, hlength other, isSame_iff.mp h]

lemma toList_of_name? (h : name? name = some key) : key.toList = name.toList.map lower := by
  unfold name? at h
  split at h
  · rw [← Option.some.inj h, String.toList_ofList]
  · cases h

lemma name?_eq_iff (h : name? name = some key) : name? other = some key ↔
    isSame name other = true := by
  refine ⟨fun hother => ?_, fun hsame => name?_congr hsame ▸ h⟩
  rw [isSame_iff, ← toList_of_name? h, ← toList_of_name? hother]

/-- The kept form of a name is a name, and kept as it is. -/
lemma name?_key (h : name? name = some key) : name? key = some key := by
  rw [name?_eq_iff h, isSame_iff, toList_of_name? h, List.map_map]
  exact (List.map_congr_left fun c _ => lower_lower c).symm

end Request.Header

end TopicFeed
