import TopicFeed.Proofs.Options

/-!
From where on messages are wanted.

A start is written in one of five forms, which overlap: a text of twelve digits is a time and the
form of a message. Which texts are starts is said here form by form, and nothing else is accepted.
A time of 64 bits is printed before it is looked at, so it is accepted exactly if it is printed
without a sign.
-/

namespace TopicFeed

open Request

namespace RequestOption

/-- One of the ten digits. -/
def Digit (c : Char) : Prop := '0' ≤ c ∧ c ≤ '9'

/-- A digit, or one of the letters from A to Z in either case. -/
def DigitOrLetter (c : Char) : Prop := Digit c ∨ ('A' ≤ c ∧ c ≤ 'Z') ∨ ('a' ≤ c ∧ c ≤ 'z')

/-- The text says from where on messages are wanted. -/
inductive IsStart : String → Prop
  | all : IsStart "all"
  | latest : IsStart "latest"
  /-- A time in seconds. -/
  | time {s : String} (hsome : s ≠ "") (hdigits : ∀ c ∈ s.toList, Digit c) : IsStart s
  /-- So many seconds, minutes, hours or days ago. -/
  | duration {s : String} {amount : List Char} {unit : Char} (hsplit : s.toList = amount ++ [unit])
      (hsome : amount ≠ []) (hdigits : ∀ c ∈ amount, Digit c)
      (hunit : unit ∈ ['s', 'm', 'h', 'd']) : IsStart s
  /-- Behind a message that a server has named. -/
  | message {s : String} (hlength : s.length = 12) (hchars : ∀ c ∈ s.toList, DigitOrLetter c) :
      IsStart s

/-! ### The forms -/

lemma isDigits_iff {cs : List Char} : isDigits cs = true ↔ cs ≠ [] ∧ ∀ c ∈ cs, Digit c := by
  simp [isDigits, isDigit, Digit]

/-- The unit is the last character, and what stands before it are digits. -/
lemma isDuration_iff {cs : List Char} : isDuration cs = true ↔
    ∃ amount unit, cs = amount ++ [unit] ∧ isDigits amount = true ∧
      unit ∈ ['s', 'm', 'h', 'd'] := by
  rcases cs.eq_nil_or_concat with rfl | ⟨amount, unit, rfl⟩
  · simp [isDuration]
  · have hunits : "smhd".toList = ['s', 'm', 'h', 'd'] := by decide
    simp only [isDuration, List.concat_eq_append, List.getLast?_concat, List.dropLast_concat,
      hunits, Bool.and_eq_true, List.contains_iff_mem]
    constructor
    · rintro ⟨hunit, hamount⟩
      exact ⟨amount, unit, rfl, hamount, hunit⟩
    · rintro ⟨amount', unit', hsame, hamount, hunit⟩
      obtain ⟨rfl, hlast⟩ := List.append_inj' hsame rfl
      cases hlast
      exact ⟨hunit, hamount⟩

lemma isMessageId_iff {s : String} : isMessageId s.toList = true ↔
    s.length = 12 ∧ ∀ c ∈ s.toList, DigitOrLetter c := by
  simp [isMessageId, Ascii.isAlphanumeric, DigitOrLetter, Digit, or_assoc, ← String.length_toList]

/-- **The check admits the five forms, and nothing else.** -/
theorem isSince_iff {s : String} : isSince s = true ↔ IsStart s := by
  simp only [isSince, Bool.or_eq_true, beq_iff_eq, isDigits_iff, isDuration_iff, isMessageId_iff,
    ne_eq, String.toList_eq_nil_iff]
  constructor
  · rintro ((((rfl | rfl) | ⟨hsome, hdigits⟩) | ⟨amount, unit, hsplit, hamount, hunit⟩) |
      ⟨hlength, hchars⟩)
    · exact .all
    · exact .latest
    · exact .time hsome hdigits
    · exact .duration hsplit hamount.1 hamount.2 hunit
    · exact .message hlength hchars
  · rintro (_ | _ | ⟨hsome, hdigits⟩ | ⟨hsplit, hsome, hdigits, hunit⟩ | ⟨hlength, hchars⟩)
    · exact .inl (.inl (.inl (.inl rfl)))
    · exact .inl (.inl (.inl (.inr rfl)))
    · exact .inl (.inl (.inr ⟨hsome, hdigits⟩))
    · exact .inl (.inr ⟨_, _, hsplit, ⟨hsome, hdigits⟩, hunit⟩)
    · exact .inr ⟨hlength, hchars⟩

/-- No form begins with a sign. -/
lemma IsStart.head_ne {s : String} (h : IsStart s) : s.toList.head? ≠ some '-' := by
  intro hhead
  have hsign : ¬DigitOrLetter '-' := by
    unfold DigitOrLetter Digit
    decide
  obtain ⟨rest, hs⟩ := List.head?_eq_some_iff.mp hhead
  cases h with
  | all => exact absurd hhead (by decide)
  | latest => exact absurd hhead (by decide)
  | time hsome hdigits => exact hsign (.inl (hdigits '-' (hs ▸ List.mem_cons_self)))
  | duration hsplit hsome hdigits hunit =>
    obtain ⟨c, amount, rfl⟩ := List.exists_cons_of_ne_nil hsome
    rw [hs] at hsplit
    cases hsplit
    exact hsign (.inl (hdigits '-' List.mem_cons_self))
  | message hlength hchars => exact hsign (hchars '-' (hs ▸ List.mem_cons_self))

/-! ### Times -/

/-- A number is printed as digits, which are read back as the number. -/
lemma digits_repr (n : Nat) : n.repr ≠ "" ∧ (∀ c ∈ n.repr.toList, Digit c) ∧
    Nat.ofDigitChars 10 n.repr.toList 0 = n := by
  refine ⟨fun hnone => ?_, fun c hc => ?_, ?_⟩
  · have hempty : Nat.toDigits 10 n = [] := by rw [← Nat.toList_repr, hnone, String.toList_empty]
    exact Nat.toDigits_ne_nil hempty
  · rw [Nat.toList_repr] at hc
    have hdigit := Nat.isDigit_of_mem_toDigits (by decide) (by decide) hc
    simpa [Char.isDigit, Digit, Char.le_def] using hdigit
  · rw [Nat.toList_repr]
    exact Nat.ofDigitChars_toDigits (by decide) (by decide)

/-- **A time is accepted exactly if it is not negative.** -/
lemma isStart_time_iff (i : Int) : IsStart (toString i) ↔ 0 ≤ i := by
  cases i with
  | ofNat n =>
    obtain ⟨hsome, hdigits, -⟩ := digits_repr n
    exact iff_of_true (.time hsome hdigits) (Int.natCast_nonneg n)
  | negSucc n =>
    refine iff_of_false (fun h => h.head_ne ?_) (by omega)
    show ("-" ++ (n + 1).repr).toList.head? = some '-'
    rw [String.toList_append]
    rfl

end RequestOption

namespace Request.Spec

open RequestOption

lemma apply_since_iff {spec next : Spec} {s : String} :
    spec.apply (.since s) = (next, none) ↔ IsStart s ∧ spec.setQuery "since" s = next := by
  rw [← isSince_iff, apply]
  split
  · next hs => simp [hs]
  · next hs => simp [hs]

lemma query?_setQuery (spec : Spec) (name value : String) :
    (spec.setQuery name value).query? name = some value :=
  Named.get?_set_self name value spec.query

/-- **The language of starts.** A text is accepted as the start of a feed, by whatever specification
it is put into, exactly if it has one of the five forms, and it is then the value of the query
parameter. A time in seconds is accepted exactly if it is not negative, and the parameter is then
made of digits only, which are read as the time. -/
theorem since_admits (spec : Spec) :
    (∀ s, (∃ next, spec.apply (.since s) = (next, none)) ↔ IsStart s) ∧
    (∀ s next, spec.apply (.since s) = (next, none) → next.query? "since" = some s) ∧
    (∀ t : Int64, (∃ next, spec.apply (.sinceTime t) = (next, none)) ↔ 0 ≤ t) ∧
    ∀ (t : Int64) (next : Spec), spec.apply (.sinceTime t) = (next, none) →
      ∃ text, next.query? "since" = some text ∧ text ≠ "" ∧ (∀ c ∈ text.toList, Digit c) ∧
        (Nat.ofDigitChars 10 text.toList 0 : Int) = t.toInt := by
  have haccepted : ∀ s, (∃ next, spec.apply (.since s) = (next, none)) ↔ IsStart s := by
    intro s
    simp [apply_since_iff]
  have hvalue : ∀ s next, spec.apply (.since s) = (next, none) → next.query? "since" = some s := by
    intro s next h
    obtain ⟨-, rfl⟩ := apply_since_iff.mp h
    exact query?_setQuery spec "since" s
  refine ⟨haccepted, hvalue, fun t => ?_, fun t next h => ?_⟩
  · rw [sinceTime, haccepted, isStart_time_iff, Int64.le_iff_toInt_le, Int64.toInt_zero]
  · have hstart := (haccepted _).mp ⟨next, h⟩
    rw [isStart_time_iff] at hstart
    obtain ⟨n, hn⟩ := Int.eq_ofNat_of_zero_le hstart
    obtain ⟨hsome, hdigits, hread⟩ := digits_repr n
    refine ⟨n.repr, ?_, hsome, hdigits, by rw [hread, hn]⟩
    rw [hvalue _ next h, hn]
    rfl

/-- On the border of the forms: twelve characters that are digits with a unit behind them, and a
time before the first one. -/
theorem since_admits_on_the_border :
    (∃ next, ({} : Spec).apply (.since "12345678901d") = (next, none) ∧
      next.query? "since" = some "12345678901d") ∧
    (¬∃ next, ({} : Spec).apply (.sinceTime (-1)) = (next, none)) ∧
    ∃ next text, ({} : Spec).apply (.sinceTime 0) = (next, none) ∧ next.query? "since" = some text ∧
      Nat.ofDigitChars 10 text.toList 0 = 0 := by
  obtain ⟨hstart, hvalue, htime, hdigits⟩ := since_admits {}
  obtain ⟨next, hnext⟩ := (hstart "12345678901d").mpr (isSince_iff.mp (by decide +kernel))
  obtain ⟨zero, hzero⟩ := (htime 0).mpr (by decide)
  obtain ⟨text, htext, -, -, hread⟩ := hdigits 0 zero hzero
  refine ⟨⟨next, hnext, hvalue _ _ hnext⟩, fun h => absurd ((htime (-1)).mp h) (by decide),
    zero, text, hzero, htext, ?_⟩
  rw [Int64.toInt_zero] at hread
  exact_mod_cast hread

end Request.Spec

end TopicFeed
