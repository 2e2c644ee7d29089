import TopicFeed.Json.Skip

/-!
# Typed values

Readers for the values a field may hold: texts, integers of a given range, lists, and values that
may be null. A value of another type is an error that names what was found. A scalar of the wrong
type is first read to its end, so its own faults come first; of a container only the opening
bracket is looked at.
-/

namespace TopicFeed.Json

open Ascii

/-- What stands at the beginning of a text that does not start with a blank: a whole scalar, or an
opening bracket that is left unread. -/
def found : Bytes → Except Fault (Found × Bytes)
  | [] => .error (.ahead .endInValue [])
  | c :: t =>
    match wordOf? c with
    | some (w, x) => (word w t).map fun r => (x, r)
    | none =>
      let described (x : Number × Bytes) : Found × Bytes :=
        match x with
        | (.integer n, r) => (.integer n, r)
        | (.floating bits, r) => (.floating bits, r)
      if c = minus then (number true t).map described
      else if isDigit c then (number false (c :: t)).map described
      else if c = quote then
        (string .kept [] t).map fun x => (.string (Utf8.lenient x.1), x.2)
      else if c = openBracket then .ok (.sequence, c :: t)
      else if c = openBrace then .ok (.map, c :: t)
      else .error (.ahead .noValue (c :: t))

/-- The fault of a value that is not what was expected. -/
def unexpected (e : Expected) (s : Bytes) : Fault :=
  match found s with
  | .error f => f
  | .ok (x, r) => .here (.wrongType x e) r

/-- A text. -/
def readText (s : Bytes) : Except Fault (String × Bytes) :=
  match skipBlanks s with
  | [] => .error (.ahead .endInValue [])
  | c :: t =>
    if c = quote then (string .kept [] t).map fun x => (Utf8.lenient x.1, x.2)
    else .error (unexpected .string (c :: t))

/-- The range of an integer type, and its name in faults. -/
structure IntegerType where
  low : Int
  high : Int
  name : Expected

/-- The integers of 64 bits. -/
def IntegerType.int64 : IntegerType := ⟨-0x8000000000000000, 0x7FFFFFFFFFFFFFFF, .int64⟩

/-- The naturals of eight bits. -/
def IntegerType.octet : IntegerType := ⟨0, 255, .octet⟩

/-- A number that has been read must be an integer in range. -/
def IntegerType.narrow (k : IntegerType) : Number × Bytes → Except Fault (Int × Bytes)
  | (.integer n, r) =>
    if k.low ≤ n ∧ n ≤ k.high then .ok (n, r) else .error (.here (.outOfRange n k.name) r)
  | (.floating bits, r) => .error (.here (.wrongType (.floating bits) k.name) r)

/-- An integer of the given type. -/
def readInteger (k : IntegerType) (s : Bytes) : Except Fault (Int × Bytes) :=
  match skipBlanks s with
  | [] => .error (.ahead .endInValue [])
  | c :: t =>
    if c = minus then
      match number true t with
      | .error f => .error f
      | .ok x => k.narrow x
    else if isDigit c then
      match number false (c :: t) with
      | .error f => .error f
      | .ok x => k.narrow x
    else .error (unexpected k.name (c :: t))

theorem length_lt_of_readText {s r : Bytes} {a : String} (h : readText s = .ok (a, r)) :
    r.length < s.length := by
  unfold readText at h
  split at h
  · simp at h
  · next c t heq =>
    have := length_lt_of_skipBlanks heq
    split at h
    · obtain ⟨x, hs, hmap⟩ := ok_of_map h
      cases hmap
      have := length_lt_of_string (w := x.1) (r := x.2) hs
      omega
    · simp at h

theorem snd_eq_of_narrow {k : IntegerType} {x : Number × Bytes} {n : Int} {r : Bytes}
    (h : k.narrow x = .ok (n, r)) : x.2 = r := by
  unfold IntegerType.narrow at h
  split at h
  · split at h
    · simp only [Except.ok.injEq, Prod.mk.injEq] at h
      exact h.2
    · simp at h
  · simp at h

theorem length_cons_le_of_skipBlanks {s t : Bytes} {c : UInt8} (h : skipBlanks s = c :: t) :
    (c :: t).length ≤ s.length := h ▸ length_skipBlanks_le s

theorem length_lt_of_readInteger {k : IntegerType} {s r : Bytes} {n : Int}
    (h : readInteger k s = .ok (n, r)) : r.length < s.length := by
  unfold readInteger at h
  split at h
  · simp at h
  · next c t heq =>
    have hlt := length_lt_of_skipBlanks heq
    have hle := length_cons_le_of_skipBlanks heq
    split at h
    · split at h
      · simp at h
      · next x hx =>
        have := length_lt_of_number (x := x.1) (r := x.2) hx
        rw [snd_eq_of_narrow h] at this
        omega
    · split at h
      · split at h
        · simp at h
        · next x hx =>
          have := length_lt_of_number (x := x.1) (r := x.2) hx
          rw [snd_eq_of_narrow h] at this
          omega
      · simp at h

/-- Reads a text. -/
def Reader.text : Reader String := ⟨readText, length_lt_of_readText⟩

/-- Reads an integer of 64 bits. -/
def Reader.int64 : Reader Int64 :=
  Reader.map Int64.ofInt ⟨readInteger .int64, length_lt_of_readInteger⟩

/-- Reads a natural of eight bits. -/
def Reader.octet : Reader UInt8 :=
  Reader.map (fun n => UInt8.ofNat n.toNat) ⟨readInteger .octet, length_lt_of_readInteger⟩

/-- The elements of a list behind an element, up to its closing bracket. The elements read so far
are kept in reverse. -/
def moreElements {α : Type} (item : Reader α) (done : List α) (s : Bytes) :
    Except Fault (List α × Bytes) :=
  match _hs : skipBlanks s with
  | [] => .error (.ahead .endInList [])
  | c :: t =>
    if c = closeBracket then .ok (done.reverse, t)
    else if c = comma then
      match _ht : skipBlanks t with
      | [] => .error (.ahead .endInValue [])
      | d :: u =>
        if d = closeBracket then .error (.ahead .trailingComma (d :: u))
        else match _hi : item.read (d :: u) with
          | .error f => .error f
          | .ok (a, r) => moreElements item (a :: done) r
    else .error (.ahead .noListEnd (c :: t))
termination_by s.length
decreasing_by
  exact Nat.lt_trans (Nat.lt_of_lt_of_le (item.shortens _hi) (length_cons_le_of_skipBlanks _ht))
    (length_lt_of_skipBlanks _hs)

/-- A list. -/
def readList {α : Type} (item : Reader α) (s : Bytes) : Except Fault (List α × Bytes) :=
  match skipBlanks s with
  | [] => .error (.ahead .endInValue [])
  | c :: t =>
    if c = openBracket then
      match skipBlanks t with
      | [] => .error (.ahead .endInList [])
      | d :: u =>
        if d = closeBracket then .ok ([], u)
        else match item.read (d :: u) with
          | .error f => .error f
          | .ok (a, r) => moreElements item [a] r
    else .error (unexpected .sequence (c :: t))

theorem length_lt_of_moreElements {α : Type} {item : Reader α} {done as : List α} {s r : Bytes}
    (h : moreElements item done s = .ok (as, r)) : r.length < s.length := by
  fun_induction moreElements item done s with
  | case1 => simp at h
  | case2 _ _ _ hs =>
    simp only [Except.ok.injEq, Prod.mk.injEq] at h
    exact h.2 ▸ length_lt_of_skipBlanks hs
  | case3 => simp at h
  | case4 => simp at h
  | case5 => simp at h
  | case6 _ _ _ _ _ ht _ _ _ hi hs _ ih =>
    have := ih h
    have := length_lt_of_skipBlanks hs
    have := length_cons_le_of_skipBlanks ht
    have := item.shortens hi
    omega
  | case7 => simp at h

theorem length_lt_of_readList {α : Type} {item : Reader α} {as : List α} {s r : Bytes}
    (h : readList item s = .ok (as, r)) : r.length < s.length := by
  unfold readList at h
  split at h
  · simp at h
  · next hs =>
    have := length_lt_of_skipBlanks hs
    split at h
    · split at h
      · simp at h
      · next ht =>
        have := length_lt_of_skipBlanks ht
        have := length_cons_le_of_skipBlanks ht
        split at h
        · simp only [Except.ok.injEq, Prod.mk.injEq] at h
          rw [← h.2]
          omega
        · split at h
          · simp at h
          · next hi =>
            have := item.shortens hi
            have := length_lt_of_moreElements h
            omega
    · simp at h

/-- Reads a list. -/
def Reader.list {α : Type} (item : Reader α) : Reader (List α) :=
  ⟨readList item, length_lt_of_readList⟩

/-- A value that may be null. -/
def readNullable {α : Type} (value : Reader α) (s : Bytes) : Except Fault (Option α × Bytes) :=
  match skipBlanks s with
  | [] => .error (.ahead .endInValue [])
  | c :: t =>
    if c = 0x6E then (word [0x75, 0x6C, 0x6C] t).map fun r => (none, r)
    else (value.read (c :: t)).map fun x => (some x.1, x.2)

theorem length_lt_of_readNullable {α : Type} {value : Reader α} {a : Option α} {s r : Bytes}
    (h : readNullable value s = .ok (a, r)) : r.length < s.length := by
  unfold readNullable at h
  split at h
  · simp at h
  · next c t hs =>
    have := length_lt_of_skipBlanks hs
    have := length_cons_le_of_skipBlanks hs
    split at h
    · obtain ⟨u, hw, hmap⟩ := ok_of_map h
      cases hmap
      have := length_le_of_word hw
      omega
    · obtain ⟨x, hv, hmap⟩ := ok_of_map h
      cases hmap
      have := value.shortens (a := x.1) (r := x.2) hv
      omega

/-- Reads a value that may be null. -/
def Reader.nullable {α : Type} (value : Reader α) : Reader (Option α) :=
  ⟨readNullable value, length_lt_of_readNullable⟩

end TopicFeed.Json
