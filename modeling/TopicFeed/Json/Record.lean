import TopicFeed.Json.Scalar

/-!
# Records

A record is written as an object, whose members may come in any order and may include keys that
the record does not know, or as a list of its first fields in their order. Both forms are read by
the same field readers: a field reader gives the *update* that its value makes to the record, and
a form only decides which field reader is asked next. What is not written keeps its default.
-/

namespace TopicFeed.Json

open Ascii

/-- A field of a record: its key, and the reader of its value, which gives the update. -/
structure Field (ρ : Type) where
  key : String
  update : Reader (ρ → ρ)

/-- A field with a reader of its value and a way to put the value into the record. -/
def Field.of {ρ α : Type} (key : String) (value : Reader α) (put : α → ρ → ρ) : Field ρ :=
  ⟨key, value.map put⟩

/-- The field a key names, if the record knows it. -/
def Field.find? {ρ : Type} (fields : List (Field ρ)) (key : String) : Option (Field ρ) :=
  fields.find? (·.key == key)

/-- Where a repeated key is reported: behind the blanks that follow it, and behind the closing
brace of the object if that comes next. -/
def behindRepeatedKey (s : Bytes) : Bytes :=
  match skipBlanks s with
  | [] => []
  | c :: t => if c = closeBrace then t else c :: t

/-- The value of a member, behind its key: a field of the record that has not been seen before, or
a value that is skipped. -/
def memberValue {ρ : Type} (fields : List (Field ρ)) (seen : List String) (key : String)
    (s : Bytes) : Except Fault ((ρ → ρ) × Bytes) :=
  match Field.find? fields key with
  | some field =>
    if key ∈ seen then .error (.here (.repeatedKey key) (behindRepeatedKey s))
    else match colonAfterKey s with
      | .error f => .error f
      | .ok t => field.update.read t
  | none =>
    match colonAfterKey s with
    | .error f => .error f
    | .ok t => (skip t).map fun r => (id, r)

/-- A member of an object, behind the opening quote of its key: the key, the update its value
makes, and what is left. -/
def member {ρ : Type} (fields : List (Field ρ)) (seen : List String) (s : Bytes) :
    Except Fault ((String × (ρ → ρ)) × Bytes) :=
  match string .kept [] s with
  | .error f => .error f
  | .ok (bytes, t) =>
    let key := Utf8.lenient bytes
    (memberValue fields seen key t).map fun x => ((key, x.1), x.2)

theorem length_lt_of_memberValue {ρ : Type} {fields : List (Field ρ)} {seen : List String}
    {key : String} {s r : Bytes} {u : ρ → ρ} (h : memberValue fields seen key s = .ok (u, r)) :
    r.length < s.length := by
  unfold memberValue at h
  split at h
  · next field _ =>
    split at h
    · simp at h
    · split at h
      · simp at h
      · next hc =>
        have := length_lt_of_colonAfterKey hc
        have := field.update.shortens h
        omega
  · split at h
    · simp at h
    · next t hc =>
      have := length_lt_of_colonAfterKey hc
      obtain ⟨v, hs, hmap⟩ := ok_of_map h
      cases hmap
      have := length_lt_of_skipValue hs
      omega

theorem length_lt_of_member {ρ : Type} {fields : List (Field ρ)} {seen : List String}
    {s r : Bytes} {x : String × (ρ → ρ)} (h : member fields seen s = .ok (x, r)) :
    r.length < s.length := by
  unfold member at h
  split at h
  · simp at h
  · next bytes t hs =>
    have := length_lt_of_string hs
    obtain ⟨v, hv, hmap⟩ := ok_of_map h
    cases hmap
    have := length_lt_of_memberValue (u := v.1) (r := v.2) hv
    omega

/-- The members of an object behind a member, up to its closing brace. -/
def moreMembers {ρ : Type} (fields : List (Field ρ)) (seen : List String) (value : ρ) (s : Bytes) :
    Except Fault (ρ × Bytes) :=
  match _hs : skipBlanks s with
  | [] => .error (.ahead .endInObject [])
  | c :: t =>
    if c = closeBrace then .ok (value, t)
    else if c = comma then
      match _ht : skipBlanks t with
      | [] => .error (.ahead .endInValue [])
      | d :: u =>
        if d = quote then
          match _hm : member fields seen u with
          | .error f => .error f
          | .ok ((key, update), r) => moreMembers fields (key :: seen) (update value) r
        else if d = closeBrace then .error (.ahead .trailingComma (d :: u))
        else .error (.ahead .keyNotString (d :: u))
    else .error (.ahead .noObjectEnd (c :: t))
termination_by s.length
decreasing_by
  exact Nat.lt_trans (length_lt_of_member _hm)
    (Nat.lt_trans (length_lt_of_skipBlanks _ht) (length_lt_of_skipBlanks _hs))

/-- The object form, behind the opening brace. -/
def objectForm {ρ : Type} (fields : List (Field ρ)) (value : ρ) (s : Bytes) :
    Except Fault (ρ × Bytes) :=
  match skipBlanks s with
  | [] => .error (.ahead .endInObject [])
  | c :: t =>
    if c = closeBrace then .ok (value, t)
    else if c = quote then
      match member fields [] t with
      | .error f => .error f
      | .ok ((key, update), r) => moreMembers fields [key] (update value) r
    else .error (.ahead .keyNotString (c :: t))

/-- The end of the list form, when no field is left to be read. -/
def listEnd (s : Bytes) : Except Fault Bytes :=
  match skipBlanks s with
  | [] => .error (.ahead .endInList [])
  | c :: t =>
    if c = closeBracket then .ok t
    else if c = comma then
      let u := skipBlanks t
      .error (.ahead (if u.head? = some closeBracket then .trailingComma
        else .trailingCharacters) u)
    else .error (.ahead .trailingCharacters (c :: t))

/-- The list form behind an element, with the fields that are left. -/
def moreItems {ρ : Type} (value : ρ) : List (Field ρ) → Bytes → Except Fault (ρ × Bytes)
  | [], s => (listEnd s).map fun r => (value, r)
  | field :: fields, s =>
    match skipBlanks s with
    | [] => .error (.ahead .endInList [])
    | c :: t =>
      if c = closeBracket then .ok (value, t)
      else if c = comma then
        match skipBlanks t with
        | [] => .error (.ahead .endInValue [])
        | d :: u =>
          if d = closeBracket then .error (.ahead .trailingComma (d :: u))
          else match field.update.read (d :: u) with
            | .error f => .error f
            | .ok (update, r) => moreItems (update value) fields r
      else .error (.ahead .noListEnd (c :: t))

/-- The list form, behind the opening bracket. -/
def listForm {ρ : Type} (fields : List (Field ρ)) (value : ρ) (s : Bytes) :
    Except Fault (ρ × Bytes) :=
  match fields with
  | [] => (listEnd s).map fun r => (value, r)
  | field :: fields =>
    match skipBlanks s with
    | [] => .error (.ahead .endInList [])
    | c :: t =>
      if c = closeBracket then .ok (value, t)
      else match field.update.read (c :: t) with
        | .error f => .error f
        | .ok (update, r) => moreItems (update value) fields r

/-- A record, in either form. -/
def readRecord {ρ : Type} (name : String) (fields : List (Field ρ)) (default : ρ) (s : Bytes) :
    Except Fault (ρ × Bytes) :=
  match skipBlanks s with
  | [] => .error (.ahead .endInValue [])
  | c :: t =>
    if c = openBrace then objectForm fields default t
    else if c = openBracket then listForm fields default t
    else .error (unexpected (.record name) (c :: t))

theorem length_lt_of_moreMembers {ρ : Type} {fields : List (Field ρ)} {seen : List String}
    {value v : ρ} {s r : Bytes} (h : moreMembers fields seen value s = .ok (v, r)) :
    r.length < s.length := by
  fun_induction moreMembers fields seen value s with
  | case1 => simp at h
  | case2 _ _ _ _ hs =>
    simp only [Except.ok.injEq, Prod.mk.injEq] at h
    exact h.2 ▸ length_lt_of_skipBlanks hs
  | case3 => simp at h
  | case4 => simp at h
  | case5 _ _ _ _ _ _ _ _ hm hs _ ht ih =>
    have := ih h
    have := length_lt_of_skipBlanks hs
    have := length_lt_of_skipBlanks ht
    have := length_lt_of_member hm
    omega
  | case6 => simp at h
  | case7 => simp at h
  | case8 => simp at h

theorem length_lt_of_listEnd {s r : Bytes} (h : listEnd s = .ok r) : r.length < s.length := by
  unfold listEnd at h
  split at h
  · simp at h
  · next hs =>
    split at h
    · simp only [Except.ok.injEq] at h
      exact h ▸ length_lt_of_skipBlanks hs
    · split at h <;> simp at h

theorem length_lt_of_moreItems {ρ : Type} {fields : List (Field ρ)} {value v : ρ} {s r : Bytes}
    (h : moreItems value fields s = .ok (v, r)) : r.length < s.length := by
  induction fields generalizing value s with
  | nil =>
    simp only [moreItems] at h
    obtain ⟨u, he, hmap⟩ := ok_of_map h
    cases hmap
    exact length_lt_of_listEnd he
  | cons field fields ih =>
    simp only [moreItems] at h
    split at h
    · simp at h
    · next hs =>
      have := length_lt_of_skipBlanks hs
      split at h
      · simp only [Except.ok.injEq, Prod.mk.injEq] at h
        exact h.2 ▸ this
      · split at h
        · split at h
          · simp at h
          · next ht =>
            have := length_cons_le_of_skipBlanks ht
            split at h
            · simp at h
            · split at h
              · simp at h
              · next hu =>
                have := field.update.shortens hu
                have := ih h
                omega
        · simp at h

theorem length_lt_of_objectForm {ρ : Type} {fields : List (Field ρ)} {value v : ρ} {s r : Bytes}
    (h : objectForm fields value s = .ok (v, r)) : r.length < s.length := by
  unfold objectForm at h
  split at h
  · simp at h
  · next hs =>
    have := length_lt_of_skipBlanks hs
    split at h
    · simp only [Except.ok.injEq, Prod.mk.injEq] at h
      exact h.2 ▸ this
    · split at h
      · split at h
        · simp at h
        · next hm =>
          have := length_lt_of_member hm
          have := length_lt_of_moreMembers h
          omega
      · simp at h

theorem length_lt_of_listForm {ρ : Type} {fields : List (Field ρ)} {value v : ρ} {s r : Bytes}
    (h : listForm fields value s = .ok (v, r)) : r.length < s.length := by
  unfold listForm at h
  split at h
  · obtain ⟨u, he, hmap⟩ := ok_of_map h
    cases hmap
    exact length_lt_of_listEnd he
  · next field _ =>
    split at h
    · simp at h
    · next hs =>
      have := length_lt_of_skipBlanks hs
      have := length_cons_le_of_skipBlanks hs
      split at h
      · simp only [Except.ok.injEq, Prod.mk.injEq] at h
        rw [← h.2]
        omega
      · split at h
        · simp at h
        · next hu =>
          have := field.update.shortens hu
          have := length_lt_of_moreItems h
          omega

theorem length_lt_of_readRecord {ρ : Type} {name : String} {fields : List (Field ρ)}
    {default v : ρ} {s r : Bytes} (h : readRecord name fields default s = .ok (v, r)) :
    r.length < s.length := by
  unfold readRecord at h
  split at h
  · simp at h
  · next hs =>
    have := length_lt_of_skipBlanks hs
    split at h
    · have := length_lt_of_objectForm h
      omega
    · split at h
      · have := length_lt_of_listForm h
        omega
      · simp at h

/-- Reads a record. -/
def Reader.record {ρ : Type} (name : String) (fields : List (Field ρ)) (default : ρ) : Reader ρ :=
  ⟨readRecord name fields default, length_lt_of_readRecord⟩

/-- A text that holds one value and nothing else but blanks. -/
def readWhole {α : Type} (value : Reader α) (s : Bytes) : Except Fault α :=
  match value.read s with
  | .error f => .error f
  | .ok (a, r) =>
    match skipBlanks r with
    | [] => .ok a
    | c :: t => .error (.ahead .trailingCharacters (c :: t))

/-- A line that holds one value, with the place of the fault if it does not. -/
def readLine {α : Type} (value : Reader α) (line : Bytes) : Except LineFault α :=
  match readWhole value line with
  | .ok a => .ok a
  | .error f => .error ⟨f.cause, f.place line⟩

end TopicFeed.Json
