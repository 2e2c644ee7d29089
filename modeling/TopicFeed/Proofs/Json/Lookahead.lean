import TopicFeed.Proofs.Json.Forks

/-!
No reader looks ahead.

Every reader of an event line is prompt: a skipped value, a value of a type, a list, and a record in
either form. A reader looks at one byte behind the blanks to see what is next, and nowhere further,
so each step is the step that this byte calls for; where steps follow each other without an end, the
proof is by the length of the text that is left.
-/

namespace TopicFeed.Json

open Ascii Reached

/-! ### Skipped values -/

lemma prompt_colonAfterKey (s : Bytes) : Prompt colonAfterKey s := by
  refine .atToken (fun s => by simp only [colonAfterKey, skipBlanks_idem]) rfl
    fun c t hc _ => ?_
  by_cases hcolon : c = colon
  · subst hcolon
    exact (prompt_done t).cons fun t => by simp [colonAfterKey, skipBlanks_cons hc]
  · exact prompt_ahead .noColon (fun t => by simp [colonAfterKey, skipBlanks_cons hc, hcolon]) t

lemma prompt_enter (b : Bracket) (s : Bytes) : Prompt b.enter s := by
  cases b with
  | list => exact prompt_done s
  | object =>
    refine .atToken (fun s => by simp only [Bracket.enter, skipBlanks_idem]) rfl
      fun c t hc _ => ?_
    by_cases hquote : c = quote
    · subst hquote
      refine Prompt.cons (((prompt_string .skipped [] t).map prompt_snd).bind
        fun r _ => prompt_colonAfterKey r) fun t => ?_
      simp only [Bracket.enter, skipBlanks_cons hc, if_true]
      rcases string .skipped [] t with f | x <;> rfl
    · exact prompt_ahead .keyNotString
        (fun t => by simp [Bracket.enter, skipBlanks_cons hc, hquote]) t

/-- The end of a scalar that is thrown away. -/
lemma prompt_thrown {α : Type} {f : Bytes → Except Fault (α × Bytes)} {s : Bytes}
    (h : Prompt f s) : Prompt (fun s => (f s).map fun x => ((none : Option Bracket), x.2)) s :=
  h.map fun x => (prompt_snd x).comp (prompt_with none _)

lemma prompt_opening (s : Bytes) : Prompt opening s := by
  refine .atToken (fun s => by simp only [opening, skipBlanks_idem]) rfl fun c t hc _ => ?_
  rcases hword : wordOf? c with _ | ⟨w, x⟩
  · by_cases hminus : c = minus
    · subst hminus
      exact (prompt_thrown (prompt_numeral .skipped true t)).cons fun t => by
        simp [opening, skipBlanks_cons hc, hword]
    · by_cases hdigit : isDigit c = true
      · exact (prompt_thrown (prompt_numeral .skipped false (c :: t))).head fun t => by
          simp [opening, skipBlanks_cons hc, hword, hminus, hdigit]
      · by_cases hquote : c = quote
        · subst hquote
          exact (prompt_thrown (prompt_string .skipped [] t)).cons fun t => by
            simp [opening, skipBlanks_cons hc, hword, hminus, hdigit]
        · by_cases hlist : c = openBracket
          · subst hlist
            exact (prompt_ok (some Bracket.list) t).cons fun t => by
              simp [opening, skipBlanks_cons hc, hword, hminus, hdigit, hquote]
          · by_cases hobject : c = openBrace
            · subst hobject
              exact (prompt_ok (some Bracket.object) t).cons fun t => by
                simp [opening, skipBlanks_cons hc, hword, hminus, hdigit, hquote, hlist]
            · exact prompt_ahead .noValue (fun t => by
                simp [opening, skipBlanks_cons hc, hword, hminus, hdigit, hquote, hlist, hobject]) t
  · exact ((prompt_word w t).map fun r => prompt_with none r).cons fun t => by
      simp [opening, skipBlanks_cons hc, hword]

lemma skipValue_eq (stack : List Bracket) (s : Bytes) :
    skipValue stack s = (opening s).bind fun
      | (none, r) => skipBehind stack r
      | (some b, r) =>
        match skipBlanks r with
        | [] => .error (.ahead b.atEnd [])
        | c :: t =>
          if c = b.close then skipBehind stack t
          else (b.enter (c :: t)).bind (skipValue (b :: stack)) := by
  rw [skipValue]
  split
  · simp_all [Except.bind]
  · simp_all [Except.bind]
  · simp_all only [Except.bind]
    split
    · simp_all
    · simp_all only
      split
      · rfl
      · split <;> simp_all

lemma skipBehind_eq (b : Bracket) (stack : List Bracket) (s : Bytes) :
    skipBehind (b :: stack) s =
      match skipBlanks s with
      | [] => .error (.ahead b.atEnd [])
      | c :: t =>
        if c = comma then (b.enter t).bind (skipValue (b :: stack))
        else if c = b.close then skipBehind stack t
        else .error (.ahead b.unclosed (c :: t)) := by
  rw [skipBehind]
  split
  · simp_all
  · simp_all only
    split
    · split <;> simp_all [Except.bind]
    · rfl

mutual

/-- Values in any containers are skipped without looking ahead. -/
theorem prompt_skipValue (stack : List Bracket) (s : Bytes) : Prompt (skipValue stack) s := by
  refine ((prompt_opening s).andThen fun b r h => ?_).congr (skipValue_eq stack)
  have hopening := length_lt_of_opening h
  rcases b with _ | b
  · exact prompt_skipBehind stack r
  · refine .atToken (fun r => by simp only [skipBlanks_idem]) rfl fun c t hc hr => ?_
    have hlt := length_lt_of_skipBlanks hr
    by_cases hclose : c = b.close
    · subst hclose
      exact (prompt_skipBehind stack t).cons fun t => by simp [skipBlanks_cons hc]
    · refine Prompt.head ((prompt_enter b (c :: t)).bind (g := skipValue (b :: stack))
        fun u hu => ?_) fun t => by simp [skipBlanks_cons hc, hclose]
      have hle : u.length ≤ t.length + 1 := length_le_of_enter hu
      exact prompt_skipValue (b :: stack) u
termination_by s.length
decreasing_by all_goals omega

theorem prompt_skipBehind (stack : List Bracket) (s : Bytes) : Prompt (skipBehind stack) s := by
  rcases stack with _ | ⟨b, stack⟩
  · exact (prompt_done s).congr fun s => by rw [skipBehind]
  · refine .atToken (fun s => by simp only [skipBehind_eq, skipBlanks_idem])
      (by rw [skipBehind_eq]; rfl) fun c t hc hs => ?_
    have hlt := length_lt_of_skipBlanks hs
    by_cases hcomma : c = comma
    · subst hcomma
      refine Prompt.cons ((prompt_enter b t).bind (g := skipValue (b :: stack)) fun u hu => ?_)
        fun t => by simp [skipBehind_eq, skipBlanks_cons hc]
      have hle := length_le_of_enter hu
      exact prompt_skipValue (b :: stack) u
    · by_cases hclose : c = b.close
      · subst hclose
        exact (prompt_skipBehind stack t).cons fun t => by
          simp [skipBehind_eq, skipBlanks_cons hc, hcomma]
      · exact prompt_ahead b.unclosed (fun t => by
          simp [skipBehind_eq, skipBlanks_cons hc, hcomma, hclose]) t
termination_by s.length
decreasing_by all_goals omega

end

lemma prompt_skip (s : Bytes) : Prompt skip s := prompt_skipValue [] s

/-! ### Scalars -/

/-- What a number is found to be. -/
def Number.found : Number → Found
  | .integer n => .integer n
  | .floating bits => .floating bits

lemma prompt_found (s : Bytes) : Prompt found s := by
  cases s with
  | nil => exact prompt_of_left rfl
  | cons c t =>
    rcases hword : wordOf? c with _ | ⟨w, x⟩
    · by_cases hminus : c = minus
      · subst hminus
        refine ((prompt_number true t).map (prompt_first Number.found)).cons fun t => ?_
        simp only [found, hword, if_true]
        rcases number true t with f | ⟨_ | _, r⟩ <;> rfl
      · by_cases hdigit : isDigit c = true
        · refine ((prompt_number false (c :: t)).map (prompt_first Number.found)).head fun t => ?_
          simp only [found, hword, hminus, hdigit, if_false, if_true]
          rcases number false (c :: t) with f | ⟨_ | _, r⟩ <;> rfl
        · by_cases hquote : c = quote
          · subst hquote
            exact ((prompt_string .kept [] t).map (prompt_first fun bytes =>
              Found.string (Utf8.lenient bytes))).cons fun t => by
                simp [found, hword, hminus, hdigit]
          · by_cases hlist : c = openBracket
            · subst hlist
              exact (prompt_ok Found.sequence (openBracket :: t)).head fun t => by
                simp [found, hword, hminus, hdigit, hquote]
            · by_cases hobject : c = openBrace
              · subst hobject
                exact (prompt_ok Found.map (openBrace :: t)).head fun t => by
                  simp [found, hword, hminus, hdigit, hquote, hlist]
              · exact prompt_ahead .noValue (fun t => by
                  simp [found, hword, hminus, hdigit, hquote, hlist, hobject]) t
    · exact ((prompt_word w t).map fun r => prompt_with x r).cons fun t => by simp [found, hword]

/-- A value of the wrong type is found to its end, and is refused where it ends. -/
lemma prompt_unexpected {α : Type} (e : Expected) (s : Bytes) :
    Prompt (fun s => (.error (unexpected e s) : Except Fault (α × Bytes))) s := by
  refine ((prompt_found s).andThen (γ := α × Bytes) fun x r _ =>
    prompt_here (.wrongType x e) r).congr (g := fun s => (found s).bind fun (x, r) =>
      .error (.here (.wrongType x e) r)) fun s => ?_
  rw [unexpected]
  rcases found s with f | x <;> rfl

lemma prompt_readText (s : Bytes) : Prompt readText s := by
  refine .atToken (fun s => by simp only [readText, skipBlanks_idem]) rfl fun c t hc _ => ?_
  by_cases hquote : c = quote
  · subst hquote
    exact ((prompt_string .kept [] t).map (prompt_first Utf8.lenient)).cons fun t => by
      simp [readText, skipBlanks_cons hc]
  · exact (prompt_unexpected .string (c :: t)).head fun t => by
      simp [readText, skipBlanks_cons hc, hquote]

lemma prompt_narrow (k : IntegerType) (x : Number × Bytes) : Prompt k.narrow x := by
  rcases x with ⟨n | bits, r⟩
  · refine Prompt.pair ?_
    by_cases hn : k.low ≤ n ∧ n ≤ k.high
    · exact (prompt_ok n r).congr fun r => if_pos hn
    · exact (prompt_here (.outOfRange n k.name) r).congr fun r => if_neg hn
  · exact (prompt_here (.wrongType (.floating bits) k.name) r).pair

lemma prompt_readInteger (k : IntegerType) (s : Bytes) : Prompt (readInteger k) s := by
  refine .atToken (fun s => by simp only [readInteger, skipBlanks_idem]) rfl
    fun c t hc _ => ?_
  by_cases hminus : c = minus
  · subst hminus
    refine Prompt.cons ((prompt_number true t).bind fun x _ => prompt_narrow k x) fun t => ?_
    simp only [readInteger, skipBlanks_cons hc, if_true]
    rcases number true t with f | x <;> rfl
  · by_cases hdigit : isDigit c = true
    · refine Prompt.head ((prompt_number false (c :: t)).bind fun x _ => prompt_narrow k x)
        fun t => ?_
      simp only [readInteger, skipBlanks_cons hc, hminus, hdigit, if_false, if_true]
      rcases number false (c :: t) with f | x <;> rfl
    · exact (prompt_unexpected k.name (c :: t)).head fun t => by
        simp [readInteger, skipBlanks_cons hc, hminus, hdigit]

/-! ### Lists -/

/-- The reader does not look ahead. -/
def Reader.IsPrompt {α : Type} (r : Reader α) : Prop := ∀ s, Prompt r.read s

section Lists

variable {α : Type} {item : Reader α}

/-- What stands behind a comma of a list. -/
def behindComma {β : Type} (next : Bytes → Except Fault β) (s : Bytes) : Except Fault β :=
  match skipBlanks s with
  | [] => .error (.ahead .endInValue [])
  | d :: u => if d = closeBracket then .error (.ahead .trailingComma (d :: u)) else next (d :: u)

lemma prompt_behindComma {β : Type} [Reached β] {next : Bytes → Except Fault β} {s : Bytes}
    (h : ∀ d u, skipBlanks s = d :: u → Prompt next (d :: u)) : Prompt (behindComma next) s := by
  refine .atToken (fun s => by simp only [behindComma, skipBlanks_idem]) rfl
    fun d u hd hs => ?_
  by_cases hclose : d = closeBracket
  · exact prompt_ahead .trailingComma
      (fun u => by simp only [behindComma, skipBlanks_cons hd, if_pos hclose]) u
  · exact (h d u hs).head fun u => by simp only [behindComma, skipBlanks_cons hd, if_neg hclose]

lemma moreElements_eq (item : Reader α) (done : List α) (s : Bytes) :
    moreElements item done s =
      match skipBlanks s with
      | [] => .error (.ahead .endInList [])
      | c :: t =>
        if c = closeBracket then .ok (done.reverse, t)
        else if c = comma then
          behindComma (fun t => (item.read t).bind fun (a, r) => moreElements item (a :: done) r) t
        else .error (.ahead .noListEnd (c :: t)) := by
  fun_cases moreElements item done s <;> simp_all [behindComma, Except.bind]

/-- Elements follow each other without an end. -/
theorem prompt_moreElements (h : item.IsPrompt) (done : List α) (s : Bytes) :
    Prompt (moreElements item done) s := by
  have htoken : ∀ {c : UInt8}, isBlank c = false → ∀ t, moreElements item done (c :: t) =
      if c = closeBracket then .ok (done.reverse, t)
      else if c = comma then
        behindComma (fun t => (item.read t).bind fun (a, r) => moreElements item (a :: done) r) t
      else .error (.ahead .noListEnd (c :: t)) := by
    intro c hc t
    rw [moreElements_eq, skipBlanks_cons hc]
  refine .atToken (fun s => by rw [moreElements_eq, moreElements_eq _ _ (skipBlanks s),
    skipBlanks_idem]) (by rw [moreElements_eq]; rfl) fun c t hc hs => ?_
  have hlt := length_lt_of_skipBlanks hs
  by_cases hclose : c = closeBracket
  · exact (prompt_ok done.reverse t).cons fun t => by rw [htoken hc, if_pos hclose]
  · by_cases hcomma : c = comma
    · refine Prompt.cons (prompt_behindComma fun d u ht => ?_) fun t => by
        rw [htoken hc, if_neg hclose, if_pos hcomma]
      refine (h (d :: u)).andThen fun a r hr => ?_
      have hle := length_cons_le_of_skipBlanks ht
      have hshort := item.shortens hr
      exact prompt_moreElements h (a :: done) r
    · exact prompt_ahead .noListEnd (fun t => by
        rw [htoken hc, if_neg hclose, if_neg hcomma]) t
termination_by s.length
decreasing_by omega

lemma prompt_readList (h : item.IsPrompt) (s : Bytes) : Prompt (readList item) s := by
  refine .atToken (fun s => by simp only [readList, skipBlanks_idem]) rfl fun c t hc _ => ?_
  by_cases hopen : c = openBracket
  · subst hopen
    refine Prompt.cons (g := fun t => readList item (openBracket :: t)) ?_ fun _ => rfl
    refine .atToken (fun t => by
      simp only [readList, skipBlanks_cons hc, if_true, skipBlanks_idem]) rfl
      fun d u hd _ => ?_
    by_cases hclose : d = closeBracket
    · exact (prompt_ok [] u).cons fun u => by
        simp only [readList, skipBlanks_cons hc, if_true, skipBlanks_cons hd, if_pos hclose]
    · refine ((h (d :: u)).andThen fun a r _ => prompt_moreElements h [a] r).head
        (g := fun s => (item.read s).bind fun (a, r) => moreElements item [a] r) fun u => ?_
      simp only [readList, skipBlanks_cons hc, if_true, skipBlanks_cons hd, if_neg hclose]
      rcases item.read (d :: u) with f | x <;> rfl
  · exact (prompt_unexpected .sequence (c :: t)).head fun t => by
      simp only [readList, skipBlanks_cons hc, if_neg hopen]

lemma prompt_readNullable (h : item.IsPrompt) (s : Bytes) : Prompt (readNullable item) s := by
  refine .atToken (fun s => by simp only [readNullable, skipBlanks_idem]) rfl
    fun c t hc _ => ?_
  by_cases hnull : c = 0x6E
  · exact ((prompt_word [0x75, 0x6C, 0x6C] t).map fun r => prompt_with none r).cons fun t => by
      simp only [readNullable, skipBlanks_cons hc, if_pos hnull]
  · exact ((h (c :: t)).map (prompt_first some)).head fun t => by
      simp only [readNullable, skipBlanks_cons hc, if_neg hnull]

end Lists

namespace Reader

variable {α β : Type} {r : Reader α}

lemma IsPrompt.map (h : r.IsPrompt) (f : α → β) : (r.map f).IsPrompt :=
  fun s => (h s).map (prompt_first f)

lemma isPrompt_text : Reader.text.IsPrompt := prompt_readText

lemma isPrompt_int64 : Reader.int64.IsPrompt :=
  IsPrompt.map (fun s => prompt_readInteger .int64 s) _

lemma isPrompt_octet : Reader.octet.IsPrompt :=
  IsPrompt.map (fun s => prompt_readInteger .octet s) _

lemma IsPrompt.list (h : r.IsPrompt) : (Reader.list r).IsPrompt := prompt_readList h

lemma IsPrompt.nullable (h : r.IsPrompt) : (Reader.nullable r).IsPrompt := prompt_readNullable h

end Reader

/-! ### Records -/

/-- No field of a record is read with a look ahead. -/
def PromptFields {ρ : Type} (fields : List (Field ρ)) : Prop :=
  ∀ field ∈ fields, field.update.IsPrompt

lemma promptFields_nil {ρ : Type} : PromptFields ([] : List (Field ρ)) :=
  fun _ hfield => absurd hfield List.not_mem_nil

lemma Reader.IsPrompt.field {ρ α : Type} {value : Reader α} (h : value.IsPrompt) (key : String)
    (put : α → ρ → ρ) {fields : List (Field ρ)} (hs : PromptFields fields) :
    PromptFields (.of key value put :: fields) :=
  List.forall_mem_cons.mpr ⟨h.map put, hs⟩

section Records

variable {ρ : Type} {fields : List (Field ρ)}

lemma prompt_behindRepeatedKey (s : Bytes) : Prompt behindRepeatedKey s := by
  refine .atToken (fun s => by simp only [behindRepeatedKey, skipBlanks_idem]) rfl
    fun c t hc _ => ?_
  by_cases hclose : c = closeBrace
  · exact (prompt_self t).cons fun t => by
      simp only [behindRepeatedKey, skipBlanks_cons hc, if_pos hclose]
  · exact (prompt_self (c :: t)).head fun t => by
      simp only [behindRepeatedKey, skipBlanks_cons hc, if_neg hclose]

lemma prompt_memberValue (h : PromptFields fields) (seen : List String) (key : String) (s : Bytes) :
    Prompt (memberValue fields seen key) s := by
  unfold memberValue
  rcases hfield : Field.find? fields key with _ | field
  · refine ((prompt_colonAfterKey s).bind fun t _ =>
      (prompt_skip t).map fun r => prompt_with id r).congr fun s => ?_
    rcases colonAfterKey s with f | t <;> rfl
  · by_cases hseen : key ∈ seen
    · exact ((prompt_behindRepeatedKey s).comp (prompt_here (.repeatedKey key) _)).congr
        fun s => if_pos hseen
    · refine ((prompt_colonAfterKey s).bind fun t _ =>
        h field (List.mem_of_find?_eq_some hfield) t).congr fun s => ?_
      refine (if_neg hseen).trans ?_
      rcases colonAfterKey s with f | t <;> rfl

lemma prompt_member (h : PromptFields fields) (seen : List String) (s : Bytes) :
    Prompt (member fields seen) s := by
  refine ((prompt_string .kept [] s).andThen fun bytes t _ =>
    (prompt_memberValue h seen (Utf8.lenient bytes) t).map
      (prompt_first fun u => (Utf8.lenient bytes, u))).congr
    (g := fun s => (string .kept [] s).bind fun w =>
      (memberValue fields seen (Utf8.lenient w.1) w.2).map fun x =>
        ((Utf8.lenient w.1, x.1), x.2)) fun s => ?_
  rw [member]
  rcases string .kept [] s with f | x <;> rfl

/-- The members of an object behind a comma. -/
def memberBehindComma (fields : List (Field ρ)) (seen : List String) (value : ρ) (s : Bytes) :
    Except Fault (ρ × Bytes) :=
  match skipBlanks s with
  | [] => .error (.ahead .endInValue [])
  | d :: u =>
    if d = quote then
      (member fields seen u).bind fun ((key, update), r) =>
        moreMembers fields (key :: seen) (update value) r
    else if d = closeBrace then .error (.ahead .trailingComma (d :: u))
    else .error (.ahead .keyNotString (d :: u))

lemma moreMembers_eq (fields : List (Field ρ)) (seen : List String) (value : ρ) (s : Bytes) :
    moreMembers fields seen value s =
      match skipBlanks s with
      | [] => .error (.ahead .endInObject [])
      | c :: t =>
        if c = closeBrace then .ok (value, t)
        else if c = comma then memberBehindComma fields seen value t
        else .error (.ahead .noObjectEnd (c :: t)) := by
  fun_cases moreMembers fields seen value s <;> simp_all [memberBehindComma, Except.bind]

/-- Members follow each other without an end. -/
theorem prompt_moreMembers (h : PromptFields fields) (seen : List String) (value : ρ) (s : Bytes) :
    Prompt (moreMembers fields seen value) s := by
  refine .atToken (fun s => by rw [moreMembers_eq, moreMembers_eq _ _ _ (skipBlanks s),
    skipBlanks_idem]) (by rw [moreMembers_eq]; rfl) fun c t hc hs => ?_
  have hlt := length_lt_of_skipBlanks hs
  by_cases hclose : c = closeBrace
  · exact (prompt_ok value t).cons fun t => by
      simp only [moreMembers_eq, skipBlanks_cons hc, if_pos hclose]
  · by_cases hcomma : c = comma
    · refine Prompt.cons (g := memberBehindComma fields seen value) (.atToken
        (fun t => by simp only [memberBehindComma, skipBlanks_idem]) rfl
        fun d u hd ht => ?_) fun t => by
          rw [moreMembers_eq, skipBlanks_cons hc]
          exact (if_neg hclose).trans (if_pos hcomma)
      have hshort := length_lt_of_skipBlanks ht
      by_cases hquote : d = quote
      · refine Prompt.cons ((prompt_member h seen u).andThen (g := fun x =>
          moreMembers fields (x.1.1 :: seen) (x.1.2 value) x.2) fun x r hr => ?_) fun u => by
            simp only [memberBehindComma, skipBlanks_cons hd, if_pos hquote]
        have hmember := length_lt_of_member hr
        exact prompt_moreMembers h (x.1 :: seen) (x.2 value) r
      · by_cases htrailing : d = closeBrace
        · exact prompt_ahead .trailingComma (fun u => by
            simp only [memberBehindComma, skipBlanks_cons hd, if_neg hquote, if_pos htrailing]) u
        · exact prompt_ahead .keyNotString (fun u => by
            simp only [memberBehindComma, skipBlanks_cons hd, if_neg hquote, if_neg htrailing]) u
    · exact prompt_ahead .noObjectEnd (fun t => by
        simp only [moreMembers_eq, skipBlanks_cons hc, if_neg hclose, if_neg hcomma]) t
termination_by s.length
decreasing_by omega

lemma prompt_objectForm (h : PromptFields fields) (value : ρ) (s : Bytes) :
    Prompt (objectForm fields value) s := by
  refine .atToken (fun s => by simp only [objectForm, skipBlanks_idem]) rfl fun c t hc _ => ?_
  by_cases hclose : c = closeBrace
  · exact (prompt_ok value t).cons fun t => by
      simp only [objectForm, skipBlanks_cons hc, if_pos hclose]
  · by_cases hquote : c = quote
    · refine Prompt.cons ((prompt_member h [] t).andThen fun x r _ =>
        prompt_moreMembers h [x.1] (x.2 value) r) (g := fun t => (member fields [] t).bind fun x =>
        moreMembers fields [x.1.1] (x.1.2 value) x.2) fun t => ?_
      simp only [objectForm, skipBlanks_cons hc, if_neg hclose, if_pos hquote]
      rcases member fields [] t with f | x <;> rfl
    · exact prompt_ahead .keyNotString (fun t => by
        simp only [objectForm, skipBlanks_cons hc, if_neg hclose, if_neg hquote]) t

lemma prompt_listEnd (s : Bytes) : Prompt listEnd s := by
  refine .atToken (fun s => by simp only [listEnd, skipBlanks_idem]) rfl fun c t hc _ => ?_
  by_cases hclose : c = closeBracket
  · exact (prompt_done t).cons fun t => by simp only [listEnd, skipBlanks_cons hc, if_pos hclose]
  · by_cases hcomma : c = comma
    · subst hcomma
      refine Prompt.cons (g := fun t => listEnd (comma :: t)) (.atToken (fun t => by
        simp only [listEnd, skipBlanks_cons hc, if_neg hclose, if_true, skipBlanks_idem]) rfl
        fun d u hd _ => ?_) fun _ => rfl
      exact prompt_ahead (if d = closeBracket then .trailingComma else .trailingCharacters)
        (fun u => by simp [listEnd, skipBlanks_cons hc, hclose, skipBlanks_cons hd]) u
    · exact prompt_ahead .trailingCharacters (fun t => by
        simp only [listEnd, skipBlanks_cons hc, if_neg hclose, if_neg hcomma]) t

lemma prompt_moreItems (h : PromptFields fields) (value : ρ) (s : Bytes) :
    Prompt (moreItems value fields) s := by
  induction fields generalizing value s with
  | nil => exact ((prompt_listEnd s).map fun r => prompt_with value r).congr fun _ => rfl
  | cons field fields ih =>
    obtain ⟨hfield, hfields⟩ := List.forall_mem_cons.mp h
    refine .atToken (fun s => by simp only [moreItems, skipBlanks_idem]) rfl
      fun c t hc _ => ?_
    by_cases hclose : c = closeBracket
    · exact (prompt_ok value t).cons fun t => by
        simp only [moreItems, skipBlanks_cons hc, if_pos hclose]
    · by_cases hcomma : c = comma
      · refine Prompt.cons (prompt_behindComma fun d u _ => (hfield (d :: u)).andThen
          (g := fun (x : (ρ → ρ) × Bytes) => moreItems (x.1 value) fields x.2) fun update r _ =>
            ih hfields (update value) r) fun t => ?_
        simp only [moreItems, skipBlanks_cons hc, if_neg hclose, if_pos hcomma, behindComma]
        rcases skipBlanks t with _ | ⟨d, u⟩
        · rfl
        · rcases hread : field.update.read (d :: u) with f | x <;> simp [hread, Except.bind]
      · exact prompt_ahead .noListEnd (fun t => by
          simp only [moreItems, skipBlanks_cons hc, if_neg hclose, if_neg hcomma]) t

lemma prompt_listForm (h : PromptFields fields) (value : ρ) (s : Bytes) :
    Prompt (listForm fields value) s := by
  rcases fields with _ | ⟨field, fields⟩
  · exact ((prompt_listEnd s).map fun r => prompt_with value r).congr fun _ => rfl
  · obtain ⟨hfield, hfields⟩ := List.forall_mem_cons.mp h
    refine .atToken (fun s => by simp only [listForm, skipBlanks_idem]) rfl
      fun c t hc _ => ?_
    by_cases hclose : c = closeBracket
    · exact (prompt_ok value t).cons fun t => by
        simp only [listForm, skipBlanks_cons hc, if_pos hclose]
    · refine Prompt.head ((hfield (c :: t)).andThen
        (g := fun (x : (ρ → ρ) × Bytes) => moreItems (x.1 value) fields x.2) fun update r _ =>
          prompt_moreItems hfields (update value) r) fun t => ?_
      simp only [listForm, skipBlanks_cons hc, if_neg hclose]
      rcases field.update.read (c :: t) with f | x <;> rfl

theorem Reader.isPrompt_record (name : String) (h : PromptFields fields) (default : ρ) :
    (Reader.record name fields default).IsPrompt := by
  intro s
  show Prompt (readRecord name fields default) s
  refine .atToken (fun s => by simp only [readRecord, skipBlanks_idem]) rfl
    fun c t hc _ => ?_
  by_cases hobject : c = openBrace
  · exact (prompt_objectForm h default t).cons fun t => by
      simp only [readRecord, skipBlanks_cons hc, if_pos hobject]
  · by_cases hlist : c = openBracket
    · exact (prompt_listForm h default t).cons fun t => by
        simp only [readRecord, skipBlanks_cons hc, if_neg hobject, if_pos hlist]
    · exact (prompt_unexpected (.record name) (c :: t)).head fun t => by
        simp only [readRecord, skipBlanks_cons hc, if_neg hobject, if_neg hlist]

end Records

end TopicFeed.Json
