import TopicFeed.Json.Fault
import TopicFeed.Text.Ascii

/-!
# Blanks, words, and readers

The smallest steps of reading an event line. A step takes the bytes that are left and gives what
it read and what is left after it. A `Reader` is a step that always consumes something, so that
every loop over readers ends.
-/

namespace TopicFeed.Json

open Ascii

/-- Whether a value is kept or only skipped over. A skipped value is read with the same grammar,
but less of it is looked at, and an end inside a number is reported as a bad number. -/
inductive Manner where
  | kept
  | skipped
  deriving DecidableEq, Repr

/-- The cause of an end inside a number. -/
def Manner.numberEnd : Manner → Cause
  | .kept => .endInValue
  | .skipped => .badNumber

/-- The four bytes that may stand between any two tokens. -/
def isBlank (b : UInt8) : Bool :=
  b == space || b == tab || b == lineFeed || b == carriageReturn

/-- What is left after the blanks. -/
def skipBlanks (s : Bytes) : Bytes := s.dropWhile isBlank

theorem length_skipBlanks_le (s : Bytes) : (skipBlanks s).length ≤ s.length :=
  (List.dropWhile_sublist isBlank).length_le

/-- The rest of a word, letter by letter. The first wrong byte is consumed. -/
def word : Bytes → Bytes → Except Fault Bytes
  | [], s => .ok s
  | _ :: _, [] => .error (.here .endInValue [])
  | w :: ws, c :: s => if c = w then word ws s else .error (.here .noSuchWord s)

theorem eq_append_of_word {ws s r : Bytes} (h : word ws s = .ok r) : s = ws ++ r := by
  induction ws generalizing s with
  | nil => simp only [word, Except.ok.injEq] at h; simp [h]
  | cons w ws ih =>
    cases s with
    | nil => simp [word] at h
    | cons c s =>
      simp only [word] at h
      split at h
      · next hc => rw [ih h, hc, List.cons_append]
      · simp at h

theorem length_le_of_word {ws s r : Bytes} (h : word ws s = .ok r) : r.length ≤ s.length := by
  rw [eq_append_of_word h, List.length_append]
  omega

theorem ok_of_map {ε α β : Type} {f : α → β} {x : Except ε α} {b : β} (h : x.map f = .ok b) :
    ∃ a, x = .ok a ∧ f a = b := by
  cases x with
  | error e => simp [Except.map] at h
  | ok a => exact ⟨a, rfl, by simpa [Except.map] using h⟩

/-- A step that consumes at least one byte whenever it succeeds. -/
structure Reader (α : Type) where
  read : Bytes → Except Fault (α × Bytes)
  shortens : ∀ {s : Bytes} {a : α} {r : Bytes}, read s = .ok (a, r) → r.length < s.length

/-- A reader followed by a function on what it read. -/
def Reader.map {α β : Type} (f : α → β) (r : Reader α) : Reader β where
  read s := (r.read s).map fun x => (f x.1, x.2)
  shortens := by
    intro s b t h
    obtain ⟨⟨a, u⟩, hr, hmap⟩ := ok_of_map h
    cases hmap
    exact r.shortens hr

end TopicFeed.Json
