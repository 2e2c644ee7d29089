import Mathlib.Data.List.Induction
import TopicFeed.Proofs.Reading

/-!
The story of a listener.

A listener makes one attempt after the other, and waits for one full pause between any two. Being
told to stop ends the story at the next move. Every line of the log and the result can be read off
the story, and nothing is sent or pushed once the listener was told.
-/

namespace TopicFeed.Loop

open Network

/-! ### Attempts and pauses -/

/-- What can be seen of an attempt between the request and its end: the feed that was opened, if
one was, and what was decoded of it. -/
def readEvents : Option Part → List Event
  | none => []
  | some p => .opened p.1 :: p.2.map .decoded

/-- An attempt that came to its end by itself, and the time that passed behind it. -/
structure Round where
  part : Option Part
  error : Option ClientError
  pauses : List Nat := []

/-- Milliseconds in all. -/
def total (ms : List Nat) : Nat := ms.foldl (· + ·) 0

@[simp] lemma total_concat (ms : List Nat) (n : Nat) : total (ms ++ [n]) = total ms + n := by
  simp [total]

namespace Round

/-- What can be seen of an attempt and the pause behind it. -/
def events (r : Round) : List Event :=
  .asked :: readEvents r.part ++ .ended r.error :: r.pauses.map .passed

/-- The line that an attempt leaves in the log. -/
def entries (who : Listener) (r : Round) : List LogEntry :=
  r.error.toList.map (.failed who.name)

/-- The pause was waited for once, and no longer than it takes. -/
def Waited (delay : Nat) (r : Round) : Prop :=
  ∃ before last, r.pauses = before ++ [last] ∧ (before = [] ∨ total before < delay) ∧
    delay ≤ total before + last

end Round

/-- How far a listener has come since its last full pause: it is about to ask, an attempt is under
way, or it pauses after one. -/
inductive Stage where
  | ready
  | trying (part : Option Part)
  | resting (round : Round)

namespace Stage

def events : Stage → List Event
  | ready => []
  | trying part => .asked :: readEvents part
  | resting r => r.events

/-- The attempt that came to its end by itself. -/
def round? : Stage → Option Round
  | ready | trying _ => none
  | resting r => some r

/-- The error of the last attempt, if it came to its end by itself with one. -/
def error (stage : Stage) : Option ClientError := stage.round?.bind Round.error

/-- The stage of a listener. -/
def Fits (l : Loop) : Stage → Prop
  | ready => l.phase = .attempting .connecting
  | trying none =>
    ∃ answer, l.phase = .attempting (.awaiting answer) ∨ l.phase = .attempting .stalled
  | trying (some _) => l.phase = .attempting .stalled ∨
      ∃ f, l.phase = .attempting (.reading f) ∨ l.phase = .attempting (.pushing f)
  | resting r => ∃ left, l.phase = .pausing left ∧ l.lastError = r.error ∧
      left + total r.pauses = l.who.delay ∧ (r.pauses = [] ∨ 0 < left)

end Stage

/-- The three phases of a listener that is not done, and the stages that stand for them. -/
lemma Stage.Fits.phase_cases {l : Loop} {stage : Stage} (h : stage.Fits l) :
    (stage = .ready ∧ l.phase = .attempting .connecting) ∨
      (∃ part a, stage = .trying part ∧ a ≠ .connecting ∧ l.phase = .attempting a) ∨
      ∃ r left, stage = .resting r ∧ l.phase = .pausing left := by
  cases stage with
  | ready => exact .inl ⟨rfl, h⟩
  | trying part =>
    cases part with
    | none =>
      obtain ⟨answer, hp | hp⟩ := h
      · exact .inr (.inl ⟨none, .awaiting answer, rfl, by simp, hp⟩)
      · exact .inr (.inl ⟨none, .stalled, rfl, by simp, hp⟩)
    | some p =>
      obtain hp | ⟨f, hp | hp⟩ := h
      · exact .inr (.inl ⟨some p, .stalled, rfl, by simp, hp⟩)
      · exact .inr (.inl ⟨some p, .reading f, rfl, by simp, hp⟩)
      · exact .inr (.inl ⟨some p, .pushing f, rfl, by simp, hp⟩)
  | resting r =>
    obtain ⟨left, hp, -⟩ := h
    exact .inr (.inr ⟨r, left, rfl, hp⟩)

lemma Stage.Fits.not_exited {l : Loop} {stage : Stage} (h : stage.Fits l) : l.phase ≠ .exited := by
  intro hp
  rcases h.phase_cases with ⟨-, hq⟩ | ⟨part, a, -, -, hq⟩ | ⟨r, left, -, hq⟩ <;>
    (rw [hp] at hq; cases hq)

/-- Whether a listener goes on, was told to stop or has stopped, with the messages that waited for a
place when it was told and those that were withdrawn in the end. -/
inductive Outcome where
  | goingOn
  | told (waiting : List Message)
  | stopped (waiting withdrawn : List Message)

/-- What can be seen of a stop: an attempt that is under way is cut short. -/
def Outcome.events (stage : Stage) : Outcome → List Event
  | goingOn => []
  | told ms => [.told ms]
  | stopped ms withdrawn =>
    .told ms :: (if stage.round?.isSome then [] else [.cut withdrawn]) ++ [.exited stage.error]

/-- The last line of the log. -/
def Outcome.entries (who : Listener) (stage : Stage) : Outcome → List LogEntry
  | goingOn | told _ => []
  | stopped _ _ => [.exited who.name stage.error]

/-- What a listener is at the end of a story. -/
def Outcome.Fits (l : Loop) (stage : Stage) : Outcome → Prop
  | goingOn => l.canceled = false ∧ stage.Fits l
  | told _ => l.canceled = true ∧ stage.Fits l
  | stopped _ _ => l.canceled = true ∧ l.phase = .exited ∧ l.lastError = stage.error

/-- The story of a listener: attempts with a full pause behind each, how far it has come since, and
whether it stopped there. -/
structure Story (l : Loop) (τ : List Event) (rounds : List Round) (stage : Stage)
    (outcome : Outcome) : Prop where
  waited : ∀ r ∈ rounds, r.Waited l.who.delay
  events : τ = rounds.flatMap Round.events ++ stage.events ++ outcome.events stage
  fits : outcome.Fits l stage

namespace Story

variable {l l' : Loop} {τ υ : List Event} {rounds : List Round} {stage stage' : Stage}
variable {outcome : Outcome}

lemma goes_on (h : Story l τ rounds stage outcome) (hc : l.canceled = false) :
    outcome = .goingOn ∧ stage.Fits l := by
  have hf := h.fits
  cases outcome with
  | goingOn => exact ⟨rfl, hf.2⟩
  | told ms => exact absurd hf.1 (by simp [hc])
  | stopped ms withdrawn => exact absurd hf.1 (by simp [hc])

lemma stops (h : Story l τ rounds stage outcome) (hc : l.canceled = true) (hp : l.phase ≠ .exited) :
    ∃ ms, outcome = .told ms ∧ stage.Fits l := by
  have hf := h.fits
  cases outcome with
  | goingOn => exact absurd hf.1 (by simp [hc])
  | told ms => exact ⟨ms, rfl, hf.2⟩
  | stopped ms withdrawn => exact absurd hf.2.1 hp

/-- The result of a listener that has stopped. -/
lemma result (h : Story l τ rounds stage outcome) (hp : l.phase = .exited) :
    (∃ waiting withdrawn, outcome = .stopped waiting withdrawn) ∧
      ∀ e, l.lastError = some e ↔ ∃ r, stage = .resting r ∧ r.error = some e := by
  have hf := h.fits
  cases outcome with
  | goingOn => exact absurd hp hf.2.not_exited
  | told ms => exact absurd hp hf.2.not_exited
  | stopped ms withdrawn =>
    refine ⟨⟨ms, withdrawn, rfl⟩, fun e => ?_⟩
    rw [hf.2.2]
    cases stage with
    | ready | trying part => simp [Stage.error, Stage.round?]
    | resting r => simp [Stage.error, Stage.round?]

/-- The story goes on within the same attempt or the same pause. -/
lemma next (h : Story l τ rounds stage .goingOn) (hwho : l'.who = l.who)
    (hc : l'.canceled = false) (hs : stage'.events = stage.events ++ υ) (hf : stage'.Fits l') :
    Story l' (τ ++ υ) rounds stage' .goingOn where
  waited := by rw [hwho]; exact h.waited
  events := by simp [h.events, Outcome.events, hs]
  fits := ⟨hc, hf⟩

end Story

/-- There is a story that tells of all events. -/
def Tells (l : Loop) (τ : List Event) : Prop :=
  ∃ rounds stage outcome, Story l τ rounds stage outcome

/-! ### One move -/

section OneMove

variable {l l' : Loop} {hub hub' : Hub} {move : Move} {τ υ : List Event}

lemma tells_new (who : Listener) (t : Ticket) : ({ who, ticket := t } : Loop).Tells [] :=
  ⟨[], .ready, .goingOn, by simp, rfl, rfl, rfl⟩

lemma tells_of_trying {part : Option Part} {rounds : List Round} (part' : Option Part)
    (h : Story l τ rounds (.trying part) .goingOn) (hwho : l'.who = l.who)
    (hc : l'.canceled = false) (hs : readEvents part' = readEvents part ++ υ)
    (hf : (Stage.trying part').Fits l') : l'.Tells (τ ++ υ) :=
  ⟨rounds, .trying part', .goingOn, h.next hwho hc (by simp [Stage.events, hs]) hf⟩

lemma tells_of_ended {part : Option Part} {rounds : List Round} {error : Option ClientError}
    (part' : Option Part) (ω : List Event) (h : Story l τ rounds (.trying part) .goingOn)
    (hwho : l'.who = l.who) (hc : l'.canceled = false) (hp : l'.phase = .pausing l'.who.delay)
    (he : l'.lastError = error) (hs : readEvents part' = readEvents part ++ ω) :
    l'.Tells (τ ++ (ω ++ [.ended error])) := by
  refine ⟨rounds, .resting ⟨part', error, []⟩, .goingOn, h.next hwho hc ?_ ?_⟩
  · simp [Stage.events, Round.events, hs]
  · exact ⟨l'.who.delay, hp, he, by simp [total], .inl rfl⟩

lemma Stage.Fits.trying {stage : Stage} {a : Attempt} (h : stage.Fits l)
    (hp : l.phase = .attempting a) (ha : a ≠ .connecting) : ∃ part, stage = .trying part := by
  rcases h.phase_cases with ⟨-, hq⟩ | ⟨part, a', hstage, -⟩ | ⟨r, left, -, hq⟩
  · rw [hp] at hq
    injection hq with hconnecting
    exact absurd hconnecting ha
  · exact ⟨part, hstage⟩
  · rw [hp] at hq
    cases hq

lemma Stage.Fits.reading {stage : Stage} {f : Feed} (h : stage.Fits l)
    (hp : l.phase = .attempting (.reading f) ∨ l.phase = .attempting (.pushing f)) :
    ∃ p, stage = .trying (some p) := by
  obtain ⟨part, rfl⟩ : ∃ part, stage = .trying part := by
    rcases hp with hp | hp <;> exact h.trying hp (by simp)
  cases part with
  | none =>
    obtain ⟨answer, h | h⟩ := h <;> rcases hp with hp | hp <;> (rw [hp] at h; cases h)
  | some p => exact ⟨p, rfl⟩

lemma Stage.Fits.awaiting {stage : Stage} {answer : Opened} (h : stage.Fits l)
    (hp : l.phase = .attempting (.awaiting answer)) : stage = .trying none := by
  obtain ⟨part, rfl⟩ := h.trying hp (by simp)
  cases part with
  | none => rfl
  | some p =>
    obtain h | ⟨f, h | h⟩ := h <;> (rw [hp] at h; cases h)

lemma Stage.Fits.ready {stage : Stage} (h : stage.Fits l)
    (hp : l.phase = .attempting .connecting) : stage = .ready := by
  rcases h.phase_cases with ⟨hstage, -⟩ | ⟨part, a, -, ha, hq⟩ | ⟨r, left, -, hq⟩
  · exact hstage
  · rw [hp] at hq
    injection hq with hconnecting
    exact absurd hconnecting.symm ha
  · rw [hp] at hq
    cases hq

lemma Stage.Fits.resting {stage : Stage} {left : Nat} (h : stage.Fits l)
    (hp : l.phase = .pausing left) : ∃ r, stage = .resting r ∧ l.lastError = r.error ∧
      left + total r.pauses = l.who.delay ∧ (r.pauses = [] ∨ 0 < left) := by
  rcases h.phase_cases with ⟨-, hq⟩ | ⟨part, a, -, -, hq⟩ | ⟨r, left', rfl, -⟩
  · rw [hp] at hq
    cases hq
  · rw [hp] at hq
    cases hq
  · obtain ⟨left', hleft, he, htotal, hpos⟩ := h
    rw [hp] at hleft
    cases hleft
    exact ⟨r, rfl, he, htotal, hpos⟩

/-- An attempt that is not over has no error to report. -/
lemma Stage.Fits.round_eq_none {stage : Stage} {a : Attempt} (h : stage.Fits l)
    (hp : l.phase = .attempting a) : stage.round? = none := by
  rcases h.phase_cases with ⟨rfl, -⟩ | ⟨part, a', rfl, -⟩ | ⟨r, left, -, hq⟩
  · rfl
  · rfl
  · rw [hp] at hq
    cases hq

lemma Story.reading {rounds : List Round} {stage : Stage} {outcome : Outcome} {f : Feed}
    (h : Story l τ rounds stage outcome) (hc : l.canceled = false)
    (hp : l.phase = .attempting (.reading f) ∨ l.phase = .attempting (.pushing f)) :
    ∃ p, outcome = .goingOn ∧ stage = .trying (some p) := by
  obtain ⟨rfl, hf⟩ := h.goes_on hc
  obtain ⟨p, rfl⟩ := hf.reading hp
  exact ⟨p, rfl, rfl⟩

/-- The last wait of a pause makes it a full one. -/
lemma Story.resumed {rounds : List Round} {r : Round} {n ms : Nat}
    (h : Story l τ rounds (.resting r) .goingOn) (htotal : n + total r.pauses = l.who.delay)
    (hpos : r.pauses = [] ∨ 0 < n) (hle : n ≤ ms) (hwho : l'.who = l.who)
    (hc : l'.canceled = false) (hp : l'.phase = .attempting .connecting) :
    Story l' (τ ++ [.passed ms]) (rounds ++ [{ r with pauses := r.pauses ++ [ms] }]) .ready
      .goingOn where
  waited := by
    intro r' hr'
    rw [hwho]
    rcases List.mem_append.mp hr' with hr' | hr'
    · exact h.waited r' hr'
    · obtain rfl := List.mem_singleton.mp hr'
      refine ⟨r.pauses, ms, rfl, hpos.imp_right fun hpos => ?_, ?_⟩
      · omega
      · omega
  events := by simp [h.events, Stage.events, Round.events, Outcome.events]
  fits := ⟨hc, hp⟩

/-- **One move, and the story goes on.** -/
theorem Does.tells (hdoes : Does l hub move υ hub' l') (h : l.Tells τ) : l'.Tells (τ ++ υ) := by
  obtain ⟨rounds, stage, outcome, h⟩ := h
  cases hdoes with
  | idle => exact ⟨rounds, stage, outcome, by simpa using h⟩
  | asked hc hp =>
    obtain ⟨rfl, hf⟩ := h.goes_on hc
    obtain rfl := hf.ready hp
    exact ⟨rounds, .trying none, .goingOn, h.next rfl hc rfl ⟨_, .inl rfl⟩⟩
  | @opened f hc hp =>
    obtain ⟨rfl, hf⟩ := h.goes_on hc
    obtain rfl := hf.awaiting hp
    exact tells_of_trying (some (f, [])) h rfl hc rfl (.inr ⟨f, .inl rfl⟩)
  | refused hc hp =>
    obtain ⟨rfl, hf⟩ := h.goes_on hc
    obtain rfl := hf.awaiting hp
    exact tells_of_ended none [] h rfl hc rfl rfl (List.append_nil _).symm
  | hangs hc hp =>
    obtain ⟨rfl, hf⟩ := h.goes_on hc
    obtain rfl := hf.awaiting hp
    exact tells_of_trying none h rfl hc rfl ⟨.waits, .inr rfl⟩
  | @entered f g m change hc hp ha hq =>
    obtain ⟨⟨f₀, ms⟩, rfl, rfl⟩ := h.reading hc (.inl hp)
    exact tells_of_trying (some (f₀, ms ++ [m])) h rfl hc (by simp [readEvents])
      (.inr ⟨g, .inl rfl⟩)
  | @blocked f g m change hc hp ha hq =>
    obtain ⟨⟨f₀, ms⟩, rfl, rfl⟩ := h.reading hc (.inl hp)
    exact tells_of_trying (some (f₀, ms ++ [m])) h rfl hc (by simp [readEvents])
      (.inr ⟨g, .inr rfl⟩)
  | @closed f g m hc hp ha hq =>
    obtain ⟨⟨f₀, ms⟩, rfl, rfl⟩ := h.reading hc (.inl hp)
    exact tells_of_ended (some (f₀, ms ++ [m])) [.decoded m] h rfl hc rfl rfl
      (by simp [readEvents])
  | control hc hp ha =>
    obtain ⟨p, rfl, rfl⟩ := h.reading hc (.inl hp)
    exact tells_of_trying (some p) h rfl hc (List.append_nil _).symm (.inr ⟨_, .inl rfl⟩)
  | finished hc hp ha =>
    obtain ⟨p, rfl, rfl⟩ := h.reading hc (.inl hp)
    exact tells_of_ended (some p) [] h rfl hc rfl rfl (List.append_nil _).symm
  | failed hc hp ha =>
    obtain ⟨p, rfl, rfl⟩ := h.reading hc (.inl hp)
    exact tells_of_ended (some p) [] h rfl hc rfl rfl (List.append_nil _).symm
  | silent hc hp ha =>
    obtain ⟨p, rfl, rfl⟩ := h.reading hc (.inl hp)
    exact tells_of_trying (some p) h rfl hc (List.append_nil _).symm (.inl rfl)
  | woken hc hp ho =>
    obtain ⟨p, rfl, rfl⟩ := h.reading hc (.inr hp)
    exact tells_of_trying (some p) h rfl hc (List.append_nil _).symm (.inr ⟨_, .inl rfl⟩)
  | dropped hc hp =>
    obtain ⟨p, rfl, rfl⟩ := h.reading hc (.inr hp)
    exact tells_of_ended (some p) [] h rfl hc rfl rfl (List.append_nil _).symm
  | cut hm hc hp =>
    -- an attempt that is cut short reports no error, so the last one is that of its stage
    obtain ⟨ms, rfl, hf⟩ := h.stops hc (by simp [hp])
    have hnone := hf.round_eq_none hp
    have herror : stage.error = none := by rw [Stage.error, hnone, Option.bind_none]
    refine ⟨rounds, stage, .stopped ms (l.waiting hub), h.waited, ?_, hc, rfl, herror.symm⟩
    simp [h.events, Outcome.events, hnone, herror]
  | left hm hc hp =>
    obtain ⟨ms, rfl, hf⟩ := h.stops hc (by simp [hp])
    obtain ⟨r, rfl, he, -⟩ := hf.resting hp
    refine ⟨rounds, .resting r, .stopped ms [], h.waited, ?_, hc, rfl, he⟩
    simp [h.events, Outcome.events, Stage.round?, Stage.error, he]
  | @passed n ms hc hp hlt =>
    obtain ⟨rfl, hf⟩ := h.goes_on hc
    obtain ⟨r, rfl, he, htotal, -⟩ := hf.resting hp
    refine ⟨rounds, .resting { r with pauses := r.pauses ++ [ms] }, .goingOn,
      h.next rfl hc (by simp [Stage.events, Round.events]) ⟨n - ms, rfl, he, ?_, .inr ?_⟩⟩
    · rw [total_concat]
      simp only
      omega
    · omega
  | @resumed n ms hc hp hle =>
    obtain ⟨rfl, hf⟩ := h.goes_on hc
    obtain ⟨r, rfl, -, htotal, hpos⟩ := hf.resting hp
    exact ⟨_, .ready, .goingOn, h.resumed htotal hpos hle rfl hc rfl⟩
  | told hc =>
    obtain ⟨rfl, hf⟩ := h.goes_on hc
    refine ⟨rounds, stage, .told (l.waiting hub), h.waited, ?_, rfl, ?_⟩
    · simp [h.events, Outcome.events]
    · -- being told changes neither the phase nor the last error
      cases stage with
      | ready | resting r => exact hf
      | trying part => cases part <;> exact hf

end OneMove

/-! ### The log -/

/-- The line of the log that an event leaves. -/
def Event.logged? (who : Listener) : Event → Option LogEntry
  | .ended (some e) => some (.failed who.name e)
  | .exited last => some (.exited who.name last)
  | _ => none

/-- What a trace leaves in the log. -/
def entriesIn (who : Listener) (τ : List Event) : List LogEntry := τ.filterMap (Event.logged? who)

section Entries

variable (who : Listener) (τ υ : List Event)

@[simp] lemma entriesIn_nil : entriesIn who [] = [] := rfl

@[simp] lemma entriesIn_cons (e : Event) :
    entriesIn who (e :: τ) = (e.logged? who).toList ++ entriesIn who τ := by
  rw [entriesIn, List.filterMap_cons]
  rcases e.logged? who with _ | entry <;> rfl

@[simp] lemma entriesIn_append : entriesIn who (τ ++ υ) = entriesIn who τ ++ entriesIn who υ :=
  List.filterMap_append

lemma entriesIn_map {α : Type} {f : α → Event} (hf : ∀ x, (f x).logged? who = none)
    (xs : List α) : entriesIn who (xs.map f) = [] := by
  induction xs with
  | nil => rfl
  | cons x xs ih => simp [hf, ih]

@[simp] lemma entriesIn_readEvents (part : Option Part) : entriesIn who (readEvents part) = [] := by
  cases part with
  | none => rfl
  | some p =>
    rw [readEvents, entriesIn_cons, entriesIn_map who fun _ => rfl]
    rfl

@[simp] lemma entriesIn_round (r : Round) : entriesIn who r.events = r.entries who := by
  have hpauses : entriesIn who (r.pauses.map .passed) = [] := entriesIn_map who (fun _ => rfl) _
  rcases r with ⟨part, _ | e, pauses⟩ <;>
    simp [Round.events, Round.entries, Event.logged?, hpauses]

lemma entriesIn_rounds (rounds : List Round) :
    entriesIn who (rounds.flatMap Round.events) = rounds.flatMap (Round.entries who) := by
  induction rounds with
  | nil => rfl
  | cons r rounds ih => simp [ih]

end Entries

lemma Does.log {l l' : Loop} {hub hub' : Hub} {move : Move} {υ : List Event}
    (hdoes : Does l hub move υ hub' l') : hub'.log = hub.log ++ entriesIn l.who υ := by
  cases hdoes with
  | _ => simp [note, Hub.accept, Event.logged?]

/-- **What the log tells is the story:** one line for every attempt that failed, and one for the
end. -/
theorem Story.entries {l : Loop} {τ : List Event} {rounds : List Round} {stage : Stage}
    {outcome : Outcome} (h : Story l τ rounds stage outcome) (who : Listener) :
    entriesIn who τ =
      (rounds ++ stage.round?.toList).flatMap (Round.entries who) ++ outcome.entries who stage := by
  have hstage : entriesIn who stage.events =
      stage.round?.toList.flatMap (Round.entries who) := by
    cases stage with
    | ready => rfl
    | trying part => simp [Stage.events, Stage.round?, Event.logged?]
    | resting r => simp [Stage.events, Stage.round?]
  have houtcome : entriesIn who (outcome.events stage) = outcome.entries who stage := by
    cases outcome with
    | goingOn | told ms => rfl
    | stopped ms withdrawn =>
      by_cases hr : stage.round?.isSome <;>
        simp [Outcome.events, Outcome.entries, Event.logged?, hr]
  rw [h.events, entriesIn_append, entriesIn_append, entriesIn_rounds, hstage, houtcome,
    List.flatMap_append]

/-! ### Requests -/

lemma openFeed_requests (net : Network) (url : String) (options : List RequestOption) :
    ∃ sent : List Request, (net.openFeed url options).1.requests = net.requests ++ sent ∧
      sent.length ≤ 1 := by
  have hsend : ∀ r : Request, ∃ sent : List Request,
      (net.send r).1.requests = net.requests ++ sent ∧ sent.length ≤ 1 := by
    intro r
    unfold send
    split
    · exact ⟨[], by simp, by simp⟩
    · simp only
      split <;> exact ⟨[r], rfl, by simp⟩
  have hrequest : ∃ sent : List Request,
      (net.request .get (feedAddress url) options []).1.requests = net.requests ++ sent ∧
      sent.length ≤ 1 := by
    unfold request
    split
    · exact ⟨[], by simp, by simp⟩
    · split
      · exact ⟨[], by simp, by simp⟩
      · exact hsend _
  have hsame : (net.openFeed url options).1.requests =
      (net.request .get (feedAddress url) options []).1.requests := by
    unfold openFeed
    rcases net.request .get (feedAddress url) options [] with ⟨net', e | ⟨status, body⟩⟩
    · rfl
    · simp only
      split
      · rfl
      · split <;> rfl
  rw [hsame]
  exact hrequest

/-- Only asking for a feed sends a request, and one at most. -/
lemma Does.sent {l l' : Loop} {hub hub' : Hub} {move : Move} {υ : List Event}
    (hdoes : Does l hub move υ hub' l') :
    ∃ sent : List Request, hub'.network.requests = hub.network.requests ++ sent ∧
      sent.length ≤ υ.count .asked := by
  cases hdoes with
  | asked hc hp =>
    obtain ⟨sent, hsent, hlen⟩ := openFeed_requests hub.network l.who.topicUrl l.who.options
    exact ⟨sent, hsent, by simpa using hlen⟩
  | _ => exact ⟨[], by simp [note, leave, Hub.accept], by simp⟩

/-! ### After being told to stop -/

/-- Nothing is sent, and nothing is pushed. -/
structure Silent (l : Loop) (hub hub' : Hub) : Prop where
  requests : hub'.network.requests = hub.network.requests
  queue : hub'.queue = hub.queue ∨ hub'.queue = hub.queue.withdraw l.ticket
  handed : hub'.handed = hub.handed

/-- A listener that was told to stop keeps silent. -/
lemma Does.silence {l l' : Loop} {hub hub' : Hub} {move : Move} {υ : List Event}
    (hdoes : Does l hub move υ hub' l') (hc : l.canceled = true) :
    l'.canceled = true ∧ Silent l hub hub' := by
  cases hdoes with
  | idle => exact ⟨hc, rfl, .inl rfl, rfl⟩
  | cut hm _ hp => exact ⟨hc, rfl, .inr rfl, rfl⟩
  | left hm _ hp => exact ⟨hc, rfl, .inl rfl, rfl⟩
  | asked hc' | opened hc' | refused hc' | hangs hc' | entered hc' | blocked hc' | closed hc'
  | control hc' | finished hc' | failed hc' | silent hc' | woken hc' | dropped hc' | passed hc'
  | resumed hc' | told hc' => rw [hc] at hc'; cases hc'

/-- It stops with the next move of its own. -/
lemma step_exits {l : Loop} (hc : l.canceled = true) (hub : Hub) :
    (l.step hub).2.phase = .exited := by
  rw [step, if_pos hc, stop]
  split
  · next hp => exact hp
  · rfl
  · rfl

/-! ### A whole life -/

section Life

variable (who : Listener) (ticket : Ticket) (moves : List (Hub × Move))

lemma life_concat (m : Hub × Move) :
    life who ticket (moves ++ [m]) = (life who ticket moves).move m := by
  simp [life]

lemma life_who : (life who ticket moves).loop.who = who := by
  induction moves using List.reverseRecOn with
  | nil => rfl
  | append_singleton moves m ih =>
    rw [life_concat]
    exact (act_does _ m.1 m.2).who_eq.1.trans ih

lemma life_tells : (life who ticket moves).loop.Tells (life who ticket moves).events := by
  induction moves using List.reverseRecOn with
  | nil => exact tells_new who ticket
  | append_singleton moves m ih =>
    rw [life_concat]
    exact (act_does _ m.1 m.2).tells ih

lemma life_entries : (life who ticket moves).entries =
    entriesIn who (life who ticket moves).events := by
  induction moves using List.reverseRecOn with
  | nil => rfl
  | append_singleton moves m ih =>
    have hlog := (act_does (life who ticket moves).loop m.1 m.2).log
    rw [life_who] at hlog
    simp only [life_concat, Life.move, entriesIn_append, ih, hlog, List.drop_left]

lemma life_sent : (life who ticket moves).sent.length ≤
    (life who ticket moves).events.count .asked := by
  induction moves using List.reverseRecOn with
  | nil => exact Nat.le_refl 0
  | append_singleton moves m ih =>
    obtain ⟨sent, hsent, hlen⟩ := (act_does (life who ticket moves).loop m.1 m.2).sent
    simp only [life_concat, Life.move, hsent, List.drop_left, List.length_append,
      List.count_append]
    exact Nat.add_le_add ih hlen

/-- **Reconnecting.** However the attempts of a listener end and whenever it is told to stop, its
life is a story of attempts with one full pause between any two. The log has one line for every
attempt that came to its end with an error, and one for the exit. The result is the error of the
last attempt if that one came to its end by itself, and nothing else. With every attempt goes one
request at most. Once it was told to stop, a listener sends nothing and pushes nothing, and its next
move is the last. -/
theorem reconnect (who : Listener) (ticket : Ticket) (moves : List (Hub × Move)) :
    let x := life who ticket moves
    x.loop.who = who ∧
    (∃ rounds stage outcome, Story x.loop x.events rounds stage outcome ∧
      x.entries = (rounds ++ stage.round?.toList).flatMap (Round.entries who) ++
        outcome.entries who stage ∧
      (x.loop.phase = .exited → (∃ waiting withdrawn, outcome = .stopped waiting withdrawn) ∧
        ∀ e, x.loop.lastError = some e ↔ ∃ r, stage = .resting r ∧ r.error = some e)) ∧
    x.sent.length ≤ x.events.count .asked ∧
    (x.loop.canceled = true →
      (∀ m, (x.move m).loop.canceled = true ∧ (x.move m).sent = x.sent ∧
        Silent x.loop m.1 (x.loop.act m.1 m.2).1) ∧
      ∀ hub, (x.move (hub, .step)).loop.phase = .exited) := by
  intro x
  obtain ⟨rounds, stage, outcome, hstory⟩ := life_tells who ticket moves
  refine ⟨life_who who ticket moves, ⟨rounds, stage, outcome, hstory, ?_, fun hexit => ?_⟩,
    life_sent who ticket moves, fun hc => ⟨fun m => ?_, fun hub => step_exits hc hub⟩⟩
  · rw [life_entries]
    exact hstory.entries who
  · exact hstory.result hexit
  · obtain ⟨hc', hsilent⟩ := (act_does x.loop m.1 m.2).silence hc
    refine ⟨hc', ?_, hsilent⟩
    simp only [Life.move, hsilent.requests, List.drop_length, List.append_nil]

end Life

/-- A hub where nobody answers. -/
def deadHub : Hub where
  network := { isPresent := fun _ => false, script := .inOrder [], beyond := .dropped }
  queue := { capacity := 1 }

/-- An attempt fails, the pause passes, and the next attempt is cut short. -/
def failThenStop : List (Hub × Move) :=
  [.step, .step, .elapse 60, .elapse 40, .step, .cancel, .step].map fun m => (deadHub, m)

def caller : Listener where
  topicUrl := "http://h/t"
  subscriptionId := "0123456789"
  options := []
  delay := 100

theorem reconnect_cut_short :
    (life caller 0 failThenStop).entries =
      [.failed caller.name (.transport (.unanswered "http://h/t/json")),
        .exited caller.name none] ∧
    ∃ rounds stage outcome,
      Story (life caller 0 failThenStop).loop (life caller 0 failThenStop).events rounds stage
        outcome ∧
      (∃ waiting withdrawn, outcome = .stopped waiting withdrawn) ∧
      ∀ m, ((life caller 0 failThenStop).move m).sent = (life caller 0 failThenStop).sent := by
  have hexit : (life caller 0 failThenStop).loop.phase = .exited := by decide +kernel
  have hc : (life caller 0 failThenStop).loop.canceled = true := by decide +kernel
  obtain ⟨-, ⟨rounds, stage, outcome, hstory, -, hresult⟩, -, hsilent⟩ :=
    reconnect caller 0 failThenStop
  exact ⟨by decide +kernel, rounds, stage, outcome, hstory, (hresult hexit).1,
    fun m => ((hsilent hc).1 m).2.1⟩

end TopicFeed.Loop
