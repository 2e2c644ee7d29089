import TopicFeed.Proofs.Reading

/-!
Which messages of a listener wait for a place.

A listener waits with at most one message, and only while it pushes. Being told to stop notes that
message, and stopping withdraws it or finds that it has entered meanwhile.
-/

namespace TopicFeed.Loop

open Queue

/-- The messages that wait for a place, by what the listener is doing and what was seen of it. -/
structure Waits (l : Loop) (τ : List Event) (waiting : List Message) : Prop where
  single : waiting.length ≤ 1
  pushing : waiting ≠ [] ↔ ∃ f, l.phase = .attempting (.pushing f)
  heard : l.canceled = false → l.phase ≠ .exited ∧ toldIn τ = [] ∧ withdrawnIn τ = []
  stopping : l.canceled = true → l.phase ≠ .exited → toldIn τ = waiting ∧ withdrawnIn τ = []
  stopped : l.phase = .exited →
    (toldIn τ).length ≤ 1 ∧ (withdrawnIn τ = [] ∨ withdrawnIn τ = toldIn τ)

namespace Waits

variable {l l' : Loop} {τ υ : List Event} {waiting : List Message}

/-- A message waits only in front of a push. -/
lemma eq_nil (h : l.Waits τ waiting) (hp : ∀ f, l.phase ≠ .attempting (.pushing f)) :
    waiting = [] := by
  by_contra hne
  obtain ⟨f, hf⟩ := h.pushing.mp hne
  exact hp f hf

/-- A listener is told to stop only once, and waits with at most one message then. -/
lemma told_length (h : l.Waits τ waiting) : (toldIn τ).length ≤ 1 := by
  by_cases hp : l.phase = .exited
  · exact (h.stopped hp).1
  · cases hc : l.canceled with
    | false => simp [(h.heard hc).2.1]
    | true =>
      rw [(h.stopping hc hp).1]
      exact h.single

/-- Only what waited when the listener was told to stop is ever withdrawn. -/
lemma withdrawn (h : l.Waits τ waiting) :
    withdrawnIn τ = [] ∨ (l.phase = .exited ∧ l.canceled = true ∧ withdrawnIn τ = toldIn τ) := by
  cases hc : l.canceled with
  | false => exact .inl (h.heard hc).2.2
  | true =>
    by_cases hp : l.phase = .exited
    · rcases (h.stopped hp).2 with hw | hw
      · exact .inl hw
      · exact .inr ⟨hp, rfl, hw⟩
    · exact .inl (h.stopping hc hp).2

lemma goes_on (h : l.Waits τ waiting) (hc : l.canceled = false) (hc' : l'.canceled = false)
    (hp' : l'.phase ≠ .exited) (hn : ∀ f, l'.phase ≠ .attempting (.pushing f))
    (ht : toldIn υ = []) (hw : withdrawnIn υ = []) : l'.Waits (τ ++ υ) [] where
  single := by simp
  pushing := ⟨fun hne => absurd rfl hne, fun ⟨f, hf⟩ => absurd hf (hn f)⟩
  heard _ := by
    obtain ⟨-, htold, hwithdrawn⟩ := h.heard hc
    exact ⟨hp', by simp [htold, ht], by simp [hwithdrawn, hw]⟩
  stopping htrue := by rw [hc'] at htrue; cases htrue
  stopped he := absurd he hp'

/-- A move that leaves the queue alone, of a listener that does not push. -/
lemma quiet {hub hub' : Hub} {p p' : Phase} (h : l.Waits τ (l.waiting hub))
    (hq : hub'.queue = hub.queue) (ht : l'.ticket = l.ticket) (hc : l.canceled = false)
    (hp : l.phase = p) (hn : ∀ f, p ≠ .attempting (.pushing f)) (hc' : l'.canceled = false)
    (hp' : l'.phase = p') (hne' : p' ≠ .exited) (hn' : ∀ f, p' ≠ .attempting (.pushing f))
    (htold : toldIn υ = []) (hwithdrawn : withdrawnIn υ = []) :
    l'.Waits (τ ++ υ) (l'.waiting hub') := by
  have hw : l'.waiting hub' = [] := by
    rw [waiting, hq, ht]
    exact h.eq_nil fun f => by rw [hp]; exact hn f
  rw [hw]
  exact h.goes_on hc hc' (hp' ▸ hne') (fun f => hp' ▸ hn' f) htold hwithdrawn

lemma begins {m : Message} (h : l.Waits τ waiting) (hc : l.canceled = false)
    (hc' : l'.canceled = false) (hp' : ∃ f, l'.phase = .attempting (.pushing f))
    (ht : toldIn υ = []) (hw : withdrawnIn υ = []) : l'.Waits (τ ++ υ) [m] where
  single := by simp
  pushing := ⟨fun _ => hp', fun _ => by simp⟩
  heard _ := by
    obtain ⟨-, htold, hwithdrawn⟩ := h.heard hc
    obtain ⟨f, hf⟩ := hp'
    exact ⟨by simp [hf], by simp [htold, ht], by simp [hwithdrawn, hw]⟩
  stopping htrue := by rw [hc'] at htrue; cases htrue
  stopped he := by
    obtain ⟨f, hf⟩ := hp'
    rw [hf] at he
    cases he

/-- A listener that stops takes back what is still waiting. -/
lemma stops {waiting' : List Message} (h : l.Waits τ waiting) (hc : l.canceled = true)
    (hp : l.phase ≠ .exited) (hp' : l'.phase = .exited) (hc' : l'.canceled = true)
    (ht : toldIn υ = []) (hw : withdrawnIn υ = waiting')
    (hsub : waiting' = [] ∨ waiting' = waiting) : l'.Waits (τ ++ υ) [] where
  single := by simp
  pushing := by simp [hp']
  heard hfalse := by rw [hc'] at hfalse; cases hfalse
  stopping _ hne := absurd hp' hne
  stopped _ := by
    obtain ⟨htold, hwithdrawn⟩ := h.stopping hc hp
    simp only [withdrawnIn_append, toldIn_append, htold, hwithdrawn, ht, hw, List.nil_append,
      List.append_nil]
    exact ⟨h.single, hsub⟩

end Waits

lemma waits_new (who : Listener) (t : Ticket) : ({ who, ticket := t } : Loop).Waits [] [] where
  single := by simp
  pushing := by simp
  heard _ := ⟨by simp, rfl, rfl⟩
  stopping hc := by cases hc
  stopped he := by cases he

/-- **What waits is accounted for after every move** that is not the end of a push, unless the
queue was closed. -/
theorem Does.waits {l l' : Loop} {hub hub' : Hub} {move : Move} {τ υ : List Event}
    (hdoes : Does l hub move υ hub' l') (h : l.Waits τ (l.waiting hub)) (hfair : hub.queue.Fair)
    (hopen : hub.queue.isOpen = true) (hmove : ∀ o, move ≠ .wake o) :
    l'.Waits (τ ++ υ) (l'.waiting hub') := by
  cases hdoes with
  | idle => simpa using h
  | asked hc hp => exact h.quiet rfl rfl hc hp (by simp) hc rfl (by simp) (by simp) rfl rfl
  | opened hc hp => exact h.quiet rfl rfl hc hp (by simp) hc rfl (by simp) (by simp) rfl rfl
  | refused hc hp => exact h.quiet rfl rfl hc hp (by simp) hc rfl (by simp) (by simp) rfl rfl
  | hangs hc hp => exact h.quiet rfl rfl hc hp (by simp) hc rfl (by simp) (by simp) rfl rfl
  | @entered f g m change hc hp ha hq =>
    obtain ⟨-, hpushes, -⟩ := push_entered hfair hopen hq
    have hw : waitingOf (hub.accept change).queue l.ticket = [] := by
      simp [waitingOf, Hub.accept, hpushes]
    simp only [waiting, hw]
    exact h.goes_on hc hc (by simp) (by simp) rfl rfl
  | @blocked f g m change hc hp ha hq =>
    -- the listener was reading, so nothing of it waited before
    have hw : l.waiting hub = [] := h.eq_nil fun f => by rw [hp]; simp
    have hw' : waitingOf (hub.accept change).queue l.ticket = [m] := by
      rw [waiting, waitingOf] at hw
      rw [push_waiting hq]
      simp [waitingOf, Hub.accept, List.filter_append, hw]
    simp only [waiting, hw']
    exact h.begins hc hc ⟨g, rfl⟩ rfl rfl
  | closed hc hp ha hq => exact absurd hq (push_ne_closed hopen _ _)
  | control hc hp ha => exact h.quiet rfl rfl hc hp (by simp) hc rfl (by simp) (by simp) rfl rfl
  | finished hc hp ha => exact h.quiet rfl rfl hc hp (by simp) hc rfl (by simp) (by simp) rfl rfl
  | failed hc hp ha => exact h.quiet rfl rfl hc hp (by simp) hc rfl (by simp) (by simp) rfl rfl
  | silent hc hp ha => exact h.quiet rfl rfl hc hp (by simp) hc rfl (by simp) (by simp) rfl rfl
  | woken => exact absurd rfl (hmove _)
  | dropped => exact absurd rfl (hmove _)
  | cut hm hc hp =>
    simp only [waiting, note, waitingOf_withdraw_self]
    exact h.stops hc (by simp [hp]) rfl hc (by simp) (by simp [waiting]) (.inr rfl)
  | left hm hc hp =>
    have hw := h.eq_nil fun f => by rw [hp]; simp
    simp only [waiting, note] at hw ⊢
    rw [hw]
    exact h.stops hc (by simp [hp]) rfl hc (by simp) (by simp) (.inl rfl)
  | passed hc hp hlt => exact h.quiet rfl rfl hc hp (by simp) hc rfl (by simp) (by simp) rfl rfl
  | resumed hc hp hle => exact h.quiet rfl rfl hc hp (by simp) hc rfl (by simp) (by simp) rfl rfl
  | told hc =>
    obtain ⟨hne, htold, hwithdrawn⟩ := h.heard hc
    exact {
      single := h.single
      pushing := h.pushing
      heard := fun hfalse => by cases hfalse
      stopping := fun _ _ => by simp [htold, hwithdrawn, waiting, cancel]
      stopped := fun he => absurd he hne }

/-! ### What a move does to the queue -/

/-- The move leaves the queue alone. -/
structure Quiet (hub hub' : Hub) (υ : List Event) : Prop where
  queue : hub'.queue = hub.queue
  handed : hub'.handed = hub.handed
  decoded : decodedIn υ = []
  withdrawn : withdrawnIn υ = []

/-- The move pushes what it decoded. -/
structure Pushes (l : Loop) (hub hub' : Hub) (υ : List Event) (m : Message)
    (change : Change Ticket Message) (outcome : Pushed) : Prop where
  push : hub.queue.push l.ticket m = (change, outcome)
  goes_on : l.canceled = false
  queue : hub'.queue = change.queue
  handed : hub'.handed = hub.handed ++ change.handed
  decoded : decodedIn υ = [m]
  withdrawn : withdrawnIn υ = []

/-- The move takes back what waits. -/
structure Withdraws (l : Loop) (hub hub' : Hub) (υ : List Event) : Prop where
  stops : l.canceled = true ∧ l.phase ≠ .exited
  queue : hub'.queue = hub.queue.withdraw l.ticket
  handed : hub'.handed = hub.handed
  decoded : decodedIn υ = []
  withdrawn : withdrawnIn υ = l.waiting hub

/-- A move leaves an open queue alone, or pushes, or takes back what waits. -/
theorem Does.queue_cases {l l' : Loop} {hub hub' : Hub} {move : Move} {υ : List Event}
    (hdoes : Does l hub move υ hub' l') (hopen : hub.queue.isOpen = true) :
    Quiet hub hub' υ ∨ (∃ m change outcome, Pushes l hub hub' υ m change outcome) ∨
      Withdraws l hub hub' υ := by
  cases hdoes with
  | entered hc hp ha hq => exact .inr (.inl ⟨_, _, _, hq, hc, rfl, rfl, rfl, rfl⟩)
  | blocked hc hp ha hq => exact .inr (.inl ⟨_, _, _, hq, hc, rfl, rfl, rfl, rfl⟩)
  | closed hc hp ha hq => exact absurd hq (push_ne_closed hopen _ _)
  | cut hm hc hp => exact .inr (.inr ⟨⟨hc, by simp [hp]⟩, rfl, rfl, rfl, by simp⟩)
  | _ => exact .inl ⟨rfl, rfl, rfl, rfl⟩

/-! ### The end of a push -/

/-- **The end of a push.** When its push has entered, a listener waits with nothing any more: it
goes on reading, or it stops and finds nothing to withdraw. -/
theorem Does.waits_wake {l l' : Loop} {hub hub' : Hub} {τ υ : List Event} {w : List Message}
    (hdoes : Does l hub (.wake .entered) υ hub' l') (h : l.Waits τ w) (hne : w ≠ [])
    (hw : l.waiting hub = []) : l'.Waits (τ ++ υ) [] ∧ Quiet hub hub' υ := by
  obtain ⟨f, hf⟩ := h.pushing.mp hne
  cases hdoes with
  | idle _ hi => exact absurd hf (hi.2 f)
  | woken hc hp ho =>
    exact ⟨h.goes_on hc hc (by simp) (by simp) rfl rfl, rfl, rfl, rfl, rfl⟩
  | cut hm hc hp =>
    -- the push has entered, so there is nothing to take back
    have hnone : ∀ p ∈ hub.queue.pushes, p.1 ≠ l.ticket := by
      intro p hp ht
      have hmem : p.2 ∈ l.waiting hub :=
        List.mem_map.mpr ⟨p, List.mem_filter.mpr ⟨hp, by simpa using ht⟩, rfl⟩
      simp [hw] at hmem
    exact ⟨h.stops hc (by simp [hp]) rfl hc (by simp) (by simp) (.inl hw),
      withdraw_of_none hnone, rfl, rfl, by simp [hw]⟩
  | left hm hc hp => rw [hp] at hf; cases hf

end TopicFeed.Loop
