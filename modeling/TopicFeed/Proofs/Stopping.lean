import TopicFeed.Proofs.Queue
import TopicFeed.Proofs.Tracking

/-!
Loops that were told to stop.

Such a loop has one move left, its last, and then it is done for good. What the last move changes is
the loop's own: the push that it waits with and the connection that it leaves.
-/

namespace TopicFeed

/-- Only what waits under the ticket may be taken back, and connections may be left. -/
structure Hub.Spares (t : Ticket) (hub hub' : Hub) : Prop where
  network : hub'.network = { hub.network with hangups := hub'.network.hangups }
  queue : hub'.queue = hub.queue ∨ hub'.queue = hub.queue.withdraw t
  handed : hub'.handed = hub.handed

namespace Hub.Spares

variable {t : Ticket} {hub hub' hub'' : Hub}

lemma refl (t : Ticket) (hub : Hub) : hub.Spares t hub := ⟨rfl, .inl rfl, rfl⟩

lemma trans (h : hub.Spares t hub') (h' : hub'.Spares t hub'') : hub.Spares t hub'' where
  network := h'.network.trans (by rw [h.network])
  queue := by
    rcases h.queue with hq | hq <;> rcases h'.queue with hq' | hq' <;> rw [hq', hq]
    · exact .inl rfl
    · exact .inr rfl
    · exact .inr rfl
    · refine .inr (Queue.withdraw_of_none fun p hp => ?_)
      simpa using (List.mem_filter.mp hp).2
  handed := h'.handed.trans h.handed

end Hub.Spares

/-! ### One loop -/

namespace Loop

variable {l : Loop}

@[simp] lemma phase_stop (l : Loop) (hub : Hub) : (l.stop hub).2.phase = .exited := by
  unfold stop
  split
  · assumption
  · rfl
  · rfl

@[simp] lemma canceled_stop (l : Loop) (hub : Hub) : (l.stop hub).2.canceled = l.canceled := by
  unfold stop
  split <;> rfl

lemma spares_stop (l : Loop) (hub : Hub) : hub.Spares l.ticket (l.stop hub).1 := by
  unfold stop
  split
  · exact .refl _ hub
  · exact ⟨rfl, .inl rfl, rfl⟩
  · exact ⟨rfl, .inr rfl, rfl⟩

lemma stop_of_exited (hp : l.phase = .exited) (hub : Hub) : l.stop hub = (hub, l) := by
  rw [stop, hp]

/-- A loop that stops takes back what waits under its ticket, if only an attempt waits there. -/
lemma queue_stop {hub : Hub}
    (h : ∀ p ∈ hub.queue.pushes, p.1 = l.ticket → ∃ a, l.phase = .attempting a) :
    (l.stop hub).1.queue = hub.queue.withdraw l.ticket := by
  have hnone (hp : ∀ a, l.phase ≠ .attempting a) : hub.queue.withdraw l.ticket = hub.queue :=
    Queue.withdraw_of_none fun p hmem ht => by
      obtain ⟨a, ha⟩ := h p hmem ht
      exact hp a ha
  unfold stop
  split
  · next hp => exact (hnone (by simp [hp])).symm
  · next hp => exact (hnone (by simp [hp])).symm
  · rfl

/-- **A loop that was told to stop** does nothing but stop, whatever happens to it. -/
lemma act_of_canceled (hc : l.canceled = true) (hub : Hub) (move : Move) :
    l.act hub move = (hub, l) ∨ l.act hub move = l.stop hub := by
  cases move with
  | step => exact .inr (by simp [act, step, hc])
  | wake outcome => exact .inr (by simp [act, wake, hc])
  | elapse ms => exact .inl (by cases hp : l.phase <;> simp [act, elapse, hp, hc])
  | cancel => exact .inl (by rw [act, cancel, ← hc])

/-- A loop that was told to stop and did is done for good. -/
lemma act_of_done (hc : l.canceled = true) (hp : l.phase = .exited) (hub : Hub) (move : Move) :
    l.act hub move = (hub, l) := by
  rcases act_of_canceled hc hub move with h | h
  · exact h
  · rw [h, stop_of_exited hp]

lemma step_of_canceled (hc : l.canceled = true) (hub : Hub) : l.step hub = l.stop hub := by
  simp [step, hc]

/-- A loop that was told to stop comes to rest in one step. -/
lemma settle_of_canceled (hc : l.canceled = true) (hub : Hub) : l.settle hub = l.step hub := by
  have hdone (m : Loop) (hub : Hub) (hp : m.phase = .exited) : m.settle hub = (hub, m) := by
    rw [settle, dif_pos (by simp [isAtRest, hp])]
  by_cases hp : l.phase = .exited
  · rw [hdone l hub hp, step_of_canceled hc, stop_of_exited hp]
  · have hrest : ¬l.isAtRest = true := by
      cases hp' : l.phase with
      | exited => exact absurd hp' hp
      | attempting a => simp [isAtRest, hp', hc]
      | pausing n => simp [isAtRest, hp', hc]
    rw [settle, dif_neg hrest]
    exact hdone _ _ (by rw [step_of_canceled hc, phase_stop])

end Loop

/-! ### The other loops -/

namespace Client

open Loop

/-- The loop at the place waits under its own ticket. -/
lemma ticket_course (settings : Settings) (network : Network) (moves : List Move) :
    AllLoops (fun t l => l.ticket = t) (course settings network moves).client :=
  allLoops_course (P := fun t l => l.ticket = t)
    (fun _ l hub move h => (act_does l hub move).who_eq.2.trans h)
    (fun _ _ _ _ _ _ _ _ => rfl) network moves

/-- The loop of the ticket was told to stop. -/
def Told (t u : Ticket) (l : Loop) : Prop := u = t → l.ticket = t ∧ l.canceled = true

/-- The loop of the ticket was told to stop, and did. -/
def Done (t u : Ticket) (l : Loop) : Prop := u = t → l.canceled = true ∧ l.phase = .exited

lemma keeps_told (t : Ticket) : Keeps (Told t) := by
  rintro u l hub move h rfl
  obtain ⟨hticket, hc⟩ := h rfl
  refine ⟨(act_does l hub move).who_eq.2.trans hticket, ?_⟩
  rcases act_of_canceled hc hub move with hact | hact
  · rw [hact, hc]
  · rw [hact, canceled_stop, hc]

lemma keeps_done (t : Ticket) : Keeps (Done t) := by
  rintro u l hub move h rfl
  obtain ⟨hc, hp⟩ := h rfl
  rw [act_of_done hc hp]
  exact ⟨hc, hp⟩

/-- The loop of a ticket may have moved, and its subscription may have ended. Everything else is as
it was, but for connections that were left and lines in the log. -/
structure Spares (t : Ticket) (c c' : Client) : Prop where
  settings : c'.settings = c.settings
  listeners : c'.listeners = c.listeners
  listed : c'.registry.live.filter (·.task ≠ t) = c.registry.live.filter (·.task ≠ t)
  loops : ∀ u, u ≠ t → c'.loops[u]? = c.loops[u]?
  hub : c.hub.Spares t c'.hub

namespace Spares

variable {t : Ticket} {c c' c'' : Client}

lemma refl (t : Ticket) (c : Client) : c.Spares t c :=
  ⟨rfl, rfl, rfl, fun _ _ => rfl, .refl t c.hub⟩

lemma trans (h : c.Spares t c') (h' : c'.Spares t c'') : c.Spares t c'' where
  settings := h'.settings.trans h.settings
  listeners := h'.listeners.trans h.listeners
  listed := h'.listed.trans h.listed
  loops u hu := (h'.loops u hu).trans (h.loops u hu)
  hub := h.hub.trans h'.hub

end Spares

lemma loops_withLoop_of_ne (c : Client) {t u : Ticket} (hu : u ≠ t)
    (act : Loop → Hub → Hub × Loop) : (c.withLoop t act).loops[u]? = c.loops[u]? := by
  unfold withLoop
  split
  · rfl
  · exact List.getElem?_set_ne (Ne.symm hu)

lemma loops_withLoop_self {c : Client} {t : Ticket} {l : Loop} (hl : c.loops[t]? = some l)
    (act : Loop → Hub → Hub × Loop) :
    (c.withLoop t act).loops[t]? = some (act l c.hub).2 ∧
      (c.withLoop t act).hub = (act l c.hub).1 := by
  have hlt := (List.getElem?_eq_some_iff.mp hl).1
  rw [withLoop, hl]
  exact ⟨List.getElem?_set_self hlt, rfl⟩

lemma withLoop_of_none {c : Client} {t : Ticket} (hl : c.loops[t]? = none)
    (act : Loop → Hub → Hub × Loop) : c.withLoop t act = c := by
  rw [withLoop, hl]

/-- **A loop that was told to stop** spares everything that is not its own. -/
lemma spares_withLoop {c : Client} {t : Ticket} (h : AllLoops (Told t) c) (move : Loop.Move) :
    c.Spares t (c.withLoop t fun l hub => l.act hub move) := by
  refine ⟨settings_withLoop _ _ _, listeners_moveLoops c [(t, move)], by rw [registry_withLoop],
    fun u hu => loops_withLoop_of_ne c hu _, ?_⟩
  rcases hl : c.loops[t]? with _ | l
  · rw [withLoop_of_none hl]
    exact .refl t c.hub
  · obtain ⟨hticket, hc⟩ := h t l hl rfl
    rw [(loops_withLoop_self hl _).2]
    rcases act_of_canceled hc c.hub move with hact | hact
    · rw [hact]
      exact .refl t c.hub
    · rw [hact, ← hticket]
      exact spares_stop l c.hub

/-- Moves of the loop of one ticket. -/
def movesOf (t : Ticket) (own : List Loop.Move) : List (Ticket × Loop.Move) :=
  own.map fun move => (t, move)

/-- However often it moves. -/
lemma spares_moveLoops {c : Client} {t : Ticket} (h : AllLoops (Told t) c) (own : List Loop.Move) :
    c.Spares t (c.moveLoops (movesOf t own)) := by
  induction own generalizing c with
  | nil => exact .refl t c
  | cons move own ih =>
    exact (spares_withLoop h move).trans (ih (h.withLoop (keeps_told t) t move))

/-- One step of its own, and it is done. -/
lemma done_of_step {c : Client} {t : Ticket} (h : AllLoops (Told t) c) :
    AllLoops (Done t) (c.step t) := by
  rintro u l hl rfl
  rcases hold : c.loops[u]? with _ | l'
  · rw [step, withLoop_of_none hold, hold] at hl
    cases hl
  · obtain ⟨-, hc⟩ := h u l' hold rfl
    rw [step, (loops_withLoop_self hold _).1, step_of_canceled hc] at hl
    cases hl
    exact ⟨by rw [canceled_stop, hc], phase_stop _ _⟩

lemma done_of_moveLoops {c : Client} {t : Ticket} (h : AllLoops (Told t) c) {own : List Loop.Move}
    (hstep : .step ∈ own) : AllLoops (Done t) (c.moveLoops (movesOf t own)) := by
  obtain ⟨before, after, rfl⟩ := List.append_of_mem hstep
  rw [movesOf, List.map_append, moveLoops, List.foldl_append]
  have htold := h.moveLoops (keeps_told t) (movesOf t before)
  exact (done_of_step htold).moveLoops (keeps_done t) (movesOf t after)

/-- A loop that is done stays as it is, whatever happens to the client. -/
lemma loop_act_of_done {c : Client} {t : Ticket} {l : Loop} (hl : c.loops[t]? = some l)
    (hc : l.canceled = true) (hp : l.phase = .exited) (m : Move) :
    (c.act m).1.loops[t]? = some l := by
  have hlt : t < c.loops.length := (List.getElem?_eq_some_iff.mp hl).1
  have hsame : AllLoops (fun u l' => u = t → l' = l) (c.act m).1 := by
    refine AllLoops.act ?_ ?_ (fun _ _ _ _ _ _ hlen => absurd hlen (Nat.ne_of_gt hlt)) m
    · rintro u l' hl' rfl
      exact Option.some.inj (hl'.symm.trans hl)
    · rintro u l' hub move h rfl
      rw [h rfl, act_of_done hc hp]
  have hthere : (c.act m).1.listeners[t]? = some l.who :=
    listeners_act (by rw [listeners_getElem?, hl]; rfl) m
  rw [listeners_getElem?] at hthere
  obtain ⟨l', hl', -⟩ := Option.map_eq_some_iff.mp hthere
  rw [hl', hsame t l' hl' rfl]

lemma loop_run_of_done {r : Course} {t : Ticket} {l : Loop} (hl : r.client.loops[t]? = some l)
    (hc : l.canceled = true) (hp : l.phase = .exited) (moves : List Move) :
    (r.run moves).client.loops[t]? = some l := by
  induction moves generalizing r with
  | nil => exact hl
  | cons m moves ih => exact ih (loop_act_of_done hl hc hp m)

end Client

end TopicFeed
