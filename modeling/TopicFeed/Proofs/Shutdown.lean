import Mathlib.Data.List.TakeWhile
import TopicFeed.Proofs.Delivery
import TopicFeed.Proofs.Stopping

/-!
The end of a client.

A client that is shut down tells all its loops to stop. Each is done after its next step, whatever
it was doing, and no loop waits for another one or for a consumer. So they may make that step in
any order, and who waits for them one after the other need not wait any longer than that.
-/

namespace TopicFeed

namespace Queue

variable {τ α : Type}

/-- With its owner a queue may lose all that waits in front of it, but nothing inside. -/
lemma disown_cases (q : Queue τ α) : q.disown.queue = { q with owned := false } ∨
    q.disown.queue = { q with owned := false, pushes := [] } := by
  unfold disown closeIfAbandoned
  split
  · exact .inl rfl
  · exact .inr rfl

end Queue

namespace Loop

/-- Whatever a loop does next, it exits: it may move by itself or be woken, in any hub. No time has
to pass for it. -/
structure Leaves (l : Loop) : Prop where
  step : ∀ hub, (l.step hub).2.phase = .exited
  wake : ∀ hub outcome, l.wake outcome hub = l.step hub
  elapse : ∀ ms, l.elapse ms = l

lemma leaves_of_canceled {l : Loop} (hc : l.canceled = true) : l.Leaves where
  step hub := by rw [step_of_canceled hc, phase_stop]
  wake hub outcome := by rw [step_of_canceled hc, Loop.wake, if_pos hc]
  elapse ms := by cases hp : l.phase <;> simp [Loop.elapse, hp, hc]

end Loop

namespace Client

open Loop

/-! ### Waiting for subscriptions -/

/-- The loop of a subscription is done. -/
def isDone (c : Client) (s : Subscription Ticket) : Bool :=
  c.loops[s.task]?.all fun l => l.phase = .exited

/-- Somebody waits for subscriptions one after the other, and goes on to the next when the loop of
one is done. Meanwhile loops make a step each, in the given order. The subscriptions that he has not
gone past are left. -/
def join (c : Client) (subs : List (Subscription Ticket)) :
    List Ticket → Client × List (Subscription Ticket)
  | [] => (c, subs.dropWhile c.isDone)
  | t :: order => (c.step t).join (subs.dropWhile c.isDone) order

lemma join_client (c : Client) (subs : List (Subscription Ticket)) (order : List Ticket) :
    (c.join subs order).1 = order.foldl step c := by
  induction order generalizing c subs with
  | nil => rfl
  | cons t order ih => exact ih _ _

/-- Who is done when it is his turn is not waited for. -/
lemma join_left {c : Client} {subs : List (Subscription Ticket)} {order : List Ticket}
    (h : ∀ s ∈ subs, (order.foldl step c).isDone s = true) : (c.join subs order).2 = [] := by
  induction order generalizing c subs with
  | nil => exact List.dropWhile_eq_nil_iff.mpr h
  | cons t order ih => exact ih fun s hs => h s ((List.dropWhile_suffix _).subset hs)

/-! ### Steps of loops that were told to stop -/

/-- All loops were told to stop. They wait under their own tickets, each with a push of its own. -/
structure Stopping (c : Client) : Prop where
  told : AllLoops (fun t l => l.ticket = t ∧ l.canceled = true) c
  pushing : ∀ p ∈ c.hub.queue.pushes, ∃ l f, c.loops[p.1]? = some l ∧
    l.phase = .attempting (.pushing f)

/-- What the loops of these tickets come to. Each of them is done, whatever happens to it from then
on. They sent nothing, put nothing into the queue and took their pushes back; the other loops and
their pushes are as they were. -/
structure Ended (order : List Ticket) (c c' : Client) : Prop where
  settings : c'.settings = c.settings
  registry : c'.registry = c.registry
  listeners : c'.listeners = c.listeners
  done : ∀ t ∈ order, ∀ l, c'.loops[t]? = some l →
    l.phase = .exited ∧ ∀ hub move, l.act hub move = (hub, l)
  others : ∀ t, t ∉ order → c'.loops[t]? = c.loops[t]?
  network : c'.hub.network = { c.hub.network with hangups := c'.hub.network.hangups }
  queue : c'.hub.queue =
    { c.hub.queue with pushes := c.hub.queue.pushes.filter fun p => p.1 ∉ order }
  handed : c'.hub.handed = c.hub.handed

lemma Ended.trans {xs ys : List Ticket} {c c' c'' : Client} (h : Ended xs c c')
    (h' : Ended ys c' c'') : Ended (xs ++ ys) c c'' where
  settings := h'.settings.trans h.settings
  registry := h'.registry.trans h.registry
  listeners := h'.listeners.trans h.listeners
  done t ht l hl := by
    by_cases hys : t ∈ ys
    · exact h'.done t hys l hl
    · rw [h'.others t hys] at hl
      exact h.done t ((List.mem_append.mp ht).resolve_right hys) l hl
  others t ht := by
    rw [List.mem_append, not_or] at ht
    rw [h'.others t ht.2, h.others t ht.1]
  network := h'.network.trans (by rw [h.network])
  queue := by
    rw [h'.queue, h.queue]
    simp only [List.filter_filter, List.mem_append, not_or, Bool.decide_and, Bool.and_comm]
  handed := h'.handed.trans h.handed

namespace Stopping

variable {c : Client}

lemma toldAt (h : Stopping c) (t : Ticket) : AllLoops (Told t) c := by
  rintro u l hl rfl
  exact h.told u l hl

lemma queue_step (h : Stopping c) (t : Ticket) :
    (c.step t).hub.queue = c.hub.queue.withdraw t := by
  rcases hl : c.loops[t]? with _ | l
  · rw [step, withLoop_of_none hl]
    refine (Queue.withdraw_of_none fun p hp ht => ?_).symm
    obtain ⟨l, _, hl', -⟩ := h.pushing p hp
    rw [ht, hl] at hl'
    cases hl'
  · obtain ⟨hticket, hc⟩ := h.told t l hl
    rw [step, (loops_withLoop_self hl _).2, step_of_canceled hc, ← hticket]
    refine queue_stop fun p hp ht => ?_
    obtain ⟨l', f, hl', hf⟩ := h.pushing p hp
    rw [ht, hticket, hl] at hl'
    cases hl'
    exact ⟨_, hf⟩

lemma step (h : Stopping c) (t : Ticket) : Stopping (c.step t) where
  told := h.told.withLoop (fun u l hub move hl => keeps_told u u l hub move (fun _ => hl) rfl) t
    .step
  pushing p hp := by
    rw [h.queue_step] at hp
    obtain ⟨hp, hne⟩ := List.mem_filter.mp hp
    rw [Client.step, loops_withLoop_of_ne c (by simpa using hne)]
    exact h.pushing p hp

/-- **One step of a loop that was told to stop,** and it has come to its end. -/
theorem ended (h : Stopping c) (t : Ticket) : Ended [t] c (c.step t) where
  settings := settings_withLoop _ _ _
  registry := registry_withLoop _ _ _
  listeners := (spares_withLoop (h.toldAt t) .step).listeners
  done u hu l hl := by
    obtain ⟨hc, hp⟩ := done_of_step (h.toldAt t) u l hl (List.mem_singleton.mp hu)
    exact ⟨hp, act_of_done hc hp⟩
  others u hu := loops_withLoop_of_ne c (by simpa using hu) _
  network := (spares_withLoop (h.toldAt t) .step).hub.network
  queue := by
    rw [h.queue_step, Queue.withdraw]
    simp only [List.mem_singleton]
  handed := (spares_withLoop (h.toldAt t) .step).hub.handed

/-- **Any steps of loops that were told to stop,** in any order. -/
theorem ended_foldl (h : Stopping c) (order : List Ticket) :
    Stopping (order.foldl Client.step c) ∧ Ended order c (order.foldl Client.step c) := by
  induction order generalizing c with
  | nil => exact ⟨h, rfl, rfl, rfl, by simp, fun _ _ => rfl, rfl, by simp, rfl⟩
  | cons t order ih =>
    obtain ⟨hstopping, hended⟩ := ih (h.step t)
    exact ⟨hstopping, (h.ended t).trans hended⟩

lemma isDone_of_mem (h : Stopping c) {order : List Ticket} {s : Subscription Ticket}
    (hs : s.task ∈ order) : (order.foldl Client.step c).isDone s = true := by
  rw [isDone]
  rcases hl : (order.foldl Client.step c).loops[s.task]? with _ | l
  · rfl
  · simpa using ((h.ended_foldl order).2.done _ hs l hl).1

/-- Letting all loops come to rest takes one step of each. -/
lemma foldl_settle (h : Stopping c) (order : List Ticket) :
    order.foldl (fun c t => c.withLoop t Loop.settle) c = order.foldl Client.step c := by
  induction order generalizing c with
  | nil => rfl
  | cons t order ih =>
    have hfirst : c.withLoop t Loop.settle = c.step t := by
      rw [Client.step]
      rcases hl : c.loops[t]? with _ | l
      · rw [withLoop_of_none hl, withLoop_of_none hl]
      · rw [withLoop, withLoop, hl]
        simp only [settle_of_canceled (h.told t l hl).2]
    rw [List.foldl_cons, List.foldl_cons, hfirst]
    exact ih (h.step t)

end Stopping

/-! ### The end of a client -/

/-- All subscriptions of a client were removed. Its loops are told to stop, and that is all that
has happened to them, to the network and to what is inside the queue. -/
structure Dismissed (c c' : Client) : Prop where
  registry : c'.registry.live = []
  loops : c'.loops = c.loops.map Loop.cancel
  network : c'.hub.network = c.hub.network
  items : c'.hub.queue.items = c.hub.queue.items
  pushes : c'.hub.queue.pushes.Sublist c.hub.queue.pushes
  handed : c'.hub.handed = c.hub.handed

/-- What shutting down comes to once all loops are told to stop: each is done after one step, in
whatever order, and for good; whoever waits for subscriptions, one after the other, has gone past
all whose loops have made that step. -/
structure Ends (c : Client) (order : List Ticket) : Prop where
  ended : Ended order c (order.foldl step c)
  joined : ∀ subs : List (Subscription Ticket), (∀ s ∈ subs, s.task ∈ order) →
    c.join subs order = (order.foldl step c, [])
  final : ∀ t ∈ order, ∀ l, (order.foldl step c).loops[t]? = some l → ∀ later : List Move,
    (Course.run ⟨order.foldl step c, []⟩ later).client.loops[t]? = some l

lemma Stopping.ends {c : Client} (h : Stopping c) (order : List Ticket) : Ends c order where
  ended := (h.ended_foldl order).2
  joined subs hsubs :=
    Prod.ext (join_client c subs order) (join_left fun s hs => h.isDone_of_mem (hsubs s hs))
  final t ht l hl later :=
    loop_run_of_done hl ((h.ended_foldl order).1.told t l hl).2
      ((h.ended_foldl order).2.done t ht l hl).1 later

section Dismissal

variable {c c' : Client} {received : List Message} {settled : List (Ticket × Message)}
variable {σ : Ticket → List Event} {out : List (Subscription Ticket)}

/-- What waits for a place is pushed by a loop. -/
lemma Kept.pusher (h : Kept c.hub.queue c.loops received settled σ) {p : Ticket × Message}
    (hp : p ∈ c.hub.queue.pushes) :
    ∃ l f, c.loops[p.1]? = some l ∧ l.phase = .attempting (.pushing f) := by
  have hl := List.getElem?_eq_getElem (h.known p (List.mem_append_right _ hp))
  have hwaits : c.hub.queue.waitingOf p.1 ≠ [] :=
    List.ne_nil_of_mem (List.mem_map_of_mem (List.mem_filter.mpr ⟨hp, by simp⟩))
  obtain ⟨f, hf⟩ := (h.loop p.1 _ hl).waits.pushing.mp hwaits
  exact ⟨_, f, hl, hf⟩

lemma Dismissed.stopping (h : Dismissed c c')
    (hkept : Kept c.hub.queue c.loops received settled σ) : Stopping c' where
  told t l hl := by
    rw [h.loops, List.getElem?_map] at hl
    obtain ⟨l', hl', rfl⟩ := Option.map_eq_some_iff.mp hl
    exact ⟨(hkept.loop t l' hl').ticket, rfl⟩
  pushing p hp := by
    obtain ⟨l, f, hl, hf⟩ := hkept.pusher (h.pushes.subset hp)
    exact ⟨l.cancel, f, by rw [h.loops, List.getElem?_map, hl]; rfl, hf⟩

lemma hub_stops (removed : List (Subscription Ticket)) (c : Client) :
    (c.moveLoops (stops removed)).hub = c.hub := by
  refine moveLoops_frame (·.hub) (fun x hx c => ?_) c
  obtain ⟨s, -, rfl⟩ := List.mem_map.mp hx
  exact cancel_hub c s.task

lemma hub_unsubscribeAll (c : Client) : c.unsubscribeAll.hub = c.hub := by
  rw [unsubscribeAll_eq, hub_stops]

/-- Every loop is told to stop, or it was before. -/
lemma loops_unsubscribeAll (h : Tracked c out) :
    c.unsubscribeAll.loops = c.loops.map Loop.cancel := by
  refine List.ext_getElem? fun t => ?_
  rw [unsubscribeAll_eq, loops_stops, List.getElem?_map]
  rcases hl : c.loops[t]? with _ | l
  · simp
  · by_cases ht : t ∈ c.registry.live.map (·.task)
    · simp [ht]
    · -- its subscription was removed before, so it knows
      have hc : l.canceled = true := by
        rw [← Bool.not_eq_false, ← h.listed_iff hl, ← List.mem_map]
        exact ht
      simp [ht, Loop.cancel, ← hc]

lemma dismissed_unsubscribeAll (h : Tracked c out) : Dismissed c c.unsubscribeAll where
  registry := by rw [unsubscribeAll_eq, registry_moveLoops]; rfl
  loops := loops_unsubscribeAll h
  network := by rw [hub_unsubscribeAll]
  items := by rw [hub_unsubscribeAll]
  pushes := by rw [hub_unsubscribeAll]
  handed := by rw [hub_unsubscribeAll]

lemma dismissed_drop (h : Tracked c out) : Dismissed c c.drop := by
  have hall := dismissed_unsubscribeAll h
  refine ⟨hall.registry, hall.loops, hall.network, ?_, ?_, hall.handed⟩
  · rw [← hall.items, drop, withQueue]
    rcases c.unsubscribeAll.hub.queue.disown_cases with hq | hq <;> rw [hq]
  · refine List.Sublist.trans ?_ hall.pushes
    rw [drop, withQueue]
    rcases c.unsubscribeAll.hub.queue.disown_cases with hq | hq <;> rw [hq]
    exact List.nil_sublist _

end Dismissal

/-- **Shutting down cannot be held up, and is final.** Whatever a client and its loops were doing,
and whether all its subscriptions are removed, it is shut down or it goes: every loop is told to
stop, and nothing else happens to the loops, the network or what is inside the queue. Then each loop
exits in its next step, in whatever order they make it and with nobody taking from the queue; it
sends nothing, puts nothing into the queue and waits for no pause. Whoever waits for subscriptions,
one after the other, is done when each of their loops has made one step, and no loop does anything
any more. -/
theorem shutdown_ends (settings : Settings) (network : Network) (moves : List Move) :
    let c := (course settings network moves).client
    c.unsubscribeAll.join (c.handsOut .unsubscribeAll) c.tickets = (c.shutdown, []) ∧
    ∀ c' ∈ [c.unsubscribeAll, c.drop],
      Dismissed c c' ∧ AllLoops (fun _ l => l.Leaves) c' ∧ ∀ order, Ends c' order := by
  intro c
  obtain ⟨settled, hkept⟩ := kept_course settings network moves
  have htracked : Tracked c (handedOut settings network moves) :=
    tracked_course settings network moves
  have hdismissed : ∀ c' ∈ [c.unsubscribeAll, c.drop], Dismissed c c' := by
    simp only [List.mem_cons, List.not_mem_nil, or_false]
    rintro c' (rfl | rfl)
    · exact dismissed_unsubscribeAll htracked
    · exact dismissed_drop htracked
  have hstopping : Stopping c.unsubscribeAll := (dismissed_unsubscribeAll htracked).stopping hkept
  refine ⟨?_, fun c' hc' => ?_⟩
  · have hshutdown : c.shutdown = c.tickets.foldl step c.unsubscribeAll := by
      rw [shutdown, settle, tickets, tickets, loops_unsubscribeAll htracked, List.length_map]
      exact hstopping.foldl_settle _
    rw [hshutdown]
    refine (hstopping.ends c.tickets).joined _ fun s hs => ?_
    obtain ⟨u, hu, rfl⟩ := List.mem_map.mp hs
    have hmem : u.task ∈ (handedOut settings network moves ++ c.registry.live).map (·.task) :=
      List.mem_map_of_mem (List.mem_append_right _ hu)
    exact htracked.tasks.subset hmem
  · have hstopping := (hdismissed c' hc').stopping hkept
    exact ⟨hdismissed c' hc', fun t l hl => leaves_of_canceled (hstopping.told t l hl).2,
      hstopping.ends⟩

/-- The line of a notification. -/
def notificationLine (text : String) : Bytes :=
  Bytes.ofString ("\x7b\"event\":\"message\",\"message\":\"" ++ text ++ "\"\x7d\n")

/-- Two topics have notifications, and the requests for all others are dropped. -/
def twoTopics : Network where
  isPresent _ := true
  script := .byPath [
    ("/a/json", [.answer 200 { chunks := [notificationLine "1", notificationLine "2"] }]),
    ("/b/json", [.answer 200 { chunks := [notificationLine "3"] }])]
  beyond := .dropped

/-- With room for one message: one loop waits with its second message and another with its first,
one pauses, and one asks for its feed. -/
def busy : List Move :=
  [.subscribe ["a"] true "https://h/a" [], .subscribe ["b"] true "https://h/b" [],
    .subscribe ["c"] true "https://h/c" [], .subscribe ["d"] true "https://h/d" [],
    .step 0, .step 0, .step 0, .step 0, .step 1, .step 1, .step 1, .step 2, .step 2, .step 3]

theorem shutdown_ends_busy :
    let c := (course { queueCapacity := 1 } twoTopics busy).client
    c.unsubscribeAll.hub.queue.pushes.map (·.1) = [0, 1] ∧
    c.unsubscribeAll.join (c.handsOut .unsubscribeAll) [3, 1, 0, 2] =
      ([3, 1, 0, 2].foldl step c.unsubscribeAll, []) ∧
    ([3, 1, 0, 2].foldl step c.unsubscribeAll).hub.queue.items = c.hub.queue.items := by
  intro c
  obtain ⟨-, h⟩ := shutdown_ends { queueCapacity := 1 } twoTopics busy
  obtain ⟨hdismissed, -, hends⟩ := h c.unsubscribeAll List.mem_cons_self
  refine ⟨by decide +kernel, (hends _).joined _ (by decide +kernel), ?_⟩
  rw [(hends _).ended.queue]
  exact hdismissed.items

end Client

end TopicFeed
