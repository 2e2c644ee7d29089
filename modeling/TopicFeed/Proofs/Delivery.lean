import TopicFeed.Proofs.Books
import TopicFeed.Proofs.Subscribed

/-!
Delivery through the shared queue.

All subscriptions of a client push into one queue. Whatever happens to the client, in whatever
order, the books of that queue are kept: no message of a subscription is lost, doubled or overtaken
by another of the same.
-/

namespace TopicFeed.Client

open Loop Queue

/-- The books of a course. -/
def Course.Kept (r : Course) (settled : List (Ticket × Message)) (σ : Ticket → List Event) : Prop :=
  Client.Kept r.client.hub.queue r.client.loops r.received settled σ

section Moves

variable {c : Client} {received : List Message} {settled : List (Ticket × Message)}
variable {σ : Ticket → List Event}

lemma loopEvents_some {t : Ticket} {l : Loop} (hl : c.loops[t]? = some l) (hub : Hub)
    (move : Loop.Move) : c.loopEvents t hub move = l.events hub move := by
  simp [loopEvents, hl]

lemma kept_withLoop (h : Kept c.hub.queue c.loops received settled σ) (t : Ticket)
    (move : Loop.Move) (hmove : ∀ o, move ≠ .wake o) {c' : Client}
    (hc' : c' = c.withLoop t fun l hub => l.act hub move) :
    ∃ settled', Kept c'.hub.queue c'.loops
      (received ++ (c'.hub.handed.drop c.hub.handed.length).map (·.2)) settled'
      fun u => σ u ++ only t (c.loopEvents t c.hub move) u := by
  subst hc'
  rcases hl : c.loops[t]? with _ | l
  · refine ⟨settled, ?_⟩
    simpa [withLoop, loopEvents, hl, only_nil] using h
  · have hdoes := act_does l c.hub move
    simpa [withLoop, loopEvents, hl] using h.move_loop hl hdoes hmove

lemma kept_afterTake (h : Kept c.hub.queue c.loops received settled σ)
    {taken : Change Ticket Message × Option Message}
    (htakes : c.hub.queue.Takes taken.1 taken.2) :
    ∃ settled', Kept (c.afterTake taken).1.hub.queue (c.afterTake taken).1.loops
      (received ++ (c.afterTake taken).2.toList ++
        ((c.afterTake taken).1.hub.handed.drop c.hub.handed.length).map (·.2)) settled'
      fun u => σ u ++ c.takeEvents u taken.1 := by
  obtain ⟨change, m?⟩ := taken
  obtain ⟨entered, hlen, hp, hi, hwoken⟩ := htakes.entered
  simp only at hp hi hwoken
  -- one message goes, so one waiting push enters at most
  rcases entered with _ | ⟨⟨t, m⟩, _ | _⟩
  · refine ⟨settled, ?_⟩
    have hk := h.take_alone htakes (by simpa using hp) (by simpa using hi)
    simpa [afterTake, takeEvents, hwoken, Hub.accept, Change.handed] using hk
  · have ht : t < c.loops.length := h.known (t, m) (by rw [hp]; simp)
    obtain ⟨l, hl⟩ : ∃ l, c.loops[t]? = some l := ⟨_, List.getElem?_eq_getElem ht⟩
    have hdoes := wake_does l (c.hub.accept change) .entered
    obtain ⟨hk, hhanded⟩ := h.take_woken htakes (by simpa using hp) (by simpa using hi) hl rfl hdoes
    refine ⟨settled ++ [(t, m)], ?_⟩
    have hnone : change.handed = [] := by simp [Change.handed, hwoken, Wake.message?]
    have hhanded' : (l.wake .entered (c.hub.accept change)).1.handed = c.hub.handed := by
      rw [hhanded, Hub.accept, hnone, List.append_nil]
    have hevents : ∀ u, c.takeEvents u change =
        only t (l.events (c.hub.accept change) (.wake .entered)) u := by
      intro u
      by_cases hu : u = t
      · subst hu
        simp [takeEvents, hwoken, loopEvents_some hl]
      · simp [takeEvents, hwoken, only_of_ne hu, Ne.symm hu]
    simpa [afterTake, hwoken, withLoop, hl, hhanded', hevents] using hk
  · simp at hlen

/-- A subscription starts a loop, and nothing else happens to the loops. -/
lemma kept_new (h : Kept c.hub.queue c.loops received settled σ) (who : Listener) :
    Kept c.hub.queue (c.loops ++ [{ who, ticket := c.loops.length }]) received settled σ where
  owned := h.owned
  fair := h.fair
  booked := h.booked
  known p hp := Nat.lt_of_lt_of_le (h.known p hp) (by simp)
  fresh t ht := h.fresh t (Nat.le_trans (by simp) ht)
  loop t l hl := by
    rcases Nat.lt_or_ge t c.loops.length with ht | ht
    · rw [List.getElem?_append_left ht] at hl
      exact h.loop t l hl
    · have hlt : t < (c.loops ++ [({ who, ticket := c.loops.length } : Loop)]).length :=
        (List.getElem?_eq_some_iff.mp hl).1
      have heq : t = c.loops.length :=
        Nat.le_antisymm (Nat.lt_succ_iff.mp (by simpa using hlt)) ht
      subst heq
      have hwait : c.hub.queue.waitingOf c.loops.length = [] := by
        rw [waitingOf, List.filter_eq_nil_iff.mpr, List.map_nil]
        intro p hp hpt
        have hknown := h.known p (List.mem_append_right _ hp)
        simp only [decide_eq_true_eq] at hpt
        exact absurd hknown (by simp [hpt])
      rw [List.getElem?_concat_length] at hl
      cases hl
      rw [h.fresh _ ht, hwait]
      exact ⟨rfl, ⟨[], rfl, rfl, by simp [Progress, AllRead]⟩, waits_new _ _, by simp⟩

lemma cancel_hub (c : Client) (t : Ticket) : (c.cancel t).hub = c.hub := by
  unfold cancel withLoop
  split <;> rfl

lemma kept_cancels (h : Kept c.hub.queue c.loops received settled σ)
    (tickets : List Ticket) :
    (tickets.foldl cancel c).hub = c.hub ∧
    ∃ settled', Kept c.hub.queue (tickets.foldl cancel c).loops received settled'
      fun u => σ u ++ if u ∈ tickets then c.loopEvents u c.hub .cancel else [] := by
  induction tickets generalizing c settled σ with
  | nil => exact ⟨rfl, settled, by simpa using h⟩
  | cons t tickets ih =>
    have hhub : (c.cancel t).hub = c.hub := cancel_hub c t
    obtain ⟨settled', hk⟩ :=
      kept_withLoop h t .cancel (by simp) (rfl : c.cancel t = _)
    rw [hhub, List.drop_length, List.map_nil, List.append_nil, ← hhub] at hk
    obtain ⟨hfold, settled'', hk''⟩ := ih hk
    refine ⟨hfold.trans hhub, settled'', ?_⟩
    rw [hhub] at hk''
    have hevents : ∀ u, (σ u ++ only t (c.loopEvents t c.hub .cancel) u) ++
          (if u ∈ tickets then (c.cancel t).loopEvents u c.hub .cancel else []) =
        σ u ++ if u ∈ t :: tickets then c.loopEvents u c.hub .cancel else [] := by
      intro u
      by_cases hu : u = t
      · -- a ticket that occurs twice: the loop notices only the first time
        subst hu
        have hnone : (c.cancel u).loopEvents u c.hub .cancel = [] := by
          rcases hl : c.loops[u]? with _ | l
          · simp [loopEvents, cancel, withLoop, hl]
          · have hlt : u < c.loops.length := (List.getElem?_eq_some_iff.mp hl).1
            simp [loopEvents, cancel, withLoop, hlt, Loop.cancel, Loop.events]
        simp [hnone]
      · have hsame : (c.cancel t).loopEvents u c.hub .cancel =
            c.loopEvents u c.hub .cancel := by
          unfold loopEvents cancel withLoop
          rcases c.loops[t]? with _ | l
          · rfl
          · simp only
            rw [List.getElem?_set_ne (Ne.symm hu)]
        simp [only_of_ne hu, hu, hsame]
    simpa only [List.foldl_cons, hevents] using hk''

end Moves

lemma events_own (c : Client) (t u : Ticket) (move : Loop.Move) :
    (if t = u then c.loopEvents u c.hub move else []) =
      only t (c.loopEvents t c.hub move) u := by
  by_cases hu : u = t
  · subst hu
    simp
  · simp [only_of_ne hu, Ne.symm hu]

/-- Subscriptions end: they leave the registry, and their loops are told to stop. -/
lemma kept_dismissed {c : Client} {received : List Message} {settled : List (Ticket × Message)}
    {σ : Ticket → List Event} (h : Kept c.hub.queue c.loops received settled σ)
    (registry : Registry Ticket) (removed : List (Subscription Ticket)) :
    let c' := removed.foldl (fun c s => c.cancel s.task) { c with registry }
    c'.hub = c.hub ∧ ∃ settled', Kept c'.hub.queue c'.loops received settled' fun u =>
      σ u ++ if removed.any (·.task == u) then c.loopEvents u c.hub .cancel else [] := by
  have h' : Kept ({ c with registry } : Client).hub.queue ({ c with registry } : Client).loops
      received settled σ := h
  obtain ⟨hhub, settled', hk⟩ := kept_cancels h' (removed.map (·.task))
  rw [List.foldl_map] at hhub hk
  have hany : ∀ u, (u ∈ removed.map (·.task)) = ((removed.any (·.task == u)) = true) := by
    intro u
    simp [List.any_eq_true]
  simp only [hany] at hk
  exact ⟨hhub, settled', by rw [hhub]; exact hk⟩

lemma kept_of_act {c : Client} {received : List Message} {settled : List (Ticket × Message)}
    {σ : Ticket → List Event} {m : Move} (c' : Client) (hact : c.act m = (c', none))
    (hhanded : c'.hub.handed = c.hub.handed) (hk : Kept c'.hub.queue c'.loops received settled σ) :
    (Course.move ⟨c, received⟩ m).Kept settled σ := by
  unfold Course.Kept Course.move
  simp only [hact, hhanded, List.drop_length]
  simpa using hk

/-- **Whatever happens to a client keeps the books.** -/
theorem kept_move {r : Course} {settled : List (Ticket × Message)} {σ : Ticket → List Event}
    (hr : r.Kept settled σ) (m : Move) :
    ∃ settled', (r.move m).Kept settled' fun t => σ t ++ r.client.events t m := by
  obtain ⟨c, received⟩ := r
  have h : Kept c.hub.queue c.loops received settled σ := hr
  have hsilent : (fun t => σ t ++ []) = σ := funext fun t => List.append_nil _
  cases m with
  | step t =>
    obtain ⟨settled', hk⟩ := kept_withLoop h t .step (by simp) (rfl : c.step t = _)
    exact ⟨settled', by simpa [Course.Kept, Course.move, act, events, events_own] using hk⟩
  | elapse t ms =>
    obtain ⟨settled', hk⟩ := kept_withLoop h t (.elapse ms) (by simp) (rfl : c.elapse t ms = _)
    exact ⟨settled', by simpa [Course.Kept, Course.move, act, events, events_own] using hk⟩
  | publish topic body options =>
    refine ⟨settled, kept_of_act _ rfl ?_ ?_⟩
    · unfold publish
      split <;> rfl
    · unfold publish
      simp only [events, hsilent]
      split <;> exact h
  | poll topic options =>
    refine ⟨settled, kept_of_act _ rfl ?_ ?_⟩
    · unfold poll
      split <;> rfl
    · unfold poll
      simp only [events, hsilent]
      split <;> exact h
  | subscribe drawn hasRuntime topic options =>
    refine ⟨settled, ?_⟩
    simp only [events, hsilent]
    rcases subscribe_cases c drawn hasRuntime topic options with
      ⟨hsame, -⟩ | ⟨url, id, -, -, -, hsub⟩
    · exact kept_of_act c (by rw [act, hsame]) rfl h
    · have hact := congrArg (fun p : Client × Call _ => (p.1, (none : Option Message))) hsub
      exact kept_of_act _ hact rfl (kept_new h _)
  | unsubscribe id =>
    rcases hremove : c.registry.remove id with ⟨_ | s, registry⟩
    · refine ⟨settled, kept_of_act c (by simp [act, unsubscribe, hremove]) rfl ?_⟩
      simp only [events, hremove, Option.any_none, Bool.false_eq_true, if_false, hsilent]
      exact h
    · obtain ⟨hhub, settled', hk⟩ := kept_dismissed h registry [s]
      have hact : c.unsubscribe id = { c with registry }.cancel s.task := by
        rw [unsubscribe, hremove]
      refine ⟨settled', kept_of_act _ (by rw [act, hact]; rfl) (congrArg Hub.handed hhub) ?_⟩
      simpa [events, hremove] using hk
  | unsubscribeAll =>
    obtain ⟨hhub, settled', hk⟩ := kept_dismissed h c.registry.removeAll.2 c.registry.removeAll.1
    exact ⟨settled', kept_of_act _ rfl (by rw [unsubscribeAll, hhub]) hk⟩
  | tryNext =>
    obtain ⟨settled', hk⟩ := kept_afterTake h (take_takes c.hub.queue)
    exact ⟨settled', by simpa [Course.Kept, Course.move, act, tryNext, events] using hk⟩
  | next taker =>
    obtain ⟨settled', hk⟩ := kept_afterTake h (await_takes c.hub.queue taker)
    exact ⟨settled', by simpa [Course.Kept, Course.move, act, next, events] using hk⟩
  | forgo taker =>
    refine ⟨settled, kept_of_act _ rfl rfl ?_⟩
    simp only [events, hsilent]
    exact h.of_handles rfl rfl rfl (fair_forgo h.fair taker)
  | receiver =>
    refine ⟨settled, kept_of_act _ rfl rfl ?_⟩
    simp only [events, hsilent]
    exact h.of_handles rfl rfl rfl ⟨h.fair.full, h.fair.untaken⟩
  | dropReceiver =>
    have hqueue := dropReceiver_of_owned h.owned
    refine ⟨settled, kept_of_act _ rfl rfl ?_⟩
    simp only [events, hsilent, dropReceiver, withQueue, hqueue]
    exact h.of_handles rfl rfl rfl ⟨h.fair.full, h.fair.untaken⟩

/-! ### Delivery -/

lemma kept_new_client (settings : Settings) (network : Network) :
    Course.Kept ⟨Client.new settings network, []⟩ [] fun _ => [] where
  owned := rfl
  fair := fair_new _
  booked := ⟨rfl, fun _ => rfl⟩
  known p hp := by cases hp
  fresh _ _ := rfl
  loop t l hl := by simp [Client.new] at hl

theorem kept_course (settings : Settings) (network : Network) (moves : List Move) :
    ∃ settled, (course settings network moves).Kept settled fun t =>
      trace settings network t moves := by
  induction moves using List.reverseRecOn with
  | nil => exact ⟨[], kept_new_client settings network⟩
  | append_singleton moves m ih =>
    obtain ⟨settled, hk⟩ := ih
    obtain ⟨settled', hk'⟩ := kept_move hk m
    refine ⟨settled', ?_⟩
    rw [course_concat]
    simpa only [trace_concat] using hk'

/-- How the messages of a subscription were delivered, given the messages that consumers have taken
and those inside the queue, each with the ticket of the loop that pushed it. -/
structure Delivered (c : Client) (taken inside : List (Ticket × Message)) (t : Ticket) (l : Loop)
    (τ : List Event) : Prop where
  /-- What was taken, what is inside and what waits is what was decoded, but for what was
  withdrawn. -/
  complete : messagesOf t taken ++ messagesOf t inside ++ l.waiting c.hub ++ withdrawnIn τ =
    decodedIn τ
  /-- At most one message waits, and only while the loop is blocked. -/
  blocked : (l.waiting c.hub).length ≤ 1 ∧
    (l.waiting c.hub ≠ [] ↔ ∃ f, l.phase = .attempting (.pushing f))
  /-- Only a loop that was told to stop withdraws, and only the one message it was blocked with at
  that moment. -/
  withdrawn : withdrawnIn τ = [] ∨
    (l.phase = .exited ∧ l.canceled = true ∧ withdrawnIn τ = toldIn τ)
  told : (toldIn τ).length ≤ 1
  /-- The feeds were read in the order in which they were opened, each in its own order, and all but
  the last to the end. -/
  ordered : ∃ parts : List Part, parts.map (·.1) = openedIn τ ∧
    parts.flatMap (·.2) = decodedIn τ ∧ ReadInOrder l.who parts
  stamped : ∀ m ∈ decodedIn τ,
    m.topicUrl = l.who.topicUrl ∧ m.subscriptionId = l.who.subscriptionId

/-- No other loop delivers under the same id. -/
def OwnId (c : Client) (t : Ticket) (id : SubscriptionId) : Prop :=
  ∀ u l, c.loops[u]? = some l → l.who.subscriptionId = id → u = t

/-- The messages of a subscription can be told by their id where no other has the same. -/
lemma messagesOf_eq_filter {t : Ticket} {id : SubscriptionId} {xs : List (Ticket × Message)}
    (h : ∀ p ∈ xs, p.1 = t ↔ p.2.subscriptionId = id) :
    messagesOf t xs = (xs.map (·.2)).filter fun m => m.subscriptionId = id := by
  rw [messagesOf, List.filter_map]
  congr 1
  exact List.filter_congr fun p hp => decide_eq_decide.mpr (h p hp)

namespace Kept

variable {c : Client} {received : List Message} {settled : List (Ticket × Message)}
variable {σ : Ticket → List Event}

lemma mem_decoded (h : Kept c.hub.queue c.loops received settled σ) {p : Ticket × Message}
    (hp : p ∈ settled) : p.2 ∈ decodedIn (σ p.1) := by
  rw [← h.booked.balance p.1, List.append_assoc]
  refine List.mem_append_left _ (List.mem_map.mpr ⟨p, List.mem_filter.mpr ⟨hp, ?_⟩, rfl⟩)
  simp

lemma delivered {taken inside : List (Ticket × Message)}
    (h : Kept c.hub.queue c.loops received (taken ++ inside) σ) {t : Ticket} {l : Loop}
    (hl : c.loops[t]? = some l) : Delivered c taken inside t l (σ t) := by
  obtain ⟨hticket, ⟨parts, hopened, hdecoded, hprogress⟩, hwaits, hstamps⟩ := h.loop t l hl
  have hwaiting : l.waiting c.hub = c.hub.queue.waitingOf t := by rw [waiting, hticket]
  refine ⟨?_, ?_, hwaits.withdrawn, hwaits.told_length,
    ⟨parts, hopened, hdecoded, hprogress.inOrder⟩, hstamps⟩
  · rw [hwaiting, ← messagesOf_append]
    exact h.booked.balance t
  · rw [hwaiting]
    exact ⟨hwaits.single, hwaits.pushing⟩

/-- A message that settled has the id of a loop exactly if that loop pushed it, where no other loop
has the same id. -/
lemma pushed_iff (h : Kept c.hub.queue c.loops received settled σ) {t : Ticket} {l : Loop}
    (hl : c.loops[t]? = some l)
    (hown : OwnId c t l.who.subscriptionId) {p : Ticket × Message} (hp : p ∈ settled) :
    p.1 = t ↔ p.2.subscriptionId = l.who.subscriptionId := by
  have hdecoded := h.mem_decoded hp
  constructor
  · intro hpt
    rw [hpt] at hdecoded
    exact ((h.loop t l hl).stamps _ hdecoded).2
  · intro hsame
    have hlt := h.known p (List.mem_append_left _ hp)
    have hl' := List.getElem?_eq_getElem hlt
    have hstamp := ((h.loop p.1 _ hl').stamps _ hdecoded).2
    exact hown p.1 _ hl' (hstamp.symm.trans hsame)

end Kept

/-- **Delivery through the shared queue.** Whatever happens to a client, in whatever order: every
message that consumers have taken or that is inside the queue belongs to a topic that the client
followed, and for each of these the messages that were taken, then those inside, then the one it is
blocked with are what its loop decoded, in the order of the feeds. Only a message that it was
blocked with when it was told to stop can be withdrawn. All of them carry the id that the call
returned and the URL that was listed with it, so they can be told by that id unless it was drawn
twice. -/
theorem delivery (settings : Settings) (network : Network) (moves : List Move) :
    let r := course settings network moves
    ∃ taken inside : List (Ticket × Message),
      taken.map (·.2) = r.received ∧ inside.map (·.2) = r.client.hub.queue.items ∧
      (∀ p ∈ taken ++ inside, ∃ id url, Started settings network moves p.1 id url) ∧
      ∀ t id url, Started settings network moves t id url →
        ∃ l, r.client.loops[t]? = some l ∧ l.who.subscriptionId = id ∧ l.who.topicUrl = url ∧
          (∀ s ∈ r.client.registry.live, s.task = t → s.id = id ∧ s.topicUrl = url) ∧
          Delivered r.client taken inside t l (trace settings network t moves) ∧
          (OwnId r.client t id → ∀ xs ∈ [taken, inside],
            messagesOf t xs = (xs.map (·.2)).filter fun m => m.subscriptionId = id) := by
  intro r
  obtain ⟨settled, hk⟩ := kept_course settings network moves
  -- what has settled is what was taken, then what is inside
  obtain ⟨taken, inside, rfl, htaken, hinside⟩ := List.map_eq_append_iff.mp hk.booked.settles
  refine ⟨taken, inside, htaken, hinside, fun p hp => ?_, fun t id url hstarted => ?_⟩
  · have hlt : p.1 < r.client.loops.length := hk.known p (List.mem_append_left _ hp)
    refine ⟨_, _, started_iff.mpr ⟨r.client.loops[p.1].who, ?_, rfl, rfl⟩⟩
    rw [listeners_getElem?, List.getElem?_eq_getElem hlt]
    rfl
  · obtain ⟨who, hwho, rfl, rfl⟩ := started_iff.mp hstarted
    have hwho' := hwho
    rw [listeners_getElem?] at hwho
    obtain ⟨l, hl, rfl⟩ := Option.map_eq_some_iff.mp hwho
    refine ⟨l, hl, rfl, rfl, fun s hs hst => ?_, hk.delivered hl, fun hown xs hxs => ?_⟩
    · obtain ⟨who, hserved, hid, hurl⟩ := listed_course settings network moves s hs
      rw [hst, hwho'] at hserved
      cases hserved
      exact ⟨hid.symm, hurl.symm⟩
    · refine messagesOf_eq_filter fun p hp => hk.pushed_iff hl hown ?_
      simp only [List.mem_cons, List.not_mem_nil, or_false] at hxs
      rcases hxs with rfl | rfl
      · exact List.mem_append_left _ hp
      · exact List.mem_append_right _ hp

/-- A host that answers the first request with one notification, and closes the feed. -/
def onceHost : Network where
  isPresent _ := true
  script := .inOrder [.answer 200
    { chunks := [Bytes.ofString "\x7b\"event\":\"message\",\"message\":\"hi\"\x7d\n"] }]
  beyond := .dropped

/-- A topic is followed, and its message is taken. -/
def followAndTake : List Move :=
  [.subscribe ["0123456789"] true "https://h/t" [], .step 0, .step 0, .step 0, .tryNext]

theorem delivery_once :
    (course {} onceHost followAndTake).received.map (·.message) = ["hi"] ∧
    ∃ taken inside l, taken.map (·.2) = (course {} onceHost followAndTake).received ∧
      Delivered (course {} onceHost followAndTake).client taken inside 0 l
        (trace {} onceHost 0 followAndTake) ∧
      messagesOf 0 taken = (taken.map (·.2)).filter fun m => m.subscriptionId = "0123456789" := by
  refine ⟨by decide +kernel, ?_⟩
  obtain ⟨taken, inside, htaken, -, -, h⟩ := delivery {} onceHost followAndTake
  have hstarted : Started {} onceHost followAndTake 0 "0123456789" "https://h/t" :=
    ⟨[], _, _, rfl, rfl, ["0123456789"], true, "https://h/t", [], rfl, by decide +kernel,
      by decide +kernel⟩
  have hlen : (course {} onceHost followAndTake).client.loops.length = 1 := by decide +kernel
  have hown : OwnId (course {} onceHost followAndTake).client 0 "0123456789" := by
    intro u l hl _
    have hlt := (List.getElem?_eq_some_iff.mp hl).1
    rw [hlen] at hlt
    exact Nat.lt_one_iff.mp hlt
  obtain ⟨l, -, -, -, -, hdelivered, hfilter⟩ := h 0 _ _ hstarted
  exact ⟨taken, inside, l, htaken, hdelivered, hfilter hown taken (by simp)⟩

end TopicFeed.Client
