import TopicFeed.Proofs.Shutdown

/-!
Subscriptions do not disturb each other when they end.

Subscriptions share a queue and a network. One that ends takes back the push that it waits with and
leaves its connection, and for all others everything is as it was: their entries, their loops, what
they wait with and what is inside the queue. So what they do next is the same as well.
-/

namespace TopicFeed

/-! ### What the others find -/

namespace Network

variable (net : Network) (n : Nat)

/-- How many connections were left does not matter to a request. -/
lemma request_hangups (method : Request.Method) (address : String) (options : List RequestOption)
    (body : Bytes) : ({ net with hangups := n }.request method address options body).2 =
      (net.request method address options body).2 := by
  have hsend (r : Request) : ({ net with hangups := n }.send r).2 = (net.send r).2 := by
    by_cases hhost : net.isPresent ((r.url.host.map Url.Host.toText).getD "") = true
    · have hpaths : ({ net with hangups := n } : Network).paths = net.paths := rfl
      simp only [send, hhost, hpaths]
      cases (net.script.reply? net.paths r.url.pathText).getD net.beyond <;> rfl
    · simp [send, hhost]
  unfold request
  rcases Request.Spec.ofOptions options with f | spec
  · rfl
  · simp only
    rcases Request.ofSpec method address spec body with f | r
    · rfl
    · simp only [hsend]

lemma openFeed_hangups (topicUrl : String) (options : List RequestOption) :
    ({ net with hangups := n }.openFeed topicUrl options).2 =
      (net.openFeed topicUrl options).2 := by
  have hrequest := net.request_hangups n .get (feedAddress topicUrl) options []
  unfold openFeed
  generalize net.request .get (feedAddress topicUrl) options [] = x at hrequest ⊢
  generalize ({ net with hangups := n } : Network).request .get (feedAddress topicUrl) options []
    = x' at hrequest ⊢
  obtain ⟨_, answer⟩ := x
  obtain ⟨_, answer'⟩ := x'
  simp only at hrequest
  subst hrequest
  rcases answer' with e | ⟨status, body⟩
  · rfl
  · simp only
    split
    · rfl
    · split <;> rfl

end Network

/-- Somebody else's push that is taken back does not matter to a push. -/
lemma Queue.push_withdraw {τ α : Type} [DecidableEq τ] (q : Queue τ α) (t u : τ) (m : α) :
    ((q.withdraw t).push u m).2 = (q.push u m).2 := by
  have hopen : (q.withdraw t).isOpen = q.isOpen := rfl
  have htakers : (q.withdraw t).takers = q.takers := rfl
  unfold push
  rw [hopen, htakers]
  split
  · rfl
  · split
    · rfl
    · by_cases hlt : q.items.length < q.capacity <;> simp [withdraw, hlt]

namespace Hub.Spares

variable {t u : Ticket} {hub hub' : Hub}

lemma items (h : hub.Spares t hub') : hub'.queue.items = hub.queue.items := by
  rcases h.queue with hq | hq <;> rw [hq]
  rfl

lemma waitingOf (h : hub.Spares t hub') (hu : u ≠ t) :
    hub'.queue.waitingOf u = hub.queue.waitingOf u := by
  rcases h.queue with hq | hq <;> rw [hq]
  exact Queue.waitingOf_withdraw_of_ne _ hu

lemma push (h : hub.Spares t hub') (u : Ticket) (m : Message) :
    (hub'.queue.push u m).2 = (hub.queue.push u m).2 := by
  rcases h.queue with hq | hq <;> rw [hq]
  exact Queue.push_withdraw _ _ _ _

lemma openFeed (h : hub.Spares t hub') (topicUrl : String) (options : List RequestOption) :
    (hub'.network.openFeed topicUrl options).2 = (hub.network.openFeed topicUrl options).2 := by
  rw [h.network]
  exact Network.openFeed_hangups _ _ _ _

end Hub.Spares

/-! ### What the others do -/

namespace Attempt

lemma hand_snd (ticket : Ticket) (m : Message) (f : Feed) (hub : Hub) :
    (hand ticket m f hub).2 = match (hub.queue.push ticket m).2 with
      | .entered => .goesOn (.reading f)
      | .waiting => .goesOn (.pushing f)
      | .closed => .over (some .queueClosed) := by
  unfold hand
  rcases hub.queue.push ticket m with ⟨change, _ | _ | _⟩ <;> rfl

/-- An attempt does the same in both hubs. -/
lemma step_spares {t : Ticket} {hub hub' : Hub} (h : hub.Spares t hub') (who : Listener)
    (ticket : Ticket) (a : Attempt) :
    (a.step who ticket hub').2 = (a.step who ticket hub).2 := by
  cases a with
  | connecting => simp only [step, connect, h.openFeed]
  | awaiting answer => cases answer <;> rfl
  | reading f =>
    simp only [step, read]
    split
    · rw [hand_snd, hand_snd, h.push]
    all_goals rfl
  | pushing f => rfl
  | stalled => rfl

end Attempt

namespace Loop

variable {l : Loop} {t : Ticket} {hub hub' : Hub}

lemma take_snd (l : Loop) {x y : Hub × Attempt.Turn} (h : x.2 = y.2) :
    (l.take x).2 = (l.take y).2 := by
  obtain ⟨hub, turn⟩ := x
  obtain ⟨hub', turn'⟩ := y
  cases h
  rcases turn with a | (_ | e) <;> rfl

lemma stop_snd (l : Loop) (hub hub' : Hub) : (l.stop hub').2 = (l.stop hub).2 := by
  unfold stop
  split <;> rfl

lemma woken_snd (a : Attempt) (outcome : Queue.Wake Message) (hub hub' : Hub) :
    (a.woken hub' outcome).2 = (a.woken hub outcome).2 := by
  rcases a with _ | _ | _ | _ | _ <;> cases outcome <;> rfl

/-- **A loop does the same in both hubs.** -/
theorem act_spares (h : hub.Spares t hub') (l : Loop) (move : Move) :
    (l.act hub' move).2 = (l.act hub move).2 := by
  cases move with
  | step =>
    simp only [act, step]
    split
    · exact stop_snd l hub hub'
    · split
      · next a _ => exact take_snd l (Attempt.step_spares h l.who l.ticket a)
      all_goals rfl
  | wake outcome =>
    simp only [act, wake]
    split
    · exact stop_snd l hub hub'
    · split
      · next a _ => exact take_snd l (woken_snd a outcome hub hub')
      all_goals rfl
  | elapse ms => rfl
  | cancel => rfl

/-- **The same can be seen of it,** if it is not the one whose push was taken back. -/
theorem events_spares (h : hub.Spares t hub') (ht : l.ticket ≠ t) (move : Move) :
    l.events hub' move = l.events hub move := by
  have hwaiting : l.waiting hub' = l.waiting hub := h.waitingOf ht
  have hstop : l.stopEvents hub' = l.stopEvents hub := by
    simp only [stopEvents, hwaiting]
  have hattempt (a : Attempt) : l.attemptEvents hub' a = l.attemptEvents hub a := by
    rcases a with _ | answer | f | f | _
    · rfl
    · cases answer <;> rfl
    · simp only [attemptEvents, h.push]
    · rfl
    · rfl
  cases move with
  | step => simp only [events, hstop, hattempt]
  | wake outcome => simp only [events, hstop]
  | elapse ms => rfl
  | cancel => simp only [events, hwaiting]

end Loop

namespace Client

open Loop

/-- Between two states of a client nothing of a subscription has changed: it is listed as before,
its loop is where it was, and so are the messages that it waits with and those inside. Whatever its
loop does next, it does in both. -/
structure Unaffected (s : Subscription Ticket) (c c' : Client) : Prop where
  listed : s ∈ c'.registry.live ↔ s ∈ c.registry.live
  loop : c'.loops[s.task]? = c.loops[s.task]?
  items : c'.hub.queue.items = c.hub.queue.items
  waiting : c'.hub.queue.waitingOf s.task = c.hub.queue.waitingOf s.task
  next : ∀ l move, c.loops[s.task]? = some l →
    l.events c'.hub move = l.events c.hub move ∧ (l.act c'.hub move).2 = (l.act c.hub move).2

section Ending

variable {c c' : Client} {t : Ticket} {out : List (Subscription Ticket)}

/-- What spares everything that is not of one loop leaves all other subscriptions alone. -/
lemma Spares.unaffected (h : c.Spares t c') (hticket : AllLoops (fun u l => l.ticket = u) c)
    {s : Subscription Ticket} (hs : s.task ≠ t) : Unaffected s c c' where
  listed := by
    have hmem (r : Registry Ticket) : s ∈ r.live ↔ s ∈ r.live.filter (·.task ≠ t) := by simp [hs]
    rw [hmem, h.listed, ← hmem]
  loop := h.loops s.task hs
  items := h.hub.items
  waiting := h.hub.waitingOf hs
  next l move hl := by
    have hne : l.ticket ≠ t := hticket s.task l hl ▸ hs
    exact ⟨events_spares h.hub hne move, act_spares h.hub l move⟩

/-- Two live subscriptions have loops of their own. -/
lemma Tracked.task_ne (h : Tracked c out) {a b : Subscription Ticket} (ha : a ∈ c.registry.live)
    (hb : b ∈ c.registry.live) (hne : a ≠ b) : b.task ≠ a.task := by
  have hnodup : (c.registry.live.map (·.task)).Nodup := by
    have hall := h.tasks.nodup_iff.mpr List.nodup_range
    rw [List.map_append] at hall
    exact hall.of_append_right
  exact fun hsame => hne (List.inj_on_of_nodup_map hnodup ha hb hsame.symm)

lemma unsubscribe_eq (h : Tracked c out) {a : Subscription Ticket} (ha : a ∈ c.registry.live) :
    c.unsubscribe a.id =
      { c with registry := (c.registry.remove a.id).2 }.moveLoops (stops [a]) := by
  rw [unsubscribe_known ((Registry.removes h.ids a.id).known a ha rfl)]
  rfl

/-- **A subscription that ends** spares everything that is not its own, and changes nothing that its
loop shares with others. -/
lemma spares_unsubscribe (h : Tracked c out) {a : Subscription Ticket} (ha : a ∈ c.registry.live) :
    c.Spares a.task (c.unsubscribe a.id) ∧ (c.unsubscribe a.id).hub = c.hub := by
  have hhub : (c.unsubscribe a.id).hub = c.hub := by
    rw [unsubscribe_eq h ha, hub_stops]
  refine ⟨⟨?_, ?_, ?_, fun u hu => ?_, by rw [hhub]; exact .refl _ _⟩, hhub⟩
  · rw [unsubscribe_eq h ha, settings_moveLoops]
  · rw [unsubscribe_eq h ha, listeners_moveLoops]
    rfl
  · rw [registry_unsubscribe, (Registry.removes h.ids a.id).others, List.filter_filter]
    refine List.filter_congr fun s hs => ?_
    -- whoever has another loop has another id
    by_cases htask : s.task = a.task
    · simp [htask]
    · have hid : s.id ≠ a.id := fun hid => htask (by rw [Registry.eq_of_id h.ids hs ha hid])
      simp [htask, hid]
  · rw [unsubscribe_eq h ha, loops_stops]
    simp [hu]

end Ending

section Course

variable {settings : Settings} {network : Network} {moves : List Move} {a b : Subscription Ticket}

/-- A loop whose subscription has ended was told to stop, whatever happened since. -/
lemma told_course (ha : a ∈ (course settings network moves).client.registry.live)
    (later : List Move) : AllLoops (Told a.task)
      (course settings network (moves ++ .unsubscribe a.id :: later)).client := by
  rintro t l hl rfl
  have hids := (tracked_course settings network moves).ids
  have hout : (course settings network moves).client.handsOut (.unsubscribe a.id) = [a.cancel] := by
    rw [handsOut, (Registry.removes hids a.id).known a ha rfl]
    rfl
  have hmem : a.cancel ∈ handedOut settings network (moves ++ .unsubscribe a.id :: later) := by
    rw [handedOut, handedOut_append, Course.handedOut, ← course, hout]
    simp
  have hc := ((tracked_course settings network _).told a.task l hl).mpr
    (List.mem_map.mpr ⟨_, hmem, rfl⟩)
  exact ⟨ticket_course settings network _ a.task l hl, hc⟩

/-- The end of one subscription cannot be seen of the loop of another. -/
lemma trace_unsubscribe (ha : a ∈ (course settings network moves).client.registry.live)
    (hb : b ∈ (course settings network moves).client.registry.live) (hne : a ≠ b)
    (later : List Move) :
    trace settings network b.task (moves ++ .unsubscribe a.id :: later) =
      trace settings network b.task moves ++
        (course settings network (moves ++ [.unsubscribe a.id])).trace b.task later := by
  have htracked := tracked_course settings network moves
  have htask := htracked.task_ne ha hb hne
  have hnone : (course settings network moves).client.events b.task (.unsubscribe a.id) = [] := by
    rw [events, (Registry.removes htracked.ids a.id).known a ha rfl]
    simp [Subscription.cancel, Ne.symm htask]
  rw [trace, trace_append, Course.trace, ← course, hnone, course_concat]
  rfl

/-- **Subscriptions end without disturbing others.** Of any two live subscriptions of a client, one
ends. That leaves the other and what is inside the queue as they were, and takes nothing back yet.
Whatever happens then, and whatever the loop of the ended subscription does at any time and in any
hub, it leaves the other as it finds it, and is done when it has made a step. As long as the other
one stays live, all that its loop ever decoded was received, is inside or waits, in its order. -/
theorem unsubscribe_independent (settings : Settings) (network : Network) (moves : List Move)
    (a b : Subscription Ticket) (ha : a ∈ (course settings network moves).client.registry.live)
    (hb : b ∈ (course settings network moves).client.registry.live) (hne : a ≠ b) :
    let c := (course settings network moves).client
    c.Spares a.task (c.unsubscribe a.id) ∧ (c.unsubscribe a.id).hub = c.hub ∧
    Unaffected b c (c.unsubscribe a.id) ∧
    ∀ later, let r := course settings network (moves ++ .unsubscribe a.id :: later)
      (∀ hub own, let before : Client := { r.client with hub }
        let after := before.moveLoops (movesOf a.task own)
        before.Spares a.task after ∧ Unaffected b before after ∧
          (Loop.Move.step ∈ own → AllLoops (Done a.task) after)) ∧
      (b ∈ r.client.registry.live → ∃ taken inside : List (Ticket × Message),
        taken.map (·.2) = r.received ∧ inside.map (·.2) = r.client.hub.queue.items ∧
        messagesOf b.task taken ++ messagesOf b.task inside ++
            r.client.hub.queue.waitingOf b.task =
          decodedIn (trace settings network b.task moves) ++ decodedIn
            ((course settings network (moves ++ [.unsubscribe a.id])).trace b.task later)) := by
  intro c
  have htracked := tracked_course settings network moves
  have htask := htracked.task_ne ha hb hne
  obtain ⟨hspares, hhub⟩ := spares_unsubscribe htracked ha
  refine ⟨hspares, hhub, hspares.unaffected (ticket_course settings network moves) htask,
    fun later => ?_⟩
  intro r
  refine ⟨fun hub own => ?_, fun hlive => ?_⟩
  · have htold : AllLoops (Told a.task) { r.client with hub } :=
      allLoops_of_loops_eq (told_course ha later) rfl
    have hticket : AllLoops (fun t l => l.ticket = t) { r.client with hub } :=
      allLoops_of_loops_eq (ticket_course settings network _) rfl
    have hown := spares_moveLoops htold own
    exact ⟨hown, hown.unaffected hticket htask, done_of_moveLoops htold⟩
  · obtain ⟨settled, hk⟩ :=
      kept_course settings network (moves ++ .unsubscribe a.id :: later)
    obtain ⟨taken, inside, rfl, htaken, hinside⟩ := List.map_eq_append_iff.mp hk.booked.settles
    refine ⟨taken, inside, htaken, hinside, ?_⟩
    -- the loop was not told to stop, so it has withdrawn nothing
    have htracked' := tracked_course settings network (moves ++ .unsubscribe a.id :: later)
    obtain ⟨l, hl, -⟩ := htracked'.serves (List.mem_append_right _ hlive)
    have hheard := (hk.loop b.task l hl).waits.heard ((htracked'.listed_iff hl).mp ⟨b, hlive, rfl⟩)
    have hbalance := hk.booked.balance b.task
    rw [hheard.2.2, List.append_nil, messagesOf_append] at hbalance
    rw [hbalance, trace_unsubscribe ha hb hne, decodedIn_append]

/-- The subscription of the first topic. -/
def firstTopic : Subscription Ticket := { id := "a", topicUrl := "https://h/a", task := 0 }

/-- The subscription of the second topic. -/
def secondTopic : Subscription Ticket := { id := "b", topicUrl := "https://h/b", task := 1 }

/-- Both subscriptions wait for the one place that there is, and the first in the line ends. -/
theorem unsubscribe_independent_in_line :
    let c := (course { queueCapacity := 1 } twoTopics busy).client
    let r := course { queueCapacity := 1 } twoTopics (busy ++ .unsubscribe "a" :: [.step 0])
    c.hub.queue.pushes.map (·.1) = [0, 1] ∧ Unaffected secondTopic c (c.unsubscribe "a") ∧
    r.client.hub.queue.pushes.map (·.1) = [1] ∧
    ∃ taken inside : List (Ticket × Message), taken.map (·.2) = r.received ∧
      inside.map (·.2) = r.client.hub.queue.items ∧
      messagesOf 1 taken ++ messagesOf 1 inside ++ r.client.hub.queue.waitingOf 1 =
        decodedIn (trace { queueCapacity := 1 } twoTopics 1 busy) ++ decodedIn
          ((course { queueCapacity := 1 } twoTopics (busy ++ [.unsubscribe "a"])).trace 1
            [.step 0]) := by
  intro c r
  obtain ⟨-, -, hunaffected, h⟩ := unsubscribe_independent { queueCapacity := 1 } twoTopics busy
    firstTopic secondTopic (by decide +kernel) (by decide +kernel) (by decide)
  exact ⟨by decide +kernel, hunaffected, by decide +kernel, (h [.step 0]).2 (by decide +kernel)⟩

end Course

end Client

end TopicFeed
