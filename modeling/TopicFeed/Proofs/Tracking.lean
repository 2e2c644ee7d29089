import TopicFeed.Proofs.Loops

/-!
The registry and the loops.

Over the course of a client each loop has one subscription. It is listed until it is handed out, and
it is handed out when its loop is told to stop, and only then.
-/

namespace TopicFeed

namespace Loop

/-- Only being told to stop tells a loop to stop. -/
lemma Does.canceled_of_ne_cancel {l l' : Loop} {hub hub' : Hub} {move : Move} {τ : List Event}
    (hdoes : Does l hub move τ hub' l') (hmove : move ≠ .cancel) : l'.canceled = l.canceled := by
  cases hdoes <;> first | rfl | exact absurd rfl hmove

/-- A loop that is done was told to stop. -/
lemma Does.canceled_of_exited {l l' : Loop} {hub hub' : Hub} {move : Move} {τ : List Event}
    (hdoes : Does l hub move τ hub' l') (h : l.phase = .exited → l.canceled = true)
    (hexited : l'.phase = .exited) : l'.canceled = true := by
  cases hdoes with
  | idle => exact h hexited
  | cut _ hc => exact hc
  | left _ hc => exact hc
  | told => rfl
  | _ => cases hexited

end Loop

namespace Client

open Loop

/-! ### What is handed out -/

/-- The subscriptions that a list of moves hands out, in order. -/
def Course.handedOut (r : Course) : List Move → List (Subscription Ticket)
  | [] => []
  | m :: moves => r.client.handsOut m ++ (r.move m).handedOut moves

/-- The subscriptions that are handed out in the course of a new client. -/
def handedOut (settings : Settings) (network : Network) (moves : List Move) :
    List (Subscription Ticket) :=
  Course.handedOut ⟨Client.new settings network, []⟩ moves

lemma handedOut_append (r : Course) (before after : List Move) :
    r.handedOut (before ++ after) = r.handedOut before ++ (r.run before).handedOut after := by
  induction before generalizing r with
  | nil => rfl
  | cons m before ih =>
    rw [List.cons_append, Course.handedOut, ih, Course.handedOut, List.append_assoc]
    rfl

lemma handedOut_concat (settings : Settings) (network : Network) (moves : List Move) (m : Move) :
    handedOut settings network (moves ++ [m]) =
      handedOut settings network moves ++ (course settings network moves).client.handsOut m := by
  rw [handedOut, handedOut_append]
  simp [handedOut, course, Course.handedOut]

/-! ### Telling loops to stop -/

lemma loops_cancel (c : Client) (t u : Ticket) :
    (c.cancel t).loops[u]? = c.loops[u]?.map fun l => if u = t then l.cancel else l := by
  unfold Client.cancel withLoop
  split
  · next hnone =>
    by_cases hu : u = t
    · rw [hu, hnone]
      rfl
    · simp [hu]
  · next l hl =>
    have hlt := (List.getElem?_eq_some_iff.mp hl).1
    by_cases hu : u = t
    · simp [hu, hl, List.getElem?_set_self hlt]
    · simp [hu, List.getElem?_set_ne (Ne.symm hu)]

/-- Exactly the loops of the removed subscriptions are told to stop. -/
lemma loops_stops (removed : List (Subscription Ticket)) (c : Client) (u : Ticket) :
    (c.moveLoops (stops removed)).loops[u]? =
      c.loops[u]?.map fun l => if u ∈ removed.map (·.task) then l.cancel else l := by
  induction removed generalizing c with
  | nil => simp [stops, moveLoops]
  | cons s removed ih =>
    have hfirst : c.moveLoops (stops (s :: removed)) =
        (c.cancel s.task).moveLoops (stops removed) := rfl
    rw [hfirst, ih, loops_cancel, Option.map_map]
    congr 1
    funext l
    by_cases hu : u = s.task
    · by_cases hmem : u ∈ removed.map (·.task) <;> simp [hu, Loop.cancel]
    · simp [hu]

/-! ### One move -/

/-- Every subscription is listed or was handed out, and its loop was told to stop exactly if it was
handed out. -/
structure Tracked (c : Client) (out : List (Subscription Ticket)) : Prop where
  ids : c.registry.ids.Nodup
  fresh : ∀ s ∈ c.registry.live, s.canceled = false
  stopped : ∀ s ∈ out, s.canceled = true
  tasks : ((out ++ c.registry.live).map (·.task)).Perm (List.range c.loops.length)
  told : ∀ t l, c.loops[t]? = some l → (l.canceled = true ↔ t ∈ out.map (·.task))
  served : ∀ s ∈ out ++ c.registry.live, ∃ who, c.listeners[s.task]? = some who ∧
    who.subscriptionId = s.id ∧ who.topicUrl = s.topicUrl

section OneMove

variable {c : Client} {out : List (Subscription Ticket)}

/-- A move that changes neither the registry nor what the loops were told. -/
lemma Tracked.moves (h : Tracked c out) {hub : Hub} {moves : List (Ticket × Loop.Move)}
    (hmoves : ∀ x ∈ moves, x.2 ≠ .cancel) : Tracked ({ c with hub }.moveLoops moves) out := by
  have htold : (({ c with hub } : Client).moveLoops moves).loops.map (·.canceled) =
      c.loops.map (·.canceled) :=
    map_moveLoops (·.canceled)
      (fun x hx l hub => (act_does l hub x.2).canceled_of_ne_cancel (hmoves x hx)) { c with hub }
  refine ⟨?_, ?_, h.stopped, ?_, fun t l hl => ?_, ?_⟩
  · rw [registry_moveLoops]
    exact h.ids
  · rw [registry_moveLoops]
    exact h.fresh
  · rw [registry_moveLoops, ← length_listeners, listeners_moveLoops, length_listeners]
    exact h.tasks
  · have hflag : (c.loops.map (·.canceled))[t]? = some l.canceled := by
      rw [← htold, List.getElem?_map, hl]
      rfl
    rw [List.getElem?_map] at hflag
    obtain ⟨l', hl', hsame⟩ := Option.map_eq_some_iff.mp hflag
    rw [← hsame]
    exact h.told t l' hl'
  · rw [registry_moveLoops, listeners_moveLoops]
    exact h.served

/-- Subscriptions are handed out, and their loops told to stop. -/
lemma Tracked.stops (h : Tracked c out) {registry : Registry Ticket}
    {removed : List (Subscription Ticket)} (hlive : registry.live.Sublist c.registry.live)
    (hperm : c.registry.live.Perm (removed ++ registry.live)) :
    Tracked ({ c with registry }.moveLoops (stops removed))
      (out ++ removed.map Subscription.cancel) := by
  have htasks : (removed.map Subscription.cancel).map (·.task) = removed.map (·.task) := by
    rw [List.map_map]
    rfl
  refine ⟨?_, ?_, fun s hs => ?_, ?_, fun t l hl => ?_, ?_⟩
  · rw [registry_moveLoops]
    exact h.ids.sublist (hlive.map _)
  · rw [registry_moveLoops]
    exact fun s hs => h.fresh s (hlive.subset hs)
  · rcases List.mem_append.mp hs with hs | hs
    · exact h.stopped s hs
    · obtain ⟨u, -, rfl⟩ := List.mem_map.mp hs
      rfl
  · rw [registry_moveLoops, ← length_listeners, listeners_moveLoops, length_listeners]
    refine List.Perm.trans ?_ h.tasks
    rw [List.append_assoc, List.map_append, List.map_append, List.map_append, htasks,
      ← List.map_append]
    exact (hperm.symm.map _).append_left _
  · rw [loops_stops] at hl
    obtain ⟨l', hl', rfl⟩ := Option.map_eq_some_iff.mp hl
    rw [List.map_append, htasks, List.mem_append, ← h.told t l' hl']
    by_cases ht : t ∈ removed.map (·.task)
    · simp [ht, Loop.cancel]
    · simp [ht]
  · rw [registry_moveLoops, listeners_moveLoops]
    intro s hs
    simp only [List.mem_append, List.mem_map] at hs
    rcases hs with (hs | ⟨u, hu, rfl⟩) | hs
    · exact h.served s (List.mem_append_left _ hs)
    · exact h.served u (List.mem_append_right _ (hperm.symm.subset (List.mem_append_left _ hu)))
    · exact h.served s (List.mem_append_right _ (hlive.subset hs))

/-- A topic is followed, and its loop is started. -/
lemma Tracked.starts (h : Tracked c out) {id : SubscriptionId}
    (hid : c.registry.contains id = false) (url : String) (options : List RequestOption) :
    Tracked { c with
      registry := ⟨c.registry.live ++ [{ id, topicUrl := url, task := c.loops.length }]⟩
      loops := c.loops ++ [c.newLoop url id options] } out := by
  -- The ticket of the new loop lies above all that were ever given.
  have hlt : ∀ s ∈ out ++ c.registry.live, s.task < c.loops.length := fun s hs =>
    List.mem_range.mp (h.tasks.subset (List.mem_map_of_mem hs))
  refine ⟨?_, ?_, h.stopped, ?_, fun t l hl => ?_, fun s hs => ?_⟩
  · have hnew : id ∉ c.registry.ids := by
      rw [← Registry.contains_iff_mem_ids, hid]
      decide
    rw [Registry.ids, List.map_append]
    exact h.ids.append (List.nodup_singleton id) (by simpa using hnew)
  · intro s hs
    rcases List.mem_append.mp hs with hs | hs
    · exact h.fresh s hs
    · obtain rfl := List.mem_singleton.mp hs
      rfl
  · rw [← List.append_assoc, List.map_append, List.length_append, List.length_singleton,
      List.range_succ]
    exact h.tasks.append_right _
  · rcases Nat.lt_or_ge t c.loops.length with hold | hge
    · rw [List.getElem?_append_left hold] at hl
      exact h.told t l hl
    · have hle : t < (c.loops ++ [c.newLoop url id options]).length :=
        (List.getElem?_eq_some_iff.mp hl).1
      obtain rfl : t = c.loops.length :=
        Nat.le_antisymm (Nat.lt_succ_iff.mp (by simpa using hle)) hge
      rw [List.getElem?_concat_length] at hl
      cases hl
      refine iff_of_false (by simp [newLoop]) fun hmem => ?_
      obtain ⟨s, hs, hsame⟩ := List.mem_map.mp hmem
      exact absurd (hlt s (List.mem_append_left _ hs)) (by simp [hsame])
  · have hlisteners : ({ c with
        registry := ⟨c.registry.live ++ [{ id, topicUrl := url, task := c.loops.length }]⟩
        loops := c.loops ++ [c.newLoop url id options] } : Client).listeners =
        c.listeners ++ [(c.newLoop url id options).who] := by simp [listeners]
    rw [hlisteners]
    rw [← List.append_assoc] at hs
    rcases List.mem_append.mp hs with hs | hs
    · obtain ⟨who, hwho, hserves⟩ := h.served s hs
      exact ⟨who, by rw [List.getElem?_append_left (by simpa using hlt s hs), hwho], hserves⟩
    · obtain rfl := List.mem_singleton.mp hs
      exact ⟨_, by rw [← length_listeners, List.getElem?_concat_length], rfl, rfl⟩

/-- **Every move keeps track.** -/
lemma Tracked.act (h : Tracked c out) (m : Move) : Tracked (c.act m).1 (out ++ c.handsOut m) := by
  have hacts := act_acts c m
  revert hacts
  generalize (c.act m).1 = c'
  intro hacts
  cases hacts with
  | aside hub hout =>
    rw [hout, List.append_nil]
    exact ⟨h.ids, h.fresh, h.stopped, h.tasks, h.told, h.served⟩
  | moves hub moves hmoves hout =>
    rw [hout, List.append_nil]
    exact h.moves hmoves
  | @follows _ _ _ options url _ hm _ _ hid =>
    rw [hm, handsOut, List.append_nil]
    exact h.starts hid url options
  | stops registry removed hlive hperm hout =>
    rw [hout]
    exact h.stops hlive (hperm h.ids)

end OneMove

/-! ### Whole courses -/

lemma tracked_course (settings : Settings) (network : Network) (moves : List Move) :
    Tracked (course settings network moves).client (handedOut settings network moves) := by
  induction moves using List.reverseRecOn with
  | nil => exact ⟨List.nodup_nil, by simp [course, Course.run, Client.new],
      by simp [handedOut, Course.handedOut], .refl _, by simp [course, Course.run, Client.new],
      by simp [course, Course.run, Client.new, handedOut, Course.handedOut]⟩
  | append_singleton moves m ih =>
    rw [course_concat, move_client, handedOut_concat]
    exact ih.act m

/-- A loop that is done was told to stop. -/
lemma canceled_of_exited (settings : Settings) (network : Network) (moves : List Move) :
    AllLoops (fun _ l => l.phase = .exited → l.canceled = true)
      (course settings network moves).client :=
  allLoops_course (fun _ l hub move h => (act_does l hub move).canceled_of_exited h)
    (fun c topic options url id _ _ _ => by simp [newLoop]) network moves

/-- The loop serves the subscription: it delivers under its id, and follows its topic. -/
def Serves (l : Loop) (s : Subscription Ticket) : Prop :=
  l.who.subscriptionId = s.id ∧ l.who.topicUrl = s.topicUrl

/-- The registry and the loops agree, after these subscriptions were handed out. Ids are listed
once. A subscription is listed exactly if its loop was not told to stop. A listed one has a loop
that serves it and is not done, and one that was handed out has a loop that was told to stop.
Every subscription is handed out once or listed. -/
structure Consistent (c : Client) (out : List (Subscription Ticket)) : Prop where
  ids : c.registry.ids.Nodup
  listed_iff : ∀ (t : Ticket) (l : Loop), c.loops[t]? = some l →
    ((∃ s ∈ c.registry.live, s.task = t) ↔ l.canceled = false)
  listed : ∀ s ∈ c.registry.live, s.canceled = false ∧
    ∃ l, c.loops[s.task]? = some l ∧ Serves l s ∧ l.canceled = false ∧ l.phase ≠ .exited
  handedOut : ∀ s ∈ out, s.canceled = true ∧
    ∃ l, c.loops[s.task]? = some l ∧ Serves l s ∧ l.canceled = true
  once : ((out ++ c.registry.live).map (·.task)).Perm (List.range c.loops.length)

/-- What a call to follow a topic does: it lists the subscription under the first drawn id that is
free, behind all others, and starts one loop with that id; or it returns no id and changes
nothing. -/
def Follows (c : Client) (drawn : List SubscriptionId) (hasRuntime : Bool) (topic : String)
    (options : List RequestOption) : Prop :=
  (∃ url id, drawn.find? (fun id => !c.registry.contains id) = some id ∧
    c.subscribe drawn hasRuntime topic options =
      ({ c with
          registry := ⟨c.registry.live ++ [{ id, topicUrl := url, task := c.loops.length }]⟩
          loops := c.loops ++ [c.newLoop url id options] }, .returned (.ok id))) ∨
  ((c.subscribe drawn hasRuntime topic options).1 = c ∧
    ∀ id, (c.subscribe drawn hasRuntime topic options).2 ≠ .returned (.ok id))

/-- What a call to stop following an id does: it hands out the subscription of the id, tells its
loop to stop and no other, and keeps all other subscriptions. Without one, or when repeated, it
changes nothing. -/
structure Unfollows (c : Client) (id : SubscriptionId) : Prop where
  unknown : c.registry.contains id = false → c.unsubscribe id = c
  again : (c.unsubscribe id).unsubscribe id = c.unsubscribe id
  known : ∀ s ∈ c.registry.live, s.id = id → c.handsOut (.unsubscribe id) = [s.cancel] ∧
    ∀ t, (c.unsubscribe id).loops[t]? =
      c.loops[t]?.map fun l => if t = s.task then l.cancel else l
  others : (c.unsubscribe id).registry.live = c.registry.live.filter (·.id != id)

section State

variable {c : Client} {out : List (Subscription Ticket)}

/-- A subscription is handed out once, or it is listed. -/
lemma Tracked.listed_iff (h : Tracked c out) {t : Ticket} {l : Loop} (hl : c.loops[t]? = some l) :
    (∃ s ∈ c.registry.live, s.task = t) ↔ l.canceled = false := by
  have hnodup := h.tasks.nodup_iff.mpr List.nodup_range
  have hmem : t ∈ (out ++ c.registry.live).map (·.task) :=
    h.tasks.symm.subset (List.mem_range.mpr (List.getElem?_eq_some_iff.mp hl).1)
  rw [List.map_append] at hnodup hmem
  have hlisted : (∃ s ∈ c.registry.live, s.task = t) ↔ t ∉ out.map (·.task) := by
    rw [← List.mem_map]
    refine ⟨fun hlive hout => ?_, fun hout => (List.mem_append.mp hmem).resolve_left hout⟩
    exact (List.nodup_append.mp hnodup).2.2 t hout t hlive rfl
  rw [hlisted, ← h.told t l hl, Bool.not_eq_true]

lemma Tracked.serves (h : Tracked c out) {s : Subscription Ticket}
    (hs : s ∈ out ++ c.registry.live) : ∃ l, c.loops[s.task]? = some l ∧ Serves l s := by
  obtain ⟨who, hwho, hserves⟩ := h.served s hs
  rw [listeners_getElem?] at hwho
  obtain ⟨l, hl, rfl⟩ := Option.map_eq_some_iff.mp hwho
  exact ⟨l, hl, hserves⟩

lemma Tracked.consistent (h : Tracked c out)
    (hexited : AllLoops (fun _ l => l.phase = .exited → l.canceled = true) c) :
    Consistent c out where
  ids := h.ids
  listed_iff _ _ hl := h.listed_iff hl
  listed s hs := by
    obtain ⟨l, hl, hserves⟩ := h.serves (List.mem_append_right _ hs)
    have hcanceled := (h.listed_iff hl).mp ⟨s, hs, rfl⟩
    refine ⟨h.fresh s hs, l, hl, hserves, hcanceled, fun hp => ?_⟩
    rw [hexited _ _ hl hp] at hcanceled
    cases hcanceled
  handedOut s hs := by
    obtain ⟨l, hl, hserves⟩ := h.serves (List.mem_append_left _ hs)
    exact ⟨h.stopped s hs, l, hl, hserves, (h.told _ _ hl).mpr (List.mem_map_of_mem hs)⟩
  once := h.tasks

lemma follows (c : Client) (drawn : List SubscriptionId) (hasRuntime : Bool) (topic : String)
    (options : List RequestOption) : c.Follows drawn hasRuntime topic options := by
  rcases subscribe_cases c drawn hasRuntime topic options with
    hsame | ⟨url, id, -, -, hfind, hsub⟩
  · exact .inr hsame
  · exact .inl ⟨url, id, hfind, hsub⟩

lemma unsubscribe_unknown {id : SubscriptionId} (h : c.registry.contains id = false) :
    c.unsubscribe id = c := by
  rw [unsubscribe, Registry.remove_unknown h]

lemma unsubscribe_known {id : SubscriptionId} {s : Subscription Ticket}
    (h : (c.registry.remove id).1 = some s) :
    c.unsubscribe id = { c with registry := (c.registry.remove id).2 }.cancel s.task := by
  have hremove : c.registry.remove id = (some s, (c.registry.remove id).2) := Prod.ext h rfl
  rw [unsubscribe, hremove]

lemma registry_unsubscribe (c : Client) (id : SubscriptionId) :
    (c.unsubscribe id).registry = (c.registry.remove id).2 := by
  rcases hremove : (c.registry.remove id).1 with _ | s
  · have hunknown := Registry.contains_of_remove hremove
    rw [unsubscribe_unknown hunknown, Registry.remove_unknown hunknown]
  · rw [unsubscribe_known hremove]
    exact registry_withLoop _ _ _

lemma unfollows (hids : c.registry.ids.Nodup) (id : SubscriptionId) : c.Unfollows id where
  unknown := unsubscribe_unknown
  again := by
    refine unsubscribe_unknown ?_
    rw [registry_unsubscribe]
    exact (Registry.removes hids id).gone
  known s hs hid := by
    have hremove := (Registry.removes hids id).known s hs hid
    refine ⟨by rw [handsOut, hremove]; rfl, fun t => ?_⟩
    rw [unsubscribe_known hremove]
    exact loops_cancel _ s.task t
  others := by rw [registry_unsubscribe, (Registry.removes hids id).others]

end State

/-- **The registry and the loops agree,** whatever happens to a client and whatever ids are drawn.
They agree on what is live, and every subscription is handed out at most once. A call to follow a
topic starts one loop with the id that it returns, or changes nothing. Removing an id removes its
subscription and nothing else, and removing all hands out exactly what is listed. -/
theorem registry_agrees (settings : Settings) (network : Network) (moves : List Move) :
    let c := (course settings network moves).client
    Consistent c (handedOut settings network moves) ∧
    c.registry.Agrees ∧
    (∀ drawn hasRuntime topic options, c.Follows drawn hasRuntime topic options) ∧
    (∀ id, c.Unfollows id) ∧
    c.handsOut .unsubscribeAll = c.registry.live.map Subscription.cancel ∧
    c.unsubscribeAll.registry.live = [] := by
  intro c
  have htracked := tracked_course settings network moves
  refine ⟨htracked.consistent (canceled_of_exited settings network moves), c.registry.agrees,
    follows c, unfollows htracked.ids, rfl, ?_⟩
  rw [unsubscribeAll_eq, registry_moveLoops]
  rfl

/-- A network without hosts. -/
def noHost : Network where
  isPresent _ := false
  script := .inOrder []
  beyond := .dropped

/-- Two topics are followed, the second under an id that is drawn after one that is taken; then the
first is followed no more. -/
def collide : List Move :=
  [.subscribe ["0000000000"] true "a" [], .subscribe ["0000000000", "1111111111"] true "b" [],
    .unsubscribe "0000000000"]

theorem registry_agrees_collision :
    (course {} noHost collide).client.registry.ids = ["1111111111"] ∧
    (handedOut {} noHost collide).map (·.task) = [0] ∧
    Consistent (course {} noHost collide).client (handedOut {} noHost collide) ∧
    (course {} noHost collide).client.unsubscribe "0000000000" =
      (course {} noHost collide).client := by
  obtain ⟨hconsistent, -, -, hunfollows, -⟩ := registry_agrees {} noHost collide
  exact ⟨by decide +kernel, by decide +kernel, hconsistent,
    (hunfollows "0000000000").unknown (by decide +kernel)⟩

end Client

end TopicFeed
