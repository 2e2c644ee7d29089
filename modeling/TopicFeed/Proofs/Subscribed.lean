import Mathlib.Data.List.Induction
import TopicFeed.Proofs.Moves

/-!
Whom the loops of a client serve.

A loop is started by a call to follow a topic, and by nothing else. It keeps its listener for good:
the id that the call returned, and the URL that the registry lists with it.
-/

namespace TopicFeed.Client

open Loop

/-- The listeners of all loops, each at the place of its ticket. -/
def listeners (c : Client) : List Listener := c.loops.map (·.who)

@[simp] lemma length_listeners (c : Client) : c.listeners.length = c.loops.length := by
  simp [listeners]

lemma listeners_getElem? (c : Client) (t : Ticket) :
    c.listeners[t]? = c.loops[t]?.map (·.who) := by
  simp [listeners]

/-- A move that follows a topic: it returns an id, and the registry lists it with its URL from then
on. -/
def Starts (c : Client) (m : Move) (id : SubscriptionId) (url : String) : Prop :=
  ∃ drawn hasRuntime topic options, m = .subscribe drawn hasRuntime topic options ∧
    (c.subscribe drawn hasRuntime topic options).2 = .returned (.ok id) ∧
    (c.act m).1.registry.list = c.registry.list ++ [(id, url)]

/-- Among these moves, one followed a topic and started the loop of the ticket. -/
def Started (settings : Settings) (network : Network) (moves : List Move) (t : Ticket)
    (id : SubscriptionId) (url : String) : Prop :=
  ∃ before m after, moves = before ++ m :: after ∧
    (course settings network before).client.loops.length = t ∧
    Starts (course settings network before).client m id url

/-! ### One move -/

lemma act_who (l : Loop) (hub : Hub) (move : Loop.Move) : (l.act hub move).2.who = l.who :=
  (act_does l hub move).who_eq.1

@[simp] lemma listeners_moveLoops (c : Client) (moves : List (Ticket × Loop.Move)) :
    (c.moveLoops moves).listeners = c.listeners :=
  map_moveLoops (·.who) (fun x _ l hub => act_who l hub x.2) c

/-- The move starts no loop, and lists no subscription. -/
def StartsNone (c c' : Client) : Prop :=
  c'.listeners = c.listeners ∧ c'.registry.live.Sublist c.registry.live

/-- **A move starts no loop, or it follows a topic** and starts the next loop for it. -/
theorem act_starts (c : Client) (m : Move) :
    StartsNone c (c.act m).1 ∨
    ∃ who : Listener, Starts c m who.subscriptionId who.topicUrl ∧
      (c.act m).1.listeners = c.listeners ++ [who] ∧
      (c.act m).1.registry.live = c.registry.live ++
        [{ id := who.subscriptionId, topicUrl := who.topicUrl, task := c.loops.length }] := by
  have h := act_acts c m
  generalize hc : (c.act m).1 = c' at h
  cases h with
  | aside => exact .inl ⟨rfl, List.Sublist.refl _⟩
  | moves hub moves => exact .inl ⟨listeners_moveLoops _ _, by rw [registry_moveLoops]⟩
  | stops registry removed hlive =>
    exact .inl ⟨listeners_moveLoops _ _, by rw [registry_moveLoops]; exact hlive⟩
  | @follows drawn hasRuntime topic options url id hm _ _ _ hreturned =>
    refine .inr ⟨(c.newLoop url id options).who,
      ⟨drawn, hasRuntime, topic, options, hm, hreturned, ?_⟩, ?_, rfl⟩
    · simp [hc, Registry.list, newLoop]
    · simp [listeners]

/-! ### Many moves -/

section Course

variable (settings : Settings) (network : Network) (moves : List Move) (m : Move)

lemma course_concat :
    course settings network (moves ++ [m]) = (course settings network moves).move m := by
  simp [course, Course.run]

lemma trace_append (r : Course) (t : Ticket) (before after : List Move) :
    r.trace t (before ++ after) = r.trace t before ++ (r.run before).trace t after := by
  induction before generalizing r with
  | nil => rfl
  | cons m before ih =>
    rw [List.cons_append, Course.trace, ih, Course.trace, List.append_assoc]
    rfl

lemma trace_concat (t : Ticket) : trace settings network t (moves ++ [m]) =
    trace settings network t moves ++ (course settings network moves).client.events t m := by
  rw [trace, trace_append]
  simp [trace, course, Course.trace]

variable {settings network moves m} {t : Ticket} {id : SubscriptionId} {url : String}

lemma started_concat : Started settings network (moves ++ [m]) t id url ↔
    Started settings network moves t id url ∨
      ((course settings network moves).client.loops.length = t ∧
        Starts (course settings network moves).client m id url) := by
  constructor
  · rintro ⟨before, m', after, hmoves, ht, hstarts⟩
    rcases List.eq_nil_or_concat after with rfl | ⟨after', x, rfl⟩
    · obtain ⟨rfl, hm⟩ := List.append_inj' hmoves rfl
      cases hm
      exact .inr ⟨ht, hstarts⟩
    · rw [List.concat_eq_append, ← List.cons_append, ← List.append_assoc] at hmoves
      exact .inl ⟨before, m', after', (List.append_inj' hmoves rfl).1, ht, hstarts⟩
  · rintro (⟨before, m', after, rfl, ht, hstarts⟩ | ⟨ht, hstarts⟩)
    · exact ⟨before, m', after ++ [m], by simp, ht, hstarts⟩
    · exact ⟨moves, m, [], rfl, ht, hstarts⟩

lemma StartsNone.not_starts {c : Client} (h : StartsNone c (c.act m).1) : ¬Starts c m id url := by
  rintro ⟨_, _, _, _, -, -, hlist⟩
  have hle := h.2.length_le
  have hlen := congrArg List.length hlist
  simp only [Registry.list, List.length_append, List.length_map, List.length_singleton] at hlen
  omega

lemma move_client (r : Course) (m : Move) : (r.move m).client = (r.client.act m).1 := rfl

/-- **The loops of a client are those of the topics it followed,** each with the id that the call
returned and the URL that was listed. -/
theorem started_iff : Started settings network moves t id url ↔
    ∃ who, (course settings network moves).client.listeners[t]? = some who ∧
      who.subscriptionId = id ∧ who.topicUrl = url := by
  induction moves using List.reverseRecOn with
  | nil => simp [Started, course, Course.run, Client.new, listeners]
  | append_singleton moves m ih =>
    rw [started_concat, ih, course_concat, move_client]
    generalize (course settings network moves).client = c
    rcases act_starts c m with hnone | ⟨who, hstarts, hlisteners, -⟩
    · rw [hnone.1]
      exact or_iff_left fun h => hnone.not_starts h.2
    · rw [hlisteners]
      constructor
      · rintro (⟨who', hwho, hid, hurl⟩ | ⟨rfl, hstarts'⟩)
        · have hlt := (List.getElem?_eq_some_iff.mp hwho).1
          exact ⟨who', by rw [List.getElem?_append_left hlt, hwho], hid, hurl⟩
        · obtain ⟨_, _, _, _, -, -, hlist⟩ := hstarts
          obtain ⟨_, _, _, _, -, -, hlist'⟩ := hstarts'
          have hsame := (List.append_inj' (hlist.symm.trans hlist') rfl).2
          simp only [List.cons.injEq, Prod.mk.injEq, and_true] at hsame
          refine ⟨who, ?_, hsame.1, hsame.2⟩
          rw [← length_listeners, List.getElem?_concat_length]
      · rintro ⟨who', hwho, rfl, rfl⟩
        rcases Nat.lt_or_ge t c.listeners.length with hlt | hge
        · rw [List.getElem?_append_left hlt] at hwho
          exact .inl ⟨who', hwho, rfl, rfl⟩
        · have hlt : t < (c.listeners ++ [who]).length := (List.getElem?_eq_some_iff.mp hwho).1
          have heq : t = c.listeners.length :=
            Nat.le_antisymm (Nat.lt_succ_iff.mp (by simpa using hlt)) hge
          subst heq
          rw [List.getElem?_concat_length] at hwho
          cases hwho
          exact .inr ⟨(length_listeners c).symm, hstarts⟩

/-- A subscription that is listed is served by the loop of its ticket, and keeps its id and its
URL. -/
def Listed (c : Client) : Prop :=
  ∀ s ∈ c.registry.live, ∃ who, c.listeners[s.task]? = some who ∧
    who.subscriptionId = s.id ∧ who.topicUrl = s.topicUrl

/-- **What is listed is served,** whatever happens. -/
theorem listed_course (settings : Settings) (network : Network) (moves : List Move) :
    Listed (course settings network moves).client := by
  induction moves using List.reverseRecOn with
  | nil => simp [Listed, course, Course.run, Client.new]
  | append_singleton moves m ih =>
    rw [course_concat, move_client]
    revert ih
    generalize (course settings network moves).client = c
    intro ih
    rcases act_starts c m with hnone | ⟨who, -, hlisteners, hlive⟩
    · intro s hs
      rw [hnone.1]
      exact ih s (hnone.2.subset hs)
    · intro s hs
      rw [hlive] at hs
      rw [hlisteners]
      rcases List.mem_append.mp hs with hs | hs
      · obtain ⟨who', hwho, hid, hurl⟩ := ih s hs
        have hlt := (List.getElem?_eq_some_iff.mp hwho).1
        exact ⟨who', by rw [List.getElem?_append_left hlt, hwho], hid, hurl⟩
      · obtain rfl := List.mem_singleton.mp hs
        exact ⟨who, by rw [← length_listeners, List.getElem?_concat_length], rfl, rfl⟩

end Course

end TopicFeed.Client
