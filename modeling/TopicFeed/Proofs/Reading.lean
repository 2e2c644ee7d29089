import TopicFeed.Proofs.Feed
import TopicFeed.Proofs.Loop
import TopicFeed.Proofs.Queue

/-!
What a listener has read.

The trace of a listener says which feeds it opened and which notifications it decoded. Between two
attempts every feed is read to its end; inside an attempt the feed at hand is read up to the place
where the listener stands. A message that was decoded and is in no queue waits for a place, and
only being told to stop makes it vanish.
-/

namespace TopicFeed

/-- All notifications of a feed. -/
def Feed.notifications (who : Listener) (f : Feed) : List Message :=
  (f.collect who.topicUrl who.subscriptionId).1

namespace Loop

/-! ### Traces -/

@[simp] def Event.decoded? : Event → Option Message
  | .decoded m => some m
  | _ => none

@[simp] def Event.opened? : Event → Option Feed
  | .opened f => some f
  | _ => none

@[simp] def Event.toldWaiting : Event → List Message
  | .told ms => ms
  | _ => []

@[simp] def Event.withdrawn : Event → List Message
  | .cut ms => ms
  | _ => []

/-- The notifications that were decoded, in order. -/
def decodedIn (τ : List Event) : List Message := τ.filterMap Event.decoded?

/-- The feeds that were opened, in order. -/
def openedIn (τ : List Event) : List Feed := τ.filterMap Event.opened?

/-- The messages that waited for a place when the listener was told to stop. -/
def toldIn (τ : List Event) : List Message := τ.flatMap Event.toldWaiting

/-- The messages that were withdrawn when the listener stopped. -/
def withdrawnIn (τ : List Event) : List Message := τ.flatMap Event.withdrawn

section Append

variable (τ υ : List Event)

@[simp] lemma decodedIn_nil : decodedIn [] = [] := rfl
@[simp] lemma openedIn_nil : openedIn [] = [] := rfl
@[simp] lemma toldIn_nil : toldIn [] = [] := rfl
@[simp] lemma withdrawnIn_nil : withdrawnIn [] = [] := rfl

@[simp] lemma decodedIn_cons (e : Event) :
    decodedIn (e :: τ) = e.decoded?.toList ++ decodedIn τ := by
  cases e <;> rfl

@[simp] lemma openedIn_cons (e : Event) : openedIn (e :: τ) = e.opened?.toList ++ openedIn τ := by
  cases e <;> rfl

@[simp] lemma toldIn_cons (e : Event) : toldIn (e :: τ) = e.toldWaiting ++ toldIn τ := rfl

@[simp] lemma withdrawnIn_cons (e : Event) :
    withdrawnIn (e :: τ) = e.withdrawn ++ withdrawnIn τ := rfl

@[simp] lemma decodedIn_append : decodedIn (τ ++ υ) = decodedIn τ ++ decodedIn υ :=
  List.filterMap_append

@[simp] lemma openedIn_append : openedIn (τ ++ υ) = openedIn τ ++ openedIn υ :=
  List.filterMap_append

@[simp] lemma toldIn_append : toldIn (τ ++ υ) = toldIn τ ++ toldIn υ := List.flatMap_append

@[simp] lemma withdrawnIn_append : withdrawnIn (τ ++ υ) = withdrawnIn τ ++ withdrawnIn υ :=
  List.flatMap_append

end Append

/-! ### How far a listener has read -/

/-- A feed, and the notifications that were read from it. -/
abbrev Part := Feed × List Message

/-- The feeds were read to their end. -/
def AllRead (who : Listener) (parts : List Part) : Prop :=
  ∀ p ∈ parts, p.2 = p.1.notifications who

/-- The last feed is read up to the place where `rest` is left, those before it to their end. -/
def ReadUpTo (who : Listener) (parts : List Part) (rest : Feed) : Prop :=
  ∃ done f ms, parts = done ++ [(f, ms)] ∧ AllRead who done ∧
    f.notifications who = ms ++ rest.notifications who

/-- The feeds before the last were read to their end, and the last from its beginning. -/
def ReadInOrder (who : Listener) (parts : List Part) : Prop :=
  ∃ done last, parts = done ++ last ∧ AllRead who done ∧ last.length ≤ 1 ∧
    ∀ p ∈ last, p.2 <+: p.1.notifications who

/-- How far the feeds have been read, by what the listener is doing. -/
def Progress (who : Listener) (parts : List Part) : Phase → Prop
  | .attempting (.reading f) | .attempting (.pushing f) => ReadUpTo who parts f
  | .attempting .connecting | .attempting (.awaiting _) | .attempting .stalled | .pausing _ =>
    AllRead who parts
  | .exited => ReadInOrder who parts

lemma AllRead.inOrder {who : Listener} {parts : List Part} (h : AllRead who parts) :
    ReadInOrder who parts :=
  ⟨parts, [], by simp, h, by simp, by simp⟩

lemma ReadUpTo.inOrder {who : Listener} {parts : List Part} {rest : Feed}
    (h : ReadUpTo who parts rest) : ReadInOrder who parts := by
  obtain ⟨done, f, ms, rfl, hdone, hf⟩ := h
  refine ⟨done, [(f, ms)], rfl, hdone, by simp, ?_⟩
  intro p hp
  obtain rfl := List.mem_singleton.mp hp
  exact ⟨_, hf.symm⟩

lemma Progress.inOrder {who : Listener} {parts : List Part} {phase : Phase}
    (h : Progress who parts phase) : ReadInOrder who parts := by
  rcases phase with (_ | answer | f | f | _) | n | _
  · exact AllRead.inOrder h
  · exact AllRead.inOrder h
  · exact ReadUpTo.inOrder h
  · exact ReadUpTo.inOrder h
  · exact AllRead.inOrder h
  · exact AllRead.inOrder h
  · exact h

/-- A feed that holds no more notifications was read to its end. -/
lemma ReadUpTo.allRead {who : Listener} {parts : List Part} {rest : Feed}
    (h : ReadUpTo who parts rest) (hrest : rest.notifications who = []) : AllRead who parts := by
  obtain ⟨done, f, ms, rfl, hdone, hf⟩ := h
  intro p hp
  rcases List.mem_append.mp hp with hp | hp
  · exact hdone p hp
  · obtain rfl := List.mem_singleton.mp hp
    simpa [hrest] using hf.symm

/-- What a listener has read so far, as its trace tells it. -/
def Accounts (l : Loop) (τ : List Event) : Prop :=
  ∃ parts : List Part, parts.map (·.1) = openedIn τ ∧ parts.flatMap (·.2) = decodedIn τ ∧
    Progress l.who parts l.phase

lemma accounts_of_quiet {l l' : Loop} {τ υ : List Event} {phase : Phase} (h : l.Accounts τ)
    (hp : l.phase = phase) (ho : openedIn υ = []) (hd : decodedIn υ = [])
    (hp' : ∀ parts, Progress l.who parts phase → Progress l'.who parts l'.phase) :
    l'.Accounts (τ ++ υ) := by
  obtain ⟨parts, hopened, hdecoded, hprogress⟩ := h
  rw [hp] at hprogress
  exact ⟨parts, by simp [hopened, ho], by simp [hdecoded, hd], hp' parts hprogress⟩

lemma accounts_of_opened {l l' : Loop} {τ υ : List Event} {f : Feed} (h : l.Accounts τ)
    (hwho : l'.who = l.who) (hp : l.phase = .attempting (.awaiting (.feed f)))
    (hp' : l'.phase = .attempting (.reading f)) (ho : openedIn υ = [f]) (hd : decodedIn υ = []) :
    l'.Accounts (τ ++ υ) := by
  obtain ⟨parts, hopened, hdecoded, hprogress⟩ := h
  rw [hp] at hprogress
  refine ⟨parts ++ [(f, [])], by simp [hopened, ho], by simp [hdecoded, hd], ?_⟩
  rw [hp', hwho]
  exact ⟨parts, f, [], rfl, hprogress, rfl⟩

lemma accounts_of_decoded {l l' : Loop} {τ υ : List Event} {f g : Feed} {m : Message}
    (h : l.Accounts τ) (hwho : l'.who = l.who) (hp : l.phase = .attempting (.reading f))
    (ha : f.arrival l.who.topicUrl l.who.subscriptionId = .notification m g)
    (hp' : ∀ parts, ReadUpTo l.who parts g → Progress l.who parts l'.phase)
    (ho : openedIn υ = []) (hd : decodedIn υ = [m]) : l'.Accounts (τ ++ υ) := by
  obtain ⟨parts, hopened, hdecoded, hprogress⟩ := h
  rw [hp] at hprogress
  obtain ⟨done, f₀, ms, rfl, hdone, hf⟩ := hprogress
  refine ⟨done ++ [(f₀, ms ++ [m])], ?_, ?_, ?_⟩
  · simpa [ho] using hopened
  · simp [← hdecoded, hd]
  · rw [hwho]
    refine hp' _ ⟨done, f₀, ms ++ [m], rfl, hdone, ?_⟩
    rw [hf, Feed.notifications, Feed.collect_of_notification ha]
    simp [Feed.notifications]

/-- **What a listener has read is accounted for after every move,** unless the queue was closed. -/
theorem Does.accounts {l l' : Loop} {hub hub' : Hub} {move : Move} {τ υ : List Event}
    (hdoes : Does l hub move υ hub' l') (h : l.Accounts τ) (hopen : hub.queue.isOpen = true)
    (hmove : move ≠ .wake .closed) : l'.Accounts (τ ++ υ) := by
  cases hdoes with
  | idle => simpa using h
  | asked hc hp => exact accounts_of_quiet h hp rfl rfl fun _ hprogress => hprogress
  | opened hc hp => exact accounts_of_opened h rfl hp rfl rfl rfl
  | refused hc hp => exact accounts_of_quiet h hp rfl rfl fun _ hprogress => hprogress
  | hangs hc hp => exact accounts_of_quiet h hp rfl rfl fun _ hprogress => hprogress
  | entered hc hp ha hq => exact accounts_of_decoded h rfl hp ha (fun _ hr => hr) rfl rfl
  | blocked hc hp ha hq => exact accounts_of_decoded h rfl hp ha (fun _ hr => hr) rfl rfl
  | closed hc hp ha hq => exact absurd hq (Queue.push_ne_closed hopen _ _)
  | control hc hp ha =>
    refine accounts_of_quiet h hp rfl rfl fun parts hprogress => ?_
    obtain ⟨done, f₀, ms, rfl, hdone, hf⟩ := hprogress
    refine ⟨done, f₀, ms, rfl, hdone, ?_⟩
    rw [hf, Feed.notifications, Feed.collect_of_control ha]
    rfl
  | finished hc hp ha =>
    refine accounts_of_quiet h hp rfl rfl fun parts hprogress => ?_
    exact hprogress.allRead (by rw [Feed.notifications, Feed.collect_of_ended ha])
  | failed hc hp ha =>
    refine accounts_of_quiet h hp rfl rfl fun parts hprogress => ?_
    exact hprogress.allRead (by rw [Feed.notifications, Feed.collect_of_failed ha])
  | silent hc hp ha =>
    refine accounts_of_quiet h hp rfl rfl fun parts hprogress => ?_
    exact hprogress.allRead (by rw [Feed.notifications, Feed.collect_of_waits ha])
  | woken hc hp ho => exact accounts_of_quiet h hp rfl rfl fun _ hprogress => hprogress
  | dropped hc hp => exact absurd rfl hmove
  | cut hm hc hp => exact accounts_of_quiet h hp rfl rfl fun _ hprogress => hprogress.inOrder
  | left hm hc hp => exact accounts_of_quiet h hp rfl rfl fun _ hprogress => hprogress.inOrder
  | passed hc hp hlt => exact accounts_of_quiet h hp rfl rfl fun _ hprogress => hprogress
  | resumed hc hp hle => exact accounts_of_quiet h hp rfl rfl fun _ hprogress => hprogress
  | told hc => exact accounts_of_quiet h rfl rfl rfl fun _ hprogress => hprogress

/-- Everything a listener decodes carries its context. -/
lemma Does.stamps {l l' : Loop} {hub hub' : Hub} {move : Move} {υ : List Event}
    (hdoes : Does l hub move υ hub' l') :
    ∀ m ∈ decodedIn υ, m.topicUrl = l.who.topicUrl ∧ m.subscriptionId = l.who.subscriptionId := by
  intro m hm
  cases hdoes with
  | entered hc hp ha hq | blocked hc hp ha hq | closed hc hp ha hq =>
    obtain rfl : m = _ := by simpa using hm
    exact Feed.notification_stamps ha
  | _ => simp at hm

end Loop

end TopicFeed
