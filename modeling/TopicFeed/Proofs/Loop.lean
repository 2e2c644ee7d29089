import Mathlib.Data.List.Basic
import TopicFeed.Loop.Move

/-!
What a listener can do in one move.

`Does` lists the moves of a listener case by case, each with what can be seen of it and with what
it leads to. Everything that is proved about listeners starts from this list.
-/

namespace TopicFeed.Loop

open Network

/-- The listener pauses after an attempt that failed. -/
def afterFailure (l : Loop) (e : ClientError) : Loop :=
  { l with phase := .pausing l.who.delay, lastError := some e }

@[simp] lemma phase_afterFailure (l : Loop) (e : ClientError) :
    (l.afterFailure e).phase = .pausing l.who.delay := rfl

/-- The move has no effect on the listener. -/
def Ignores (l : Loop) : Move → Prop
  | .step => l.isAtRest = true
  | .wake _ => (l.canceled = true → l.phase = .exited) ∧ ∀ f, l.phase ≠ .attempting (.pushing f)
  | .elapse _ => l.canceled = true ∨ ∀ n, l.phase ≠ .pausing n
  | .cancel => l.canceled = true

/-- One move of a listener in a hub: what can be seen of it, and what it leads to. -/
inductive Does (l : Loop) (hub : Hub) : Move → List Event → Hub → Loop → Prop
  | idle (move : Move) (hi : l.Ignores move) : Does l hub move [] hub l
  | asked (hc : l.canceled = false) (hp : l.phase = .attempting .connecting) :
      Does l hub .step [.asked]
        { hub with network := (hub.network.openFeed l.who.topicUrl l.who.options).1 }
        { l with phase := .attempting (.awaiting
          (hub.network.openFeed l.who.topicUrl l.who.options).2) }
  | opened {f : Feed} (hc : l.canceled = false)
      (hp : l.phase = .attempting (.awaiting (.feed f))) :
      Does l hub .step [.opened f] hub { l with phase := .attempting (.reading f) }
  | refused {e : ClientError} (hc : l.canceled = false)
      (hp : l.phase = .attempting (.awaiting (.failed e))) :
      Does l hub .step [.ended (some e)] (note hub (.failed l.who.name e)) (l.afterFailure e)
  | hangs (hc : l.canceled = false) (hp : l.phase = .attempting (.awaiting .waits)) :
      Does l hub .step [] hub { l with phase := .attempting .stalled }
  | entered {f g : Feed} {m : Message} {change : Queue.Change Ticket Message}
      (hc : l.canceled = false) (hp : l.phase = .attempting (.reading f))
      (ha : f.arrival l.who.topicUrl l.who.subscriptionId = .notification m g)
      (hq : hub.queue.push l.ticket m = (change, .entered)) :
      Does l hub .step [.decoded m] (hub.accept change)
        { l with phase := .attempting (.reading g) }
  | blocked {f g : Feed} {m : Message} {change : Queue.Change Ticket Message}
      (hc : l.canceled = false) (hp : l.phase = .attempting (.reading f))
      (ha : f.arrival l.who.topicUrl l.who.subscriptionId = .notification m g)
      (hq : hub.queue.push l.ticket m = (change, .waiting)) :
      Does l hub .step [.decoded m] (hub.accept change)
        { l with phase := .attempting (.pushing g) }
  | closed {f g : Feed} {m : Message} (hc : l.canceled = false)
      (hp : l.phase = .attempting (.reading f))
      (ha : f.arrival l.who.topicUrl l.who.subscriptionId = .notification m g)
      (hq : (hub.queue.push l.ticket m).2 = .closed) :
      Does l hub .step [.decoded m, .ended (some .queueClosed)]
        (note { hub with network := hub.network.leave g.ending }
          (.failed l.who.name .queueClosed)) (l.afterFailure .queueClosed)
  | control {f g : Feed} (hc : l.canceled = false) (hp : l.phase = .attempting (.reading f))
      (ha : f.arrival l.who.topicUrl l.who.subscriptionId = .control g) :
      Does l hub .step [] hub { l with phase := .attempting (.reading g) }
  | finished {f : Feed} (hc : l.canceled = false) (hp : l.phase = .attempting (.reading f))
      (ha : f.arrival l.who.topicUrl l.who.subscriptionId = .ended) :
      Does l hub .step [.ended none] hub
        { l with phase := .pausing l.who.delay, lastError := none }
  | failed {f : Feed} {e : ClientError} (hc : l.canceled = false)
      (hp : l.phase = .attempting (.reading f))
      (ha : f.arrival l.who.topicUrl l.who.subscriptionId = .failed e) :
      Does l hub .step [.ended (some e)]
        (note { hub with network := hub.network.leave f.ending } (.failed l.who.name e))
        (l.afterFailure e)
  | silent {f : Feed} (hc : l.canceled = false) (hp : l.phase = .attempting (.reading f))
      (ha : f.arrival l.who.topicUrl l.who.subscriptionId = .waits) :
      Does l hub .step [] hub { l with phase := .attempting .stalled }
  | woken {f : Feed} {outcome : Queue.Wake Message} (hc : l.canceled = false)
      (hp : l.phase = .attempting (.pushing f)) (ho : outcome ≠ .closed) :
      Does l hub (.wake outcome) [] hub { l with phase := .attempting (.reading f) }
  | dropped {f : Feed} (hc : l.canceled = false) (hp : l.phase = .attempting (.pushing f)) :
      Does l hub (.wake .closed) [.ended (some .queueClosed)]
        (note { hub with network := hub.network.leave f.ending }
          (.failed l.who.name .queueClosed)) (l.afterFailure .queueClosed)
  | cut {move : Move} {a : Attempt} (hm : move = .step ∨ ∃ o, move = .wake o)
      (hc : l.canceled = true) (hp : l.phase = .attempting a) :
      Does l hub move [.cut (l.waiting hub), .exited none]
        (note { hub with
            queue := hub.queue.withdraw l.ticket
            network := hub.network.leave a.ending } (.exited l.who.name none))
        { l with phase := .exited, lastError := none }
  | left {move : Move} {n : Nat} (hm : move = .step ∨ ∃ o, move = .wake o)
      (hc : l.canceled = true) (hp : l.phase = .pausing n) :
      Does l hub move [.exited l.lastError] (note hub (.exited l.who.name l.lastError))
        { l with phase := .exited }
  | passed {n ms : Nat} (hc : l.canceled = false) (hp : l.phase = .pausing n) (hlt : ms < n) :
      Does l hub (.elapse ms) [.passed ms] hub { l with phase := .pausing (n - ms) }
  | resumed {n ms : Nat} (hc : l.canceled = false) (hp : l.phase = .pausing n) (hle : n ≤ ms) :
      Does l hub (.elapse ms) [.passed ms] hub { l with phase := .attempting .connecting }
  | told (hc : l.canceled = false) :
      Does l hub .cancel [.told (l.waiting hub)] hub l.cancel

lemma take_goesOn {l : Loop} {a : Attempt} (hp : l.phase = .attempting a) (hub : Hub) :
    l.take (hub, .goesOn a) = (hub, l) := by
  rw [take, ← hp]

lemma receive_does {l : Loop} {hub : Hub} {answer : Opened} (hc : l.canceled = false)
    (hp : l.phase = .attempting (.awaiting answer)) :
    Does l hub .step (l.attemptEvents hub (.awaiting answer))
      (l.take (Attempt.receive hub answer)).1 (l.take (Attempt.receive hub answer)).2 := by
  rcases answer with f | e | _
  · exact Does.opened hc hp
  · exact Does.refused hc hp
  · exact Does.hangs hc hp

lemma read_does {l : Loop} {hub : Hub} {f : Feed} (hc : l.canceled = false)
    (hp : l.phase = .attempting (.reading f)) :
    Does l hub .step (l.attemptEvents hub (.reading f))
      (l.take (Attempt.read l.who l.ticket f hub)).1
      (l.take (Attempt.read l.who l.ticket f hub)).2 := by
  rcases ha : f.arrival l.who.topicUrl l.who.subscriptionId with ⟨m, g⟩ | g | _ | e | _
  · rcases hq : hub.queue.push l.ticket m with ⟨change, _ | _ | _⟩
    · simpa [attemptEvents, Attempt.read, Attempt.hand, take, ha, hq]
        using Does.entered hc hp ha hq
    · simpa [attemptEvents, Attempt.read, Attempt.hand, take, ha, hq]
        using Does.blocked hc hp ha hq
    · simpa [attemptEvents, Attempt.read, Attempt.hand, take, ha, hq, afterFailure]
        using Does.closed hc hp ha (congrArg Prod.snd hq)
  · simpa [attemptEvents, Attempt.read, take, ha] using Does.control hc hp ha
  · simpa [attemptEvents, Attempt.read, take, ha] using Does.finished hc hp ha
  · simpa [attemptEvents, Attempt.read, take, ha, afterFailure]
      using Does.failed hc hp ha
  · simpa [attemptEvents, Attempt.read, take, ha] using Does.silent hc hp ha

lemma stop_does {l : Loop} {hub : Hub} {move : Move} (hm : move = .step ∨ ∃ o, move = .wake o)
    (hc : l.canceled = true) :
    Does l hub move (l.stopEvents hub) (l.stop hub).1 (l.stop hub).2 := by
  rcases hp : l.phase with a | n | _
  · simpa [stopEvents, stop, exit, hp] using Does.cut hm hc hp
  · simpa [stopEvents, stop, exit, hp] using Does.left hm hc hp
  · have hi : l.Ignores move := by
      rcases hm with rfl | ⟨o, rfl⟩ <;> simp [Ignores, isAtRest, hp]
    simpa [stopEvents, stop, hp] using Does.idle move hi

lemma step_does (l : Loop) (hub : Hub) :
    Does l hub .step (l.events hub .step) (l.step hub).1 (l.step hub).2 := by
  rcases hc : l.canceled with _ | _
  · rcases hp : l.phase with a | n | _
    · rcases a with _ | answer | f | f | _
      · simpa [events, step, hc, hp, Attempt.step, Attempt.connect, attemptEvents, take]
          using Does.asked hc hp
      · simpa [events, step, hc, hp, Attempt.step] using receive_does hc hp
      · simpa [events, step, hc, hp, Attempt.step] using read_does hc hp
      · simpa [events, step, hc, hp, Attempt.step, attemptEvents, take_goesOn hp]
          using Does.idle .step (by simp [Ignores, isAtRest, hp, hc, Attempt.isAtRest])
      · simpa [events, step, hc, hp, Attempt.step, attemptEvents, take_goesOn hp]
          using Does.idle .step (by simp [Ignores, isAtRest, hp, hc, Attempt.isAtRest])
    · simpa [events, step, hc, hp]
        using Does.idle .step (by simp [Ignores, isAtRest, hp, hc])
    · simpa [events, step, hc, hp]
        using Does.idle .step (by simp [Ignores, isAtRest, hp])
  · simpa [events, step, hc] using stop_does (.inl rfl) hc

lemma wake_does (l : Loop) (hub : Hub) (outcome : Queue.Wake Message) :
    Does l hub (.wake outcome) (l.events hub (.wake outcome)) (l.wake outcome hub).1
      (l.wake outcome hub).2 := by
  rcases hc : l.canceled with _ | _
  · rcases hp : l.phase with a | n | _
    · rcases a with _ | answer | f | f | _
      · simpa [events, wake, hc, hp, Attempt.woken, take_goesOn hp]
          using Does.idle (.wake outcome) (by simp [Ignores, hp, hc])
      · simpa [events, wake, hc, hp, Attempt.woken, take_goesOn hp]
          using Does.idle (.wake outcome) (by simp [Ignores, hp, hc])
      · simpa [events, wake, hc, hp, Attempt.woken, take_goesOn hp]
          using Does.idle (.wake outcome) (by simp [Ignores, hp, hc])
      · rcases outcome with _ | _ | m
        · simpa [events, wake, hc, hp, Attempt.woken, take] using Does.woken hc hp (by simp)
        · simpa [events, wake, hc, hp, Attempt.woken, take, afterFailure]
            using Does.dropped hc hp
        · simpa [events, wake, hc, hp, Attempt.woken, take] using Does.woken hc hp (by simp)
      · simpa [events, wake, hc, hp, Attempt.woken, take_goesOn hp]
          using Does.idle (.wake outcome) (by simp [Ignores, hp, hc])
    · simpa [events, wake, hc, hp]
        using Does.idle (.wake outcome) (by simp [Ignores, hp, hc])
    · simpa [events, wake, hc, hp]
        using Does.idle (.wake outcome) (by simp [Ignores, hp, hc])
  · simpa [events, wake, hc] using stop_does (.inr ⟨outcome, rfl⟩) hc

lemma elapse_does (l : Loop) (hub : Hub) (ms : Nat) :
    Does l hub (.elapse ms) (l.events hub (.elapse ms)) hub (l.elapse ms) := by
  rcases hp : l.phase with a | n | _
  · simpa [events, elapse, hp]
      using Does.idle (.elapse ms) (by simp [Ignores, hp])
  · rcases hc : l.canceled with _ | _
    · rcases Nat.lt_or_ge ms n with hlt | hge
      · simpa [events, elapse, hp, hc, Nat.not_le.mpr hlt] using Does.passed hc hp hlt
      · simpa [events, elapse, hp, hc, hge] using Does.resumed hc hp hge
    · simpa [events, elapse, hp, hc]
        using Does.idle (.elapse ms) (by simp [Ignores, hc])
  · simpa [events, elapse, hp]
      using Does.idle (.elapse ms) (by simp [Ignores, hp])

lemma cancel_does (l : Loop) (hub : Hub) :
    Does l hub .cancel (l.events hub .cancel) hub l.cancel := by
  rcases hc : l.canceled with _ | _
  · simpa [events, hc] using Does.told hc
  · have hl : l.cancel = l := by rw [cancel, ← hc]
    simpa [events, hc, hl] using Does.idle .cancel hc

/-- **Every move of a listener is one of the moves listed.** -/
theorem act_does (l : Loop) (hub : Hub) (move : Move) :
    Does l hub move (l.events hub move) (l.act hub move).1 (l.act hub move).2 := by
  cases move with
  | step => exact step_does l hub
  | wake outcome => exact wake_does l hub outcome
  | elapse ms => exact elapse_does l hub ms
  | cancel => exact cancel_does l hub

/-- A listener stays who it is. -/
lemma Does.who_eq {l l' : Loop} {hub hub' : Hub} {move : Move} {τ : List Event}
    (h : Does l hub move τ hub' l') : l'.who = l.who ∧ l'.ticket = l.ticket := by
  cases h <;> exact ⟨rfl, rfl⟩

end TopicFeed.Loop
