import Mathlib.Data.List.Basic
import TopicFeed.Queue

/-!
Order in a bounded queue.

Waiting is fair: a push waits only in front of a full queue that nobody waits to take from, and a
taker waits only for an empty one. So a message that enters at once overtakes nobody, and what a
push adds to a queue stands behind everything that was pushed before it.
-/

namespace TopicFeed.Queue

variable {τ α : Type}

/-- Nobody waits without need. -/
structure Fair (q : Queue τ α) : Prop where
  full : q.pushes ≠ [] → q.capacity ≤ q.items.length
  untaken : q.takers ≠ [] → q.items = [] ∧ q.pushes = []

namespace Fair

variable {q : Queue τ α}

lemma no_taker (h : q.Fair) (hp : q.pushes ≠ []) : q.takers = [] := by
  by_contra ht
  exact hp (h.untaken ht).2

lemma no_push (h : q.Fair) (hlt : q.items.length < q.capacity) : q.pushes = [] := by
  by_contra hp
  exact absurd (h.full hp) (Nat.not_le.mpr hlt)

end Fair

lemma fair_new (capacity : Nat) : ({ capacity } : Queue τ α).Fair :=
  ⟨fun h => absurd rfl h, fun h => absurd rfl h⟩

@[simp] lemma isOpen_of_owned {q : Queue τ α} (h : q.owned = true) : q.isOpen = true := by
  simp [isOpen, h]

lemma dropReceiver_of_owned {q : Queue τ α} (h : q.owned = true) :
    q.dropReceiver.queue = { q with receivers := q.receivers - 1 } := by
  simp [dropReceiver, closeIfAbandoned, isOpen, h]

/-! ### Pushing -/

/-- What a push into an open queue does: it hands its message over, or puts it inside, or waits. -/
lemma push_cases {q : Queue τ α} (hopen : q.isOpen = true) (t : τ) (m : α) :
    (∃ taker takers, q.takers = taker :: takers ∧
      q.push t m = (⟨{ q with takers }, [(taker, .took m)]⟩, .entered)) ∨
    (q.takers = [] ∧ q.items.length < q.capacity ∧
      q.push t m = (⟨{ q with items := q.items ++ [m] }, []⟩, .entered)) ∨
    (q.takers = [] ∧ q.capacity ≤ q.items.length ∧
      q.push t m = (⟨{ q with pushes := q.pushes ++ [(t, m)] }, []⟩, .waiting)) := by
  unfold push
  rw [hopen]
  rcases htakers : q.takers with _ | ⟨taker, takers⟩
  · rcases Nat.lt_or_ge q.items.length q.capacity with hlt | hge
    · exact .inr (.inl ⟨rfl, hlt, by simp [hlt]⟩)
    · exact .inr (.inr ⟨rfl, hge, by simp [Nat.not_lt.mpr hge]⟩)
  · exact .inl ⟨taker, takers, rfl, by simp⟩

lemma push_ne_closed {q : Queue τ α} (hopen : q.isOpen = true) (t : τ) (m : α) :
    (q.push t m).2 ≠ .closed := by
  rcases push_cases hopen t m with ⟨_, _, _, h⟩ | ⟨_, _, h⟩ | ⟨_, _, h⟩ <;> simp [h]

lemma push_owned (q : Queue τ α) (t : τ) (m : α) : (q.push t m).1.queue.owned = q.owned := by
  unfold push
  split
  · rfl
  · split
    · rfl
    · split <;> rfl

lemma fair_push {q : Queue τ α} (h : q.Fair) (hopen : q.isOpen = true) (t : τ) (m : α) :
    (q.push t m).1.queue.Fair := by
  rcases push_cases hopen t m with ⟨taker, takers, ht, hp⟩ | ⟨ht, hlt, hp⟩ | ⟨ht, hge, hp⟩
  · obtain ⟨hitems, hpushes⟩ := h.untaken (by simp [ht])
    rw [hp]
    exact ⟨fun hne => absurd hpushes hne, fun _ => ⟨hitems, hpushes⟩⟩
  · rw [hp]
    exact ⟨fun hne => absurd (h.no_push hlt) hne, fun hne => absurd ht hne⟩
  · rw [hp]
    exact ⟨fun _ => hge, fun hne => absurd ht hne⟩

/-- A push that does not wait stands behind everything inside, and nobody waits in front of it. -/
lemma push_entered {q : Queue τ α} (h : q.Fair) (hopen : q.isOpen = true) {t : τ} {m : α}
    {change : Change τ α} (hp : q.push t m = (change, .entered)) :
    q.pushes = [] ∧ change.queue.pushes = [] ∧
      change.handed.map (·.2) ++ change.queue.items = q.items ++ [m] := by
  rcases push_cases hopen t m with ⟨taker, takers, ht, heq⟩ | ⟨ht, hlt, heq⟩ | ⟨ht, hge, heq⟩
  · obtain ⟨hitems, hpushes⟩ := h.untaken (by simp [ht])
    rw [heq] at hp
    cases hp
    exact ⟨hpushes, hpushes, by simp [Change.handed, Wake.message?, hitems]⟩
  · rw [heq] at hp
    cases hp
    exact ⟨h.no_push hlt, h.no_push hlt, by simp [Change.handed]⟩
  · rw [heq] at hp
    cases hp

/-- A push that waits is the last of those that wait, and changes nothing else. -/
lemma push_waiting {q : Queue τ α} {t : τ} {m : α} {change : Change τ α}
    (hp : q.push t m = (change, .waiting)) :
    change = ⟨{ q with pushes := q.pushes ++ [(t, m)] }, []⟩ := by
  unfold push at hp
  split at hp
  · cases hp
  · split at hp
    · cases hp
    · split at hp <;> cases hp
      rfl

/-! ### Taking -/

/-- What taking does: the oldest waiting pushes enter, at most one, and the oldest message goes. -/
structure Takes (q : Queue τ α) (change : Change τ α) (taken : Option α) : Prop where
  entered : ∃ entered : List (τ × α), entered.length ≤ 1 ∧
    q.pushes = entered ++ change.queue.pushes ∧
    q.items ++ entered.map (·.2) = taken.toList ++ change.queue.items ∧
    change.woken = entered.map fun p => (p.1, .entered)
  owned : change.queue.owned = q.owned
  fair : q.Fair → change.queue.Fair

lemma fair_take {q : Queue τ α} (h : q.Fair) : q.take.1.queue.Fair := by
  unfold take
  split
  · next m items hi hp =>
    refine ⟨fun hne => absurd hp hne, fun ht => ?_⟩
    exact absurd (h.untaken ht).1 (by simp [hi])
  · next m items t x pushes hi hp =>
    have ht := h.no_taker (by simp [hp])
    have hcap := h.full (by simp [hp])
    refine ⟨fun _ => ?_, fun hne => absurd ht hne⟩
    simpa [hi] using hcap
  · next t x pushes hi hp =>
    have ht := h.no_taker (by simp [hp])
    have hcap := h.full (by simp [hp])
    exact ⟨fun _ => by simpa [hi] using hcap, fun hne => absurd ht hne⟩
  · exact h

lemma take_takes (q : Queue τ α) : q.Takes q.take.1 q.take.2 where
  entered := by
    unfold take
    split
    · next m items hi hp => exact ⟨[], by simp [hi, hp]⟩
    · next m items t x pushes hi hp => exact ⟨[(t, x)], by simp [hi, hp]⟩
    · next t x pushes hi hp => exact ⟨[(t, x)], by simp [hi, hp]⟩
    · next hi hp => exact ⟨[], by simp [hi, hp]⟩
  owned := by
    unfold take
    split <;> rfl
  fair := fair_take

lemma take_eq_none {q : Queue τ α} (h : q.take.2 = none) : q.items = [] ∧ q.pushes = [] := by
  unfold take at h
  split at h <;> simp_all

/-- Waiting for a message keeps to the rules of taking: it takes, or there was nothing to take. -/
lemma await_takes (q : Queue τ α) (t : τ) : q.Takes (q.await t).1 (q.await t).2 := by
  unfold await
  rcases htake : q.take with ⟨change, _ | m⟩
  · obtain ⟨hitems, hpushes⟩ := take_eq_none (congrArg Prod.snd htake)
    exact ⟨⟨[], by simp [hitems, hpushes]⟩, rfl,
      fun _ => ⟨fun hne => absurd hpushes hne, fun _ => ⟨hitems, hpushes⟩⟩⟩
  · have h := take_takes q
    rwa [htake] at h

/-! ### No longer waiting -/

lemma fair_of_sublist {q : Queue τ α} (h : q.Fair) {pushes : List (τ × α)} {takers : List τ}
    (hp : pushes.Sublist q.pushes) (ht : takers.Sublist q.takers) :
    ({ q with pushes, takers } : Queue τ α).Fair := by
  refine ⟨fun hne => h.full ?_, fun hne => ?_⟩
  · rintro hq
    exact hne (List.sublist_nil.mp (hq ▸ hp))
  · have hq : q.takers ≠ [] := by
      rintro hq
      exact hne (List.sublist_nil.mp (hq ▸ ht))
    obtain ⟨hitems, hpushes⟩ := h.untaken hq
    exact ⟨hitems, List.sublist_nil.mp (hpushes ▸ hp)⟩

section Tickets

variable [DecidableEq τ]

lemma fair_withdraw {q : Queue τ α} (h : q.Fair) (t : τ) : (q.withdraw t).Fair :=
  fair_of_sublist h List.filter_sublist (List.Sublist.refl _)

lemma fair_forgo {q : Queue τ α} (h : q.Fair) (t : τ) : (q.forgo t).Fair :=
  fair_of_sublist h (List.Sublist.refl _) List.filter_sublist

/-- Nothing waits under the ticket, so there is nothing to take back. -/
lemma withdraw_of_none {q : Queue τ α} {t : τ} (h : ∀ p ∈ q.pushes, p.1 ≠ t) :
    q.withdraw t = q := by
  rw [withdraw, List.filter_eq_self.mpr fun p hp => by simpa using h p hp]

@[simp] lemma waitingOf_withdraw_self (q : Queue τ α) (t : τ) :
    (q.withdraw t).waitingOf t = [] := by
  simp [waitingOf, withdraw, List.filter_filter]

@[simp] lemma waitingOf_withdraw_of_ne (q : Queue τ α) {t u : τ} (h : u ≠ t) :
    (q.withdraw t).waitingOf u = q.waitingOf u := by
  simp only [waitingOf, withdraw, List.filter_filter]
  congr 1
  refine List.filter_congr fun p _ => ?_
  by_cases hp : p.1 = u <;> simp [hp, h]

end Tickets

end TopicFeed.Queue
