import TopicFeed.Proofs.Effects

/-!
What is inside a queue, and who waits.

A queue never holds more than its capacity. A push waits only while the queue is full, somebody
could take from it, and nobody waits to do so; a taker waits only while there is nothing to take.
Each action restores this, so giving up leaves nobody waiting who could go on.
-/

namespace TopicFeed.Queue

variable {τ α : Type}

/-- No more is inside than fits, and nobody waits without need. -/
structure Bounded (q : Queue τ α) : Prop where
  fair : q.Fair
  fits : q.items.length ≤ q.capacity
  open' : q.pushes ≠ [] → q.isOpen = true

namespace Bounded

variable {q : Queue τ α} {t : τ} {m : α}

/-- The queue is full as long as a push waits. -/
lemma length_eq (h : q.Bounded) (hp : q.pushes ≠ []) : q.items.length = q.capacity :=
  Nat.le_antisymm h.fits (h.fair.full hp)

/-- Who could take what a push waits with is no taker who waits. -/
lemma owned_or_receiver (h : q.Bounded) (hp : q.pushes ≠ []) :
    q.owned = true ∨ 0 < q.receivers := by
  have hopen := h.open' hp
  simpa [isOpen, h.fair.no_taker hp] using hopen

/-- A push would have to wait as long as another one does. -/
lemma push_waits (h : q.Bounded) (hp : q.pushes ≠ []) (t : τ) (m : α) :
    (q.push t m).2 = .waiting := by
  rcases push_cases (h.open' hp) t m with ⟨taker, takers, ht, -⟩ | ⟨-, hlt, -⟩ | ⟨-, -, heq⟩
  · rw [h.fair.no_taker hp] at ht
    cases ht
  · exact absurd hlt (Nat.not_lt.mpr (h.fair.full hp))
  · rw [heq]

/-- There is nothing to take as long as a taker waits. -/
lemma take_none (h : q.Bounded) (ht : q.takers ≠ []) : q.take.2 = none := by
  obtain ⟨hitems, hpushes⟩ := h.fair.untaken ht
  simp [take, hitems, hpushes]

/-! ### One step -/

lemma length_concat_le (hlt : q.items.length < q.capacity) :
    (q.items ++ [m]).length ≤ q.capacity := by
  rw [List.length_append]
  exact hlt

lemma take (h : q.Bounded) :
    q.take.1.queue.Bounded ∧ q.take.1.queue.capacity = q.capacity := by
  obtain ⟨entered, -, hpushes, -, -⟩ := (take_takes q).entered
  have hopen : q.take.1.queue.pushes ≠ [] → q.take.1.queue.isOpen = true := by
    intro hp
    rw [(take_handles q).2]
    exact h.open' fun hnone => hp (List.append_eq_nil_iff.mp (hpushes.symm.trans hnone)).2
  have hfits : q.take.1.queue.items.length ≤ q.take.1.queue.capacity ∧
      q.take.1.queue.capacity = q.capacity := by
    have hlen := h.fits
    unfold Queue.take
    split
    · next m items hi hp =>
      rw [hi] at hlen
      exact ⟨Nat.le_of_succ_le hlen, rfl⟩
    · next m items t x pushes hi hp => exact ⟨by simpa [hi] using hlen, rfl⟩
    · next t x pushes hi hp => exact ⟨hlen, rfl⟩
    · exact ⟨hlen, rfl⟩
  exact ⟨⟨fair_take h.fair, hfits.1, hopen⟩, hfits.2⟩

/-- Closing leaves no push waiting that nobody could take. -/
lemma close (hfair : q.Fair) (hfits : q.items.length ≤ q.capacity) :
    q.closeIfAbandoned.queue.Bounded ∧ q.closeIfAbandoned.queue.capacity = q.capacity := by
  unfold closeIfAbandoned
  split
  · next hopen => exact ⟨⟨hfair, hfits, fun _ => hopen⟩, rfl⟩
  · have hnone : ({ q with pushes := [] } : Queue τ α).Fair :=
      fair_of_sublist hfair (List.nil_sublist _) (List.Sublist.refl _)
    exact ⟨⟨hnone, hfits, fun hp => absurd rfl hp⟩, rfl⟩

variable [DecidableEq τ]

lemma giveUp (h : q.Bounded) (t : τ) :
    (q.giveUp t).1.queue.Bounded ∧ (q.giveUp t).1.queue.capacity = q.capacity :=
  close (fair_forgo (fair_withdraw h.fair t) t) h.fits

/-- Who gives up was not the last who could take what others wait to push, so nobody is told. -/
lemma giveUp_eq (h : q.Bounded) (t : τ) : (q.giveUp t).1 = ⟨(q.withdraw t).forgo t, []⟩ := by
  unfold Queue.giveUp closeIfAbandoned
  split
  · rfl
  · next hclosed =>
    have hnone : (q.withdraw t).pushes = [] := by
      by_contra hp
      have hpushes : q.pushes ≠ [] := fun hq => hp (by simp [withdraw, hq])
      have hthere := h.owned_or_receiver hpushes
      exact hclosed (by simpa [isOpen, forgo, withdraw] using Or.inl hthere)
    have hforgo : ((q.withdraw t).forgo t).pushes = [] := hnone
    rw [hforgo, List.map_nil]
    exact congrArg (fun q => (⟨q, []⟩ : Change τ α)) (by rw [← hforgo])

/-- **Each effect keeps to the capacity and leaves nobody waiting without need.** -/
theorem effect (h : q.Bounded) {a : Action τ α} {c : Change τ α} (hc : q.Effect a c) :
    c.queue.Bounded ∧ c.queue.capacity = q.capacity := by
  cases hc with
  | idle _ => exact ⟨h, rfl⟩
  | hands _ ht =>
    obtain ⟨hitems, hnone⟩ := h.fair.untaken (by simp [ht])
    exact ⟨⟨⟨fun hp => absurd hnone hp, fun _ => ⟨hitems, hnone⟩⟩, h.fits,
      fun hp => absurd hnone hp⟩, rfl⟩
  | enters _ _ ht hlt =>
    have hnone := h.fair.no_push hlt
    exact ⟨⟨⟨fun hp => absurd hnone hp, fun hne => absurd ht hne⟩, length_concat_le hlt,
      h.open'⟩, rfl⟩
  | waits hopen ht hge =>
    exact ⟨⟨⟨fun _ => hge, fun hne => absurd ht hne⟩, h.fits, fun _ => hopen⟩, rfl⟩
  | takes _ => exact h.take
  | awaits howned hnone =>
    obtain ⟨hitems, hpushes⟩ := take_eq_none hnone
    exact ⟨⟨⟨fun hp => absurd hpushes hp, fun _ => ⟨hitems, hpushes⟩⟩, h.fits,
      fun _ => isOpen_of_owned howned⟩, rfl⟩
  | givesUp => exact h.giveUp _
  | gains howned =>
    exact ⟨⟨⟨h.fair.full, h.fair.untaken⟩, h.fits, fun _ => isOpen_of_owned howned⟩, rfl⟩
  | loses _ => exact close ⟨h.fair.full, h.fair.untaken⟩ h.fits

end Bounded

/-! ### Whole runs -/

variable [DecidableEq τ]

lemma bounded_watched (capacity : Nat) (actions : List (Action τ α)) :
    (watched capacity actions).queue.Bounded ∧
      (watched capacity actions).queue.capacity = capacity := by
  induction actions using List.reverseRecOn with
  | nil => exact ⟨⟨fair_new capacity, Nat.zero_le _, fun _ => rfl⟩, rfl⟩
  | append_singleton actions a ih =>
    obtain ⟨hbounded, hcapacity⟩ := ih
    obtain ⟨hbounded', hcapacity'⟩ := hbounded.effect (effect_act _ a)
    rw [watched_concat]
    exact ⟨hbounded', hcapacity'.trans hcapacity⟩

/-- By the ledger a push waits exactly if it waits in the queue. -/
lemma inLine_pushes (capacity : Nat) (actions : List (Action τ α)) :
    inLine (watched capacity actions).ledger.pushes = (watched capacity actions).queue.pushes :=
  (fits_watched capacity actions).pushes

lemma inLine_takers_eq_nil_iff (capacity : Nat) (actions : List (Action τ α)) :
    inLine (watched capacity actions).ledger.takers = [] ↔
      (watched capacity actions).queue.takers = [] := by
  rw [(fits_watched capacity actions).takers, List.map_eq_nil_iff]

/-- **A queue is bounded and lets nobody wait without need,** at every capacity and whatever was
done to it. It never holds more than its capacity. If by the ledger a push waits, the queue is full,
its owner or a receiver is there, no taker waits, and every push that came now would have to wait as
well. If a taker waits, the queue is empty, no push waits, and there is nothing that could be taken.
When somebody gives up, nobody else is told anything, the others wait on, and still not in vain. -/
theorem nobody_waits_in_vain (capacity : Nat) (actions : List (Action τ α)) :
    let q := (watched capacity actions).queue
    let l := (watched capacity actions).ledger
    q.capacity = capacity ∧ q.size ≤ capacity ∧ (q.isEmpty = true ↔ q.size = 0) ∧
    (inLine l.pushes ≠ [] → q.size = capacity ∧ (q.owned = true ∨ 0 < q.receivers) ∧
      inLine l.takers = [] ∧ ∀ t m, (q.push t m).2 = .waiting) ∧
    (inLine l.takers ≠ [] → q.size = 0 ∧ inLine l.pushes = [] ∧ q.take.2 = none) ∧
    ∀ t, (q.giveUp t).1.woken = [] ∧
      let q' := (q.giveUp t).1.queue
      q'.items = q.items ∧ q'.pushes = q.pushes.filter (·.1 ≠ t) ∧
      q'.takers = q.takers.filter (· ≠ t) ∧
      (q'.pushes ≠ [] → ∀ u m, (q'.push u m).2 = .waiting) ∧
      (q'.takers ≠ [] → q'.take.2 = none) := by
  intro q l
  obtain ⟨h, hcapacity⟩ := bounded_watched capacity actions
  change q.Bounded at h
  have hpushes : inLine l.pushes = q.pushes := inLine_pushes capacity actions
  have htakers : inLine l.takers = [] ↔ q.takers = [] := inLine_takers_eq_nil_iff capacity actions
  rw [hpushes, Ne, Ne, htakers]
  refine ⟨hcapacity, hcapacity ▸ h.fits, by simp [isEmpty, size], fun hp => ?_, fun ht => ?_,
    fun t => ?_⟩
  · exact ⟨(h.length_eq hp).trans hcapacity, h.owned_or_receiver hp, h.fair.no_taker hp,
      h.push_waits hp⟩
  · obtain ⟨hitems, hnone⟩ := h.fair.untaken ht
    exact ⟨by simp [size, hitems], hnone, h.take_none ht⟩
  · have hstill := (h.giveUp t).1
    rw [h.giveUp_eq t] at hstill ⊢
    exact ⟨rfl, rfl, rfl, rfl, hstill.push_waits, hstill.take_none⟩

/-- Two pushes wait before a full queue, and the first of them gives up. -/
def backpressure : List (Action Nat Char) :=
  [.push 0 'a', .push 1 'b', .push 2 'c', .receiver, .giveUp 1, .disown]

theorem nobody_waits_in_vain_full :
    (watched 1 backpressure).queue.size = 1 ∧ (watched 1 backpressure).queue.pushes = [(2, 'c')] ∧
      ((watched 1 backpressure).queue.push 3 'd').2 = .waiting ∧
      (watched 0 ([.await 7] : List (Action Nat Char))).queue.take.2 = none := by
  obtain ⟨-, -, -, hpush, -⟩ := nobody_waits_in_vain 1 backpressure
  obtain ⟨-, -, -, -, htake, -⟩ := nobody_waits_in_vain 0 ([.await 7] : List (Action Nat Char))
  obtain ⟨hsize, -, -, hwaits⟩ := hpush (by decide)
  exact ⟨hsize, by decide, hwaits 3 'd', (htake (by decide)).2.2⟩

end TopicFeed.Queue
