import TopicFeed.Proofs.Capacity
import TopicFeed.Queue.Supply

/-!
When a queue closes.

By its history a queue is abandoned once its owner has gone, no receiver handle is out, and no taker
waits. That is when it closes: the step that takes the last of them away refuses every push that
waits, and from then on all pushes are refused. A taker keeps the queue and with it a sender, so he
is never told that no message would come.
-/

namespace TopicFeed.Queue

variable {τ α : Type}

/-- One who waited is told that nobody could take any more. -/
def Wake.isClosed : Wake α → Bool
  | closed => true
  | entered | took _ => false

/-- The tickets of those whom a change refused, in the order they had begun. -/
def Change.refused (c : Change τ α) : List τ := (c.woken.filter (·.2.isClosed)).map (·.1)

/-! ### Who is told what -/

lemma isOpen_eq_false_iff {q : Queue τ α} :
    q.isOpen = false ↔ q.handles = (false, 0) ∧ q.takers = [] := by
  simp [isOpen, handles, and_assoc]

lemma not_owned_of_closed {q : Queue τ α} (hclosed : q.isOpen = false) : ¬q.owned = true := by
  intro howned
  rw [isOpen_of_owned howned] at hclosed
  cases hclosed

lemma Bounded.pushes_of_closed {q : Queue τ α} (h : q.Bounded) (hclosed : q.isOpen = false) :
    q.pushes = [] := by
  by_contra hp
  rw [h.open' hp] at hclosed
  cases hclosed

lemma refused_take (q : Queue τ α) : q.take.1.refused = [] := by
  unfold take
  split <;> rfl

lemma handed_take (q : Queue τ α) : q.take.1.handed = [] := by
  unfold take
  split <;> rfl

lemma refused_close (q : Queue τ α) :
    q.closeIfAbandoned.refused = if q.isOpen then [] else q.pushes.map (·.1) := by
  unfold closeIfAbandoned
  split
  · rfl
  · simp [Change.refused, List.filter_map, Function.comp_def, Wake.isClosed]

lemma handed_close (q : Queue τ α) : q.closeIfAbandoned.handed = [] := by
  unfold closeIfAbandoned
  split
  · rfl
  · simp [Change.handed, Wake.message?]

lemma close_handles (q : Queue τ α) :
    q.closeIfAbandoned.queue.takers = q.takers ∧ q.closeIfAbandoned.queue.isOpen = q.isOpen := by
  unfold closeIfAbandoned
  split <;> exact ⟨rfl, rfl⟩

lemma refused_eq_of_nil {q : Queue τ α} {c : Change τ α} (hnone : c.refused = [])
    (hp : c.queue.isOpen = false → q.pushes = []) :
    c.refused = if c.queue.isOpen then [] else q.pushes.map (·.1) := by
  split
  · exact hnone
  · next hclosed => rw [hnone, hp (by simpa using hclosed), List.map_nil]

namespace Effect

variable [DecidableEq τ] {q : Queue τ α} {a : Action τ α} {c : Change τ α}

/-- **Those who wait with a push are refused once nobody can take, and not before.** -/
theorem refused (hc : q.Effect a c) (h : q.Bounded) :
    c.refused = if c.queue.isOpen then [] else q.pushes.map (·.1) := by
  cases hc with
  | idle _ => exact refused_eq_of_nil rfl h.pushes_of_closed
  | hands _ ht => exact refused_eq_of_nil rfl fun _ => (h.fair.untaken (by simp [ht])).2
  | enters _ _ _ _ => exact refused_eq_of_nil rfl h.pushes_of_closed
  | waits _ _ _ => exact refused_eq_of_nil rfl h.pushes_of_closed
  | takes _ =>
    exact refused_eq_of_nil (refused_take q) fun hopen =>
      h.pushes_of_closed ((take_handles q).2.symm.trans hopen)
  | awaits howned _ =>
    exact refused_eq_of_nil rfl fun hopen => (not_owned_of_closed hopen howned).elim
  | @givesUp t =>
    rw [h.giveUp_eq t]
    refine refused_eq_of_nil rfl fun hopen => ?_
    by_contra hp
    rcases h.owned_or_receiver hp with hthere | hthere
    · exact not_owned_of_closed hopen hthere
    · exact absurd (Prod.mk.inj (isOpen_eq_false_iff.mp hopen).1).2 (Nat.ne_of_gt hthere)
  | gains howned =>
    exact refused_eq_of_nil rfl fun hopen => (not_owned_of_closed hopen howned).elim
  | loses _ => rw [refused_close, (close_handles _).2]

/-- Who waits for a message goes with one, or waits on, if he does not give up. -/
theorem takers (hc : q.Effect a c) (hstay : ∀ t, a ≠ .giveUp t) :
    q.takers <+: c.handed.map (·.1) ++ c.queue.takers := by
  cases hc with
  | idle _ => exact List.prefix_refl _
  | hands _ ht => simp [ht, Change.handed, Wake.message?]
  | enters _ _ _ _ => exact List.prefix_refl _
  | waits _ _ _ => exact List.prefix_refl _
  | takes _ =>
    rw [handed_take, (take_handles q).1]
    exact List.prefix_refl _
  | awaits _ _ => exact List.prefix_append _ _
  | givesUp => exact absurd rfl (hstay _)
  | gains _ => exact List.prefix_refl _
  | loses _ =>
    rw [handed_close, (close_handles _).1]
    exact List.prefix_refl _

/-- A queue that is closed stays closed. -/
theorem closed (hc : q.Effect a c) (hclosed : q.isOpen = false) : c.queue.isOpen = false := by
  obtain ⟨hhandles, htakers⟩ := isOpen_eq_false_iff.mp hclosed
  refine isOpen_eq_false_iff.mpr ⟨?_, ?_⟩
  · rw [hc.handles]
    obtain ⟨howned, hreceivers⟩ := Prod.mk.inj hhandles
    cases a <;> simp [handlesAfter, Queue.handles, howned, hreceivers]
  · cases hc with
    | hands _ ht =>
      rw [htakers] at ht
      cases ht
    | takes _ => exact (take_handles q).1.trans htakers
    | awaits howned _ => exact absurd howned (not_owned_of_closed hclosed)
    | givesUp => exact (close_handles _).1.trans (by simp [forgo, withdraw, htakers])
    | loses _ => exact (close_handles _).1.trans htakers
    | idle | enters | waits | gains => exact htakers

end Effect

/-! ### By the history -/

section History

variable {actions : List (Action τ α)} {a : Action τ α}

/-- A receiver handle was handed out and is still there. Only the last one that was handed out can
be, so it does not matter how many there were. -/
def HasReceiver (actions : List (Action τ α)) : Prop :=
  ∃ before after, actions = before ++ .receiver :: after ∧ .disown ∉ before ∧
    .dropReceiver ∉ after

lemma hasReceiver_concat : HasReceiver (actions ++ [a]) ↔
    (a = .receiver ∧ .disown ∉ actions) ∨ (HasReceiver actions ∧ a ≠ .dropReceiver) := by
  constructor
  · rintro ⟨before, after, hsplit, hbefore, hafter⟩
    rcases List.eq_nil_or_concat' after with rfl | ⟨after, b, rfl⟩
    · obtain ⟨rfl, hb⟩ := List.append_inj' hsplit rfl
      exact .inl ⟨(List.cons.inj hb).1, hbefore⟩
    · rw [← List.cons_append, ← List.append_assoc] at hsplit
      obtain ⟨rfl, hb⟩ := List.append_inj' hsplit rfl
      obtain rfl := (List.cons.inj hb).1
      simp only [List.mem_append, List.mem_singleton, not_or] at hafter
      exact .inr ⟨⟨before, after, rfl, hbefore, hafter.1⟩, fun ha => hafter.2 ha.symm⟩
  · rintro (⟨rfl, hbefore⟩ | ⟨⟨before, after, rfl, hbefore, hafter⟩, ha⟩)
    · exact ⟨actions, [], rfl, hbefore, List.not_mem_nil⟩
    · refine ⟨before, after ++ [a], by simp, hbefore, ?_⟩
      simpa only [List.mem_append, List.mem_singleton, not_or] using ⟨hafter, fun h => ha h.symm⟩

variable [DecidableEq τ]

/-- By its history nobody could take from the queue any more: the owner has gone, no receiver handle
is left, and no taker waits. -/
structure Abandoned (capacity : Nat) (actions : List (Action τ α)) : Prop where
  owner : .disown ∈ actions
  receiver : ¬HasReceiver actions
  taker : inLine (watched capacity actions).ledger.takers = []

lemma handles_watched (capacity : Nat) (actions : List (Action τ α)) :
    ((watched capacity actions).queue.owned = true ↔ .disown ∉ actions) ∧
      (watched capacity actions).queue.receivers ≤ 1 ∧
      (0 < (watched capacity actions).queue.receivers ↔ HasReceiver actions) := by
  induction actions using List.reverseRecOn with
  | nil => exact ⟨by simp [watched], Nat.zero_le _, by simp [watched, HasReceiver]⟩
  | append_singleton actions a ih =>
    obtain ⟨howned, hone, hreceivers⟩ := ih
    rw [watched_concat, hasReceiver_concat]
    have hhandles := (effect_act (watched capacity actions).queue a).handles
    change ((watched capacity actions).act a).queue.handles = _ at hhandles
    generalize ((watched capacity actions).act a).queue = q' at hhandles ⊢
    generalize (watched capacity actions).queue = q at *
    cases a with
    | receiver =>
      obtain ⟨ho, hr⟩ := Prod.mk.inj hhandles
      rcases hown : q.owned with _ | _
      · have hgone : .disown ∈ actions := by simpa [hown] using howned
        simp [ho, hr, hown, hgone, hone, hreceivers]
      · have hstays : .disown ∉ actions := howned.mp hown
        simp [ho, hr, hown, hstays]
    | dropReceiver =>
      obtain ⟨ho, hr⟩ := Prod.mk.inj hhandles
      have hzero : q'.receivers = 0 := by omega
      simp [ho, howned, hzero]
    | disown =>
      obtain ⟨ho, hr⟩ := Prod.mk.inj hhandles
      simp [ho, hr, hone, hreceivers]
    | push | tryPush | take | await | receive | giveUp =>
      obtain ⟨ho, hr⟩ := Prod.mk.inj hhandles
      simp [ho, hr, howned, hone, hreceivers]

/-- **A queue is closed once it is abandoned.** -/
theorem isOpen_watched_iff (capacity : Nat) (actions : List (Action τ α)) :
    (watched capacity actions).queue.isOpen = false ↔ Abandoned capacity actions := by
  obtain ⟨howned, -, hreceivers⟩ := handles_watched capacity actions
  have htakers := inLine_takers_eq_nil_iff capacity actions
  rw [isOpen_eq_false_iff]
  constructor
  · rintro ⟨hhandles, hnone⟩
    obtain ⟨ho, hr⟩ := Prod.mk.inj hhandles
    refine ⟨?_, ?_, htakers.mpr hnone⟩
    · by_contra hmem
      exact absurd (ho.symm.trans (howned.mpr hmem)) Bool.false_ne_true
    · exact fun h => absurd hr (Nat.ne_of_gt (hreceivers.mpr h))
  · rintro ⟨hmem, hreceiver, hnone⟩
    refine ⟨Prod.ext ?_ ?_, htakers.mp hnone⟩
    · exact Bool.eq_false_iff.mpr fun ho => howned.mp ho hmem
    · exact Nat.eq_zero_of_not_pos fun h => hreceiver (hreceivers.mp h)

lemma isOpen_concat_iff (capacity : Nat) (actions : List (Action τ α)) (a : Action τ α) :
    ((watched capacity actions).queue.act a).1.queue.isOpen = false ↔
      Abandoned capacity (actions ++ [a]) := by
  rw [← isOpen_watched_iff, watched_concat]
  rfl

end History

/-! ### Senders -/

/-- A taker keeps a sender, so nobody who waits is ever turned away. -/
lemma Supplied.dismiss_eq (s : Supplied τ α) : s.dismiss = s := by
  simp only [dismiss]
  split
  · next h =>
    have hkept : s.watched.queue.isKept = false := by
      by_contra hkept
      simp [senders, hkept] at h
    have htakers : s.watched.queue.takers = [] := by
      simpa [isKept] using (Bool.or_eq_false_iff.mp hkept).2
    rw [htakers, List.append_nil, ← htakers]
  · rfl

variable [DecidableEq τ]

/-- However many senders are lent and given back, nobody is turned away, and the queue is as if
there were none. -/
lemma supplied_eq (capacity : Nat) (deeds : List (Deed τ α)) :
    (supplied capacity deeds).watched = watched capacity (deeds.filterMap Deed.action?) ∧
      (supplied capacity deeds).turnedAway = [] := by
  induction deeds using List.reverseRecOn with
  | nil => exact ⟨rfl, rfl⟩
  | append_singleton deeds d ih =>
    obtain ⟨hwatched, hnone⟩ := ih
    have hstep : supplied capacity (deeds ++ [d]) = (supplied capacity deeds).act d := by
      simp [supplied]
    rw [hstep, List.filterMap_append]
    cases d with
    | act a =>
      rw [Supplied.act, Supplied.dismiss_eq]
      exact ⟨(congrArg (·.act a) hwatched).trans (watched_concat _ _ _).symm, hnone⟩
    | lend =>
      rw [Supplied.act, List.filterMap_cons_none rfl, List.filterMap_nil, List.append_nil]
      split
      · exact ⟨hwatched, hnone⟩
      · exact ⟨hwatched, hnone⟩
    | giveBack =>
      rw [Supplied.act, Supplied.dismiss_eq, List.filterMap_cons_none rfl, List.filterMap_nil,
        List.append_nil]
      exact ⟨hwatched, hnone⟩

/-! ### Answers -/

lemma act_push_closed_iff (q : Queue τ α) (t : τ) (m : α) :
    (q.act (.push t m)).2 = .pushed .closed ↔ q.isOpen = false := by
  have hanswer : (q.act (.push t m)).2 = .pushed (q.push t m).2 := rfl
  rw [hanswer, Answer.pushed.injEq]
  rcases hopen : q.isOpen with _ | _
  · simp [push, hopen]
  · simp [push_ne_closed hopen]

lemma act_tryPush_closed_iff (q : Queue τ α) (m : α) :
    (q.act (.tryPush m)).2 = .pushed .closed ↔ q.isOpen = false := by
  simp only [act]
  split
  · next taker takers ht =>
    have hopen : q.isOpen = true := by simp [isOpen, ht]
    simp [push_ne_closed hopen, hopen]
  · rcases hopen : q.isOpen with _ | _
    · simp
    · simp only [Bool.not_true, Bool.false_eq_true, if_false]
      split <;> simp

/-- Waiting for a message is never answered by none. -/
lemma act_await_ne_none (q : Queue τ α) (t : τ) : (q.act (.await t)).2 ≠ .taken none := by
  simp only [act, ifOwned]
  split
  · split <;> simp
  · simp

/-- **A queue closes with the last who could take from it,** at every capacity, whatever was done to
it, and however many senders were lent and given back. A push that comes is refused exactly if by
the history the queue is abandoned: its owner has gone, no receiver handle is left, and no taker
waits. Those who wait with a push are all refused by the step that abandons it, and none before; and
it stays abandoned. To wait for a message is never answered by none, those who wait go with a
message, in their order, if they do not give up, and nobody is told that none would come. -/
theorem closes_with_last_handle (capacity : Nat) (deeds : List (Deed τ α)) :
    let s := supplied capacity deeds
    let q := s.watched.queue
    let actions := deeds.filterMap Deed.action?
    s.watched = watched capacity actions ∧
    (∀ t m, (q.act (.push t m)).2 = .pushed .closed ↔ Abandoned capacity actions) ∧
    (∀ m, (q.act (.tryPush m)).2 = .pushed .closed ↔ Abandoned capacity actions) ∧
    (∀ a, (Abandoned capacity actions → Abandoned capacity (actions ++ [a])) ∧
      (Abandoned capacity (actions ++ [a]) →
        (q.act a).1.refused = q.pushes.map (·.1) ∧ (q.act a).1.queue.pushes = []) ∧
      (¬Abandoned capacity (actions ++ [a]) → (q.act a).1.refused = [])) ∧
    s.turnedAway = [] ∧ (∀ t, (q.act (.await t)).2 ≠ .taken none) ∧
    ∀ a, (∀ t, a ≠ .giveUp t) →
      q.takers <+: (q.act a).1.handed.map (·.1) ++ (q.act a).1.queue.takers := by
  intro s q actions
  obtain ⟨hwatched, hnone⟩ := supplied_eq capacity deeds
  have hq : q = (watched capacity actions).queue := congrArg Watched.queue hwatched
  have hclosed : q.isOpen = false ↔ Abandoned capacity actions :=
    hq ▸ isOpen_watched_iff capacity actions
  have hclosedAfter : ∀ a, (q.act a).1.queue.isOpen = false ↔ Abandoned capacity (actions ++ [a]) :=
    hq ▸ isOpen_concat_iff capacity actions
  have hbounded : q.Bounded := hq ▸ (bounded_watched capacity actions).1
  refine ⟨hwatched, fun t m => ?_, fun m => ?_, fun a => ⟨?_, ?_, ?_⟩, hnone, act_await_ne_none q,
    fun a => (effect_act q a).takers⟩
  · exact (act_push_closed_iff q t m).trans hclosed
  · exact (act_tryPush_closed_iff q m).trans hclosed
  · rw [← hclosed, ← hclosedAfter]
    exact (effect_act q a).closed
  · rw [← hclosedAfter]
    intro hafter
    refine ⟨?_, (hbounded.effect (effect_act q a)).1.pushes_of_closed hafter⟩
    rw [(effect_act q a).refused hbounded, hafter]
    rfl
  · rw [← hclosedAfter]
    intro hafter
    rw [(effect_act q a).refused hbounded, if_pos (Bool.not_eq_false _ ▸ hafter)]

/-- One push waits behind another, the owner has gone, and no sender is left. -/
def lastReceiver : List (Deed Nat Char) :=
  [.lend, .act (.push 0 'a'), .act (.push 1 'b'), .act .receiver, .act .disown, .giveBack,
    .giveBack]

/-- A taker keeps the queue without owner and senders, and gets a message. -/
def lastTaker : List (Deed Nat Char) := [.act (.await 7), .act .disown, .giveBack]

theorem closes_with_last_receiver :
    ((supplied 1 lastReceiver).watched.queue.act .dropReceiver).1.refused = [1] ∧
      ((supplied 1 lastReceiver).watched.queue.act (.push 2 'c')).2 ≠ .pushed .closed ∧
      (supplied 0 lastTaker).watched.queue.takers <+: [7] := by
  obtain ⟨-, hpush, -, hstep, -⟩ := closes_with_last_handle 1 lastReceiver
  obtain ⟨-, -, -, -, -, -, htakers⟩ := closes_with_last_handle 0 lastTaker
  have hclosed : Abandoned 1 (lastReceiver.filterMap Deed.action? ++ [.dropReceiver]) :=
    (isOpen_watched_iff _ _).mp (by decide)
  have hopen : ¬Abandoned 1 (lastReceiver.filterMap Deed.action?) := by
    rw [← isOpen_watched_iff]
    decide
  have hrefused := ((hstep .dropReceiver).2.1 hclosed).1
  exact ⟨hrefused.trans (by decide), fun h => hopen ((hpush 2 'c').mp h),
    htakers (.push 8 'x') nofun⟩

end TopicFeed.Queue
