import TopicFeed.Proofs.Fifo

/-!
What an action can do to a queue.

There are few effects: a message goes to the oldest taker, or inside, or its push waits; the oldest
message is taken, or a taker waits for one; somebody gives up; or a handle comes or goes.
-/

namespace TopicFeed.Queue

variable {τ α : Type}

/-- The handles through which one could take: the owner's, and the receivers. -/
def handles (q : Queue τ α) : Bool × Nat := (q.owned, q.receivers)

/-- The handles behind an action. -/
def handlesAfter (q : Queue τ α) : Action τ α → Bool × Nat
  | .receiver => (q.owned, if q.owned then 1 else q.receivers)
  | .dropReceiver => (q.owned, q.receivers - 1)
  | .disown => (false, q.receivers)
  | _ => q.handles

lemma handlesAfter_of_message {q : Queue τ α} {a : Action τ α} {m : α} (h : a.message? = some m) :
    q.handlesAfter a = q.handles := by
  cases a <;> first | rfl | cases h

lemma handles_take (q : Queue τ α) : q.take.1.queue.handles = q.handles := by
  unfold take
  split <;> rfl

lemma handles_close (q : Queue τ α) : q.closeIfAbandoned.queue.handles = q.handles := by
  unfold closeIfAbandoned
  split <;> rfl

/-- The changes that an action can make. -/
inductive Effect [DecidableEq τ] (q : Queue τ α) : Action τ α → Change τ α → Prop
  | idle {a} (hsame : q.handlesAfter a = q.handles) : Effect q a ⟨q, []⟩
  | hands {a t takers m} (hm : a.message? = some m) (ht : q.takers = t :: takers) :
      Effect q a ⟨{ q with takers }, [(t, .took m)]⟩
  | enters {a m} (hm : a.message? = some m) (hopen : q.isOpen = true) (ht : q.takers = [])
      (hlt : q.items.length < q.capacity) : Effect q a ⟨{ q with items := q.items ++ [m] }, []⟩
  | waits {t m} (hopen : q.isOpen = true) (ht : q.takers = [])
      (hge : q.capacity ≤ q.items.length) :
      Effect q (.push t m) ⟨{ q with pushes := q.pushes ++ [(t, m)] }, []⟩
  | takes {a} (hsame : q.handlesAfter a = q.handles) : Effect q a q.take.1
  | awaits {t} (howned : q.owned = true) (hnone : q.take.2 = none) :
      Effect q (.await t) ⟨{ q with takers := q.takers ++ [t] }, []⟩
  | givesUp {t} : Effect q (.giveUp t) (q.giveUp t).1
  | gains (howned : q.owned = true) : Effect q .receiver ⟨{ q with receivers := 1 }, []⟩
  | loses {a owned receivers} (hless : (owned, receivers) = q.handlesAfter a) :
      Effect q a { q with owned, receivers }.closeIfAbandoned

variable [DecidableEq τ]

lemma effect_push (q : Queue τ α) (t : τ) (m : α) : q.Effect (.push t m) (q.push t m).1 := by
  rcases hopen : q.isOpen with _ | _
  · have hclosed : q.push t m = (⟨q, []⟩, .closed) := by simp [push, hopen]
    rw [hclosed]
    exact .idle rfl
  · rcases push_cases hopen t m with ⟨taker, takers, ht, h⟩ | ⟨ht, hlt, h⟩ | ⟨ht, hge, h⟩
    · rw [h]
      exact .hands rfl ht
    · rw [h]
      exact .enters rfl hopen ht hlt
    · rw [h]
      exact .waits hopen ht hge

/-- A push that would rather give up than wait. -/
lemma effect_tryPush (q : Queue τ α) (m : α) : q.Effect (.tryPush m) (q.act (.tryPush m)).1 := by
  simp only [act]
  split
  · next taker takers ht =>
    have hopen : q.isOpen = true := by simp [isOpen, ht]
    have hpush : q.push taker m = (⟨{ q with takers }, [(taker, .took m)]⟩, .entered) := by
      simp [push, hopen, ht]
    rw [hpush]
    exact .hands rfl ht
  · next ht =>
    rcases hopen : q.isOpen with _ | _
    · exact .idle rfl
    · rcases Nat.lt_or_ge q.items.length q.capacity with hlt | hge
      · simp only [hlt, Bool.not_true, Bool.false_eq_true, if_false, if_true]
        exact .enters rfl hopen ht hlt
      · simp only [Nat.not_lt.mpr hge, Bool.not_true, Bool.false_eq_true, if_false]
        exact .idle rfl

/-- **Each action has one of the effects.** -/
theorem effect_act (q : Queue τ α) (a : Action τ α) : q.Effect a (q.act a).1 := by
  cases a with
  | push t m => exact effect_push q t m
  | tryPush m => exact effect_tryPush q m
  | take =>
    simp only [act, ifOwned]
    split
    · exact .takes rfl
    · exact .idle rfl
  | await t =>
    simp only [act, ifOwned]
    split
    · next howned =>
      unfold await
      rcases hq : q.take with ⟨change, _ | m⟩
      · exact .awaits howned (congrArg Prod.snd hq)
      · have htakes : q.Effect (.await t) q.take.1 := .takes rfl
        rwa [hq] at htakes
    · exact .idle rfl
  | receiver =>
    simp only [act, ifOwned]
    split
    · next howned => exact .gains howned
    · next hgone => exact .idle (by simp [handlesAfter, handles, hgone])
  | receive =>
    simp only [act]
    split
    · exact .idle rfl
    · exact .takes rfl
  | dropReceiver =>
    simp only [act]
    split
    · next hnone => exact .idle (by simp [handlesAfter, handles, hnone])
    · exact .loses rfl
  | giveUp t => exact .givesUp
  | disown =>
    simp only [act, ifOwned]
    split
    · exact .loses rfl
    · next hgone => exact .idle (by simp [handlesAfter, handles, hgone])

/-- **What becomes of the handles.** -/
theorem Effect.handles {q : Queue τ α} {a : Action τ α} {c : Change τ α} (h : q.Effect a c) :
    c.queue.handles = q.handlesAfter a := by
  cases h with
  | idle hsame => exact hsame.symm
  | hands hm _ => exact (handlesAfter_of_message hm).symm
  | enters hm _ _ _ => exact (handlesAfter_of_message hm).symm
  | waits _ _ _ => rfl
  | takes hsame => exact (handles_take q).trans hsame.symm
  | awaits _ _ => rfl
  | givesUp => exact handles_close _
  | gains howned => simp [handlesAfter, Queue.handles, howned]
  | loses hless => exact (handles_close _).trans hless

end TopicFeed.Queue
