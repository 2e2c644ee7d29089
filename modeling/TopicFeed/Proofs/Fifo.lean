import Mathlib.Data.List.Induction
import TopicFeed.Proofs.Queue
import TopicFeed.Queue.Ledger

/-!
First in, first out.

The ledger of a queue knows everything about it. What went to takers, what is inside and what waits
are the pushes in the order in which they began, but for those given up; and nobody is served while
somebody waits who began before.
-/

namespace TopicFeed.Queue

open Standing

variable {τ α β : Type}

/-! ### Those who came to a queue -/

/-- Those who stand in line, each with the ticket. -/
def inLine (xs : List (β × Standing τ)) : List (τ × β) :=
  xs.filterMap fun x => x.2.ticket?.map fun t => (t, x.1)

/-- Those who were served. -/
def served [DecidableEq τ] (xs : List (β × Standing τ)) : List β :=
  (xs.filter fun x => x.2 = .served).map (·.1)

/-- Those who did not give up. -/
def stayed [DecidableEq τ] (xs : List (β × Standing τ)) : List β :=
  (xs.filter fun x => x.2 ≠ .gaveUp).map (·.1)

/-- Nobody was served while somebody waits who began before. -/
def InTurn (xs : List (β × Standing τ)) : Prop :=
  xs.Pairwise fun x y => x.2.ticket? ≠ none → y.2 ≠ .served

section Parties

variable {xs ys : List (β × Standing τ)} {t : τ} {b : β} {ws : List (τ × β)}

lemma inLine_append : inLine (xs ++ ys) = inLine xs ++ inLine ys := List.filterMap_append

lemma inLine_eq_nil_iff : inLine xs = [] ↔ ∀ x ∈ xs, x.2.ticket? = none := by
  simp [inLine, List.filterMap_eq_nil_iff]

lemma ticket?_eq_some {s : Standing τ} (h : s.ticket? = some t) : s = .waits t := by
  cases s <;> cases h
  rfl

/-- The first who waits stands behind others who do not. -/
lemma exists_first (h : inLine xs = (t, b) :: ws) : ∃ before after,
    xs = before ++ (b, .waits t) :: after ∧ inLine before = [] ∧ inLine after = ws := by
  obtain ⟨before, ⟨c, s⟩, after, rfl, hbefore, hx, hafter⟩ := List.filterMap_eq_cons_iff.mp h
  obtain ⟨u, hs, hu⟩ := Option.map_eq_some_iff.mp hx
  cases hu
  obtain rfl := ticket?_eq_some hs
  exact ⟨before, after, rfl, List.filterMap_eq_nil_iff.mpr hbefore, hafter⟩

/-- One more comes, and is served at once only if nobody waits. -/
lemma InTurn.concat (h : InTurn xs) {s : Standing τ} (hs : s = .served → inLine xs = []) :
    InTurn (xs ++ [(b, s)]) := by
  refine List.pairwise_append.mpr ⟨h, List.pairwise_singleton _ _, fun x hx y hy => ?_⟩
  obtain rfl := List.mem_singleton.mp hy
  exact fun hwaits hserved => hwaits (inLine_eq_nil_iff.mp (hs hserved) x hx)

variable [DecidableEq τ]

lemma served_append : served (xs ++ ys) = served xs ++ served ys := by simp [served]

lemma settle_of_none (h : inLine xs = []) (now : Standing τ) :
    settle t now (xs ++ ys) = xs ++ settle t now ys := by
  induction xs with
  | nil => rfl
  | cons x xs ih =>
    have hx : x.2 ≠ .waits t := by
      intro hx
      have hnone := inLine_eq_nil_iff.mp h x (by simp)
      rw [hx] at hnone
      cases hnone
    have hrest : inLine xs = [] :=
      inLine_eq_nil_iff.mpr fun y hy => inLine_eq_nil_iff.mp h y (by simp [hy])
    rw [List.cons_append, settle, if_neg hx, ih hrest, List.cons_append]

lemma served_of_inTurn (h : InTurn ((b, .waits t) :: xs)) : served xs = [] := by
  have hnone : ∀ x ∈ xs, x.2 ≠ .served := fun x hx => List.rel_of_pairwise_cons h hx (by simp)
  simpa [served] using hnone

/-- What it means that the first who waits stands otherwise now. -/
structure Settled (xs xs' : List (β × Standing τ)) (ws : List (τ × β)) (b : β)
    (now : Standing τ) : Prop where
  waiting : inLine xs' = ws
  served : served xs' = served xs ++ if now = .served then [b] else []
  inTurn : InTurn xs'
  stands : ∀ x ∈ xs', x ∈ xs ∨ x.2 = now

/-- **The first who waits is the one who is told.** -/
lemma settled (hturn : InTurn xs) (h : inLine xs = (t, b) :: ws) (now : Standing τ)
    (hnow : now.ticket? = none) : Settled xs (settle t now xs) ws b now := by
  obtain ⟨before, after, rfl, hbefore, hafter⟩ := exists_first h
  have hsettle : settle t now (before ++ (b, .waits t) :: after) = before ++ (b, now) :: after := by
    rw [settle_of_none hbefore, settle, if_pos rfl]
  obtain ⟨hturnb, hturnw, hcross⟩ := List.pairwise_append.mp hturn
  have hserved : Queue.served after = [] := served_of_inTurn hturnw
  rw [hsettle]
  refine ⟨?_, ?_, ?_, fun x hx => ?_⟩
  · rw [inLine_append, hbefore]
    simpa [inLine, hnow] using hafter
  · rw [served_append, served_append]
    have hcons : ∀ s : Standing τ, Queue.served ((b, s) :: after) =
        (if s = .served then [b] else []) ++ Queue.served after := by
      intro s
      by_cases hs : s = .served <;> simp [Queue.served, hs]
    rw [hcons, hcons, hserved]
    simp
  · refine List.pairwise_append.mpr ⟨hturnb, ?_, fun x hx y _ => ?_⟩
    · refine List.pairwise_cons.mpr ⟨fun y _ hwaits => absurd hnow hwaits, ?_⟩
      exact (List.pairwise_cons.mp hturnw).2
    · exact fun hwaits => absurd (inLine_eq_nil_iff.mp hbefore x hx) hwaits
  · simp only [List.mem_append, List.mem_cons] at hx ⊢
    rcases hx with hx | rfl | hx
    · exact .inl (.inl hx)
    · exact .inr rfl
    · exact .inl (.inr (.inr hx))

end Parties

/-- All who wait under a ticket give up, and nobody else is concerned. -/
lemma inLine_abandon [DecidableEq τ] (t : τ) (xs : List (β × Standing τ)) :
    inLine (abandon t xs) = (inLine xs).filter fun p => p.1 ≠ t := by
  induction xs with
  | nil => rfl
  | cons x xs ih =>
    obtain ⟨b, s⟩ := x
    simp only [inLine, abandon, List.map_cons, List.filterMap_cons] at ih ⊢
    cases s with
    | waits u =>
      by_cases hu : u = t
      · simpa [hu] using ih
      · simpa [hu] using ih
    | served | gaveUp | refused => simpa using ih

lemma served_abandon [DecidableEq τ] (t : τ) (xs : List (β × Standing τ)) :
    served (abandon t xs) = served xs := by
  induction xs with
  | nil => rfl
  | cons x xs ih =>
    obtain ⟨b, s⟩ := x
    simp only [served, abandon, List.map_cons, List.filter_cons] at ih ⊢
    by_cases hs : s = .waits t
    · simp [hs, ih]
    · by_cases hserved : s = .served <;> simp [hs, hserved, ih]

lemma InTurn.abandon [DecidableEq τ] {xs : List (β × Standing τ)} (h : InTurn xs) (t : τ) :
    InTurn (abandon t xs) := by
  refine List.pairwise_map.mpr (h.imp fun {x y} hxy => ?_)
  by_cases hx : x.2 = .waits t
  · simp [hx]
  · by_cases hy : y.2 = .waits t
    · simp [hy]
    · simpa [hx, hy] using hxy

/-- In a ledger that is kept in turn, those who stayed are those who were served, then those who
wait. -/
lemma stayed_eq [DecidableEq τ] {xs : List (β × Standing τ)} (h : InTurn xs)
    (hrefused : ∀ x ∈ xs, x.2 ≠ .refused) :
    stayed xs = served xs ++ (inLine xs).map (·.2) := by
  induction xs with
  | nil => rfl
  | cons x xs ih =>
    obtain ⟨b, s⟩ := x
    have ih := ih (List.pairwise_cons.mp h).2 fun x hx => hrefused x (List.mem_cons_of_mem _ hx)
    cases s with
    | served => simpa [stayed, served, inLine, List.filterMap_cons] using ih
    | waits t =>
      have hserved := served_of_inTurn h
      rw [hserved, List.nil_append] at ih
      have hnone : served ((b, Standing.waits t) :: xs) = [] := by simpa [served] using hserved
      rw [hnone]
      simpa [stayed, inLine] using ih
    | gaveUp => simpa [stayed, served, inLine, List.filterMap_cons] using ih
    | refused => exact absurd rfl (hrefused (b, .refused) (by simp))

/-! ### A ledger and its queue -/

/-- Taking a message is no matter of who could take. -/
lemma take_handles (q : Queue τ α) :
    q.take.1.queue.takers = q.takers ∧ q.take.1.queue.isOpen = q.isOpen := by
  unfold take
  split <;> exact ⟨rfl, rfl⟩

variable [DecidableEq τ]

/-- The ledger is right about the queue. -/
structure Ledger.Fits (l : Ledger τ α) (q : Queue τ α) : Prop where
  fair : q.Fair
  pushes : inLine l.pushes = q.pushes
  takers : inLine l.takers = q.takers.map fun t => (t, t)
  pushTurn : InTurn l.pushes
  takerTurn : InTurn l.takers
  handed : l.handed ++ q.items = served l.pushes
  open' : q.isOpen = true → ∀ x ∈ l.pushes, x.2 ≠ .refused

namespace Ledger.Fits

variable {l : Ledger τ α} {q q' : Queue τ α} {t : τ} {m : α}

/-- Somebody who could take from the queue goes, or another one comes. -/
lemma of_handles (h : l.Fits q) (hi : q'.items = q.items) (hp : q'.pushes = q.pushes)
    (ht : q'.takers = q.takers) (hc : q'.capacity = q.capacity)
    (hopen : q'.isOpen = true → q.isOpen = true) : l.Fits q' where
  fair := ⟨by rw [hp, hc, hi]; exact h.fair.full, by rw [hp, ht, hi]; exact h.fair.untaken⟩
  pushes := by rw [hp]; exact h.pushes
  takers := by rw [ht]; exact h.takers
  pushTurn := h.pushTurn
  takerTurn := h.takerTurn
  handed := by rw [hi]; exact h.handed
  open' ho := h.open' (hopen ho)

/-- A push that waits is told that nobody can take any more. -/
lemma hear_closed {ps : List (τ × α)} (h : l.Fits q) (hp : q.pushes = (t, m) :: ps)
    (hclosed : q.isOpen = false) : (l.hear (t, .closed)).Fits { q with pushes := ps } := by
  have hsettled := settled h.pushTurn (h.pushes.trans hp) .refused rfl
  refine ⟨?_, hsettled.waiting, h.takers, hsettled.inTurn, h.takerTurn, ?_, fun hopen => ?_⟩
  · have hsub : ps.Sublist q.pushes := hp ▸ List.sublist_cons_self _ _
    exact fair_of_sublist h.fair hsub (List.Sublist.refl _)
  · have hserved := hsettled.served
    simp only [reduceCtorEq, if_false, List.append_nil] at hserved
    exact h.handed.trans hserved.symm
  · have hsame : isOpen { q with pushes := ps } = q.isOpen := rfl
    rw [hsame, hclosed] at hopen
    cases hopen

/-- **Closing a queue that nobody can take from any more.** -/
lemma close (h : l.Fits q) :
    (q.closeIfAbandoned.woken.foldl hear l).Fits q.closeIfAbandoned.queue := by
  unfold closeIfAbandoned
  split
  · exact h
  · next hclosed =>
    simp only [List.foldl_map]
    replace hclosed : q.isOpen = false := by simpa using hclosed
    -- those who wait are told one after the other, the oldest first
    generalize hps : q.pushes = ps
    induction ps generalizing l q with
    | nil =>
      have hq : ({ q with pushes := [] } : Queue τ α) = q := by rw [← hps]
      rw [hq]
      exact h
    | cons p ps ih =>
      exact ih (q := { q with pushes := ps }) (h.hear_closed hps hclosed) hclosed rfl

/-- A push comes. -/
lemma comes (h : l.Fits q) {s : Standing τ} (hserved : s = .served → q.pushes = [])
    (hp : q'.pushes = q.pushes ++ s.ticket?.toList.map fun t => (t, m))
    (hi : q'.items = q.items ++ if s = .served then [m] else []) (ht : q'.takers = q.takers)
    (hfair : q'.Fair) (hopen : q'.isOpen = true → q.isOpen = true ∧ s ≠ .refused) :
    Ledger.Fits { l with pushes := l.pushes ++ [(m, s)] } q' where
  fair := hfair
  pushes := by
    have hone : inLine [(m, s)] = s.ticket?.toList.map fun t => (t, m) := by
      cases s <;> rfl
    rw [inLine_append, h.pushes, hone, hp]
  takers := by rw [ht]; exact h.takers
  pushTurn := h.pushTurn.concat fun hs => by rw [h.pushes, hserved hs]
  takerTurn := h.takerTurn
  handed := by
    have hone : served [(m, s)] = if s = .served then [m] else [] := by
      cases s <;> rfl
    rw [served_append, ← h.handed, hone, hi, List.append_assoc]
  open' ho x hx := by
    obtain ⟨hopen, hs⟩ := hopen ho
    rcases List.mem_append.mp hx with hx | hx
    · exact h.open' hopen x hx
    · obtain rfl := List.mem_singleton.mp hx
      exact hs

/-- A push that goes to the oldest taker. -/
lemma serves {takers : List τ} (h : l.Fits q) (ht : q.takers = t :: takers) :
    Ledger.Fits { l with
      pushes := l.pushes ++ [(m, .served)]
      takers := settle t .served l.takers
      handed := l.handed ++ [m] } { q with takers } := by
  obtain ⟨hitems, hpushes⟩ := h.fair.untaken (by simp [ht])
  have hopen : q.isOpen = true := by simp [isOpen, ht]
  have hwaits : inLine l.takers = (t, t) :: takers.map fun t => (t, t) := by rw [h.takers, ht]; rfl
  have hsettled := settled h.takerTurn hwaits .served rfl
  have hnone : inLine l.pushes = [] := h.pushes.trans hpushes
  refine ⟨?_, ?_, hsettled.waiting, ?_, hsettled.inTurn, ?_, fun _ x hx => ?_⟩
  · have hsub : takers.Sublist q.takers := ht ▸ List.sublist_cons_self _ _
    exact fair_of_sublist h.fair (List.Sublist.refl _) hsub
  · rw [inLine_append, hnone, hpushes]
    rfl
  · exact h.pushTurn.concat fun _ => hnone
  · rw [served_append, ← h.handed, hitems]
    simp [served]
  · rcases List.mem_append.mp hx with hx | hx
    · exact h.open' hopen x hx
    · obtain rfl := List.mem_singleton.mp hx
      simp

/-- **A push.** -/
lemma push (h : l.Fits q) (t : τ) (m : α) :
    ((q.push t m).1.woken.foldl hear
      (l.note (.push t m) (.pushed (q.push t m).2))).Fits (q.push t m).1.queue := by
  rcases hopen : q.isOpen with _ | _
  · have hp : q.push t m = (⟨q, []⟩, .closed) := by simp [Queue.push, hopen]
    rw [hp]
    refine h.comes (s := .refused) (by simp) (by simp) (by simp) rfl h.fair fun ho => ?_
    rw [hopen] at ho
    cases ho
  · have hfair := fair_push h.fair hopen t m
    rcases push_cases hopen t m with ⟨taker, takers, ht, hp⟩ | ⟨ht, hlt, hp⟩ | ⟨ht, hge, hp⟩
    · rw [hp]
      exact h.serves ht
    · rw [hp] at hfair ⊢
      have hnone := h.fair.no_push hlt
      exact h.comes (s := .served) (fun _ => hnone) (by simp) (by simp) rfl hfair
        fun ho => ⟨hopen, by simp⟩
    · rw [hp] at hfair ⊢
      exact h.comes (s := .waits t) (by simp) (by simp) (by simp) rfl hfair
        fun ho => ⟨hopen, by simp⟩

/-- A push that gives up rather than wait. -/
lemma tryPush (h : l.Fits q) (m : α) :
    ((q.act (.tryPush m)).1.woken.foldl hear (l.note (.tryPush m) (q.act (.tryPush m)).2)).Fits
      (q.act (.tryPush m)).1.queue := by
  simp only [Queue.act]
  rcases ht : q.takers with _ | ⟨taker, takers⟩
  · rcases hopen : q.isOpen with _ | _
    · refine h.comes (s := .refused) (by simp) (by simp) (by simp) rfl h.fair fun ho => ?_
      exact absurd ho (by simp [hopen])
    · rcases Nat.lt_or_ge q.items.length q.capacity with hlt | hge
      · have hnone := h.fair.no_push hlt
        simp only [hlt, Bool.not_true, Bool.false_eq_true, if_false, if_true]
        refine h.comes (s := .served) (fun _ => hnone) (by simp) (by simp) ht.symm ?_
          fun ho => ⟨hopen, by simp⟩
        exact ⟨fun hp => absurd hnone hp, fun hne => absurd rfl hne⟩
      · simp only [Nat.not_lt.mpr hge, Bool.not_true, Bool.false_eq_true, if_false]
        exact h.comes (s := .gaveUp) (by simp) (by simp) (by simp) rfl h.fair
          fun ho => ⟨hopen, by simp⟩
  · -- somebody waits for a message, so the push enters under any ticket
    have hopen : q.isOpen = true := by simp [isOpen, ht]
    have hp : q.push taker m = (⟨{ q with takers }, [(taker, .took m)]⟩, .entered) := by
      simp [Queue.push, hopen, ht]
    simp only [hp]
    exact h.serves ht

/-- **A taker takes what is there.** -/
lemma take (h : l.Fits q) :
    (q.take.1.woken.foldl hear { l with handed := l.handed ++ q.take.2.toList }).Fits
      q.take.1.queue := by
  obtain ⟨entered, hlen, hp, hi, hwoken⟩ := (take_takes q).entered
  have hfair := fair_take h.fair
  obtain ⟨htakers, hopen⟩ := take_handles q
  have hkept : inLine l.takers = q.take.1.queue.takers.map fun t => (t, t) := by
    rw [htakers]
    exact h.takers
  have hhanded : l.handed ++ q.take.2.toList ++ q.take.1.queue.items =
      l.handed ++ q.items ++ entered.map (·.2) := by
    rw [List.append_assoc, ← hi, List.append_assoc]
  rcases entered with _ | ⟨⟨t, m⟩, _ | _⟩
  · rw [hwoken]
    refine ⟨hfair, ?_, hkept, h.pushTurn, h.takerTurn, ?_, fun ho => h.open' (hopen ▸ ho)⟩
    · exact h.pushes.trans hp
    · rw [List.map_nil, List.append_nil, h.handed] at hhanded
      exact hhanded
  · -- the oldest push that waits enters in the place of what is taken
    have hsettled := settled h.pushTurn (h.pushes.trans hp) .served rfl
    rw [hwoken]
    refine ⟨hfair, hsettled.waiting, hkept, hsettled.inTurn, h.takerTurn, ?_, fun ho x hx => ?_⟩
    · have hserved := hsettled.served
      rw [if_pos rfl, ← h.handed] at hserved
      exact hhanded.trans hserved.symm
    · rcases hsettled.stands x hx with hx | hx
      · exact h.open' (hopen ▸ ho) x hx
      · simp [hx]
  · simp at hlen

/-- A taker waits, since there is nothing to take. -/
lemma awaits (h : l.Fits q) (hnone : q.take.2 = none) (hopen : q.isOpen = true) (t : τ) :
    Ledger.Fits { l with takers := l.takers ++ [(t, .waits t)] }
      { q with takers := q.takers ++ [t] } := by
  obtain ⟨hitems, hp⟩ := take_eq_none hnone
  refine ⟨⟨fun hne => absurd hp hne, fun _ => ⟨hitems, hp⟩⟩, h.pushes, ?_, h.pushTurn, ?_, h.handed,
    fun _ => h.open' hopen⟩
  · rw [inLine_append, h.takers, List.map_append]
    rfl
  · exact h.takerTurn.concat (by simp)

/-- All who wait under a ticket give up. -/
lemma abandons (h : l.Fits q) (t : τ) :
    Ledger.Fits { l with pushes := abandon t l.pushes, takers := abandon t l.takers }
      ((q.withdraw t).forgo t) where
  fair := fair_forgo (fair_withdraw h.fair t) t
  pushes := by
    rw [inLine_abandon, h.pushes]
    rfl
  takers := by
    rw [inLine_abandon, h.takers, List.filter_map]
    rfl
  pushTurn := h.pushTurn.abandon t
  takerTurn := h.takerTurn.abandon t
  handed := by rw [served_abandon]; exact h.handed
  open' ho x hx := by
    have hopen : q.isOpen = true := by
      simp only [isOpen, forgo, withdraw, Bool.or_eq_true, Bool.not_eq_true'] at ho ⊢
      rcases ho with ho | ho
      · exact .inl ho
      · refine .inr ?_
        rcases ht : q.takers with _ | ⟨u, takers⟩
        · simp [ht] at ho
        · rfl
    obtain ⟨y, hy, rfl⟩ := List.mem_map.mp hx
    by_cases hyt : y.2 = .waits t
    · simp [hyt]
    · simpa [hyt] using h.open' hopen y hy

/-- **The ledger stays right, whatever is done to the queue.** -/
theorem act (h : l.Fits q) (a : Action τ α) :
    ((q.act a).1.woken.foldl hear (l.note a (q.act a).2)).Fits (q.act a).1.queue := by
  cases a with
  | push t m => exact h.push t m
  | tryPush m => exact h.tryPush m
  | take =>
    simp only [Queue.act, ifOwned]
    split
    · exact h.take
    · exact h
  | await t =>
    simp only [Queue.act, ifOwned]
    split
    · next hown =>
      have htake := h.take
      unfold await
      rcases hq : q.take with ⟨change, _ | m⟩
      · exact h.awaits (by rw [hq]) (isOpen_of_owned hown) t
      · rw [hq] at htake
        exact htake
    · exact h
  | receiver =>
    simp only [Queue.act, ifOwned]
    split
    · next hown => exact h.of_handles rfl rfl rfl rfl fun _ => isOpen_of_owned hown
    · exact h
  | receive =>
    simp only [Queue.act]
    split
    · exact h
    · exact h.take
  | dropReceiver =>
    simp only [Queue.act]
    split
    · exact h
    · next hne =>
      have hopen : q.isOpen = true := by simp [isOpen, Nat.pos_of_ne_zero hne]
      have hless : l.Fits { q with receivers := q.receivers - 1 } :=
        h.of_handles rfl rfl rfl rfl fun _ => hopen
      exact hless.close
  | giveUp t => exact (h.abandons t).close
  | disown =>
    simp only [Queue.act, ifOwned]
    split
    · next hown =>
      have hless : l.Fits { q with owned := false } :=
        h.of_handles rfl rfl rfl rfl fun _ => isOpen_of_owned hown
      exact hless.close
    · exact h

end Ledger.Fits

/-! ### Whole runs -/

lemma watched_concat (capacity : Nat) (actions : List (Action τ α)) (a : Action τ α) :
    watched capacity (actions ++ [a]) = (watched capacity actions).act a := by
  simp [watched]

/-- The ledger is right at all times. -/
lemma fits_watched (capacity : Nat) (actions : List (Action τ α)) :
    (watched capacity actions).ledger.Fits (watched capacity actions).queue := by
  induction actions using List.reverseRecOn with
  | nil => exact ⟨fair_new capacity, rfl, rfl, .nil, .nil, rfl, by simp [watched]⟩
  | append_singleton actions a ih =>
    rw [watched_concat]
    exact ih.act a

lemma map_settle (t : τ) (now : Standing τ) (xs : List (β × Standing τ)) :
    (settle t now xs).map (·.1) = xs.map (·.1) := by
  induction xs with
  | nil => rfl
  | cons x xs ih =>
    rw [settle]
    split
    · rfl
    · rw [List.map_cons, ih, List.map_cons]

lemma map_abandon (t : τ) (xs : List (β × Standing τ)) :
    (abandon t xs).map (·.1) = xs.map (·.1) := by
  rw [abandon, List.map_map]
  refine List.map_congr_left fun x _ => ?_
  by_cases hx : x.2 = .waits t <;> simp [hx]

lemma map_hear (l : Ledger τ α) (woken : List (τ × Wake α)) :
    (woken.foldl Ledger.hear l).pushes.map (·.1) = l.pushes.map (·.1) := by
  induction woken generalizing l with
  | nil => rfl
  | cons w woken ih =>
    obtain ⟨t, _ | _ | m⟩ := w
    · exact (ih _).trans (map_settle t .served l.pushes)
    · exact (ih _).trans (map_settle t .refused l.pushes)
    · exact ih _

lemma map_note (l : Ledger τ α) (a : Action τ α) (answer : Answer α) :
    (l.note a answer).pushes.map (·.1) = l.pushes.map (·.1) ++ a.message?.toList := by
  cases a with
  | push | tryPush => simp [Ledger.note, Action.message?]
  | giveUp t => simpa [Ledger.note, Action.message?] using map_abandon t l.pushes
  | take | await | receiver | receive | dropReceiver | disown =>
    rw [Action.message?, Option.toList_none, List.append_nil]
    unfold Ledger.note
    split <;> first | rfl | contradiction

/-- Every push is written down, in the order in which they began. -/
lemma started_watched (capacity : Nat) (actions : List (Action τ α)) :
    (watched capacity actions).ledger.pushes.map (·.1) = actions.filterMap Action.message? := by
  induction actions using List.reverseRecOn with
  | nil => rfl
  | append_singleton actions a ih =>
    rw [watched_concat, Watched.act, map_hear, map_note, ih, List.filterMap_append]
    congr 1

/-- **First in, first out, and each exactly once,** at every capacity and whatever is done to a
queue that somebody can still take from. All pushes are written down in the order in which they
began. Those of them that were not given up while they waited are, in this order, the messages that
went to takers, those inside, and those of the pushes that wait. Those who wait, with a push or for
a message, are served in the order in which they began. -/
theorem first_in_first_out (capacity : Nat) (actions : List (Action τ α))
    (hopen : (watched capacity actions).queue.isOpen = true) :
    let q := (watched capacity actions).queue
    let l := (watched capacity actions).ledger
    l.pushes.map (·.1) = actions.filterMap Action.message? ∧
    l.handed ++ q.items ++ q.pushes.map (·.2) = stayed l.pushes ∧
    q.pushes = inLine l.pushes ∧ InTurn l.pushes ∧
    q.takers = (inLine l.takers).map (·.1) ∧ InTurn l.takers := by
  intro q l
  have h := fits_watched capacity actions
  refine ⟨started_watched capacity actions, ?_, h.pushes.symm, h.pushTurn, ?_, h.takerTurn⟩
  · rw [stayed_eq h.pushTurn (h.open' hopen), h.pushes, ← h.handed]
  · rw [h.takers, List.map_map]
    exact (List.map_id _).symm

/-- Messages go from hand to hand: some takers wait before there is a push, and some pushes before
there is a taker. Some of both give up, and in the end there is a receiver and no owner. -/
def handToHand : List (Action Nat Char) :=
  [.await 8, .await 9, .push 0 'a', .giveUp 9, .push 1 'b', .push 2 'c', .tryPush 'd', .giveUp 1,
    .receiver, .disown, .receive, .push 3 'e']

theorem first_in_first_out_unbuffered :
    (watched 0 handToHand).queue.isOpen = true ∧
    (watched 0 handToHand).ledger.handed = ['a', 'c'] ∧
    ['a', 'c'] ++ [] ++ ['e'] = stayed (watched 0 handToHand).ledger.pushes ∧
    (watched 0 handToHand).ledger.pushes.map (·.1) = ['a', 'b', 'c', 'd', 'e'] := by
  have hopen : (watched 0 handToHand).queue.isOpen = true := by decide
  obtain ⟨hstarted, hall, -⟩ := first_in_first_out 0 handToHand hopen
  exact ⟨hopen, by decide, hall, hstarted⟩

end TopicFeed.Queue
