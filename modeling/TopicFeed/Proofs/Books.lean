import TopicFeed.Client
import TopicFeed.Proofs.Waiting

/-!
The books of a shared queue.

Everything that went into a queue so far is one list of messages, each with the ticket of the loop
that pushed it: first those that consumers have received, then those inside. The messages of one
loop in that list, and the one it waits with, are what that loop decoded.
-/

namespace TopicFeed.Client

open Loop Queue

/-- The messages of one subscription. -/
def messagesOf (t : Ticket) (xs : List (Ticket × Message)) : List Message :=
  (xs.filter fun p => p.1 = t).map (·.2)

lemma messagesOf_append (t : Ticket) (xs ys : List (Ticket × Message)) :
    messagesOf t (xs ++ ys) = messagesOf t xs ++ messagesOf t ys := by
  simp [messagesOf]

lemma messagesOf_single_self (t : Ticket) (m : Message) : messagesOf t [(t, m)] = [m] := by
  simp [messagesOf]

lemma messagesOf_single_of_ne {t u : Ticket} (h : u ≠ t) (m : Message) :
    messagesOf u [(t, m)] = [] := by
  simp [messagesOf, Ne.symm h]

/-- The events of one loop, and of no other. -/
def only (t : Ticket) (υ : List Event) (u : Ticket) : List Event := if u = t then υ else []

@[simp] lemma only_self (t : Ticket) (υ : List Event) : only t υ t = υ := by simp [only]

lemma only_of_ne {t u : Ticket} (h : u ≠ t) (υ : List Event) : only t υ u = [] := by simp [only, h]

lemma only_nil (t u : Ticket) : only t [] u = [] := by simp [only]

/-- What cannot be seen of one loop cannot be seen of any. -/
lemma map_only {β : Type} {f : List Event → List β} {υ : List Event} (hnil : f [] = [])
    (h : f υ = []) (t u : Ticket) : f (only t υ u) = [] := by
  by_cases hu : u = t
  · rw [hu, only_self, h]
  · rw [only_of_ne hu, hnil]

/-! ### The books of a queue -/

/-- What was pushed and no longer waits, each message with its loop: it was received or is inside.
With what waits and what was withdrawn it makes up what each loop decoded. -/
structure Booked (q : Queue Ticket Message) (received : List Message)
    (settled : List (Ticket × Message)) (σ : Ticket → List Event) : Prop where
  settles : settled.map (·.2) = received ++ q.items
  balance : ∀ t, messagesOf t settled ++ q.waitingOf t ++ withdrawnIn (σ t) = decodedIn (σ t)

namespace Booked

variable {q q' : Queue Ticket Message} {received : List Message}
variable {settled : List (Ticket × Message)} {σ ev : Ticket → List Event}

lemma quiet (h : Booked q received settled σ) (hi : q'.items = q.items)
    (hp : q'.pushes = q.pushes) (hd : ∀ t, decodedIn (ev t) = [])
    (hw : ∀ t, withdrawnIn (ev t) = []) :
    Booked q' received settled (fun t => σ t ++ ev t) where
  settles := by rw [hi, h.settles]
  balance t := by
    have hsame : q'.waitingOf t = q.waitingOf t := by rw [waitingOf, hp]; rfl
    simpa [hsame, hd, hw] using h.balance t

lemma entered {t : Ticket} {m : Message} {change : Change Ticket Message} {υ : List Event}
    (h : Booked q received settled σ) (hfair : q.Fair) (hopen : q.isOpen = true)
    (hpush : q.push t m = (change, .entered)) (hnone : withdrawnIn (σ t) = [])
    (hd : decodedIn υ = [m]) (hw : withdrawnIn υ = []) :
    Booked change.queue (received ++ change.handed.map (·.2)) (settled ++ [(t, m)])
      (fun u => σ u ++ only t υ u) := by
  obtain ⟨hpushes, hpushes', hitems⟩ := push_entered hfair hopen hpush
  have hempty : ∀ u, q.waitingOf u = [] := fun u => by simp [waitingOf, hpushes]
  have hempty' : ∀ u, change.queue.waitingOf u = [] := fun u => by simp [waitingOf, hpushes']
  refine ⟨?_, fun u => ?_⟩
  · rw [List.map_append, h.settles, List.append_assoc, List.append_assoc, hitems]
    rfl
  · have hb := h.balance u
    rw [hempty u, List.append_nil] at hb
    rw [hempty' u, messagesOf_append]
    by_cases hu : u = t
    · subst hu
      rw [hnone, List.append_nil] at hb
      simp [messagesOf_single_self, hb, hnone, hd, hw]
    · simpa [messagesOf_single_of_ne hu, only_of_ne hu] using hb

lemma waits {t : Ticket} {m : Message} {change : Change Ticket Message} {υ : List Event}
    (h : Booked q received settled σ) (hpush : q.push t m = (change, .waiting))
    (hnone : withdrawnIn (σ t) = []) (hd : decodedIn υ = [m]) (hw : withdrawnIn υ = []) :
    Booked change.queue received settled (fun u => σ u ++ only t υ u) := by
  have hchange := push_waiting hpush
  subst hchange
  refine ⟨h.settles, fun u => ?_⟩
  have hb := h.balance u
  have hwait : ({ q with pushes := q.pushes ++ [(t, m)] } : Queue Ticket Message).waitingOf u =
      q.waitingOf u ++ messagesOf u [(t, m)] := by
    simp [waitingOf, messagesOf, List.filter_append]
  rw [hwait]
  by_cases hu : u = t
  · subst hu
    rw [hnone, List.append_nil] at hb
    simp [messagesOf_single_self, ← hb, hnone, hd, hw]
  · simpa [messagesOf_single_of_ne hu, only_of_ne hu] using hb

lemma withdraws {t : Ticket} {υ : List Event} (h : Booked q received settled σ)
    (hnone : withdrawnIn (σ t) = []) (hd : decodedIn υ = [])
    (hw : withdrawnIn υ = q.waitingOf t) :
    Booked (q.withdraw t) received settled (fun u => σ u ++ only t υ u) := by
  refine ⟨h.settles, fun u => ?_⟩
  have hb := h.balance u
  by_cases hu : u = t
  · subst hu
    rw [hnone, List.append_nil] at hb
    simp [hnone, hd, hw, hb]
  · simpa [hu, only_of_ne hu] using hb

/-- A consumer takes, and what enters in its place settles. -/
lemma takes {change : Change Ticket Message} {taken : Option Message}
    {entered : List (Ticket × Message)} (h : Booked q received settled σ)
    (hp : q.pushes = entered ++ change.queue.pushes)
    (hi : q.items ++ entered.map (·.2) = taken.toList ++ change.queue.items) :
    Booked change.queue (received ++ taken.toList) (settled ++ entered) σ := by
  refine ⟨?_, fun u => ?_⟩
  · rw [List.map_append, h.settles, List.append_assoc, hi, List.append_assoc]
  · have hb := h.balance u
    have hwait : q.waitingOf u = messagesOf u entered ++ change.queue.waitingOf u := by
      simp [waitingOf, messagesOf, hp, List.filter_append]
    rw [hwait] at hb
    rw [messagesOf_append]
    simpa using hb

end Booked

/-! ### The books of a client -/

/-- What is kept of one loop: what it read, what it waits with, and the context of it all. -/
structure LoopKept (l : Loop) (t : Ticket) (τ : List Event) (waiting : List Message) : Prop where
  ticket : l.ticket = t
  accounts : l.Accounts τ
  waits : l.Waits τ waiting
  stamps : ∀ m ∈ decodedIn τ,
    m.topicUrl = l.who.topicUrl ∧ m.subscriptionId = l.who.subscriptionId

lemma stamps_append {l l' : Loop} {hub hub' : Hub} {move : Loop.Move} {τ υ : List Event}
    (hdoes : Does l hub move υ hub' l')
    (h : ∀ m ∈ decodedIn τ, m.topicUrl = l.who.topicUrl ∧ m.subscriptionId = l.who.subscriptionId) :
    ∀ m ∈ decodedIn (τ ++ υ),
      m.topicUrl = l'.who.topicUrl ∧ m.subscriptionId = l'.who.subscriptionId := by
  intro m hm
  rw [hdoes.who_eq.1]
  rcases List.mem_append.mp (decodedIn_append τ υ ▸ hm) with hm | hm
  · exact h m hm
  · exact hdoes.stamps m hm

/-- What is kept of a queue and the loops that share it. -/
structure Kept (q : Queue Ticket Message) (loops : List Loop) (received : List Message)
    (settled : List (Ticket × Message)) (σ : Ticket → List Event) : Prop where
  owned : q.owned = true
  fair : q.Fair
  booked : Booked q received settled σ
  known : ∀ p ∈ settled ++ q.pushes, p.1 < loops.length
  fresh : ∀ t, loops.length ≤ t → σ t = []
  loop : ∀ t l, loops[t]? = some l → LoopKept l t (σ t) (q.waitingOf t)

namespace Kept

variable {q q' : Queue Ticket Message} {loops : List Loop} {received : List Message}
variable {settled : List (Ticket × Message)} {σ : Ticket → List Event}

lemma isOpen (h : Kept q loops received settled σ) : q.isOpen = true := isOpen_of_owned h.owned

lemma ticket_lt {l : Loop} {t : Ticket} (hl : loops[t]? = some l) : t < loops.length :=
  (List.getElem?_eq_some_iff.mp hl).1

lemma of_handles (h : Kept q loops received settled σ) (ho : q'.owned = q.owned)
    (hi : q'.items = q.items) (hp : q'.pushes = q.pushes) (hfair : q'.Fair) :
    Kept q' loops received settled σ where
  owned := ho.trans h.owned
  fair := hfair
  booked := by
    have hb : Booked q' received settled fun t => σ t ++ [] :=
      h.booked.quiet hi hp (fun _ => rfl) fun _ => rfl
    simpa using hb
  known := by rw [hp]; exact h.known
  fresh := h.fresh
  loop t l hl := by
    have hsame : q'.waitingOf t = q.waitingOf t := by rw [waitingOf, hp]; rfl
    rw [hsame]
    exact h.loop t l hl

/-- One loop is replaced by what it became, and the queue by one that is well kept. -/
lemma replace {received' : List Message} {settled' : List (Ticket × Message)} {t : Ticket}
    {l' : Loop} {υ : List Event} (h : Kept q loops received settled σ) (ht : t < loops.length)
    (ho : q'.owned = q.owned) (hfair : q'.Fair)
    (hb : Booked q' received' settled' fun u => σ u ++ only t υ u)
    (hknown : ∀ p ∈ settled' ++ q'.pushes, p ∈ settled ++ q.pushes ∨ p.1 = t)
    (hothers : ∀ u, u ≠ t → q'.waitingOf u = q.waitingOf u)
    (hloop : LoopKept l' t (σ t ++ υ) (q'.waitingOf t)) :
    Kept q' (loops.set t l') received' settled' fun u => σ u ++ only t υ u where
  owned := ho.trans h.owned
  fair := hfair
  booked := hb
  known p hp := by
    rw [List.length_set]
    rcases hknown p hp with hp | hp
    · exact h.known p hp
    · exact hp ▸ ht
  fresh u hu := by
    rw [List.length_set] at hu
    rw [only_of_ne (Nat.ne_of_gt (Nat.lt_of_lt_of_le ht hu)), h.fresh u hu]
    rfl
  loop u m hm := by
    by_cases hu : u = t
    · subst hu
      obtain rfl : l' = m := by simpa [ht] using hm
      simpa using hloop
    · rw [List.getElem?_set_ne (Ne.symm hu)] at hm
      rw [hothers u hu, only_of_ne hu]
      simpa using h.loop u m hm

/-! ### Moves of one loop -/

section OneLoop

variable {t : Ticket} {l l' : Loop} {hub hub' : Hub} {move : Loop.Move} {υ : List Event}
variable {m : Message} {change : Change Ticket Message} {taken : Option Message}

lemma loopKept (h : Kept hub.queue loops received settled σ) (hl : loops[t]? = some l)
    (hdoes : Does l hub move υ hub' l') (hmove : ∀ o, move ≠ .wake o) :
    LoopKept l' t (σ t ++ υ) (hub'.queue.waitingOf t) := by
  obtain ⟨hticket, haccounts, hwaits, hstamps⟩ := h.loop t l hl
  subst hticket
  have hticket' : l'.ticket = l.ticket := hdoes.who_eq.2
  have hwaits' := hdoes.waits hwaits h.fair h.isOpen hmove
  rw [waiting, hticket'] at hwaits'
  exact ⟨hticket', hdoes.accounts haccounts h.isOpen (hmove _), hwaits',
    stamps_append hdoes hstamps⟩

lemma move_quiet (h : Kept hub.queue loops received settled σ) (ht : t < loops.length)
    (hquiet : Quiet hub hub' υ) (hloop : LoopKept l' t (σ t ++ υ) (hub'.queue.waitingOf t)) :
    Kept hub'.queue (loops.set t l') received settled fun u => σ u ++ only t υ u := by
  rw [hquiet.queue] at hloop ⊢
  have hbooked := h.booked.quiet rfl rfl (map_only decodedIn_nil hquiet.decoded t)
    (map_only withdrawnIn_nil hquiet.withdrawn t)
  exact h.replace ht rfl h.fair hbooked (fun p hp => .inl hp) (fun u _ => rfl) hloop

lemma move_entered (h : Kept hub.queue loops received settled σ) (hl : loops[t]? = some l)
    (hticket : l.ticket = t) (hpush : Pushes l hub hub' υ m change .entered)
    (hloop : LoopKept l' t (σ t ++ υ) (hub'.queue.waitingOf t)) :
    Kept hub'.queue (loops.set t l') (received ++ change.handed.map (·.2)) (settled ++ [(t, m)])
      fun u => σ u ++ only t υ u := by
  have hp := hpush.push
  rw [hticket] at hp
  have hnone := ((h.loop t l hl).waits.heard hpush.goes_on).2.2
  have hbooked := h.booked.entered h.fair h.isOpen hp hnone hpush.decoded hpush.withdrawn
  have howned := push_owned hub.queue t m
  have hfair := fair_push h.fair h.isOpen t m
  obtain ⟨hpushes, hpushes', -⟩ := push_entered h.fair h.isOpen hp
  rw [hp] at howned hfair
  rw [hpush.queue] at hloop ⊢
  refine h.replace (ticket_lt hl) howned hfair hbooked (fun p hmem => ?_) (fun u _ => ?_) hloop
  · rw [hpushes', List.append_nil] at hmem
    rcases List.mem_append.mp hmem with hmem | hmem
    · exact .inl (List.mem_append_left _ hmem)
    · exact .inr (by rw [List.mem_singleton.mp hmem])
  · rw [waitingOf, waitingOf, hpushes, hpushes']

lemma move_waiting (h : Kept hub.queue loops received settled σ) (hl : loops[t]? = some l)
    (hticket : l.ticket = t) (hpush : Pushes l hub hub' υ m change .waiting)
    (hloop : LoopKept l' t (σ t ++ υ) (hub'.queue.waitingOf t)) :
    Kept hub'.queue (loops.set t l') received settled fun u => σ u ++ only t υ u := by
  have hp := hpush.push
  rw [hticket] at hp
  have hnone := ((h.loop t l hl).waits.heard hpush.goes_on).2.2
  have hbooked := h.booked.waits hp hnone hpush.decoded hpush.withdrawn
  have howned := push_owned hub.queue t m
  have hfair := fair_push h.fair h.isOpen t m
  rw [hp] at howned hfair
  rw [hpush.queue] at hloop ⊢
  have hpushes' : change.queue.pushes = hub.queue.pushes ++ [(t, m)] := by rw [push_waiting hp]
  refine h.replace (ticket_lt hl) howned hfair hbooked (fun p hmem => ?_) (fun u hu => ?_) hloop
  · rw [hpushes', ← List.append_assoc] at hmem
    rcases List.mem_append.mp hmem with hmem | hmem
    · exact .inl hmem
    · exact .inr (by rw [List.mem_singleton.mp hmem])
  · simp [waitingOf, hpushes', List.filter_append, Ne.symm hu]

lemma move_withdraws (h : Kept hub.queue loops received settled σ) (hl : loops[t]? = some l)
    (hticket : l.ticket = t) (hwithdraws : Withdraws l hub hub' υ)
    (hloop : LoopKept l' t (σ t ++ υ) (hub'.queue.waitingOf t)) :
    Kept hub'.queue (loops.set t l') received settled fun u => σ u ++ only t υ u := by
  have hq : hub'.queue = hub.queue.withdraw t := hticket ▸ hwithdraws.queue
  have hw : withdrawnIn υ = hub.queue.waitingOf t := by
    rw [hwithdraws.withdrawn, waiting, hticket]
  have hnone := ((h.loop t l hl).waits.stopping hwithdraws.stops.1 hwithdraws.stops.2).2
  have hbooked := h.booked.withdraws hnone hwithdraws.decoded hw
  rw [hq] at hloop ⊢
  refine h.replace (ticket_lt hl) rfl (fair_withdraw h.fair t) hbooked (fun p hmem => .inl ?_)
    (fun u hu => waitingOf_withdraw_of_ne _ hu) hloop
  rcases List.mem_append.mp hmem with hmem | hmem
  · exact List.mem_append_left _ hmem
  · exact List.mem_append_right _ (List.mem_filter.mp hmem).1

/-- **A move of a loop keeps the books.** -/
theorem move_loop (h : Kept hub.queue loops received settled σ) (hl : loops[t]? = some l)
    (hdoes : Does l hub move υ hub' l') (hmove : ∀ o, move ≠ .wake o) :
    ∃ settled', Kept hub'.queue (loops.set t l')
      (received ++ (hub'.handed.drop hub.handed.length).map (·.2)) settled'
      fun u => σ u ++ only t υ u := by
  have hticket := (h.loop t l hl).ticket
  have hloop := h.loopKept hl hdoes hmove
  rcases hdoes.queue_cases h.isOpen with hquiet | ⟨m, change, outcome, hpush⟩ | hwithdraws
  · rw [hquiet.handed, List.drop_length, List.map_nil, List.append_nil]
    exact ⟨_, h.move_quiet (ticket_lt hl) hquiet hloop⟩
  · rw [hpush.handed, List.drop_left]
    cases outcome with
    | entered => exact ⟨_, h.move_entered hl hticket hpush hloop⟩
    | waiting =>
      have hnone : change.handed = [] := by rw [push_waiting hpush.push]; rfl
      rw [hnone, List.map_nil, List.append_nil]
      exact ⟨_, h.move_waiting hl hticket hpush hloop⟩
    | closed => exact absurd (congrArg Prod.snd hpush.push) (push_ne_closed h.isOpen _ _)
  · rw [hwithdraws.handed, List.drop_length, List.map_nil, List.append_nil]
    exact ⟨_, h.move_withdraws hl hticket hwithdraws hloop⟩

/-- Nobody's push enters when a consumer takes. -/
lemma take_alone (h : Kept q loops received settled σ) (htakes : q.Takes change taken)
    (hp : q.pushes = change.queue.pushes) (hi : q.items = taken.toList ++ change.queue.items) :
    Kept change.queue loops (received ++ taken.toList) settled σ where
  owned := htakes.owned.trans h.owned
  fair := htakes.fair h.fair
  booked := by
    have hb : Booked change.queue (received ++ taken.toList) (settled ++ []) σ :=
      h.booked.takes hp (by simpa)
    simpa using hb
  known := hp ▸ h.known
  fresh := h.fresh
  loop t l hl := by
    have hsame : change.queue.waitingOf t = q.waitingOf t := by rw [waitingOf, ← hp]; rfl
    rw [hsame]
    exact h.loop t l hl

/-- **The push that enters when a consumer takes:** its loop is woken and goes on. -/
lemma take_woken (h : Kept q loops received settled σ) (htakes : q.Takes change taken)
    (hp : q.pushes = (t, m) :: change.queue.pushes)
    (hi : q.items ++ [m] = taken.toList ++ change.queue.items) (hl : loops[t]? = some l)
    (hhub : hub.queue = change.queue) (hdoes : Does l hub (.wake .entered) υ hub' l') :
    Kept hub'.queue (loops.set t l') (received ++ taken.toList) (settled ++ [(t, m)])
      (fun u => σ u ++ only t υ u) ∧ hub'.handed = hub.handed := by
  obtain ⟨hticket, haccounts, hwaits, hstamps⟩ := h.loop t l hl
  subst hticket
  have hold : q.waitingOf l.ticket = m :: change.queue.waitingOf l.ticket := by
    simp [waitingOf, hp]
  -- the loop waited with at most one message, so nothing of it waits behind `m`
  have hnew : change.queue.waitingOf l.ticket = [] := by
    have hsingle := hwaits.single
    rw [hold, List.length_cons] at hsingle
    exact List.eq_nil_of_length_eq_zero (by omega)
  obtain ⟨hwaits', hquiet⟩ := hdoes.waits_wake hwaits (by rw [hold]; simp)
    (by rw [waiting, hhub, hnew])
  have hopen : hub.queue.isOpen = true :=
    isOpen_of_owned (by rw [hhub, htakes.owned, h.owned])
  refine ⟨?_, hquiet.handed⟩
  rw [hquiet.queue, hhub]
  have htaken : Booked change.queue (received ++ taken.toList) (settled ++ [(l.ticket, m)]) σ :=
    h.booked.takes hp hi
  have hbooked := htaken.quiet rfl rfl
    (map_only decodedIn_nil hquiet.decoded l.ticket)
    (map_only withdrawnIn_nil hquiet.withdrawn l.ticket)
  refine h.replace (ticket_lt hl) htakes.owned (htakes.fair h.fair) hbooked (fun p hmem => ?_)
    (fun u hu => ?_) ?_
  · rcases List.mem_append.mp hmem with hmem | hmem
    · rcases List.mem_append.mp hmem with hmem | hmem
      · exact .inl (List.mem_append_left _ hmem)
      · exact .inr (by rw [List.mem_singleton.mp hmem])
    · exact .inl (List.mem_append_right _ (by rw [hp]; exact List.mem_cons_of_mem _ hmem))
  · simp [waitingOf, hp, Ne.symm hu]
  · rw [hnew]
    exact ⟨hdoes.who_eq.2, hdoes.accounts haccounts hopen (by simp), hwaits',
      stamps_append hdoes hstamps⟩

end OneLoop

end Kept

end TopicFeed.Client
