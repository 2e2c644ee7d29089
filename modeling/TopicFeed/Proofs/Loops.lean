import TopicFeed.Proofs.Subscribed

/-!
What holds of every loop of a client.

Whatever happens to a client, its loops make moves of their own or are left alone, and only a call
to follow a topic that is not refused adds one. So what a new loop has and every move keeps, all
loops have at all times.
-/

namespace TopicFeed

open Network

/-! ### Errors of one loop -/

/-- Where asking for the feed fails, it fails with an error of the kind. -/
def Listener.FailsFor (kind : ClientError → Prop) (who : Listener) : Prop :=
  ∀ net e, (openFeed net who.topicUrl who.options).2 = .failed e → kind e

namespace Loop

/-- The error that an attempt or a loop ended with. -/
def Event.error? : Event → Option ClientError
  | .ended e | .exited e => e
  | .asked | .opened _ | .decoded _ | .passed _ | .told _ | .cut _ => none

/-- The errors that a loop keeps are of the kind: the one that the attempt under way is about to end
with, and the one of the last attempt. -/
structure Meets (kind : ClientError → Prop) (l : Loop) : Prop where
  answer : ∀ e, l.phase = .attempting (.awaiting (.failed e)) → kind e
  last : ∀ e, l.lastError = some e → kind e

section Errors

variable {kind : ClientError → Prop} {l l' : Loop} {hub hub' : Hub} {move : Move} {τ : List Event}

lemma meets_of_phase {l : Loop} (hphase : ∀ e, l.phase ≠ .attempting (.awaiting (.failed e)))
    (hlast : ∀ e, l.lastError = some e → kind e) : l.Meets kind :=
  ⟨fun e he => absurd he (hphase e), hlast⟩

lemma meets_afterFailure {e : ClientError} (h : kind e) (l : Loop) :
    (l.afterFailure e).Meets kind := by
  refine meets_of_phase (by simp) ?_
  rintro e ⟨⟩
  exact h

/-- Every move of a loop keeps it so, if a feed that was asked for can only fail for such errors. -/
lemma Does.meets (hdoes : Does l hub move τ hub' l') (hkind : ∀ e, e.isUnsent = false → kind e)
    (hopens : l.who.FailsFor kind) (h : l.Meets kind) : l'.Meets kind := by
  cases hdoes with
  | idle => exact h
  | asked =>
    refine ⟨fun e he => hopens hub.network e ?_, h.last⟩
    simpa using he
  | refused _ hp => exact meets_afterFailure (h.answer _ hp) l
  | closed | dropped => exact meets_afterFailure (hkind _ rfl) l
  | failed _ _ ha => exact meets_afterFailure (hkind _ (Feed.isUnsent_of_arrival ha)) l
  | finished | cut => exact meets_of_phase (by simp) (by simp)
  | told => exact ⟨h.answer, h.last⟩
  | opened | hangs | entered | blocked | control | silent | woken | left | passed | resumed =>
    exact meets_of_phase (by simp) h.last

/-- What an attempt or the loop itself ends with is of the kind. -/
lemma Does.error (hdoes : Does l hub move τ hub' l') (hkind : ∀ e, e.isUnsent = false → kind e)
    (h : l.Meets kind) {ev : Event} (hev : ev ∈ τ) {e : ClientError} (he : ev.error? = some e) :
    kind e := by
  cases hdoes with
  | refused _ hp =>
    obtain rfl := List.mem_singleton.mp hev
    exact h.answer e (Option.some.inj he ▸ hp)
  | failed _ _ ha =>
    obtain rfl := List.mem_singleton.mp hev
    exact hkind e (Feed.isUnsent_of_arrival (Option.some.inj he ▸ ha))
  | closed =>
    rcases List.mem_pair.mp hev with rfl | rfl <;> cases he
    exact hkind _ rfl
  | dropped =>
    obtain rfl := List.mem_singleton.mp hev
    cases he
    exact hkind _ rfl
  | left =>
    obtain rfl := List.mem_singleton.mp hev
    exact h.last e he
  | cut => rcases List.mem_pair.mp hev with rfl | rfl <;> cases he
  | idle | hangs | control | silent | woken => cases hev
  | asked | opened | entered | blocked | finished | passed | resumed | told =>
    obtain rfl := List.mem_singleton.mp hev
    cases he

end Errors

end Loop

namespace Client

open Loop RequestOption

/-- Every loop, at the place of its ticket, has the property. -/
def AllLoops (P : Ticket → Loop → Prop) (c : Client) : Prop :=
  ∀ t l, c.loops[t]? = some l → P t l

/-- Every move of a loop keeps the property. -/
def Keeps (P : Ticket → Loop → Prop) : Prop := ∀ t l hub move, P t l → P t (l.act hub move).2

/-! ### One move -/

section OneMove

variable {P : Ticket → Loop → Prop} {c : Client}

lemma allLoops_of_loops_eq {c' : Client} (h : AllLoops P c) (hloops : c'.loops = c.loops) :
    AllLoops P c' := by
  intro t l hl
  rw [hloops] at hl
  exact h t l hl

lemma AllLoops.withLoop (h : AllLoops P c) (hkeeps : Keeps P) (t : Ticket) (move : Loop.Move) :
    AllLoops P (c.withLoop t fun l hub => l.act hub move) := by
  unfold Client.withLoop
  rcases hl : c.loops[t]? with _ | l
  · exact h
  · have hlt : t < c.loops.length := (List.getElem?_eq_some_iff.mp hl).1
    intro u l' hl'
    by_cases hu : u = t
    · subst hu
      simp only [List.getElem?_set_self hlt, Option.some.injEq] at hl'
      rw [← hl']
      exact hkeeps u l c.hub move (h u l hl)
    · simp only [List.getElem?_set_ne (Ne.symm hu)] at hl'
      exact h u l' hl'

lemma AllLoops.moveLoops (h : AllLoops P c) (hkeeps : Keeps P)
    (moves : List (Ticket × Loop.Move)) : AllLoops P (c.moveLoops moves) := by
  induction moves generalizing c with
  | nil => exact h
  | cons x moves ih => exact ih (h.withLoop hkeeps x.1 x.2)

lemma AllLoops.concat (h : AllLoops P c) {l : Loop} (hl : P c.loops.length l) {c' : Client}
    (hloops : c'.loops = c.loops ++ [l]) : AllLoops P c' := by
  intro t l' hl'
  rw [hloops] at hl'
  rcases Nat.lt_or_ge t c.loops.length with hlt | hge
  · rw [List.getElem?_append_left hlt] at hl'
    exact h t l' hl'
  · have hlt : t < (c.loops ++ [l]).length := (List.getElem?_eq_some_iff.mp hl').1
    have heq : t = c.loops.length :=
      Nat.le_antisymm (Nat.lt_succ_iff.mp (by simpa using hlt)) hge
    rw [heq, List.getElem?_concat_length] at hl'
    cases hl'
    rw [heq]
    exact hl

/-- **What every move of a loop keeps, a move of the client keeps,** if each loop that is started
has it. -/
theorem AllLoops.act (h : AllLoops P c) (hkeeps : Keeps P)
    (hnew : ∀ topic options url id, c.resolve topic = .ok url → firstFault? options = none →
      P c.loops.length (c.newLoop url id options)) (m : Move) :
    AllLoops P (c.act m).1 := by
  have hacts := act_acts c m
  revert hacts
  generalize (c.act m).1 = c'
  intro hacts
  cases hacts with
  | aside => exact allLoops_of_loops_eq h rfl
  | moves hub moves =>
    have hsame : AllLoops P { c with hub } := allLoops_of_loops_eq h rfl
    exact hsame.moveLoops hkeeps moves
  | stops registry removed =>
    have hsame : AllLoops P { c with registry } := allLoops_of_loops_eq h rfl
    exact hsame.moveLoops hkeeps _
  | follows _ hurl hoptions => exact h.concat (hnew _ _ _ _ hurl hoptions) rfl

/-- **What can be seen of a loop when the client moves** can be seen of a move of its own. -/
theorem mem_events {t : Ticket} {m : Move} {e : Event} (h : e ∈ c.events t m) :
    ∃ l hub move, c.loops[t]? = some l ∧ e ∈ l.events hub move := by
  have hown : ∀ hub move, e ∈ c.loopEvents t hub move →
      ∃ l hub move, c.loops[t]? = some l ∧ e ∈ l.events hub move := by
    intro hub move he
    unfold loopEvents at he
    rcases hl : c.loops[t]? with _ | l
    · rw [hl] at he
      cases he
    · rw [hl] at he
      exact ⟨l, hub, move, rfl, he⟩
  have htake : ∀ change, e ∈ c.takeEvents t change →
      ∃ l hub move, c.loops[t]? = some l ∧ e ∈ l.events hub move := by
    intro change he
    obtain ⟨w, -, hw⟩ := List.mem_flatMap.mp he
    exact hown _ _ hw
  cases m with
  | step t' =>
    simp only [events] at h
    split at h
    · exact hown _ _ h
    · cases h
  | elapse t' ms =>
    simp only [events] at h
    split at h
    · exact hown _ _ h
    · cases h
  | unsubscribe id =>
    simp only [events] at h
    split at h
    · exact hown _ _ h
    · cases h
  | unsubscribeAll =>
    simp only [events] at h
    split at h
    · exact hown _ _ h
    · cases h
  | tryNext => exact htake _ h
  | next taker => exact htake _ h
  | publish | poll | subscribe | forgo | receiver | dropReceiver => cases h

end OneMove

/-! ### Many moves -/

section Course

variable {settings : Settings} {network : Network} {P : Ticket → Loop → Prop}

lemma settings_course (settings : Settings) (network : Network) (moves : List Move) :
    (course settings network moves).client.settings = settings := by
  induction moves using List.reverseRecOn with
  | nil => rfl
  | append_singleton moves m ih => rw [course_concat, move_client, settings_act, ih]

/-- **What every move of a loop keeps, holds of all loops at all times,** if each loop that is
started has it. -/
theorem allLoops_course (hkeeps : Keeps P)
    (hnew : ∀ (c : Client) topic options url id, c.settings = settings →
      c.resolve topic = .ok url → firstFault? options = none →
      P c.loops.length (c.newLoop url id options)) (network : Network) (moves : List Move) :
    AllLoops P (course settings network moves).client := by
  induction moves using List.reverseRecOn with
  | nil => simp [AllLoops, course, Course.run, Client.new]
  | append_singleton moves m ih =>
    rw [course_concat, move_client]
    refine ih.act hkeeps (fun topic options url id => ?_) m
    exact hnew _ topic options url id (settings_course settings network moves)

/-- A loop serves the same listener for good. -/
lemma listeners_act {c : Client} {t : Ticket} {who : Listener} (h : c.listeners[t]? = some who)
    (m : Move) : (c.act m).1.listeners[t]? = some who := by
  rcases act_starts c m with hnone | ⟨who', -, hlisteners, -⟩
  · rw [hnone.1, h]
  · rw [hlisteners, List.getElem?_append_left (List.getElem?_eq_some_iff.mp h).1, h]

/-- **What can be seen of a loop** can be seen of a move of its own, at a time when it had what all
loops have. -/
theorem mem_trace (hloops : ∀ moves, AllLoops P (course settings network moves).client)
    {t : Ticket} {moves : List Move} {ev : Event} (hev : ev ∈ trace settings network t moves) :
    ∃ l hub move, (course settings network moves).client.listeners[t]? = some l.who ∧ P t l ∧
      ev ∈ l.events hub move := by
  induction moves using List.reverseRecOn with
  | nil => cases hev
  | append_singleton moves m ih =>
    rw [trace_concat] at hev
    rw [course_concat, move_client]
    rcases List.mem_append.mp hev with hev | hev
    · obtain ⟨l, hub, move, hwho, hl, hev⟩ := ih hev
      exact ⟨l, hub, move, listeners_act hwho m, hl, hev⟩
    · obtain ⟨l, hub, move, hl, hev⟩ := mem_events hev
      refine ⟨l, hub, move, listeners_act ?_ m, hloops moves t l hl, hev⟩
      rw [listeners_getElem?, hl]
      rfl

/-- **What the attempts of a loop fail with** is of a kind, if that is all that asking for its feed
fails with, and whatever fails after a request was sent. -/
theorem error_of_trace {kind : ClientError → Prop} (hkind : ∀ e, e.isUnsent = false → kind e)
    {t : Ticket} {moves : List Move} {who : Listener}
    (hwho : (course settings network moves).client.listeners[t]? = some who)
    (hopens : who.FailsFor kind) {ev : Event} (hev : ev ∈ trace settings network t moves)
    {e : ClientError} (he : ev.error? = some e) : kind e := by
  have hkeeps : Keeps fun _ l => l.who.FailsFor kind → l.Meets kind := by
    intro t l hub move h hopens
    rw [act_who] at hopens
    exact (act_does l hub move).meets hkind hopens (h hopens)
  have hloops : ∀ moves, AllLoops (fun _ l => l.who.FailsFor kind → l.Meets kind)
      (course settings network moves).client := by
    refine allLoops_course hkeeps (fun c topic options url id _ _ _ _ => ?_) network
    exact meets_of_phase (by simp [newLoop]) (by simp [newLoop])
  obtain ⟨l, hub, move, hl, hmeets, hev⟩ := mem_trace hloops hev
  rw [hwho] at hl
  cases hl
  exact (act_does l hub move).error hkind (hmeets hopens) hev he

end Course

end Client

end TopicFeed
