import TopicFeed.Client.Move
import TopicFeed.Proofs.Checks
import TopicFeed.Proofs.Loop
import TopicFeed.Proofs.Registry

/-!
What a client can do in one move.

`Acts` lists the moves of a client by what they do to its loops and to its registry. What is proved
about these starts from this list.
-/

namespace TopicFeed.Client

open Loop RequestOption

/-- The subscriptions that a move hands out. -/
def handsOut (c : Client) : Move → List (Subscription Ticket)
  | .unsubscribe id => (c.registry.remove id).1.toList
  | .unsubscribeAll => c.registry.removeAll.1
  | .step _ | .elapse _ _ | .publish .. | .poll .. | .subscribe .. | .tryNext | .next _ | .forgo _
  | .receiver | .dropReceiver => []

/-- Loops make moves, one after the other. -/
def moveLoops (c : Client) (moves : List (Ticket × Loop.Move)) : Client :=
  moves.foldl (fun c x => c.withLoop x.1 fun l hub => l.act hub x.2) c

/-- The loops of subscriptions are told to stop. -/
def stops (removed : List (Subscription Ticket)) : List (Ticket × Loop.Move) :=
  removed.map fun s => (s.task, .cancel)

/-- One move of a client: what it leads to. -/
inductive Acts (c : Client) (m : Move) : Client → Prop
  /-- Neither the loops nor the registry change. -/
  | aside (hub : Hub) (hout : c.handsOut m = []) : Acts c m { c with hub }
  /-- Loops move, and none is told to stop. -/
  | moves (hub : Hub) (moves : List (Ticket × Loop.Move)) (hmoves : ∀ x ∈ moves, x.2 ≠ .cancel)
      (hout : c.handsOut m = []) : Acts c m ({ c with hub }.moveLoops moves)
  /-- A topic is followed. -/
  | follows {drawn : List SubscriptionId} {hasRuntime : Bool} {topic : String}
      {options : List RequestOption} {url : String} {id : SubscriptionId}
      (hm : m = .subscribe drawn hasRuntime topic options)
      (hurl : c.resolve topic = .ok url) (hoptions : firstFault? options = none)
      (hid : c.registry.contains id = false)
      (hreturned : (c.subscribe drawn hasRuntime topic options).2 = .returned (.ok id)) :
      Acts c m { c with
        registry := ⟨c.registry.live ++ [{ id, topicUrl := url, task := c.loops.length }]⟩
        loops := c.loops ++ [c.newLoop url id options] }
  /-- Subscriptions are handed out, and their loops are told to stop. -/
  | stops (registry : Registry Ticket) (removed : List (Subscription Ticket))
      (hlive : registry.live.Sublist c.registry.live)
      (hperm : c.registry.ids.Nodup → c.registry.live.Perm (removed ++ registry.live))
      (hout : c.handsOut m = removed.map Subscription.cancel) :
      Acts c m ({ c with registry }.moveLoops (stops removed))

/-- What a consumer takes wakes loops. -/
lemma afterTake_eq (c : Client) (taken : Queue.Change Ticket Message × Option Message) :
    (c.afterTake taken).1 = { c with hub := c.hub.accept taken.1 }.moveLoops
      (taken.1.woken.map fun w : Ticket × Queue.Wake Message => (w.1, .wake w.2)) := by
  rw [moveLoops, List.foldl_map]
  rfl

lemma unsubscribeAll_eq (c : Client) : c.unsubscribeAll =
    { c with registry := c.registry.removeAll.2 }.moveLoops (stops c.registry.live) := by
  rw [moveLoops, stops, List.foldl_map, unsubscribeAll, Registry.removeAll]
  simp only [List.foldl_map]
  rfl

lemma afterTake_acts (c : Client) {m : Move} (hout : c.handsOut m = [])
    (taken : Queue.Change Ticket Message × Option Message) : Acts c m (c.afterTake taken).1 := by
  rw [afterTake_eq]
  refine .moves _ _ (fun x hx => ?_) hout
  obtain ⟨w, -, rfl⟩ := List.mem_map.mp hx
  simp

/-- **Every move of a client is one of the moves listed.** -/
theorem act_acts (c : Client) (m : Move) : Acts c m (c.act m).1 := by
  cases m with
  | step t => exact .moves c.hub [(t, .step)] (by simp) rfl
  | elapse t ms => exact .moves c.hub [(t, .elapse ms)] (by simp) rfl
  | publish topic body options =>
    simp only [act, publish]
    split
    · exact .aside c.hub rfl
    · exact .aside _ rfl
  | poll topic options =>
    simp only [act, poll]
    split
    · exact .aside c.hub rfl
    · exact .aside _ rfl
  | subscribe drawn hasRuntime topic options =>
    simp only [act]
    rcases subscribe_cases c drawn hasRuntime topic options with
      ⟨hsame, -⟩ | ⟨url, id, hurl, hoptions, hfind, hsub⟩
    · rw [hsame]
      exact .aside c.hub rfl
    · rw [hsub]
      exact .follows rfl hurl hoptions (by simpa using List.find?_some hfind) (by rw [hsub])
  | unsubscribe id =>
    simp only [act, unsubscribe]
    rcases hremove : c.registry.remove id with ⟨_ | s, registry⟩
    · exact .aside c.hub (by simp [handsOut, hremove])
    · obtain ⟨u, hu, -, rfl, rfl⟩ := Registry.mem_of_remove hremove
      exact .stops _ [u] List.filter_sublist (fun hids => Registry.perm_remove hids hu)
        (by simp [handsOut, hremove])
  | unsubscribeAll =>
    rw [act, unsubscribeAll_eq]
    exact .stops _ c.registry.live (List.nil_sublist _) (fun _ => by simp [Registry.removeAll]) rfl
  | tryNext => exact afterTake_acts c rfl _
  | next taker => exact afterTake_acts c rfl _
  | forgo | receiver | dropReceiver => exact .aside _ rfl

/-! ### Moves of loops -/

/-- What no single move of a loop touches, many of them leave alone. -/
lemma moveLoops_frame {α : Type} (get : Client → α) {moves : List (Ticket × Loop.Move)}
    (hget : ∀ x ∈ moves, ∀ c, get (c.withLoop x.1 fun l hub => l.act hub x.2) = get c)
    (c : Client) : get (c.moveLoops moves) = get c := by
  induction moves generalizing c with
  | nil => rfl
  | cons x moves ih =>
    rw [moveLoops, List.foldl_cons, ← moveLoops]
    exact (ih (fun y hy => hget y (List.mem_cons_of_mem x hy)) _).trans
      (hget x List.mem_cons_self c)

lemma map_withLoop {α : Type} (f : Loop → α) {act : Loop → Hub → Hub × Loop}
    (hact : ∀ l hub, f (act l hub).2 = f l) (c : Client) (t : Ticket) :
    (c.withLoop t act).loops.map f = c.loops.map f := by
  unfold withLoop
  split
  · rfl
  · next l hl =>
    have hlt : t < (c.loops.map f).length := by
      simpa using (List.getElem?_eq_some_iff.mp hl).1
    have hsame : (c.loops.map f)[t] = f l := by
      simp [(List.getElem?_eq_some_iff.mp hl).2]
    simp only [List.map_set, hact]
    rw [← hsame]
    exact List.set_getElem_self _

lemma registry_withLoop (c : Client) (t : Ticket) (act : Loop → Hub → Hub × Loop) :
    (c.withLoop t act).registry = c.registry := by
  unfold withLoop
  split <;> rfl

lemma settings_withLoop (c : Client) (t : Ticket) (act : Loop → Hub → Hub × Loop) :
    (c.withLoop t act).settings = c.settings := by
  unfold withLoop
  split <;> rfl

variable (c : Client) (moves : List (Ticket × Loop.Move))

@[simp] lemma registry_moveLoops : (c.moveLoops moves).registry = c.registry :=
  moveLoops_frame registry (fun x _ c => registry_withLoop c x.1 _) c

@[simp] lemma settings_moveLoops : (c.moveLoops moves).settings = c.settings :=
  moveLoops_frame settings (fun x _ c => settings_withLoop c x.1 _) c

/-- What moves of loops do not touch in any loop, they leave alone. -/
lemma map_moveLoops {α : Type} (f : Loop → α) {moves : List (Ticket × Loop.Move)}
    (hact : ∀ x ∈ moves, ∀ l hub, f (l.act hub x.2).2 = f l) (c : Client) :
    (c.moveLoops moves).loops.map f = c.loops.map f :=
  moveLoops_frame (fun c => c.loops.map f) (fun x hx c => map_withLoop f (hact x hx) c x.1) c

/-- A client keeps its settings. -/
lemma settings_act (m : Move) : (c.act m).1.settings = c.settings := by
  have h := act_acts c m
  revert h
  generalize (c.act m).1 = c'
  intro h
  cases h with
  | aside | follows => rfl
  | moves | stops => exact settings_moveLoops _ _

end TopicFeed.Client
