import TopicFeed.Proofs.Stream

/-!
How a body is cut into chunks.

Two servers that send the same bytes and end alike are told apart by nothing. An answer that is read
up to a limit is the beginning of its bytes, and a feed is its lines, so whoever publishes, polls or
follows a topic gets the same from both, move by move.
-/

namespace TopicFeed

open Network

/-! ### Reading up to a limit -/

namespace Network

/-- What comes of reading bytes up to a limit if they end in the given way. -/
def cappedBytes (limit : Nat) (ending : Ending) (bytes : Bytes) : Capped :=
  if limit ≤ bytes.length then .read (bytes.take limit)
  else match ending with
    | .closed => .read bytes
    | .broken => .broken
    | .silent => .waits

lemma cappedBytes_of_le {limit : Nat} {ending : Ending} {bytes : Bytes}
    (h : limit ≤ bytes.length) : cappedBytes limit ending bytes = .read (bytes.take limit) := by
  unfold cappedBytes
  exact if_pos h

section CappedBytes

variable {limit : Nat} {ending : Ending} {bytes bs : Bytes}

lemma cappedBytes_eq_read_iff : cappedBytes limit ending bytes = .read bs ↔
    bs = bytes.take limit ∧ (limit ≤ bytes.length ∨ ending = .closed) := by
  unfold cappedBytes
  split
  · next hle => simp [hle, eq_comm]
  · next hlt =>
    have htake : bytes.take limit = bytes := List.take_of_length_le (by omega)
    cases ending <;> simp [hlt, htake, eq_comm]

lemma cappedBytes_eq_broken_iff : cappedBytes limit ending bytes = .broken ↔
    bytes.length < limit ∧ ending = .broken := by
  unfold cappedBytes
  split
  · next hle => simp [Nat.not_lt.mpr hle]
  · next hlt => cases ending <;> simp [Nat.not_le.mp hlt]

lemma cappedBytes_eq_waits_iff : cappedBytes limit ending bytes = .waits ↔
    bytes.length < limit ∧ ending = .silent := by
  unfold cappedBytes
  split
  · next hle => simp [Nat.not_lt.mpr hle]
  · next hlt => cases ending <;> simp [Nat.not_le.mp hlt]

end CappedBytes

/-- What lies beyond the limit is cut off, so it makes no difference. -/
lemma cappedBytes_take {limit : Nat} {ending : Ending} {done : Bytes} (hdone : done.length ≤ limit)
    (chunk rest : Bytes) :
    cappedBytes limit ending (done ++ chunk.take (limit - done.length) ++ rest) =
      cappedBytes limit ending (done ++ chunk ++ rest) := by
  rcases Nat.le_total chunk.length (limit - done.length) with hle | hge
  · rw [List.take_of_length_le hle]
  · have hfull : (done ++ chunk.take (limit - done.length)).length = limit := by
      rw [List.length_append, List.length_take, Nat.min_eq_left hge]
      omega
    have hleft : limit ≤ (done ++ chunk.take (limit - done.length) ++ rest).length := by
      rw [List.length_append, hfull]
      exact Nat.le_add_right _ _
    have hright : limit ≤ (done ++ chunk ++ rest).length := by
      rw [List.length_append, List.length_append]
      omega
    rw [cappedBytes_of_le hleft, cappedBytes_of_le hright]
    congr 1
    rw [List.take_append_of_le_length (Nat.le_of_eq hfull.symm),
      List.take_of_length_le (Nat.le_of_eq hfull), List.append_assoc, List.take_append,
      List.take_of_length_le hdone, List.take_append_of_le_length hge]

lemma capped_eq_cappedBytes {limit : Nat} {ending : Ending} {done : Bytes}
    (hdone : done.length ≤ limit) (chunks : List Bytes) :
    capped limit ending done chunks = cappedBytes limit ending (done ++ chunks.flatten) := by
  induction chunks generalizing done with
  | nil => cases ending <;> simp [capped, cappedBytes, List.take_of_length_le hdone]
  | cons chunk chunks ih =>
    rw [capped, List.flatten_cons, ← List.append_assoc]
    split
    · next hfull =>
      have hle : limit ≤ (done ++ chunk ++ chunks.flatten).length := by
        simp only [List.length_append]
        omega
      rw [cappedBytes_of_le hle, List.append_assoc, List.take_append_of_le_length hfull,
        List.take_of_length_le hdone]
    · have hnext : (done ++ chunk.take (limit - done.length)).length ≤ limit := by
        rw [List.length_append, List.length_take]
        omega
      rw [ih hnext, cappedBytes_take hdone]

/-- **Reading up to a limit** gives the beginning of the bytes, however these are cut. -/
theorem Body.capped_eq (b : Body) (limit : Nat) :
    b.capped limit = cappedBytes limit b.ending b.bytes :=
  capped_eq_cappedBytes (Nat.zero_le limit) b.chunks

/-! ### Servers that say the same -/

/-- The same bytes and the same ending. -/
structure Body.Alike (b b' : Body) : Prop where
  bytes : b.bytes = b'.bytes
  ending : b.ending = b'.ending

lemma Body.Alike.capped {b b' : Body} (h : b.Alike b') (limit : Nat) :
    b.capped limit = b'.capped limit := by
  rw [b.capped_eq, b'.capped_eq, h.bytes, h.ending]

/-- The same reply, but for the chunks of its body. -/
inductive Reply.Alike : Reply → Reply → Prop
  | dropped : Alike .dropped .dropped
  | answer (status : Nat) {b b' : Body} (h : b.Alike b') :
    Alike (.answer status b) (.answer status b')

/-- The same result of a request, but for the chunks of a body. -/
inductive AnswersAlike {ε : Type} : Except ε (Nat × Body) → Except ε (Nat × Body) → Prop
  | error (e : ε) : AnswersAlike (.error e) (.error e)
  | ok (status : Nat) {b b' : Body} (h : b.Alike b') :
    AnswersAlike (.ok (status, b)) (.ok (status, b'))

/-- Networks with the same hosts, which say the same. -/
structure Alike (net net' : Network) : Prop where
  isPresent : net.isPresent = net'.isPresent
  replies : ∀ earlier path, Reply.Alike ((net.script.reply? earlier path).getD net.beyond)
    ((net'.script.reply? earlier path).getD net'.beyond)
  requests : net.requests = net'.requests
  held : net.held = net'.held
  hangups : net.hangups = net'.hangups

namespace Alike

variable {net net' : Network} {method : Request.Method} {address topicUrl : String}
variable {options : List RequestOption} {body : Bytes}

lemma leave (h : net.Alike net') (ending : Ending) : (net.leave ending).Alike (net'.leave ending) :=
  ⟨h.isPresent, h.replies, h.requests, h.held, by rw [Network.leave, Network.leave, h.hangups]⟩

lemma send (h : net.Alike net') (r : Request) :
    (net.send r).1.Alike (net'.send r).1 ∧ AnswersAlike (net.send r).2 (net'.send r).2 := by
  have hpaths : net.paths = net'.paths := by rw [paths, paths, h.requests]
  have hreply := h.replies net.paths r.url.pathText
  rw [hpaths] at hreply
  unfold Network.send
  rw [h.isPresent, hpaths]
  split
  · exact ⟨h, .error _⟩
  · simp only
    generalize (net.script.reply? net'.paths r.url.pathText).getD net.beyond = reply at hreply
    generalize (net'.script.reply? net'.paths r.url.pathText).getD net'.beyond = reply' at hreply
    have hrequests : net.requests ++ [r] = net'.requests ++ [r] := by rw [h.requests]
    cases hreply with
    | dropped => exact ⟨.mk rfl h.replies hrequests h.held h.hangups, .error _⟩
    | @answer status b b' hb =>
      have hbody : Body.Alike (if isBodiless status then {} else b)
          (if isBodiless status then {} else b') := by
        split
        · exact ⟨rfl, rfl⟩
        · exact hb
      refine ⟨.mk rfl h.replies hrequests ?_ h.hangups, .ok status hbody⟩
      simp only [h.held, hbody.ending]

lemma request (h : net.Alike net') (method : Request.Method) (address : String)
    (options : List RequestOption) (body : Bytes) :
    (net.request method address options body).1.Alike (net'.request method address options body).1 ∧
      AnswersAlike (net.request method address options body).2
        (net'.request method address options body).2 := by
  unfold Network.request
  split
  · exact ⟨h, .error _⟩
  · split
    · exact ⟨h, .error _⟩
    · next r _ =>
      obtain ⟨hnet, hanswer⟩ := h.send r
      refine ⟨hnet, ?_⟩
      simp only
      generalize (net.send r).2 = answer at hanswer
      generalize (net'.send r).2 = answer' at hanswer
      cases hanswer with
      | error e => exact .error _
      | ok status hb => exact .ok status hb

/-- **Publishing** returns the same. -/
lemma publish (h : net.Alike net') (topicUrl : String) (body : Bytes)
    (options : List RequestOption) :
    (net.publish topicUrl body options).2 = (net'.publish topicUrl body options).2 := by
  obtain ⟨-, hanswer⟩ := h.request .post topicUrl options body
  unfold Network.publish
  generalize net.request .post topicUrl options body = x at hanswer ⊢
  generalize net'.request .post topicUrl options body = x' at hanswer ⊢
  obtain ⟨n, answer⟩ := x
  obtain ⟨n', answer'⟩ := x'
  simp only at hanswer ⊢
  cases hanswer with
  | error e => rfl
  | ok status hb =>
    simp only [hb.capped]
    split <;> rfl

end Alike

end Network

/-! ### Feeds that tell the same -/

namespace Feed

/-- The same lines are still to come, and the same ending. -/
structure Alike (f g : Feed) : Prop where
  ending : f.ending = g.ending
  lines : lines f.ending f.bytes = Feed.lines g.ending g.bytes
  part : Ascii.lineFeed ∉ f.part ∧ Ascii.lineFeed ∉ g.part

lemma alike_ofBody {b b' : Body} (h : b.Alike b') : (ofBody b).Alike (ofBody b') := by
  refine ⟨h.ending, ?_, by simp [ofBody]⟩
  have hbytes : b.chunks.flatten = b'.chunks.flatten := h.bytes
  simp [ofBody, bytes, h.ending, hbytes]

/-- What comes next is the same. -/
inductive Next.Alike : Next → Next → Prop
  | line (l : Bytes) {f g : Feed} (h : f.Alike g) : Alike (.line l f) (.line l g)
  | ended : Alike .ended .ended
  | broken : Alike .broken .broken
  | waits : Alike .waits .waits

/-- What arrives next is the same. -/
inductive Arrival.Alike : Arrival → Arrival → Prop
  | notification (m : Message) {f g : Feed} (h : f.Alike g) :
    Alike (.notification m f) (.notification m g)
  | control {f g : Feed} (h : f.Alike g) : Alike (.control f) (.control g)
  | ended : Alike .ended .ended
  | failed (e : ClientError) : Alike (.failed e) (.failed e)
  | waits : Alike .waits .waits

namespace Alike

variable {f g : Feed}

/-- Both feeds fit what is still to come, so they go the same way. -/
lemma next (h : f.Alike g) : f.next.Alike g.next := by
  obtain ⟨hending, hlines, hf, hg⟩ := h
  have hfitf := fits_next f hf
  have hfitg := fits_next g hg
  rw [← hending] at hlines hfitg
  generalize f.next = next at hfitf
  generalize g.next = next' at hfitg
  cases next with
  | line l f' =>
    obtain ⟨hef, hpf, hlf⟩ := hfitf
    rw [hlines] at hlf
    cases next' with
    | line l' g' =>
      obtain ⟨heg, hpg, hlg⟩ := hfitg
      obtain ⟨rfl, hrest⟩ := List.cons.inj (hlf.symm.trans hlg)
      exact .line l ⟨hef.trans heg.symm, by rw [hef, heg]; exact hrest, hpf, hpg⟩
    | ended | broken | waits =>
      obtain ⟨-, hlg⟩ := hfitg
      rw [hlf] at hlg
      cases hlg
  | ended | broken | waits =>
    obtain ⟨hef, hlf⟩ := hfitf
    rw [hlines] at hlf
    cases next' with
    | line l' g' =>
      obtain ⟨-, -, hlg⟩ := hfitg
      rw [hlf] at hlg
      cases hlg
    | ended | broken | waits =>
      obtain ⟨heg, -⟩ := hfitg
      rw [hef] at heg
      cases heg
      all_goals constructor

lemma arrival (h : f.Alike g) (t i : String) : (f.arrival t i).Alike (g.arrival t i) := by
  have hnext := h.next
  unfold Feed.arrival
  generalize f.next = next at hnext
  generalize g.next = next' at hnext
  cases hnext with
  | line l hrest =>
    simp only
    split
    · exact .failed _
    · split
      · exact .notification _ hrest
      · exact .control hrest
  | ended => exact .ended
  | broken => exact .failed _
  | waits => exact .waits

/-- **Collecting** brings the same. -/
lemma collect (h : f.Alike g) (t i : String) : f.collect t i = g.collect t i := by
  have hf := collect_verdict (t := t) (i := i) f h.part.1
  have hg := collect_verdict (t := t) (i := i) g h.part.2
  rw [h.lines, h.ending] at hf
  obtain ⟨hms, hclose⟩ := hf.unique hg
  exact Prod.ext hms hclose

end Alike

end Feed

namespace Network

/-- The same comes of asking for a feed. -/
inductive Opened.Alike : Opened → Opened → Prop
  | feed {f g : Feed} (h : f.Alike g) : Alike (.feed f) (.feed g)
  | failed (e : ClientError) : Alike (.failed e) (.failed e)
  | waits : Alike .waits .waits

namespace Alike

variable {net net' : Network}

lemma openFeed (h : net.Alike net') (topicUrl : String) (options : List RequestOption) :
    (net.openFeed topicUrl options).1.Alike (net'.openFeed topicUrl options).1 ∧
      (net.openFeed topicUrl options).2.Alike (net'.openFeed topicUrl options).2 := by
  have hrequest := h.request .get (feedAddress topicUrl) options []
  unfold Network.openFeed
  generalize net.request .get (feedAddress topicUrl) options [] = x at hrequest ⊢
  generalize net'.request .get (feedAddress topicUrl) options [] = x' at hrequest ⊢
  obtain ⟨n, answer⟩ := x
  obtain ⟨n', answer'⟩ := x'
  obtain ⟨hnet, hanswer⟩ := hrequest
  simp only at hnet hanswer
  cases hanswer with
  | error e => exact ⟨hnet, .failed e⟩
  | ok status hb =>
    simp only [hb.capped, hb.ending]
    split
    · exact ⟨hnet, .feed (Feed.alike_ofBody hb)⟩
    · split
      · exact ⟨hnet.leave _, .failed _⟩
      · exact ⟨hnet, .failed _⟩
      · exact ⟨hnet, .waits⟩

/-- **Polling** returns the same. -/
lemma poll (h : net.Alike net') (topicUrl : String) (options : List RequestOption) :
    (net.poll topicUrl options).2 = (net'.poll topicUrl options).2 := by
  obtain ⟨-, hopened⟩ := h.openFeed topicUrl (options ++ [.poll])
  unfold Network.poll
  generalize net.openFeed topicUrl (options ++ [.poll]) = x at hopened ⊢
  generalize net'.openFeed topicUrl (options ++ [.poll]) = x' at hopened ⊢
  obtain ⟨n, opened⟩ := x
  obtain ⟨n', opened'⟩ := x'
  simp only at hopened
  cases hopened with
  | failed e => rfl
  | waits => rfl
  | feed hf =>
    simp only [hf.collect]
    split <;> rfl

end Alike

end Network

/-! ### Attempts move by move -/

/-- Hubs that differ at most in how their networks cut bodies. -/
structure Hub.Alike (hub hub' : Hub) : Prop where
  network : hub.network.Alike hub'.network
  queue : hub.queue = hub'.queue
  handed : hub.handed = hub'.handed

lemma Hub.Alike.received {before before' after after' : Hub} (h : before.Alike before')
    (h' : after.Alike after') : before.received after = before'.received after' := by
  rw [Hub.received, Hub.received, h.queue, h.handed, h'.queue, h'.handed]

namespace Attempt

/-- Attempts that have come equally far. -/
inductive Alike : Attempt → Attempt → Prop
  | connecting : Alike .connecting .connecting
  | awaiting {answer answer' : Opened} (h : answer.Alike answer') :
    Alike (.awaiting answer) (.awaiting answer')
  | reading {f g : Feed} (h : f.Alike g) : Alike (.reading f) (.reading g)
  | pushing {f g : Feed} (h : f.Alike g) : Alike (.pushing f) (.pushing g)
  | stalled : Alike .stalled .stalled

/-- Moves that lead equally far. -/
inductive Turn.Alike : Turn → Turn → Prop
  | goesOn {a a' : Attempt} (h : a.Alike a') : Alike (.goesOn a) (.goesOn a')
  | ended (error : Option ClientError) : Alike (.over error) (.over error)

/-- Attempts that handed over the same and have come equally far. -/
structure Passage.Alike (x y : Passage) : Prop where
  pushed : x.pushed = y.pushed
  turn : x.turn.Alike y.turn

variable {who : Listener} {ticket : Ticket} {hub hub' : Hub} {a a' : Attempt}

lemma hand_alike (hhub : hub.Alike hub') (m : Message) {f g : Feed} (h : f.Alike g) :
    (hand ticket m f hub).1.Alike (hand ticket m g hub').1 ∧
      (hand ticket m f hub).2.Alike (hand ticket m g hub').2 := by
  unfold hand
  rw [hhub.queue]
  have haccept : ∀ change, (hub.accept change).Alike (hub'.accept change) := fun change =>
    ⟨hhub.network, rfl, by rw [Hub.accept, Hub.accept, hhub.handed]⟩
  split
  · exact ⟨haccept _, .goesOn (.reading h)⟩
  · exact ⟨haccept _, .goesOn (.pushing h)⟩
  · rw [h.ending]
    exact ⟨⟨hhub.network.leave _, rfl, hhub.handed⟩, .ended _⟩

lemma read_alike (hhub : hub.Alike hub') {f g : Feed} (h : f.Alike g) :
    (read who ticket f hub).1.Alike (read who ticket g hub').1 ∧
      (read who ticket f hub).2.Alike (read who ticket g hub').2 := by
  have harrival := h.arrival who.topicUrl who.subscriptionId
  unfold read
  generalize f.arrival who.topicUrl who.subscriptionId = arrival at harrival
  generalize g.arrival who.topicUrl who.subscriptionId = arrival' at harrival
  cases harrival with
  | notification m hrest => exact hand_alike hhub m hrest
  | control hrest => exact ⟨hhub, .goesOn (.reading hrest)⟩
  | ended => exact ⟨hhub, .ended none⟩
  | failed e =>
    simp only [h.ending]
    exact ⟨⟨hhub.network.leave _, hhub.queue, hhub.handed⟩, .ended (some e)⟩
  | waits => exact ⟨hhub, .goesOn .stalled⟩

/-- **One move** of attempts that have come equally far leads them equally far. -/
lemma advance_alike (who : Listener) (ticket : Ticket) (hhub : hub.Alike hub')
    (h : a.Alike a') :
    (a.advance who ticket hub).1.Alike (a'.advance who ticket hub').1 ∧
      (a.advance who ticket hub).2.Alike (a'.advance who ticket hub').2 := by
  cases h with
  | connecting =>
    obtain ⟨hnet, hopened⟩ := hhub.network.openFeed who.topicUrl who.options
    exact ⟨⟨hnet, hhub.queue, hhub.handed⟩, .goesOn (.awaiting hopened)⟩
  | awaiting h =>
    cases h with
    | feed h => exact ⟨hhub, .goesOn (.reading h)⟩
    | failed e => exact ⟨hhub, .ended (some e)⟩
    | waits => exact ⟨hhub, .goesOn .stalled⟩
  | reading h => exact read_alike hhub h
  | pushing h => exact ⟨hhub, .goesOn (.reading h)⟩
  | stalled => exact ⟨hhub, .goesOn .stalled⟩

lemma Passage.Alike.move {x y : Passage} (h : x.Alike y) (hhub : hub.Alike hub') :
    (x.move who ticket hub).Alike (y.move who ticket hub') := by
  obtain ⟨pushed, turn⟩ := x
  obtain ⟨pushed', turn'⟩ := y
  obtain ⟨hpushed, hturn⟩ := h
  simp only at hpushed hturn
  cases hturn with
  | ended error => exact ⟨hpushed, .ended error⟩
  | goesOn ha =>
    obtain ⟨hafter, hturn⟩ := advance_alike who ticket hhub ha
    exact ⟨by simp only [Passage.move, hpushed, hhub.received hafter], hturn⟩

lemma run_alike {hubs hubs' : List Hub} (h : List.Forall₂ Hub.Alike hubs hubs') {x y : Passage}
    (hxy : x.Alike y) : Passage.Alike (hubs.foldl (Passage.move who ticket) x)
      (hubs'.foldl (Passage.move who ticket) y) := by
  induction h generalizing x y with
  | nil => exact hxy
  | cons hhub _ ih => exact ih (hxy.move hhub)

/-- **An attempt** hands over the same and comes equally far, whatever others do in between. -/
lemma passage_alike (who : Listener) (ticket : Ticket) {hubs hubs' : List Hub}
    (h : List.Forall₂ Hub.Alike hubs hubs') :
    (passage who ticket hubs).Alike (passage who ticket hubs') :=
  run_alike h ⟨rfl, .goesOn .connecting⟩

lemma Turn.Alike.over_iff {turn turn' : Turn} (h : turn.Alike turn') (error : Option ClientError) :
    turn = .over error ↔ turn' = .over error := by
  cases h with
  | goesOn => exact ⟨nofun, nofun⟩
  | ended => rfl

end Attempt

namespace Client

/-- The client on another network. -/
def on (c : Client) (network : Network) : Client := { c with hub := { c.hub with network } }

/-- **How a body is cut into chunks makes no difference.** Reading a body up to a limit gives the
first bytes up to the limit exactly if so many arrive or the body is closed; it fails exactly if the
body breaks before. On two networks that differ in nothing but the chunks of bodies, publishing and
polling return the same, and an attempt hands over the same messages and ends with the same error,
at the same move, whatever others do in between. -/
theorem chunks_irrelevant :
    (∀ (b : Body) (limit : Nat),
      (∀ bytes, b.capped limit = .read bytes ↔
        bytes = b.bytes.take limit ∧ (limit ≤ b.bytes.length ∨ b.ending = .closed)) ∧
      (b.capped limit = .broken ↔ b.bytes.length < limit ∧ b.ending = .broken) ∧
      (b.capped limit = .waits ↔ b.bytes.length < limit ∧ b.ending = .silent)) ∧
    ∀ (c : Client) (network : Network), c.hub.network.Alike network →
      (∀ topic body options,
        ((c.on network).publish topic body options).2 = (c.publish topic body options).2) ∧
      (∀ topic options, ((c.on network).poll topic options).2 = (c.poll topic options).2) ∧
      ∀ who ticket hubs hubs', List.Forall₂ Hub.Alike hubs hubs' →
        let x := Attempt.passage who ticket (c.hub :: hubs)
        let y := Attempt.passage who ticket ((c.on network).hub :: hubs')
        y.pushed = x.pushed ∧ ∀ error, y.turn = .over error ↔ x.turn = .over error := by
  refine ⟨fun b limit => ?_, fun c network h => ⟨?_, ?_, ?_⟩⟩
  · rw [b.capped_eq]
    exact ⟨fun bytes => cappedBytes_eq_read_iff, cappedBytes_eq_broken_iff,
      cappedBytes_eq_waits_iff⟩
  · intro topic body options
    unfold publish
    have hresolve : (c.on network).resolve topic = c.resolve topic := rfl
    rw [hresolve]
    rcases c.resolve topic with e | url
    · rfl
    · exact (h.publish url body options).symm
  · intro topic options
    unfold poll
    have hresolve : (c.on network).resolve topic = c.resolve topic := rfl
    rw [hresolve]
    rcases c.resolve topic with e | url
    · rfl
    · exact (h.poll url options).symm
  · intro who ticket hubs hubs' hhubs x y
    have hfirst : c.hub.Alike (c.on network).hub := ⟨h, rfl, rfl⟩
    obtain ⟨hpushed, hturn⟩ := Attempt.passage_alike who ticket (.cons hfirst hhubs)
    exact ⟨hpushed.symm, fun error => (hturn.over_iff error).symm⟩

/-- A notification that is cut inside a character and between carriage return and line feed, with an
empty chunk in between. -/
def cutBody : Body where
  chunks := [Bytes.ofString "\x7b\"event\":\"message\",\"message\":\"" ++ [0xC3], [],
    [0xBC] ++ Bytes.ofString "\"\x7d\r", [Ascii.lineFeed]]

/-- The same in one piece. -/
def wholeBody : Body where
  chunks := [Bytes.ofString "\x7b\"event\":\"message\",\"message\":\"ü\"\x7d\r\n"]

/-- A host that answers the first request with the body. -/
def hostOf (body : Body) : Network where
  isPresent _ := true
  script := .inOrder [.answer 200 body]
  beyond := .dropped

theorem chunks_irrelevant_inside_character :
    (hostOf wholeBody).Alike (hostOf cutBody) ∧
    (((new {} (hostOf wholeBody)).on (hostOf cutBody)).poll "https://h/t" []).2 =
      ((new {} (hostOf wholeBody)).poll "https://h/t" []).2 ∧
    ((new {} (hostOf wholeBody)).poll "https://h/t" []).2.map
      (fun p => p.messages.map (·.message)) = .returned ["ü"] := by
  have hbody : wholeBody.Alike cutBody := ⟨by decide +kernel, rfl⟩
  have halike : (hostOf wholeBody).Alike (hostOf cutBody) := by
    refine ⟨rfl, fun earlier path => ?_, rfl, rfl, rfl⟩
    rcases earlier with _ | ⟨_, _⟩
    · exact .answer 200 hbody
    · exact .dropped
  obtain ⟨-, hpoll, -⟩ := chunks_irrelevant.2 (new {} (hostOf wholeBody)) (hostOf cutBody) halike
  exact ⟨halike, hpoll _ _, by decide +kernel⟩

end Client

end TopicFeed
