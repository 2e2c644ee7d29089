import TopicFeed.Proofs.Decode
import TopicFeed.Proofs.Feed

/-!
The lines of a feed.

Where the lines of a body are is said by its bytes alone: they are cut at every line feed. A feed
finds them one after the other, however its bytes are spread over chunks. What a feed brings then
depends on nothing but its lines and its ending: the notifications before the first line that is
none, and that line, if there is one.
-/

namespace TopicFeed

open Ascii Network Json.Grammar

namespace Feed

/-! ### Cutting bytes into lines -/

/-- A piece without one carriage return at its end. -/
def chomp (piece : Bytes) : Bytes :=
  if piece.getLast? = some carriageReturn then piece.dropLast else piece

/-- What no line feed ends counts as a line only if the body was closed, and if there is any. -/
def remainder (ending : Ending) (piece : Bytes) : List Bytes :=
  if ending = .closed ∧ piece ≠ [] then [piece] else []

/-- The lines of a text that ends in the given way. -/
def lines (ending : Ending) (s : Bytes) : List Bytes :=
  let pieces := s.splitOn lineFeed
  pieces.dropLast.map chomp ++ pieces.getLast?.toList.flatMap (remainder ending)

example : lines .closed (Bytes.ofString "a\r\n\nb\r") = ["a", "", "b\r"].map Bytes.ofString := by
  decide

variable {ending : Ending} {part rest s : Bytes}

lemma chomp_reverse (part : Bytes) : lineOf part = chomp part.reverse := by
  cases part with
  | nil => rfl
  | cons b r =>
    simp only [lineOf, chomp, List.reverse_cons, List.getLast?_concat, Option.some.injEq,
      List.dropLast_concat]

lemma lines_cut (hs : lineFeed ∉ s) (r : Bytes) :
    lines ending (s ++ lineFeed :: r) = chomp s :: lines ending r := by
  have hne : r.splitOn lineFeed ≠ [] := List.splitOn_ne_nil lineFeed r
  have hsplit : (s ++ lineFeed :: r).splitOn lineFeed = s :: r.splitOn lineFeed := by
    refine List.splitOnP_append_cons_of_forall_mem ?_ lineFeed (by simp) r
    intro b hb
    have hne : b ≠ lineFeed := fun h => hs (h ▸ hb)
    simpa using hne
  simp only [lines, hsplit]
  rw [List.dropLast_cons_of_ne_nil hne, List.map_cons, List.cons_append,
    List.getLast?_cons_of_ne_nil hne]

lemma lines_open (hs : lineFeed ∉ s) : lines ending s = remainder ending s := by
  have hsplit : s.splitOn lineFeed = [s] := by
    refine List.splitOnP_eq_singleton ?_
    intro b hb
    have hne : b ≠ lineFeed := fun h => hs (h ▸ hb)
    simpa using hne
  simp only [lines, hsplit]
  simp

/-! ### Finding lines in chunks -/

/-- All bytes that are still to come, and those of the line in progress. -/
def bytes (f : Feed) : Bytes := f.part.reverse ++ f.rest ++ f.chunks.flatten

lemma scan_none {part' : Bytes} (h : scan part rest = (part', none)) :
    lineFeed ∉ rest ∧ part' = rest.reverse ++ part := by
  induction rest generalizing part with
  | nil =>
    cases h
    exact ⟨by simp, rfl⟩
  | cons b r ih =>
    simp only [scan] at h
    split at h
    · cases h
    · next hb =>
      obtain ⟨hr, rfl⟩ := ih h
      exact ⟨by simpa using ⟨Ne.symm hb, hr⟩, by simp⟩

lemma scan_some {part' r : Bytes} (h : scan part rest = (part', some r)) :
    ∃ a, lineFeed ∉ a ∧ rest = a ++ lineFeed :: r ∧ part' = a.reverse ++ part := by
  induction rest generalizing part with
  | nil => cases h
  | cons b s ih =>
    simp only [scan] at h
    split at h
    · next hb =>
      cases h
      exact ⟨[], by simp, by rw [hb]; rfl, rfl⟩
    · next hb =>
      obtain ⟨a, ha, rfl, rfl⟩ := ih h
      exact ⟨b :: a, by simpa using ⟨Ne.symm hb, ha⟩, rfl, by simp⟩

/-- What comes next is the first line of the text, or there is none. -/
def Next.Fits (ending : Ending) (s : Bytes) : Next → Prop
  | .line l g => g.ending = ending ∧ lineFeed ∉ g.part ∧ lines ending s = l :: lines ending g.bytes
  | .ended => ending = .closed ∧ lines ending s = []
  | .broken => ending = .broken ∧ lines ending s = []
  | .waits => ending = .silent ∧ lines ending s = []

lemma fits_line {part' r : Bytes} {chunks : List Bytes} (hpart : lineFeed ∉ part)
    (h : scan part rest = (part', some r)) :
    (Next.line (lineOf part') { rest := r, chunks, ending }).Fits ending
      (part.reverse ++ rest ++ chunks.flatten) := by
  obtain ⟨a, ha, rfl, rfl⟩ := scan_some h
  have hline : lineFeed ∉ part.reverse ++ a := by simp [hpart, ha]
  refine ⟨rfl, by simp, ?_⟩
  have hcut : lines ending (part.reverse ++ a ++ lineFeed :: (r ++ chunks.flatten)) = _ :=
    lines_cut hline _
  rw [chomp_reverse]
  simpa [bytes] using hcut

/-- Bytes without a line feed, behind which nothing comes, are a line only if the body was
closed. -/
lemma fits_end (hopen : lineFeed ∉ part.reverse) :
    (match ending with
      | .closed => if part.isEmpty then .ended else .line part.reverse { ending }
      | .broken => .broken
      | .silent => .waits : Next).Fits ending part.reverse := by
  have hlines : lines ending part.reverse = remainder ending part.reverse := lines_open hopen
  rw [remainder] at hlines
  cases ending with
  | closed =>
    by_cases hnil : part = []
    · subst hnil
      exact ⟨rfl, rfl⟩
    · have hempty : ¬ part.isEmpty = true := by simpa using hnil
      have hne : part.reverse ≠ [] := by simpa using hnil
      have hnothing : lines .closed [] = [] := rfl
      rw [if_pos ⟨rfl, hne⟩] at hlines
      simp only [if_neg hempty]
      exact ⟨rfl, by simp, by simpa [bytes, hnothing] using hlines⟩
  | broken => exact ⟨rfl, by simpa using hlines⟩
  | silent => exact ⟨rfl, by simpa using hlines⟩

lemma fits_nextFrom (chunks : List Bytes) (hpart : lineFeed ∉ part) :
    (nextFrom ending part rest chunks).Fits ending (part.reverse ++ rest ++ chunks.flatten) := by
  induction chunks generalizing part rest with
  | nil =>
    rw [nextFrom]
    split
    · next h => exact fits_line hpart h
    · next part' h =>
      obtain ⟨hrest, rfl⟩ := scan_none h
      have htext : part.reverse ++ rest ++ ([] : List Bytes).flatten =
          (rest.reverse ++ part).reverse := by
        simp
      have hopen : lineFeed ∉ (rest.reverse ++ part).reverse := by simp [hpart, hrest]
      rw [htext]
      exact fits_end hopen
  | cons chunk chunks ih =>
    rw [nextFrom]
    split
    · next h => exact fits_line hpart h
    · next part' h =>
      obtain ⟨hrest, rfl⟩ := scan_none h
      have hpart' : lineFeed ∉ rest.reverse ++ part := by simp [hpart, hrest]
      have hfits : (nextFrom ending (rest.reverse ++ part) chunk chunks).Fits ending _ := ih hpart'
      simpa using hfits

/-- **The next line of a feed is the first line of its bytes.** -/
theorem fits_next (f : Feed) (hpart : lineFeed ∉ f.part) : f.next.Fits f.ending f.bytes :=
  fits_nextFrom f.chunks hpart

/-! ### Good lines and bad ones -/

/-- The line is the text of an event, and that text stays with the event. -/
def Good (topicUrl subscriptionId : String) (line : Bytes) (m : Message) : Prop :=
  line = Bytes.ofString m.raw ∧ Message.decode m.raw topicUrl subscriptionId = .ok m

/-- The line is no text, or a text that is no event; and what is wrong with it. -/
inductive Bad (topicUrl subscriptionId : String) (line : Bytes) : ClientError → Prop
  | text {f : Utf8.Fault} (hline : ∀ text, line ≠ Bytes.ofString text)
      (hf : Utf8.check? line = .error f) : Bad topicUrl subscriptionId line (.stream (.text f))
  | event {text : String} {f : Json.LineFault} (hline : line = Bytes.ofString text)
      (hf : Message.decode text topicUrl subscriptionId = .error f) :
      Bad topicUrl subscriptionId line (.decode f)

variable {t i : String} {line : Bytes} {m : Message} {e : ClientError}

lemma raw_of_decode {text : String} (h : Message.decode text t i = .ok m) : m.raw = text := by
  obtain ⟨x, -, rfl⟩ := Message.decode_eq_ok_iff.mp h
  rfl

theorem event_eq_ok_iff : event t i line = .ok m ↔ Good t i line m := by
  constructor
  · intro h
    unfold event at h
    split at h
    · cases h
    · next text htext =>
      have hline := Utf8.check?_eq_ok_iff.mp htext
      cases hd : Message.decode text t i with
      | error f => rw [hd] at h; cases h
      | ok m' =>
        rw [hd] at h
        cases h
        have hraw := raw_of_decode hd
        exact ⟨by rw [hraw]; exact hline, by rw [hraw]; exact hd⟩
  · rintro ⟨hline, hd⟩
    have htext := Utf8.check?_eq_ok_iff.mpr hline
    simp only [event, htext, hd, Except.mapError]

theorem event_eq_error_iff : event t i line = .error e ↔ Bad t i line e := by
  constructor
  · intro h
    unfold event at h
    split at h
    · next f hf =>
      cases h
      refine .text ?_ hf
      intro text hline
      rw [Utf8.check?_eq_ok_iff.mpr hline] at hf
      cases hf
    · next text htext =>
      cases hd : Message.decode text t i with
      | ok m => rw [hd] at h; cases h
      | error f =>
        rw [hd] at h
        cases h
        exact .event (Utf8.check?_eq_ok_iff.mp htext) hd
  · intro h
    cases h with
    | text _ hf => simp only [event, hf]
    | event hline hf =>
      have htext := Utf8.check?_eq_ok_iff.mpr hline
      simp only [event, htext, hf, Except.mapError]

lemma Good.not_bad (h : Good t i line m) : ¬ Bad t i line e := by
  intro hbad
  have hok := event_eq_ok_iff.mpr h
  rw [event_eq_error_iff.mpr hbad] at hok
  cases hok

lemma Good.unique {m' : Message} (h : Good t i line m) (h' : Good t i line m') : m = m' := by
  have hok := event_eq_ok_iff.mpr h
  rw [event_eq_ok_iff.mpr h'] at hok
  cases hok
  rfl

lemma text_of_blanks (h : Blanks line) : ∃ text, line = Bytes.ofString text := by
  have hbyte : ∀ b, Json.isBlank b = true → String.utf8EncodeChar (Char.ofNat b.toNat) = [b] := by
    intro b hb
    simp only [Json.isBlank, Bool.or_eq_true, beq_iff_eq] at hb
    rcases hb with ((rfl | rfl) | rfl) | rfl <;> decide
  suffices hcs : ∃ cs, line = Utf8.encode cs by
    obtain ⟨cs, hcs⟩ := hcs
    exact ⟨String.ofList cs, by rw [hcs, Utf8.ofString_ofList]⟩
  induction line with
  | nil => exact ⟨[], rfl⟩
  | cons b line ih =>
    obtain ⟨cs, hcs⟩ := ih fun b hb => h b (List.mem_cons_of_mem _ hb)
    refine ⟨Char.ofNat b.toNat :: cs, ?_⟩
    rw [Utf8.encode_cons, hbyte b (h b (by simp)), ← hcs]
    rfl

/-- A blank line is bad. -/
theorem bad_of_blanks (h : Blanks line) (t i : String) : ∃ f, Bad t i line (.decode f) := by
  obtain ⟨text, htext⟩ := text_of_blanks h
  cases hd : Message.decode text t i with
  | error f => exact ⟨f, .event htext hd⟩
  | ok m =>
    obtain ⟨x, ⟨a, v, b, -, -, hv, hline⟩, -⟩ := Message.decode_eq_ok_iff.mp hd
    obtain ⟨c, u, rfl⟩ := Json.recordValue_open hv
    have hopener : Json.isBlank (opener c) = true := h (opener c) (by simp [htext, hline])
    cases c with
    | list => exact absurd hopener (by decide)
    | object => exact absurd hopener (by decide)

/-! ### What a feed brings -/

/-- How a feed ends if all its lines are good. -/
def closeOf : Ending → Close
  | .closed => .ended
  | .broken => .failed (.stream (.body .brokenBody))
  | .silent => .waits

/-- The notifications before the first bad line, and how the feed comes to its end: with the error
of that line, or with the ending of the body if there is no bad line. -/
inductive Verdict (topicUrl subscriptionId : String) (lines : List Bytes) (ending : Ending) :
    List Message → Close → Prop
  | all {ms : List Message} (hgood : List.Forall₂ (Good topicUrl subscriptionId) lines ms) :
      Verdict topicUrl subscriptionId lines ending (ms.filter Message.isNotification)
        (closeOf ending)
  | cut {good later : List Bytes} {line : Bytes} {ms : List Message} {e : ClientError}
      (hlines : lines = good ++ line :: later)
      (hgood : List.Forall₂ (Good topicUrl subscriptionId) good ms)
      (hbad : Bad topicUrl subscriptionId line e) :
      Verdict topicUrl subscriptionId lines ending (ms.filter Message.isNotification) (.failed e)

variable {ls : List Bytes} {ms : List Message} {close : Close}

theorem verdict_nil_iff : Verdict t i [] ending ms close ↔ ms = [] ∧ close = closeOf ending := by
  constructor
  · intro h
    cases h with
    | all hgood =>
      cases hgood
      exact ⟨rfl, rfl⟩
    | cut hlines _ _ => exact absurd hlines (by simp)
  · rintro ⟨rfl, rfl⟩
    exact .all .nil

/-- A bad line ends the feed, and behind a good one it goes on. -/
theorem verdict_cons_iff :
    Verdict t i (line :: ls) ending ms close ↔
      (∃ e, Bad t i line e ∧ ms = [] ∧ close = .failed e) ∨
      ∃ m ns, Good t i line m ∧ Verdict t i ls ending ns close ∧
        ms = [m].filter Message.isNotification ++ ns := by
  constructor
  · intro h
    cases h with
    | all hgood =>
      cases hgood with
      | cons hgood hrest =>
        refine .inr ⟨_, _, hgood, .all hrest, ?_⟩
        rw [← List.filter_append]
        rfl
    | @cut good later bad ms e hlines hgood hbad =>
      cases hgood with
      | nil =>
        obtain ⟨rfl, rfl⟩ := List.cons.inj hlines
        exact .inl ⟨e, hbad, rfl, rfl⟩
      | cons hgood hrest =>
        obtain ⟨rfl, htail⟩ := List.cons.inj hlines
        refine .inr ⟨_, _, hgood, .cut htail hrest hbad, ?_⟩
        rw [← List.filter_append]
        rfl
  · rintro (⟨e, hbad, rfl, rfl⟩ | ⟨m, ns, hgood, h, rfl⟩)
    · have hfirst : line :: ls = [] ++ line :: ls := rfl
      exact .cut hfirst .nil hbad
    · cases h with
      | all hall =>
        rw [← List.filter_append]
        exact .all (.cons hgood hall)
      | cut hlines hall hbad =>
        rw [← List.filter_append]
        exact .cut (by rw [hlines]; rfl) (.cons hgood hall) hbad

lemma Bad.unique {e' : ClientError} (h : Bad t i line e) (h' : Bad t i line e') : e = e' := by
  have herror := event_eq_error_iff.mpr h
  rw [event_eq_error_iff.mpr h'] at herror
  cases herror
  rfl

/-- The lines leave no choice. -/
theorem Verdict.unique {ms' : List Message} {close' : Close} (h : Verdict t i ls ending ms close)
    (h' : Verdict t i ls ending ms' close') : ms = ms' ∧ close = close' := by
  induction ls generalizing ms ms' with
  | nil =>
    obtain ⟨rfl, rfl⟩ := verdict_nil_iff.mp h
    obtain ⟨rfl, rfl⟩ := verdict_nil_iff.mp h'
    exact ⟨rfl, rfl⟩
  | cons line ls ih =>
    rcases verdict_cons_iff.mp h with ⟨e, hbad, rfl, rfl⟩ | ⟨m, ns, hgood, hrest, rfl⟩
    · rcases verdict_cons_iff.mp h' with ⟨e', hbad', rfl, rfl⟩ | ⟨m', ns', hgood', -, -⟩
      · exact ⟨rfl, by rw [hbad.unique hbad']⟩
      · exact absurd hbad hgood'.not_bad
    · rcases verdict_cons_iff.mp h' with ⟨e', hbad', -, -⟩ | ⟨m', ns', hgood', hrest', rfl⟩
      · exact absurd hbad' hgood.not_bad
      · obtain ⟨rfl, rfl⟩ := ih hrest hrest'
        rw [hgood.unique hgood']
        exact ⟨rfl, rfl⟩

/-- A feed fails with the error of a line or of its body. -/
lemma Verdict.error (h : Verdict t i ls ending ms (.failed e)) :
    (∃ f, e = .stream f) ∨ ∃ f, e = .decode f := by
  generalize hclose : Close.failed e = close at h
  cases h with
  | all _ =>
    cases ending with
    | broken =>
      cases hclose
      exact .inl ⟨_, rfl⟩
    | closed | silent => cases hclose
  | cut _ _ hbad =>
    cases hclose
    cases hbad with
    | text _ _ => exact .inl ⟨_, rfl⟩
    | event _ _ => exact .inr ⟨_, rfl⟩

/-- A feed ends well if its body was closed and all its lines are good. -/
theorem Verdict.ended_iff (h : Verdict t i ls ending ms close) :
    close = .ended ↔ ending = .closed ∧ ∀ l ∈ ls, ∃ m, Good t i l m := by
  constructor
  · intro hclose
    cases h with
    | all hgood =>
      refine ⟨?_, forall_of_forall₂ hgood fun l _ m hl => ⟨m, hl⟩⟩
      cases ending with
      | closed => rfl
      | broken | silent => cases hclose
    | cut _ _ _ => cases hclose
  · rintro ⟨hending, hgood⟩
    cases h with
    | all _ => rw [hending]; rfl
    | @cut good later bad ms e hlines _ hbad =>
      obtain ⟨m, hm⟩ := hgood bad (by simp [hlines])
      exact absurd hbad hm.not_bad

/-- **A feed brings what its lines tell**, up to the first bad one. -/
theorem collect_verdict (f : Feed) (hpart : lineFeed ∉ f.part) :
    Verdict t i (lines f.ending f.bytes) f.ending (f.collect t i).1 (f.collect t i).2 := by
  -- a line leaves a shorter feed, whose lines are the ones behind it
  have hnext := fits_next f hpart
  induction hn : f.size using Nat.strongRecOn generalizing f with
  | ind n ih =>
    have hsize := @size_lt_of_next f
    cases hf : f.next with
    | line l g =>
      rw [hf] at hnext
      obtain ⟨hending, hgpart, hlines⟩ := hnext
      have hlt := hsize hf
      have hrest := ih g.size (hn ▸ hlt) g hgpart (fits_next g hgpart) rfl
      rw [hending] at hrest
      rw [hlines]
      cases he : event t i l with
      | error e =>
        have harrival : f.arrival t i = .failed e := by simp only [arrival, hf, he]
        rw [collect_of_failed harrival]
        exact verdict_cons_iff.mpr (.inl ⟨e, event_eq_error_iff.mp he, rfl, rfl⟩)
      | ok m =>
        have hverdict := verdict_cons_iff.mpr (.inr ⟨m, _, event_eq_ok_iff.mp he, hrest, rfl⟩)
        by_cases hm : m.isNotification = true
        · have harrival : f.arrival t i = .notification m g := by
            simp only [arrival, hf, he, if_pos hm]
          rw [collect_of_notification harrival]
          simpa [hm] using hverdict
        · have harrival : f.arrival t i = .control g := by
            simp only [arrival, hf, he, if_neg hm]
          rw [collect_of_control harrival]
          simpa [hm] using hverdict
    | ended =>
      rw [hf] at hnext
      obtain ⟨hending, hlines⟩ := hnext
      have harrival : f.arrival t i = .ended := by simp only [arrival, hf]
      rw [collect_of_ended harrival, hlines, hending]
      exact verdict_nil_iff.mpr ⟨rfl, rfl⟩
    | broken =>
      rw [hf] at hnext
      obtain ⟨hending, hlines⟩ := hnext
      have harrival : f.arrival t i = .failed (.stream (.body .brokenBody)) := by
        simp only [arrival, hf]
      rw [collect_of_failed harrival, hlines, hending]
      exact verdict_nil_iff.mpr ⟨rfl, rfl⟩
    | waits =>
      rw [hf] at hnext
      obtain ⟨hending, hlines⟩ := hnext
      have harrival : f.arrival t i = .waits := by simp only [arrival, hf]
      rw [collect_of_waits harrival, hlines, hending]
      exact verdict_nil_iff.mpr ⟨rfl, rfl⟩

/-- **A body brings what its lines tell.** -/
theorem collect_body (b : Body) (t i : String) :
    Verdict t i (lines b.ending b.bytes) b.ending ((ofBody b).collect t i).1
      ((ofBody b).collect t i).2 := by
  have hbytes : (ofBody b).bytes = b.bytes := by simp [bytes, ofBody, Body.bytes]
  have hpart : lineFeed ∉ (ofBody b).part := by simp [ofBody]
  have hverdict : Verdict t i (lines b.ending (ofBody b).bytes) b.ending _ _ :=
    collect_verdict (ofBody b) hpart
  rw [hbytes] at hverdict
  exact hverdict

/-! ### Whom a message is for -/

lemma Good.addressed (h : Good t i line m) (j : String) : Good t j line (m.addressed j) := by
  obtain ⟨hline, hd⟩ := h
  refine ⟨hline, ?_⟩
  obtain ⟨x, hx, hm⟩ := Message.decode_eq_ok_iff.mp hd
  refine Message.decode_eq_ok_iff.mpr ⟨x, hx, ?_⟩
  rw [hm]
  rfl

lemma Bad.addressed (h : Bad t i line e) (j : String) : Bad t j line e := by
  cases h with
  | text hline hf => exact .text hline hf
  | @event text f hline hf =>
    refine .event hline ?_
    unfold Message.decode at hf ⊢
    cases hr : Json.readLine Message.reader (Bytes.ofString text) with
    | error f' =>
      rw [hr] at hf
      cases hf
      rfl
    | ok x => rw [hr] at hf; cases hf

/-- The lines tell the same whoever reads them. -/
theorem Verdict.addressed (h : Verdict t i ls ending ms close) (j : String) :
    Verdict t j ls ending (ms.map (Message.addressed j)) close := by
  induction ls generalizing ms with
  | nil =>
    obtain ⟨rfl, rfl⟩ := verdict_nil_iff.mp h
    exact verdict_nil_iff.mpr ⟨rfl, rfl⟩
  | cons line ls ih =>
    rcases verdict_cons_iff.mp h with ⟨e, hbad, rfl, rfl⟩ | ⟨m, ns, hgood, hrest, rfl⟩
    · exact verdict_cons_iff.mpr (.inl ⟨e, hbad.addressed j, rfl, rfl⟩)
    · refine verdict_cons_iff.mpr (.inr ⟨_, _, hgood.addressed j, ih hrest, ?_⟩)
      have hkept : (m.addressed j).isNotification = m.isNotification := rfl
      by_cases hm : m.isNotification = true
      · simp [hkept, hm]
      · simp [hkept, hm]

lemma collect_addressed (b : Body) (t j : String) :
    (ofBody b).collect t j =
      (((ofBody b).collect t "").1.map (Message.addressed j), ((ofBody b).collect t "").2) := by
  obtain ⟨hms, hclose⟩ := (collect_body b t j).unique ((collect_body b t "").addressed j)
  exact Prod.ext hms hclose

end Feed

end TopicFeed
