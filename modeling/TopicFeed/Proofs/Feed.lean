import Mathlib.Data.List.Basic
import TopicFeed.Feed

/-!
A feed, one arrival at a time.

Collecting a feed does what arrives next and goes on behind it. Whatever arrives as a notification
carries the context it was read in.
-/

namespace TopicFeed.Feed

variable {t s : String} {f g : Feed} {m : Message}

lemma collect_of_notification (h : f.arrival t s = .notification m g) :
    f.collect t s = (m :: (g.collect t s).1, (g.collect t s).2) := by
  rw [collect]
  split
  next m' g' h' =>
    rw [h] at h'
    cases h'
    rfl
  all_goals next h' => rw [h] at h'; cases h'

lemma collect_of_control (h : f.arrival t s = .control g) : f.collect t s = g.collect t s := by
  rw [collect]
  split
  next h' => rw [h] at h'; cases h'
  next g' h' =>
    rw [h] at h'
    cases h'
    rfl
  all_goals next h' => rw [h] at h'; cases h'

lemma collect_of_ended (h : f.arrival t s = .ended) : f.collect t s = ([], .ended) := by
  rw [collect]
  split
  case h_3 => rfl
  all_goals next h' => rw [h] at h'; cases h'

lemma collect_of_failed {e : ClientError} (h : f.arrival t s = .failed e) :
    f.collect t s = ([], .failed e) := by
  rw [collect]
  split
  case h_4 e' h' =>
    rw [h] at h'
    cases h'
    rfl
  all_goals next h' => rw [h] at h'; cases h'

lemma collect_of_waits (h : f.arrival t s = .waits) : f.collect t s = ([], .waits) := by
  rw [collect]
  split
  case h_5 => rfl
  all_goals next h' => rw [h] at h'; cases h'

/-! ### What arrives -/

lemma event_stamps {line : Bytes} (h : event t s line = .ok m) :
    m.topicUrl = t ∧ m.subscriptionId = s := by
  unfold event at h
  split at h
  · cases h
  · next text _ =>
    unfold Message.decode at h
    rcases hr : Json.readLine Message.reader (Bytes.ofString text) with e | m'
    · rw [hr] at h
      cases h
    · rw [hr] at h
      cases h
      exact ⟨rfl, rfl⟩

/-- A notification arrives on a line of its own. -/
lemma arrival_notification (h : f.arrival t s = .notification m g) :
    ∃ line, f.next = .line line g ∧ event t s line = .ok m ∧ m.isNotification = true := by
  unfold arrival at h
  split at h
  · next line rest hn =>
    split at h
    · cases h
    · next m' he =>
      split at h
      · next hm =>
        cases h
        exact ⟨line, hn, he, hm⟩
      · cases h
  all_goals cases h

/-- **A notification carries the context it was read in.** -/
theorem notification_stamps (h : f.arrival t s = .notification m g) :
    m.topicUrl = t ∧ m.subscriptionId = s := by
  obtain ⟨line, -, he, -⟩ := arrival_notification h
  exact event_stamps he

end TopicFeed.Feed
