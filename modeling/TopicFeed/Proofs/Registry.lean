import Mathlib.Data.List.Nodup
import Mathlib.Data.List.Perm.Basic
import TopicFeed.Registry

/-!
The registry alone.

A registry holds each id once. It lets go of an entry by handing it out, told to stop, and keeps all
others as they are.
-/

namespace TopicFeed

namespace Registry

variable {τ : Type} {r : Registry τ} {id : SubscriptionId}

/-- The ids of the live subscriptions. -/
def ids (r : Registry τ) : List SubscriptionId := r.live.map (·.id)

lemma contains_iff_mem_ids : r.contains id = true ↔ id ∈ r.ids := by
  simp [contains, ids, List.any_eq_true]

/-- The ways to look at a registry agree. -/
structure Agrees (r : Registry τ) : Prop where
  ids : r.list.map (·.1) = r.ids
  size : r.size = r.list.length
  isEmpty : r.isEmpty = true ↔ r.list = []
  contains : ∀ id, r.contains id = true ↔ ∃ url, (id, url) ∈ r.list

lemma agrees (r : Registry τ) : r.Agrees where
  ids := by simp [list, Registry.ids]
  size := r.size_list.symm
  isEmpty := by simp [Registry.isEmpty, list]
  contains id := by simp [contains_iff]

lemma eq_of_id {s u : Subscription τ} (hids : r.ids.Nodup) (hs : s ∈ r.live) (hu : u ∈ r.live)
    (h : s.id = u.id) : s = u :=
  List.inj_on_of_nodup_map hids hs hu h

/-- What removing an id does: it hands out the entry of the id, told to stop, if there is one, and
keeps all others. -/
structure Removes (r : Registry τ) (id : SubscriptionId) : Prop where
  unknown : r.contains id = false → r.remove id = (none, r)
  known : ∀ s ∈ r.live, s.id = id → (r.remove id).1 = some s.cancel
  others : (r.remove id).2.live = r.live.filter (·.id != id)
  gone : (r.remove id).2.contains id = false

lemma remove_unknown (h : r.contains id = false) : r.remove id = (none, r) := by
  have hnone : ∀ s ∈ r.live, ¬s.id = id := by simpa [contains] using h
  have hfind : r.live.find? (·.id == id) = none := List.find?_eq_none.mpr (by simpa using hnone)
  have hfilter : r.live.filter (·.id != id) = r.live :=
    List.filter_eq_self.mpr (by simpa using hnone)
  rw [remove, hfind, hfilter]
  rfl

lemma contains_of_remove (h : (r.remove id).1 = none) : r.contains id = false := by
  have hfind := Option.map_eq_none_iff.mp h
  simpa [contains] using hfind

lemma removes (hids : r.ids.Nodup) (id : SubscriptionId) : r.Removes id where
  unknown := remove_unknown
  known := by
    rintro s hs rfl
    have hfind : r.live.find? (·.id == s.id) = some s := by
      rcases hf : r.live.find? (·.id == s.id) with _ | u
      · exact absurd (List.find?_eq_none.mp hf s hs) (by simp)
      · have hu : u.id = s.id := by simpa using List.find?_some hf
        rw [hf, eq_of_id hids (List.mem_of_find?_eq_some hf) hs hu]
    rw [remove, hfind]
    rfl
  others := rfl
  gone := by simp [remove, contains]

/-- Nothing gets lost when an entry is removed. -/
lemma perm_remove (hids : r.ids.Nodup) {s : Subscription τ} (hs : s ∈ r.live) :
    r.live.Perm (s :: (r.remove s.id).2.live) := by
  obtain ⟨before, after, hlive⟩ := List.append_of_mem hs
  have hothers : ∀ u ∈ before ++ after, u.id ≠ s.id := by
    rw [ids, hlive, List.map_append, List.map_cons, List.nodup_middle, List.nodup_cons,
      ← List.map_append] at hids
    rintro u hu hsame
    exact hids.1 (hsame ▸ List.mem_map_of_mem hu)
  have hkept : (r.remove s.id).2.live = before ++ after := by
    rw [remove, hlive, List.filter_append, List.filter_cons_of_neg (by simp), ← List.filter_append]
    exact List.filter_eq_self.mpr (by simpa using hothers)
  rw [hkept, hlive]
  exact List.perm_middle

/-- An entry that is removed is the one of the id. -/
lemma mem_of_remove {s : Subscription τ} {r' : Registry τ} (h : r.remove id = (some s, r')) :
    ∃ u ∈ r.live, u.id = id ∧ s = u.cancel ∧ r' = (r.remove u.id).2 := by
  obtain ⟨u, hu, hs⟩ := Option.map_eq_some_iff.mp (congrArg Prod.fst h)
  have hid : u.id = id := by simpa using List.find?_some hu
  refine ⟨u, List.mem_of_find?_eq_some hu, hid, hs.symm, ?_⟩
  rw [hid, h]

end Registry

end TopicFeed
