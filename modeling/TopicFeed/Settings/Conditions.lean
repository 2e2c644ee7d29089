/-!
# Conditions

The conditions of a subscription: values by key, in the order of the keys, each key once.
-/

namespace TopicFeed.Settings

/-- A pair stands before another one: its key does. -/
def Before (a b : String × String) : Prop := a.1 < b.1

/-- Puts a pair at the place of its key, instead of the one that has that key. -/
def insertPair (key value : String) : List (String × String) → List (String × String)
  | [] => [(key, value)]
  | p :: ps =>
    if key < p.1 then (key, value) :: p :: ps
    else if key = p.1 then (key, value) :: ps
    else p :: insertPair key value ps

theorem mem_insertPair {key value : String} {ps : List (String × String)} {p : String × String}
    (h : p ∈ insertPair key value ps) : p = (key, value) ∨ p ∈ ps := by
  induction ps with
  | nil => exact .inl (by simpa [insertPair] using h)
  | cons q qs ih =>
    unfold insertPair at h
    split at h
    · exact (List.mem_cons.1 h).imp id id
    · split at h
      · exact (List.mem_cons.1 h).imp id (List.mem_cons_of_mem _)
      · rcases List.mem_cons.1 h with rfl | h
        · exact .inr List.mem_cons_self
        · exact (ih h).imp id (List.mem_cons_of_mem _)

theorem pairwise_insertPair {key value : String} {ps : List (String × String)}
    (h : ps.Pairwise Before) : (insertPair key value ps).Pairwise Before := by
  induction ps with
  | nil => simp [insertPair]
  | cons q qs ih =>
    rw [List.pairwise_cons] at h
    unfold insertPair
    split
    · next hlt =>
      refine List.pairwise_cons.2 ⟨fun p hp => ?_, List.pairwise_cons.2 h⟩
      rcases List.mem_cons.1 hp with rfl | hp
      · exact hlt
      · exact String.lt_trans hlt (h.1 p hp)
    · next hge =>
      split
      · next heq =>
        exact List.pairwise_cons.2 ⟨fun p hp => by simpa [Before, heq] using h.1 p hp, h.2⟩
      · next hne =>
        refine List.pairwise_cons.2 ⟨fun p hp => ?_, ih h.2⟩
        rcases mem_insertPair hp with rfl | hp
        · have hle := String.not_lt.1 hge
          exact String.not_le.1 fun hle' => hne (String.le_antisymm hle' hle)
        · exact h.1 p hp

/-- Values by key. -/
structure Conditions where
  pairs : List (String × String) := []
  sorted : pairs.Pairwise Before := by exact .nil
  deriving DecidableEq

namespace Conditions

/-- No conditions. -/
def empty : Conditions := ⟨[], .nil⟩

/-- Gives a key its value, whatever it was before. -/
def insert (c : Conditions) (key value : String) : Conditions :=
  ⟨insertPair key value c.pairs, pairwise_insertPair c.sorted⟩

/-- The conditions that pairs give one after the other. -/
def ofList (pairs : List (String × String)) : Conditions :=
  pairs.foldl (fun c p => c.insert p.1 p.2) empty

end Conditions

end TopicFeed.Settings
