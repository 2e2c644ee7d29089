/-!
# Named values

A list of values by name in which each name stands at most once. Setting a name forgets its
earlier value and moves it to the end, so the list is ordered by the time of the last setting.
-/

namespace TopicFeed.Request

/-- Values by name, in the order of their last setting. -/
abbrev Named := List (String × String)

namespace Named

/-- Forgets a name. -/
def erase (name : String) (values : Named) : Named := values.filter (·.1 != name)

/-- Gives a name its value, whatever it was before. -/
def set (name value : String) (values : Named) : Named := values.erase name ++ [(name, value)]

/-- The value of a name. -/
def get? (name : String) (values : Named) : Option String :=
  (values.find? (·.1 == name)).map (·.2)

/-- The names, in order. -/
def names (values : Named) : List String := values.map (·.1)

@[simp] theorem get?_nil (name : String) : get? name [] = none := rfl

theorem get?_append (name : String) (xs ys : Named) :
    get? name (xs ++ ys) = (get? name xs).or (get? name ys) := by
  simp only [get?, List.find?_append]
  cases xs.find? (·.1 == name) <;> simp

theorem get?_erase_self (name : String) (values : Named) :
    get? name (values.erase name) = none := by
  simp [get?, erase]

theorem get?_erase_of_ne {name other : String} (h : other ≠ name) (values : Named) :
    get? other (values.erase name) = get? other values := by
  unfold get? erase
  rw [List.find?_filter]
  congr 2
  funext x
  by_cases hx : x.1 = other
  · simp [hx, h]
  · simp [hx]

/-- A name reads back the value it was given last. -/
theorem get?_set_self (name value : String) (values : Named) :
    get? name (values.set name value) = some value := by
  rw [set, get?_append, get?_erase_self]
  simp [get?]

/-- Setting one name does not change what another one reads. -/
theorem get?_set_of_ne {name other : String} (h : other ≠ name) (value : String) (values : Named) :
    get? other (values.set name value) = get? other values := by
  rw [set, get?_append, get?_erase_of_ne h]
  simp [get?, Ne.symm h]

theorem names_erase (name : String) (values : Named) :
    (values.erase name).names = values.names.filter (· != name) := by
  simp only [names, erase, List.filter_map]
  rfl

theorem names_set (name value : String) (values : Named) :
    (values.set name value).names = values.names.filter (· != name) ++ [name] := by
  rw [set, names, List.map_append]
  simpa [names] using names_erase name values

/-- Each name stands once. -/
theorem nodup_names_set {values : Named} (h : values.names.Nodup) (name value : String) :
    (values.set name value).names.Nodup := by
  rw [names_set, List.nodup_append]
  refine ⟨h.filter _, by simp, ?_⟩
  intro a ha b hb
  simp only [List.mem_filter, bne_iff_ne, ne_eq] at ha
  simp only [List.mem_singleton] at hb
  exact hb ▸ ha.2

theorem nodup_names_erase {values : Named} (h : values.names.Nodup) (name : String) :
    (values.erase name).names.Nodup := by
  rw [names_erase]
  exact h.filter _

end Named

end TopicFeed.Request
