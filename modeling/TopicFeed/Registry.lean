/-!
# The registry of subscriptions

Live subscriptions by id. An id is drawn at random and drawn again while it is taken, so an entry
is never replaced. Removing a subscription cancels it; it is handed out at most once.
-/

namespace TopicFeed

/-- The identifier of a subscription. -/
abbrev SubscriptionId := String

namespace SubscriptionId

/-- The number of characters of an identifier. -/
abbrev width : Nat := 10

/-- The identifier made from a random number: its last ten hexadecimal digits. -/
def ofRandom (n : Nat) : SubscriptionId :=
  let digits := Nat.toDigits 16 (n % Nat.pow 16 width)
  String.ofList (List.replicate (width - digits.length) '0' ++ digits)

end SubscriptionId

/-- A subscription: its topic, the task that serves it, and whether that task was told to stop. -/
structure Subscription (τ : Type) where
  id : SubscriptionId
  topicUrl : String
  task : τ
  canceled : Bool := false
  deriving DecidableEq, Repr

/-- Tells the task to stop. Doing so again changes nothing. -/
def Subscription.cancel {τ : Type} (s : Subscription τ) : Subscription τ :=
  { s with canceled := true }

/-- The live subscriptions, the latest last. -/
structure Registry (τ : Type) where
  live : List (Subscription τ) := []
  deriving Repr

namespace Registry

variable {τ : Type}

/-- The id belongs to a live subscription. -/
def contains (r : Registry τ) (id : SubscriptionId) : Bool := r.live.any (·.id == id)

/-- Registers a subscription under the first of the drawn ids that is free. The task is started
with that id, and only then. There is no result while every drawn id is taken. -/
def insert? (r : Registry τ) (drawn : List SubscriptionId) (topicUrl : String)
    (start : SubscriptionId → τ) : Option (SubscriptionId × Registry τ) :=
  (drawn.find? fun id => !r.contains id).map fun id =>
    (id, ⟨r.live ++ [{ id := id, topicUrl := topicUrl, task := start id }]⟩)

/-- Removes and cancels a subscription. An unknown id changes nothing. -/
def remove (r : Registry τ) (id : SubscriptionId) : Option (Subscription τ) × Registry τ :=
  ((r.live.find? (·.id == id)).map Subscription.cancel, ⟨r.live.filter (·.id != id)⟩)

/-- Removes and cancels all subscriptions. -/
def removeAll (r : Registry τ) : List (Subscription τ) × Registry τ :=
  (r.live.map Subscription.cancel, ⟨[]⟩)

/-- Id and topic URL of each live subscription. -/
def list (r : Registry τ) : List (SubscriptionId × String) :=
  r.live.map fun s => (s.id, s.topicUrl)

/-- The number of live subscriptions. -/
def size (r : Registry τ) : Nat := r.live.length

/-- No subscription is live. -/
def isEmpty (r : Registry τ) : Bool := r.live.isEmpty

@[simp] theorem size_list (r : Registry τ) : r.list.length = r.size := by simp [list, size]

theorem contains_iff (r : Registry τ) (id : SubscriptionId) :
    r.contains id = true ↔ id ∈ r.list.map (·.1) := by
  simp [contains, list, List.any_eq_true]

end Registry

end TopicFeed
