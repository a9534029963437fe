import Mathlib.Logic.Function.Basic
import Mathlib.Tactic.Common

/-!
# Streams of the web client

A stream of the web client notifies its subscribers of the events of one kind of entity:
all additions, all updates, the updates of one id, or all deletions.  A subscriber is
known by its position, and a subscription that is given up leaves `doNothing` there.

The data of an event are generic in the fields that a stream only passes on.

Main result:

- Theorem `Stream.produceEvent_data`: a subscriber gets the data of the event.
-/

namespace ArtPlatform.Web

open Function (update)

inductive EventType
  | add
  | update
  | delete
deriving DecidableEq, Repr

/-- The data of an entity; the name of its project is known to the web client only. -/
structure EntityData (α : Type) where
  id : Nat
  projectId : Nat
  projectName : Option String := none
  fields : α
deriving DecidableEq, Repr

structure StreamEvent (α : Type) where
  type : EventType
  data : EntityData α
deriving DecidableEq, Repr

/-- A handler that is notified, by its number, or the one that does nothing. -/
inductive Subscriber
  | doNothing
  | handler (number : Nat)
deriving DecidableEq, Repr

variable {α : Type}

/-- A handler with the data that it is notified of. -/
abbrev Notification (α : Type) :=
  Nat × EntityData α

def Subscriber.notify (data : EntityData α) : Subscriber → List (Notification α)
  | .doNothing => []
  | .handler number => [(number, data)]

structure Stream where
  addSubscribers : List Subscriber := []
  updateSingleSubscribers : Nat → Option (List Subscriber) := fun _ => none
  updateManySubscribers : List Subscriber := []
  deleteSubscribers : List Subscriber := []

namespace Stream

/-! ## Subscriptions -/

/-- The stream with the subscriber, and the position of the subscriber. -/
def subscribeOnAdd (s : Stream) (onAdd : Subscriber) : Stream × Nat :=
  ({ s with addSubscribers := s.addSubscribers ++ [onAdd] }, s.addSubscribers.length)

def subscribeOnDelete (s : Stream) (onDelete : Subscriber) : Stream × Nat :=
  ({ s with deleteSubscribers := s.deleteSubscribers ++ [onDelete] },
    s.deleteSubscribers.length)

def subscribeOnUpdateSingle (s : Stream) (id : Nat) (handler : Subscriber) : Stream × Nat :=
  match s.updateSingleSubscribers id with
  | some handlers =>
      ({ s with updateSingleSubscribers :=
          update s.updateSingleSubscribers id (some (handlers ++ [handler])) },
        handlers.length)
  | none =>
      ({ s with updateSingleSubscribers :=
          update s.updateSingleSubscribers id (some [handler]) }, 0)

def subscribeOnUpdateMany (s : Stream) (handler : Subscriber) : Stream × Nat :=
  ({ s with updateManySubscribers := s.updateManySubscribers ++ [handler] },
    s.updateManySubscribers.length)

/-- `subscribers[index] = doNothing`.  Behind the end it makes the array longer; `forEach` passes
over the holes, as if they did nothing. -/
def assignDoNothing (subscribers : List Subscriber) (index : Nat) : List Subscriber :=
  subscribers.set index .doNothing ++
    List.replicate (index + 1 - subscribers.length) .doNothing

def unsubscribeFromAdd (s : Stream) (index : Nat) : Stream :=
  { s with addSubscribers := assignDoNothing s.addSubscribers index }

def unsubscribeFromDelete (s : Stream) (index : Nat) : Stream :=
  { s with deleteSubscribers := assignDoNothing s.deleteSubscribers index }

def unsubscribeFromUpdateMany (s : Stream) (index : Nat) : Stream :=
  { s with updateManySubscribers := assignDoNothing s.updateManySubscribers index }

def unsubscribeFromUpdateSingle (s : Stream) (id index : Nat) : Stream :=
  match s.updateSingleSubscribers id with
  | some handlers =>
      { s with updateSingleSubscribers :=
          update s.updateSingleSubscribers id (some (assignDoNothing handlers index)) }
  | none => s

/-! ## Events -/

/-- The notifications of an event, in their order. -/
def produceEvent (s : Stream) (event : StreamEvent α) : List (Notification α) :=
  match event.type with
  | .add => s.addSubscribers.flatMap (·.notify event.data)
  | .update =>
      s.updateManySubscribers.flatMap (·.notify event.data) ++
        match s.updateSingleSubscribers event.data.id with
        | none => []
        | some handlers => handlers.flatMap (·.notify event.data)
  | .delete => s.deleteSubscribers.flatMap (·.notify event.data)

theorem data_of_mem_notify {data : EntityData α} {subscribers : List Subscriber}
    {n : Notification α} (h : n ∈ subscribers.flatMap (·.notify data)) : n.2 = data := by
  obtain ⟨subscriber, -, hn⟩ := List.mem_flatMap.mp h
  cases subscriber with
  | doNothing => cases hn
  | handler number => rw [List.mem_singleton.mp hn]

/-- A subscriber gets the data of the event. -/
theorem produceEvent_data {s : Stream} {event : StreamEvent α} {n : Notification α}
    (h : n ∈ s.produceEvent event) : n.2 = event.data := by
  unfold produceEvent at h
  split at h
  · exact data_of_mem_notify h
  · rcases List.mem_append.mp h with h | h
    · exact data_of_mem_notify h
    · split at h
      · cases h
      · exact data_of_mem_notify h
  · exact data_of_mem_notify h

end Stream

end ArtPlatform.Web
