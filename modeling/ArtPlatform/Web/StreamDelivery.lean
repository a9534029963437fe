import ArtPlatform.Foundation.BroadcastHistory
import ArtPlatform.Web.Stream

/-!
# Deliveries of a stream

A handler that a stream notifies may itself subscribe, unsubscribe and produce events before it
returns.  `forEach` visits the positions that the array had when the loop began, and notifies who
is there when their turn comes.  A handler that throws ends the `produceEvent` that has called it.

Main results:

- Theorem `delivers_exactly_once`: what any run of a stream delivers to whom.
- Theorem `throwing_handler_ends_delivery`: a subscriber that an event does not reach.
- Theorem `run_produceEvent`: notifications of handlers that leave the stream alone.
-/

namespace ArtPlatform.Web.Stream

open Broadcast
open Function (update)

variable {α : Type}

def addEvent : String :=
  "added"

def updateEvent : String :=
  "updated"

def deleteEvent : String :=
  "deleted"

/-- An event as `produceEvent` gets it, with any text for its type. -/
structure Event (α : Type) where
  type : String
  data : EntityData α
deriving DecidableEq, Repr

/-- The arrays of subscribers. -/
inductive Channel
  | add
  | updateMany
  | updateSingle (id : Nat)
  | delete
deriving DecidableEq, Repr

/-- The loops of `produceEvent`, in their order.  An id without an array has none. -/
def Event.channels (event : Event α) : List Channel :=
  if event.type = addEvent then [.add]
  else if event.type = updateEvent then [.updateMany, .updateSingle event.data.id]
  else if event.type = deleteEvent then [.delete]
  else []

theorem nodup_channels (event : Event α) : event.channels.Nodup := by
  unfold Event.channels
  split
  · exact List.nodup_singleton _
  split
  · simp
  split
  · exact List.nodup_singleton _
  · exact List.nodup_nil

def subscribers (s : Stream) : Channel → List Subscriber
  | .add => s.addSubscribers
  | .updateMany => s.updateManySubscribers
  | .updateSingle id => (s.updateSingleSubscribers id).getD []
  | .delete => s.deleteSubscribers

def handler? : Subscriber → Option Nat
  | .doNothing => none
  | .handler number => some number

def subscribe (s : Stream) (channel : Channel) (number : Nat) : Stream × Nat :=
  match channel with
  | .add => s.subscribeOnAdd (.handler number)
  | .updateMany => s.subscribeOnUpdateMany (.handler number)
  | .updateSingle id => s.subscribeOnUpdateSingle id (.handler number)
  | .delete => s.subscribeOnDelete (.handler number)

def unsubscribe (s : Stream) (channel : Channel) (index : Nat) : Stream :=
  match channel with
  | .add => s.unsubscribeFromAdd index
  | .updateMany => s.unsubscribeFromUpdateMany index
  | .updateSingle id => s.unsubscribeFromUpdateSingle id index
  | .delete => s.unsubscribeFromDelete index

/-! ## The stream as a registry -/

section

variable (s : Stream)

theorem subscribers_updateSingle (id : Nat) (handlers : List Subscriber) :
    { s with updateSingleSubscribers :=
        update s.updateSingleSubscribers id (some handlers) : Stream }.subscribers =
      update s.subscribers (.updateSingle id) handlers := by
  funext other
  cases other with
  | updateSingle id' =>
      by_cases hid : id' = id
      · subst hid
        rw [Function.update_self]
        simp [subscribers]
      · rw [Function.update_of_ne (by simpa using hid)]
        simp [subscribers, Function.update_of_ne hid]
  | _ => rfl

theorem subscribe_number (channel : Channel) (number : Nat) :
    (s.subscribe channel number).2 = (s.subscribers channel).length := by
  cases channel with
  | updateSingle id =>
      simp only [subscribe, subscribeOnUpdateSingle, subscribers]
      cases s.updateSingleSubscribers id <;> rfl
  | _ => rfl

theorem subscribers_subscribe (channel : Channel) (number : Nat) :
    (s.subscribe channel number).1.subscribers =
      update s.subscribers channel (s.subscribers channel ++ [.handler number]) := by
  cases channel with
  | updateSingle id =>
      simp only [subscribe, subscribeOnUpdateSingle, subscribers]
      cases s.updateSingleSubscribers id with
      | none => exact subscribers_updateSingle s id _
      | some handlers => exact subscribers_updateSingle s id _
  | _ =>
      funext other
      cases other <;> rfl

/-- An id without an array has no one to be taken off. -/
theorem subscribers_unsubscribe (channel : Channel) (index : Nat) :
    (s.unsubscribe channel index).subscribers =
        update s.subscribers channel (assignDoNothing (s.subscribers channel) index) ∨
      s.subscribers channel = [] ∧ s.unsubscribe channel index = s := by
  cases channel with
  | updateSingle id =>
      simp only [unsubscribe, unsubscribeFromUpdateSingle, subscribers]
      cases s.updateSingleSubscribers id with
      | none => exact .inr ⟨rfl, rfl⟩
      | some handlers => exact .inl (subscribers_updateSingle s id _)
  | _ =>
      refine .inl ?_
      funext other
      cases other <;> rfl

def slots (channel : Channel) : List (Option Nat) :=
  (s.subscribers channel).map handler?

theorem slots_subscribe (channel : Channel) (number : Nat) :
    (s.subscribe channel number).1.slots =
      update s.slots channel (s.slots channel ++ [some number]) := by
  funext other
  rw [slots, subscribers_subscribe]
  by_cases hother : other = channel
  · subst hother
    simp [slots, handler?]
  · simp [slots, hother]

theorem slots_unsubscribe (channel : Channel) (index : Nat) :
    ∃ m, (s.unsubscribe channel index).slots =
      update s.slots channel ((s.slots channel).set index none ++ List.replicate m none) := by
  rcases s.subscribers_unsubscribe channel index with hassigned | ⟨hnone, hsame⟩
  · refine ⟨index + 1 - (s.subscribers channel).length, ?_⟩
    funext other
    rw [slots, hassigned]
    by_cases hother : other = channel
    · subst hother
      simp [slots, assignDoNothing, List.map_set, handler?]
    · simp [slots, hother]
  · refine ⟨0, ?_⟩
    have hempty : s.slots channel = [] := by rw [slots, hnone, List.map_nil]
    rw [hsame, hempty, List.set_nil, List.replicate_zero, List.append_nil, ← hempty,
      Function.update_eq_self]

end

def registry : Broadcast.Registry Stream Channel Nat where
  slots := slots
  subscribe := subscribe
  unsubscribe := unsubscribe
  number_eq s channel number := by
    rw [subscribe_number, slots, List.length_map]
  slots_subscribe := slots_subscribe
  slots_unsubscribe := slots_unsubscribe

/-! ## Runs -/

/-- The calls of a stream, by the program and by the handlers that have been notified, with the
returns of these and their exceptions. -/
abbrev Call (α : Type) :=
  Action Channel Nat (Event α)

abbrev History (α : Type) :=
  List (Mark Channel Nat (Event α))

def run (s : State Stream Channel) (calls : List (Call α)) :
    Option (State Stream Channel × History α) :=
  Transducer.run (step registry Event.channels) s calls

/-- The type of an event that the web client receives. -/
def typeName : EventType → String
  | .add => addEvent
  | .update => updateEvent
  | .delete => deleteEvent

theorem flatMap_notify (data : EntityData α) (l : List Subscriber) :
    l.flatMap (·.notify data) = (l.map handler?).reduceOption.map (·, data) := by
  induction l with
  | nil => rfl
  | cons subscriber l ih =>
      rw [List.flatMap_cons, ih]
      cases subscriber <;> rfl

theorem produceEvent_eq (s : Stream) (event : StreamEvent α) :
    s.produceEvent event =
      ((⟨typeName event.type, event.data⟩ : Event α).channels.flatMap s.subscribers).flatMap
        (·.notify event.data) := by
  obtain ⟨type, data⟩ := event
  cases type with
  | add => simp [produceEvent, Event.channels, typeName, subscribers]
  | update =>
      simp only [produceEvent]
      cases hsingle : s.updateSingleSubscribers data.id <;>
        simp [Event.channels, typeName, addEvent, updateEvent, subscribers, hsingle]
  | delete =>
      simp [produceEvent, Event.channels, typeName, addEvent, updateEvent, deleteEvent,
        subscribers]

/-- Handlers that leave the stream alone are notified as `Stream.produceEvent` says. -/
theorem run_produceEvent (s : Stream) (produced : Nat) (event : StreamEvent α) :
    ∃ m, ∃ history : History α,
      run ⟨s, produced, []⟩ (.produce ⟨typeName event.type, event.data⟩ ::
        List.replicate m .returns) = some (⟨s, produced + 1, []⟩, history) ∧
      (calls history).map (·, event.data) = s.produceEvent event := by
  obtain ⟨m, history, hrun, hcalls⟩ := exists_produce_returns registry Event.channels s produced []
    ⟨typeName event.type, event.data⟩
  refine ⟨m, history, hrun, ?_⟩
  rw [hcalls, List.flatMap_nil, List.append_nil, produceEvent_eq, List.flatMap_assoc,
    List.map_flatMap]
  exact List.flatMap_congr fun channel _ => (flatMap_notify event.data _).symm

/-- What a stream that was empty delivers, to whom, and when it has ended. -/
theorem delivers_exactly_once {calls : List (Call α)} {t : State Stream Channel}
    {history : History α} (h : run ⟨{}, 0, []⟩ calls = some (t, history)) :
    ExactlyOnce Event.channels history ∧
      (∀ x, slot t.registry.slots x = holder history x) ∧
      (∀ n ∈ numbers history, n ∈ t.stack.map Broadcast.Delivery.number ∨ .finished n ∈ history ∨
        .aborted n ∈ history) ∧
      ∃ m, ∃ last : History α, run t (List.replicate m .returns) =
        some (⟨t.registry, t.produced, []⟩, last) := by
  have hempty (channel : Channel) : registry.slots {} channel = [] := by
    cases channel <;> rfl
  obtain ⟨honce, hslots, hended⟩ := exactlyOnce_run nodup_channels hempty h
  obtain ⟨m, last, hreturns, -⟩ := exists_returns registry (Event.channels (α := α)) t.registry
    t.produced t.stack
  exact ⟨honce, hslots, hended, m, last, hreturns⟩

/-- The first of three subscribers takes off the second and brings a fourth. -/
theorem delivers_exactly_once_changed :
    let entity : EntityData Unit := { id := 1, projectId := 1, fields := () }
    let program : List (Call Unit) :=
      [.subscribe .add 1, .subscribe .add 2, .subscribe .add 3, .produce ⟨addEvent, entity⟩,
        .unsubscribe .add 1, .subscribe .add 4, .returns, .returns]
    ∃ t, ∃ history : History Unit, run ⟨{}, 0, []⟩ program = some (t, history) ∧
      calls history = [1, 3] ∧ ExactlyOnce Event.channels history := by
  intro entity program
  have hrun : run ⟨{}, 0, []⟩ program = some (_, _) := rfl
  exact ⟨_, _, hrun, rfl, (delivers_exactly_once hrun).1⟩

/-- A subscriber is not notified when one in front of it has thrown. -/
theorem throwing_handler_ends_delivery :
    ¬ ∀ (program : List (Call Unit)) (t : State Stream Channel) (history : History Unit),
      run ⟨{}, 0, []⟩ program = some (t, history) → t.stack = [] →
      ∀ before n event after, history = before ++ .produced n event :: after →
        ∀ x f, holder before x = some f → x.1 ∈ event.channels →
          .unsubscribed x ∉ after → .turn n x (some f) ∈ after := by
  intro h
  let entity : EntityData Unit := { id := 1, projectId := 1, fields := () }
  have hturn := h
    [.subscribe .add 1, .subscribe .add 2, .produce ⟨addEvent, entity⟩, .throws] _ _ rfl rfl
    [.subscribed (.add, 0) 1, .subscribed (.add, 1) 2] 0 ⟨addEvent, entity⟩
    [.turn 0 (.add, 0) (some 1), .aborted 0] rfl (.add, 1) 2 rfl (by decide) (by simp)
  simp at hturn

end ArtPlatform.Web.Stream
