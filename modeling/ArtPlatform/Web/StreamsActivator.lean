import ArtPlatform.Foundation.Interleaving
import ArtPlatform.Foundation.Turns
import ArtPlatform.Web.Stream

/-!
# Entity events in the web client

The activator of the streams receives the events of assemblies, load tests and modules.
It hands a delete event to the stream at once; for any other event it asks for the
project and hands the event to the stream, with the name of the project, when the answer
arrives.  Answers arrive in any order, and a failed lookup drops the event.

Main results:

- Theorem `moves_of_step`: a step of the activator is a turn at the desk of lookups.
- Theorem `events_shown_in_order`: while the lookups of an entity are answered in turn,
  its events reach the subscribers in the order of their reception; when all lookups are
  answered, only then.
- Theorem `event_after_delete`: an update that is shown after the deletion.
-/

namespace ArtPlatform.Web

open Interleaving

inductive EntityKind
  | assembly
  | loadTest
  | module
deriving DecidableEq, Repr

/-- A received event, with the number of its reception. -/
structure Reception (α : Type) where
  number : Nat
  kind : EntityKind
  event : StreamEvent α
deriving DecidableEq, Repr

/-- An event that a stream has produced: what was received, what was handed to the
stream, and whom the stream notified. -/
structure Delivery (α : Type) where
  reception : Reception α
  event : StreamEvent α
  notified : List (Notification α)
deriving DecidableEq, Repr

/-- The mounted activator with its streams.  What has been received and delivered is
recorded only: no action of the source depends on it. -/
structure Activator (α : Type) where
  mounted : Bool := true
  streams : EntityKind → Stream := fun _ => {}
  received : List (Reception α) := []
  delivered : List (Delivery α) := []

/-- A change of the subscriptions of a stream. -/
inductive Subscription
  | subscribeOnAdd (onAdd : Subscriber)
  | subscribeOnDelete (onDelete : Subscriber)
  | subscribeOnUpdateSingle (id : Nat) (handler : Subscriber)
  | subscribeOnUpdateMany (handler : Subscriber)
  | unsubscribeFromAdd (index : Nat)
  | unsubscribeFromDelete (index : Nat)
  | unsubscribeFromUpdateMany (index : Nat)
  | unsubscribeFromUpdateSingle (id index : Nat)

def Subscription.apply (s : Stream) : Subscription → Stream
  | .subscribeOnAdd onAdd => (s.subscribeOnAdd onAdd).1
  | .subscribeOnDelete onDelete => (s.subscribeOnDelete onDelete).1
  | .subscribeOnUpdateSingle id handler => (s.subscribeOnUpdateSingle id handler).1
  | .subscribeOnUpdateMany handler => (s.subscribeOnUpdateMany handler).1
  | .unsubscribeFromAdd index => s.unsubscribeFromAdd index
  | .unsubscribeFromDelete index => s.unsubscribeFromDelete index
  | .unsubscribeFromUpdateMany index => s.unsubscribeFromUpdateMany index
  | .unsubscribeFromUpdateSingle id index => s.unsubscribeFromUpdateSingle id index

/-- An event to be handled, a lookup that waits for its answer, a change of the
subscriptions, or the removal of the activator. -/
inductive UiTask (α : Type)
  | receive (kind : EntityKind) (event : StreamEvent α)
  | lookup (reception : Reception α)
  | subscription (kind : EntityKind) (change : Subscription)
  | unmount

/-- What drives a task: the event loop, the project of a lookup, or its failure. -/
inductive UiSignal
  | go
  | project (name : String)
  | failed

variable {α : Type}

/-! ## Actions -/

/-- `stream.produceEvent(event)`. -/
def Activator.deliver (s : Activator α) (reception : Reception α) (event : StreamEvent α) :
    Activator α :=
  { s with delivered := s.delivered ++
      [⟨reception, event, (s.streams reception.kind).produceEvent event⟩] }

/-- The handlers of the three kinds differ in the stream only. -/
def Activator.produceEntityEvent (kind : EntityKind) (s : Activator α)
    (event : StreamEvent α) : Activator α × List (UiTask α) :=
  let reception : Reception α := ⟨s.received.length, kind, event⟩
  let received := { s with received := s.received ++ [reception] }
  if event.type = .delete then (received.deliver reception event, [])
  else (received, [.lookup reception])

def Activator.produceAssemblyEvent (s : Activator α) :
    StreamEvent α → Activator α × List (UiTask α) :=
  s.produceEntityEvent .assembly

def Activator.produceLoadTestEvent (s : Activator α) :
    StreamEvent α → Activator α × List (UiTask α) :=
  s.produceEntityEvent .loadTest

def Activator.produceModuleEvent (s : Activator α) :
    StreamEvent α → Activator α × List (UiTask α) :=
  s.produceEntityEvent .module

/-- The event with the name of its project. -/
def StreamEvent.ofProject (event : StreamEvent α) (name : String) : StreamEvent α :=
  { event with data := { event.data with projectName := some name } }

def UiTask.step : Actions (Activator α) (UiTask α) UiSignal
  | .receive kind event, .go, s =>
      if s.mounted then
        match kind with
        | .assembly => some (s.produceAssemblyEvent event)
        | .loadTest => some (s.produceLoadTestEvent event)
        | .module => some (s.produceModuleEvent event)
      else some (s, [])
  | .lookup reception, .project name, s =>
      some (s.deliver reception (reception.event.ofProject name), [])
  | .lookup _, .failed, s => some (s, [])
  | .subscription kind change, .go, s =>
      some ({ s with streams :=
        Function.update s.streams kind (change.apply (s.streams kind)) }, [])
  | .unmount, .go, s => some ({ s with mounted := false }, [])
  | _, _, _ => none

/-! ## The desk of lookups -/

/-- A reception is about an entity of its kind, and a delete event closes it. -/
instance : Ticket (Reception α) (EntityKind × Nat) where
  number := Reception.number
  key t := (t.kind, t.event.data.id)
  closes t := t.event.type = .delete

/-- The reception of a lookup that waits for its answer. -/
def UiTask.reception? : UiTask α → Option (Reception α)
  | .lookup reception => some reception
  | _ => none

/-- The events received, those whose lookup is outstanding, and those delivered. -/
def desk (c : Config (Activator α) (UiTask α)) : Desk (Reception α) where
  received := c.shared.received
  outstanding := c.tasks.filterMap UiTask.reception?
  told := c.shared.delivered.map Delivery.reception

/-- The turn at the desk that a step is. -/
def turnOf (c : Config (Activator α) (UiTask α)) :
    Label (UiTask α) UiSignal → Turn (Reception α)
  | .act (.receive kind event) _ =>
      let reception : Reception α := ⟨c.shared.received.length, kind, event⟩
      if c.shared.mounted then
        if event.type = .delete then .close reception else .ask reception
      else .idle
  | .act (.lookup reception) (.project _) => .answer reception
  | .act (.lookup reception) .failed => .fail reception
  | _ => .idle

/-- Lookups are started by the handlers of the activator only. -/
def Called (_ : Config (Activator α) (UiTask α)) : Label (UiTask α) UiSignal → Prop
  | .call (.lookup _) => False
  | _ => True

/-- Every lookup is answered with a project. -/
def Answered (c : Config (Activator α) (UiTask α)) (l : Label (UiTask α) UiSignal) : Prop :=
  Called c l ∧ ∀ reception, turnOf c l ≠ .fail reception

/-- The lookups of an entity are answered in the order in which they were started, its
delete event arrives when none of them is outstanding and is its last event, and a lookup
fails only when a later event of the entity has arrived. -/
def InTurn (c : Config (Activator α) (UiTask α)) (l : Label (UiTask α) UiSignal) : Prop :=
  Called c l ∧ (desk c).InTurn (turnOf c l)

variable {c c' : Config (Activator α) (UiTask α)} {l : Label (UiTask α) UiSignal}
  {ls : List (Label (UiTask α) UiSignal)}

/-- What the handler of an event does, whatever the kind of the entity. -/
theorem step_receive (kind : EntityKind) (event : StreamEvent α) (s : Activator α) :
    (UiTask.receive kind event).step .go s =
      some (if s.mounted then s.produceEntityEvent kind event else (s, [])) := by
  cases kind <;> simp only [UiTask.step, Activator.produceAssemblyEvent,
    Activator.produceLoadTestEvent, Activator.produceModuleEvent] <;> split <;> rfl

/-- A task that is no lookup leaves the outstanding ones. -/
theorem outstanding_of_quiet {t : UiTask α} {others : List (UiTask α)}
    (ht : t.reception? = none) (hpool : c.tasks.Perm (t :: others)) :
    (desk c).outstanding.Perm (others.filterMap UiTask.reception?) := by
  have hperm := hpool.filterMap UiTask.reception?
  rwa [List.filterMap_cons_none ht] at hperm

/-- An event that the handler delivers is answered at once; of another one the lookup is
outstanding; and without a screen nothing happens. -/
theorem moves_receive {kind : EntityKind} {event : StreamEvent α} {ts others : List (UiTask α)}
    (hpool : c.tasks.Perm (.receive kind event :: others))
    (hact : (UiTask.receive kind event).step .go c.shared = some (c'.shared, ts))
    (htasks : c'.tasks = ts ++ others) :
    (desk c).Moves (turnOf c (.act (.receive kind event) .go)) (desk c') := by
  have hquiet := outstanding_of_quiet (by rfl) hpool
  have hafter : (desk c').outstanding =
      ts.filterMap UiTask.reception? ++ others.filterMap UiTask.reception? := by
    rw [desk, htasks, List.filterMap_append]
  rw [step_receive, Option.some.injEq] at hact
  simp only [turnOf]
  split
  · rename_i hmounted
    rw [if_pos hmounted] at hact
    unfold Activator.produceEntityEvent at hact
    split
    · rename_i hdelete
      simp only [if_pos hdelete, Prod.mk.injEq] at hact
      obtain ⟨hshared, rfl⟩ := hact
      refine ⟨⟨by simp [Ticket.closes, hdelete], rfl⟩, ?_, ?_, ?_⟩
      · simp [desk, ← hshared, Activator.deliver]
      · simp [desk, ← hshared, Activator.deliver]
      · rw [hafter]
        exact hquiet.symm
    · rename_i hdelete
      simp only [if_neg hdelete, Prod.mk.injEq] at hact
      obtain ⟨hshared, rfl⟩ := hact
      refine ⟨⟨by simp [Ticket.closes, hdelete], rfl⟩, ?_, ?_, ?_⟩
      · simp [desk, ← hshared]
      · simp [desk, ← hshared]
      · rw [hafter]
        exact hquiet.symm.cons _
  · rename_i hmounted
    simp only [if_neg hmounted, Prod.mk.injEq] at hact
    obtain ⟨hshared, rfl⟩ := hact
    refine ⟨by simp [desk, ← hshared], by simp [desk, ← hshared], ?_⟩
    rw [hafter]
    exact hquiet.symm

/-- A step of the activator is a turn at the desk of lookups. -/
theorem moves_of_step (hcalled : Called c l) (hstep : Step UiTask.step c l c') :
    (desk c).Moves (turnOf c l) (desk c') := by
  cases l with
  | call t =>
      cases hstep
      have hnone : t.reception? = none := by
        cases t with
        | lookup reception => exact hcalled.elim
        | _ => rfl
      refine ⟨rfl, rfl, ?_⟩
      simp [desk, hnone]
  | act t x =>
      obtain ⟨ts, others, hpool, hact, htasks⟩ := hstep.act_inv
      have hafter : (desk c').outstanding =
          ts.filterMap UiTask.reception? ++ others.filterMap UiTask.reception? := by
        rw [desk, htasks, List.filterMap_append]
      cases t with
      | receive kind event =>
          cases x with
          | project | failed => cases hact
          | go => exact moves_receive hpool hact htasks
      | lookup reception =>
          have hanswered : (desk c).outstanding.Perm
              (reception :: others.filterMap UiTask.reception?) :=
            hpool.filterMap UiTask.reception?
          cases x with
          | go => cases hact
          | project name =>
              obtain ⟨hshared, rfl⟩ := Prod.mk.inj (Option.some.inj hact)
              refine ⟨?_, ?_, ?_⟩
              · simp [desk, ← hshared, Activator.deliver]
              · simp [desk, ← hshared, Activator.deliver]
              · rw [hafter]
                exact hanswered
          | failed =>
              obtain ⟨hshared, rfl⟩ := Prod.mk.inj (Option.some.inj hact)
              refine ⟨by simp [desk, ← hshared], by simp [desk, ← hshared], ?_⟩
              rw [hafter]
              exact hanswered
      | subscription | unmount =>
          have hquiet := outstanding_of_quiet (by rfl) hpool
          cases x with
          | project | failed => cases hact
          | go =>
              obtain ⟨hshared, rfl⟩ := Prod.mk.inj (Option.some.inj hact)
              refine ⟨by simp [desk, ← hshared], by simp [desk, ← hshared], ?_⟩
              rw [hafter]
              exact hquiet.symm

/-! ## Runs -/

/-- A mounted activator that has received nothing. -/
def activated (streams : EntityKind → Stream) : Config (Activator α) (UiTask α) :=
  ⟨{ streams := streams }, []⟩

/-- Between two steps the desk has kept its turns. -/
theorem kept_of_run {streams : EntityKind → Stream}
    (hrun : Run UiTask.step InTurn (activated streams) ls c) : (desk c).Kept :=
  hrun.invariant (I := fun c => (desk c).Kept) Desk.kept_empty
    fun _ _ _ hkept hok hstep => hkept.moves hok.2 (moves_of_step hok.1 hstep)

theorem sound_of_run {streams : EntityKind → Stream}
    (hrun : Run UiTask.step Called (activated streams) ls c) : (desk c).Sound :=
  hrun.invariant (I := fun c => (desk c).Sound) Desk.kept_empty.toSound
    fun _ _ _ hsound hok hstep => hsound.moves (moves_of_step hok hstep)

/-- A run whose lookups are all answered keeps its turns, or overtakes an event. -/
theorem inTurn_or_overtaken {streams : EntityKind → Stream}
    (hrun : Run UiTask.step Answered (activated streams) ls c) :
    Run UiTask.step InTurn (activated streams) ls c ∨ (desk c).Overtaken := by
  induction hrun with
  | refl => exact .inl (.refl _)
  | @tail c c' ls l hbefore hstep hok ih =>
      have hmoves := moves_of_step hok.1 hstep
      rcases ih with hturns | hovertaken
      · by_cases hturn : (desk c).InTurn (turnOf c l)
        · exact .inl (hturns.tail hstep ⟨hok.1, hturn⟩)
        · have hsound := sound_of_run (hbefore.mono fun _ _ h => h.1)
          exact .inr (Desk.overtaken_of_moves hsound hok.2 hturn hmoves)
      · exact .inr (hovertaken.moves hok.2 hmoves)

/-! ## What the subscribers are shown -/

/-- The deliveries of an entity, in their order. -/
def Activator.shown (s : Activator α) (kind : EntityKind) (id : Nat) : List (Delivery α) :=
  s.delivered.filter fun d =>
    d.reception.kind = kind && d.reception.event.data.id = id

/-- The receptions of an entity, in their order. -/
def Activator.receivedOf (s : Activator α) (kind : EntityKind) (id : Nat) :
    List (Reception α) :=
  s.received.filter fun r => r.kind = kind && r.event.data.id = id

/-- The numbers of the events of an entity that a handler has been notified of. -/
def Activator.seen (s : Activator α) (kind : EntityKind) (id handler : Nat) : List Nat :=
  (s.shown kind id).flatMap fun d =>
    (d.notified.filter fun n => n.1 = handler).map fun _ => d.reception.number

/-- A delivery hands on the event that was received, with the name of a project unless it
was handed on at once, and notifies of its data. -/
def Delivery.IsFaithful (d : Delivery α) : Prop :=
  (d.event = d.reception.event ∨ ∃ name, d.event = d.reception.event.ofProject name) ∧
    ∀ n ∈ d.notified, n.2 = d.event.data

/-- The events of an entity are shown in the order in which they were received, none is
shown after its deletion, and when none of them waits for its project the last one
received is the last one shown. -/
structure ShownInOrder (c : Config (Activator α) (UiTask α)) (kind : EntityKind) (id : Nat) :
    Prop where
  received : ∀ d ∈ c.shared.shown kind id, d.reception ∈ c.shared.received
  faithful : ∀ d ∈ c.shared.shown kind id, d.IsFaithful
  ordered : (c.shared.shown kind id).Pairwise fun d d' =>
    d.reception.number < d'.reception.number
  deleted : (c.shared.shown kind id).Pairwise fun d _ => d.reception.event.type ≠ .delete
  last : (∀ reception, .lookup reception ∈ c.tasks →
      ¬ (reception.kind = kind ∧ reception.event.data.id = id)) →
    (c.shared.shown kind id).getLast?.map Delivery.reception =
      (c.shared.receivedOf kind id).getLast?
  seen : ∀ handler, (c.shared.seen kind id handler).Pairwise fun n n' => n ≤ n'

theorem isFaithful_deliver {s : Activator α} {reception : Reception α}
    {event : StreamEvent α}
    (hevent : event = reception.event ∨ ∃ name, event = reception.event.ofProject name)
    (h : ∀ d ∈ s.delivered, d.IsFaithful) :
    ∀ d ∈ (s.deliver reception event).delivered, d.IsFaithful := by
  intro d hd
  rcases List.mem_append.mp hd with hd | hd
  · exact h d hd
  · rw [List.mem_singleton.mp hd]
    exact ⟨hevent, fun n hn => Stream.produceEvent_data hn⟩

/-- Every delivery is faithful to what was received. -/
theorem isFaithful_of_run {streams : EntityKind → Stream}
    (hrun : Run UiTask.step Called (activated streams) ls c) :
    ∀ d ∈ c.shared.delivered, d.IsFaithful := by
  refine hrun.invariant (I := fun c => ∀ d ∈ c.shared.delivered, d.IsFaithful)
    (by simp [activated]) ?_
  intro c l c' h _ hstep
  cases hstep with
  | call t => exact h
  | @act t x s' ts others hpool hact =>
      cases t with
      | receive kind event =>
          cases x with
          | project | failed => cases hact
          | go =>
              rw [step_receive, Option.some.injEq] at hact
              split at hact
              · unfold Activator.produceEntityEvent at hact
                split at hact
                · obtain ⟨rfl, -⟩ := Prod.mk.inj hact
                  exact isFaithful_deliver (.inl rfl) h
                · obtain ⟨rfl, -⟩ := Prod.mk.inj hact
                  exact h
              · obtain ⟨rfl, -⟩ := Prod.mk.inj hact
                exact h
      | lookup reception =>
          cases x with
          | go => cases hact
          | project name =>
              obtain ⟨rfl, -⟩ := Prod.mk.inj (Option.some.inj hact)
              exact isFaithful_deliver (.inr ⟨name, rfl⟩) h
          | failed =>
              obtain ⟨rfl, -⟩ := Prod.mk.inj (Option.some.inj hact)
              exact h
      | subscription | unmount =>
          cases x with
          | project | failed => cases hact
          | go =>
              obtain ⟨rfl, -⟩ := Prod.mk.inj (Option.some.inj hact)
              exact h

theorem about_eq (kind : EntityKind) (id : Nat) (rs : List (Reception α)) :
    Desk.about (kind, id) rs = rs.filter fun r => r.kind = kind && r.event.data.id = id := by
  refine List.filter_congr fun r _ => ?_
  rw [← Bool.decide_and]
  exact decide_eq_decide.mpr Prod.ext_iff

theorem about_told (c : Config (Activator α) (UiTask α)) (kind : EntityKind) (id : Nat) :
    Desk.about (kind, id) (desk c).told = (c.shared.shown kind id).map Delivery.reception := by
  rw [about_eq, desk, List.filter_map]
  rfl

/-- A subscriber sees the numbers of the deliveries in their order. -/
theorem seen_pairwise {s : Activator α} {kind : EntityKind} {id : Nat}
    (h : (s.shown kind id).Pairwise fun d d' => d.reception.number < d'.reception.number)
    (handler : Nat) : (s.seen kind id handler).Pairwise fun n n' => n ≤ n' := by
  refine List.pairwise_flatMap.mpr ⟨?_, h.imp ?_⟩
  · intro d _
    rw [List.map_const', List.pairwise_replicate]
    exact .inr (Nat.le_refl _)
  · intro d d' hlt n hn n' hn'
    obtain ⟨-, -, rfl⟩ := List.mem_map.mp hn
    obtain ⟨-, -, rfl⟩ := List.mem_map.mp hn'
    exact Nat.le_of_lt hlt

/-- A lookup of the entity is among the tasks when it is outstanding at the desk. -/
theorem awaits_iff (c : Config (Activator α) (UiTask α)) (kind : EntityKind) (id : Nat) :
    (∀ r ∈ (desk c).outstanding, Ticket.key r ≠ (kind, id)) ↔
      ∀ reception, .lookup reception ∈ c.tasks →
        ¬ (reception.kind = kind ∧ reception.event.data.id = id) := by
  constructor
  · intro h reception ht hkey
    refine h reception (List.mem_filterMap.mpr ⟨_, ht, rfl⟩) ?_
    exact Prod.ext_iff.mpr hkey
  · intro h r hr hkey
    obtain ⟨t, ht, hreception⟩ := List.mem_filterMap.mp hr
    cases t with
    | lookup reception =>
        obtain rfl : reception = r := Option.some.inj hreception
        exact h _ ht (Prod.ext_iff.mp hkey)
    | _ => cases hreception

/-- What is shown is in order when the desk has told it in order. -/
theorem shownInOrder_iff {kind : EntityKind} {id : Nat}
    (hfaithful : ∀ d ∈ c.shared.delivered, d.IsFaithful) :
    ShownInOrder c kind id ↔ (desk c).TellsInOrder (kind, id) := by
  have hclosed : ∀ d : Delivery α,
      Ticket.closes d.reception = false ↔ d.reception.event.type ≠ .delete := by
    simp [Ticket.closes]
  constructor
  · rintro ⟨hreceived, -, hordered, hdeleted, hlast, -⟩
    refine ⟨?_, ?_, ?_, ?_⟩ <;> rw [about_told]
    · intro t ht
      obtain ⟨d, hd, rfl⟩ := List.mem_map.mp ht
      exact hreceived d hd
    · exact List.pairwise_map.mpr hordered
    · exact List.pairwise_map.mpr (hdeleted.imp fun h => (hclosed _).mpr h)
    · intro hidle
      rw [List.getLast?_map, about_eq]
      exact hlast ((awaits_iff c kind id).mp hidle)
  · rintro ⟨hreceived, hordered, hopen, hlast⟩
    rw [about_told] at hreceived hordered hopen hlast
    have hnumbers := List.pairwise_map.mp hordered
    refine ⟨?_, fun d hd => hfaithful d (List.mem_filter.mp hd).1, hnumbers, ?_, ?_,
      seen_pairwise hnumbers⟩
    · exact fun d hd => hreceived _ (List.mem_map_of_mem hd)
    · exact (List.pairwise_map.mp hopen).imp fun h => (hclosed _).mp h
    · intro hnone
      rw [← List.getLast?_map, hlast ((awaits_iff c kind id).mpr hnone), about_eq]
      rfl

/-- While the lookups of every entity are answered in turn, each event reaches the
subscribers in the order of its reception, none after the deletion of its entity, and the
last one received is shown last.  When every lookup is answered, a run that has shown all
entities so has answered their lookups in turn. -/
theorem events_shown_in_order (streams : EntityKind → Stream)
    (ls : List (Label (UiTask α) UiSignal)) (c : Config (Activator α) (UiTask α)) :
    (Run UiTask.step InTurn (activated streams) ls c →
      ∀ kind id, ShownInOrder c kind id) ∧
    (Run UiTask.step Answered (activated streams) ls c → c.tasks = [] →
      (∀ kind id, ShownInOrder c kind id) → Run UiTask.step InTurn (activated streams) ls c) := by
  refine ⟨?_, ?_⟩
  · intro hrun kind id
    exact (shownInOrder_iff (isFaithful_of_run (hrun.mono fun _ _ h => h.1))).mpr
      ((kept_of_run hrun).tellsInOrder (kind, id))
  · intro hrun hdone hshown
    rcases inTurn_or_overtaken hrun with hturns | hovertaken
    · exact hturns
    · have hidle : (desk c).outstanding = [] := by
        rw [desk, hdone]
        rfl
      obtain ⟨⟨kind, id⟩, hnot⟩ := hovertaken.not_tellsInOrder hidle
      have hfaithful := isFaithful_of_run (hrun.mono fun _ _ h => h.1)
      exact absurd ((shownInOrder_iff hfaithful).mp (hshown kind id)) hnot

/-! ## A module that is added and deleted -/

private def moduleEvent (type : EventType) : StreamEvent String :=
  ⟨type, { id := 5, projectId := 1, fields := "app" }⟩

private def receive (type : EventType) : Move (UiTask String) UiSignal :=
  .call (.receive .module (moduleEvent type))

/-- A list of modules that takes additions and deletions. -/
private def moduleList : EntityKind → Stream :=
  fun _ => { addSubscribers := [.handler 0], deleteSubscribers := [.handler 1] }

/-- No lookup is called, and none fails. -/
private def answersAll : Label (UiTask String) UiSignal → Bool
  | .call (.lookup _) | .act (.lookup _) .failed => false
  | _ => true

private theorem answered_of_answersAll {c : Config (Activator String) (UiTask String)}
    {l : Label (UiTask String) UiSignal} (h : answersAll l = true) : Answered c l := by
  refine ⟨?_, ?_⟩
  · unfold Called
    split
    · cases h
    · trivial
  · intro reception hfail
    unfold turnOf at hfail
    split at hfail
    · split at hfail
      · split at hfail <;> cases hfail
      · cases hfail
    · cases hfail
    · cases h
    · cases hfail

/-- The module is deleted after its project has been looked up. -/
private def patientMoves : List (Move (UiTask String) UiSignal) :=
  [receive .add, .act 0 .go, .act 0 (.project "shop"), receive .delete, .act 0 .go]

theorem events_shown_in_order_patient :
    ∃ ls, ∃ c : Config (Activator String) (UiTask String),
      Run UiTask.step Answered (activated moduleList) ls c ∧
      Run UiTask.step InTurn (activated moduleList) ls c ∧
      (c.shared.seen .module 5 0 = [0] ∧ c.shared.seen .module 5 1 = [1]) ∧
      ∀ kind id, ShownInOrder c kind id := by
  obtain ⟨ls, c, hrun, hend⟩ := exists_run_of_exec UiTask.step
    (fun c l => answersAll l && decide ((desk c).InTurn (turnOf c l)))
    (activated moduleList) patientMoves
    (fun _ c => c.tasks.isEmpty &&
      (c.shared.seen .module 5 0 = [0] && c.shared.seen .module 5 1 = [1]))
    (by decide)
  simp only [Bool.and_eq_true, decide_eq_true_eq, List.isEmpty_iff] at hend
  have hanswered : Run UiTask.step Answered (activated moduleList) ls c :=
    hrun.mono fun _ _ h => answered_of_answersAll (Bool.and_eq_true_iff.mp h).1
  have hturns : Run UiTask.step InTurn (activated moduleList) ls c :=
    hrun.mono fun _ _ h => ⟨(answered_of_answersAll (Bool.and_eq_true_iff.mp h).1).1,
      of_decide_eq_true (Bool.and_eq_true_iff.mp h).2⟩
  have hshown := (events_shown_in_order moduleList ls c).1 hturns
  exact ⟨ls, c, hanswered, (events_shown_in_order moduleList ls c).2 hanswered hend.1 hshown,
    hend.2, hshown⟩

/-- The module is deleted while its project is being looked up. -/
private def hastyMoves : List (Move (UiTask String) UiSignal) :=
  [receive .add, .act 0 .go, receive .delete, .act 0 .go, .act 0 (.project "shop")]

/-- The addition of a module is shown after its deletion. -/
theorem event_after_delete :
    ∃ ls, ∃ c : Config (Activator String) (UiTask String),
      Run UiTask.step Answered (activated moduleList) ls c ∧ c.tasks = [] ∧
      (c.shared.shown .module 5).map (fun d => d.event.type) = [.delete, .add] ∧
      ¬ ShownInOrder c .module 5 := by
  obtain ⟨ls, c, hrun, hend⟩ := exists_run_of_exec UiTask.step
    (fun _ => answersAll) (activated moduleList) hastyMoves
    (fun _ c => c.tasks.isEmpty &&
      ((c.shared.shown .module 5).map (fun d => d.event.type) = [.delete, .add] &&
        (c.shared.shown .module 5).map (fun d => d.reception.number) = [1, 0]))
    (by decide)
  simp only [Bool.and_eq_true, decide_eq_true_eq, List.isEmpty_iff] at hend
  obtain ⟨hdone, htypes, hnumbers⟩ := hend
  refine ⟨ls, c, hrun.mono fun _ _ h => answered_of_answersAll h, hdone, htypes, ?_⟩
  intro hshown
  have hordered := List.pairwise_map.mpr hshown.ordered
  rw [hnumbers] at hordered
  simp at hordered

end ArtPlatform.Web
