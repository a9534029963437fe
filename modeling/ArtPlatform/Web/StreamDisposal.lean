import ArtPlatform.Foundation.EventRun
import Mathlib.Data.List.Pairwise
import Mathlib.Tactic.Common

/-!
# Disposing a stream of the web client

The functions `requestStream` and `infinityRequestStream` connect a client of their own
and open the stream in the callback of the connection.  They return a disposer, which
looks at what exists when it is called: the stream, the subscriptions of the client and
its socket.  What happens in between comes as events: a connection attempt is settled, the
socket reports its status, the reconnection interval ticks, the server speaks to the
subscriber of the stream, or the disposer is called.

Main results:

- Theorem `Owned.step`: a live stream is always within the reach of the disposer.
- Theorem `disposal_final_iff`: when nothing happens on the stream after its disposal.
-/

namespace ArtPlatform.Web

open EventRun

inductive ConnectionKind
  | notConnected
  | connecting
  | connected
  | closed
  | error
deriving DecidableEq, Repr

/-- What a connection attempt is followed by when it succeeds. -/
inductive Attempt
  | opensStream
  | reloadsPage
deriving DecidableEq, Repr

inductive Socket
  | opened
  | closed
deriving DecidableEq, Repr

/-- The stream as the transport has it. -/
inductive TransportStream
  | unopened
  | live
  | cancelled
  | ended
deriving DecidableEq, Repr

structure ServiceResponse (α : Type) where
  serviceExecutionException : Option String := none
  responseData : α
deriving DecidableEq, Repr

/-- What can be observed of a stream: the calls of its disposer, of the callbacks, and of
`onSubscribe`, and the reload of the page. -/
inductive StreamCall (α : Type)
  | disposer
  | onSubscribe
  | onNext (data : α)
  | onComplete
  | onError (error : String)
  | reload
deriving DecidableEq, Repr

inductive StreamFunction
  | requestStream
  | infinityRequestStream
deriving DecidableEq, Repr

/-- A client of a stream.  `stream` and `subscription` say whether the variables of these
names are set, `subscriptions` whether the set of the client holds the subscription. -/
structure StreamClient (α : Type) where
  connectionStatus : ConnectionKind := .notConnected
  attempts : List Attempt := []
  rsocket : Option Socket := none
  reconnectionInterval : Bool := false
  ticking : Bool := false
  stream : Bool := false
  subscription : Bool := false
  subscriptions : Bool := false
  transport : TransportStream := .unopened
  calls : List (StreamCall α) := []
deriving DecidableEq, Repr

/-- What happens to a client; the interval reads the status of the platform's own client. -/
inductive ClientEvent (α : Type)
  | connected (attempt : Attempt)
  | failed (attempt : Attempt) (error : String)
  | status (kind : ConnectionKind)
  | tick (platformStatus : ConnectionKind)
  | next (response : ServiceResponse α)
  | complete
  | error (error : String)
  | dispose
deriving DecidableEq, Repr

variable {α : Type}

namespace StreamClient

def processConnection (s : StreamClient α) (attempt : Attempt) : StreamClient α :=
  { s with attempts := s.attempts ++ [attempt] }

def connect (s : StreamClient α) : StreamClient α :=
  if s.connectionStatus ≠ .notConnected then s else s.processConnection .opensStream

/-- The functions connect a new client. -/
def start (α : Type) : StreamClient α :=
  connect {}

def startConnectionListening (s : StreamClient α) : StreamClient α :=
  if s.reconnectionInterval then s else { s with reconnectionInterval := true, ticking := true }

/-- The stream is subscribed to, and its disposer is put into `stream`. -/
def requestStream (s : StreamClient α) : StreamClient α :=
  { s with
    transport := .live, subscription := true, subscriptions := true, stream := true
    calls := s.calls ++ [.onSubscribe] }

def connected (s : StreamClient α) (attempt : Attempt) : StreamClient α :=
  let listening := startConnectionListening
    { s with attempts := s.attempts.erase attempt, rsocket := some .opened }
  match attempt with
  | .opensStream => listening.requestStream
  | .reloadsPage => { listening with ticking := false, calls := listening.calls ++ [.reload] }

def failed (s : StreamClient α) (attempt : Attempt) (error : String) : StreamClient α :=
  let listening := startConnectionListening
    { s with attempts := s.attempts.erase attempt, connectionStatus := .error }
  { listening with calls := listening.calls ++ [.onError error] }

def tick (s : StreamClient α) : ConnectionKind → StreamClient α
  | .notConnected | .closed | .error => s.processConnection .reloadsPage
  | .connecting | .connected => s

def onResponse (s : StreamClient α) (response : ServiceResponse α) : StreamClient α :=
  match response.serviceExecutionException with
  | none => { s with calls := s.calls ++ [.onNext response.responseData] }
  | some exception => { s with calls := s.calls ++ [.onError exception] }

/-- The stream has ended; a subscription that is set is given up. -/
def terminate (s : StreamClient α) (calls : List (StreamCall α)) : StreamClient α :=
  { s with
    transport := .ended, calls := s.calls ++ calls
    subscriptions := if s.subscription then false else s.subscriptions
    subscription := false }

/-- The callback of `infinityRequestStream` does nothing. -/
def completionCalls : StreamFunction → List (StreamCall α)
  | .requestStream => [.onComplete]
  | .infinityRequestStream => []

def cancel (s : StreamClient α) : StreamClient α :=
  { s with transport := if s.transport = .live then .cancelled else s.transport }

/-- The disposer that opening the stream has returned. -/
def disposeStream (s : StreamClient α) : StreamClient α :=
  if s.subscription then { s.cancel with subscriptions := false, subscription := false } else s

def disposeRsocket (s : StreamClient α) : StreamClient α :=
  let cancelled := if s.subscriptions then s.cancel else s
  { cancelled with subscriptions := false, rsocket := s.rsocket.map fun _ => .closed }

def dispose (s : StreamClient α) : StreamClient α :=
  let called : StreamClient α := { s with calls := s.calls ++ [.disposer] }
  (if called.stream then called.disposeStream else called).disposeRsocket

/-- What an event does to a client, where it can happen. -/
def step (function : StreamFunction) (s : StreamClient α) :
    ClientEvent α → Option (StreamClient α)
  | .connected attempt => if attempt ∈ s.attempts then some (s.connected attempt) else none
  | .failed attempt error => if attempt ∈ s.attempts then some (s.failed attempt error) else none
  | .status kind => some { s with connectionStatus := kind }
  | .tick kind => if s.ticking then some (s.tick kind) else none
  | .next response => if s.transport = .unopened then none else some (s.onResponse response)
  | .complete =>
      if s.transport = .unopened then none
      else some (s.terminate (completionCalls function))
  | .error error =>
      if s.transport = .unopened then none else some (s.terminate [.onError error])
  | .dispose => some s.dispose

end StreamClient

/-- The transport speaks only to a subscriber that has neither cancelled its subscription
nor been told of the end. -/
def KeepsContract (s : StreamClient α) : ClientEvent α → Prop
  | .next _ | .complete | .error _ => s.transport = .live
  | _ => True

instance (s : StreamClient α) :
    ∀ event : ClientEvent α, Decidable (KeepsContract s event)
  | .next _ | .complete | .error _ => inferInstanceAs (Decidable (s.transport = .live))
  | .connected _ | .failed _ _ | .status _ | .tick _ | .dispose =>
      inferInstanceAs (Decidable True)

/-- `onSubscribe`, `onNext` and `onComplete` belong to the life of a stream. -/
def StreamCall.ofStream : StreamCall α → Bool
  | .onSubscribe | .onNext _ | .onComplete => true
  | .disposer | .onError _ | .reload => false

/-- Nothing happens on the stream after a call of its disposer. -/
def DisposalFinal (s : StreamClient α) : Prop :=
  s.calls.Pairwise fun earlier later => earlier = .disposer → later.ofStream = false

/-- The connection does not come about after a call of the disposer. -/
def ConnectsBefore (s : StreamClient α) (event : ClientEvent α) : Prop :=
  event = .connected .opensStream → .disposer ∉ s.calls

/-! ## What the disposer reaches -/

variable {function : StreamFunction} {s t : StreamClient α} {event : ClientEvent α}

/-- A live stream is within the reach of the disposer. -/
def Owned (s : StreamClient α) : Prop :=
  s.transport = .live → s.stream = true ∧ s.subscription = true

@[simp]
theorem startConnectionListening_transport :
    s.startConnectionListening.transport = s.transport := by
  unfold StreamClient.startConnectionListening
  split <;> rfl

@[simp]
theorem startConnectionListening_stream : s.startConnectionListening.stream = s.stream := by
  unfold StreamClient.startConnectionListening
  split <;> rfl

@[simp]
theorem startConnectionListening_subscription :
    s.startConnectionListening.subscription = s.subscription := by
  unfold StreamClient.startConnectionListening
  split <;> rfl

@[simp]
theorem startConnectionListening_calls : s.startConnectionListening.calls = s.calls := by
  unfold StreamClient.startConnectionListening
  split <;> rfl

/-- The disposer leaves no live stream that is within its reach. -/
theorem transport_dispose (h : Owned s) : s.dispose.transport ≠ .live := by
  unfold StreamClient.dispose StreamClient.disposeRsocket StreamClient.disposeStream
  by_cases hlive : s.transport = .live
  · obtain ⟨hstream, hsubscription⟩ := h hlive
    simp [hstream, hsubscription, StreamClient.cancel, hlive]
  · cases s.stream <;> cases s.subscription <;> cases s.subscriptions <;>
      simp [StreamClient.cancel, hlive]

@[simp]
theorem calls_dispose : s.dispose.calls = s.calls ++ [.disposer] := by
  unfold StreamClient.dispose StreamClient.disposeRsocket StreamClient.disposeStream
  cases s.stream <;> cases s.subscription <;> cases s.subscriptions <;> rfl

/-! ## What a step does -/

/-- The calls that an event makes. -/
def callsOf (function : StreamFunction) : ClientEvent α → List (StreamCall α)
  | .connected .opensStream => [.onSubscribe]
  | .connected .reloadsPage => [.reload]
  | .failed _ error | .error error => [.onError error]
  | .status _ | .tick _ => []
  | .next response =>
      match response.serviceExecutionException with
      | none => [.onNext response.responseData]
      | some exception => [.onError exception]
  | .complete => StreamClient.completionCalls function
  | .dispose => [.disposer]

section

attribute [local simp] callsOf

/-- An event makes one call at most. -/
theorem pairwise_callsOf (function : StreamFunction) (event : ClientEvent α)
    (R : StreamCall α → StreamCall α → Prop) : (callsOf function event).Pairwise R := by
  cases event with
  | connected attempt => cases attempt <;> simp
  | next response =>
      simp only [callsOf]
      split <;> simp
  | complete => cases function <;> simp [StreamClient.completionCalls]
  | _ => simp

theorem calls_of_step (h : s.step function event = some t) :
    t.calls = s.calls ++ callsOf function event := by
  cases event <;> simp only [StreamClient.step, Option.some.injEq, Option.ite_none_right_eq_some,
    Option.ite_none_left_eq_some] at h
  case connected attempt =>
    obtain ⟨-, rfl⟩ := h
    cases attempt <;> simp [StreamClient.connected, StreamClient.requestStream]
  case failed attempt error =>
    obtain ⟨-, rfl⟩ := h
    simp [StreamClient.failed]
  case status kind =>
    subst h
    simp
  case tick kind =>
    obtain ⟨-, rfl⟩ := h
    cases kind <;> simp [StreamClient.tick, StreamClient.processConnection]
  case next response =>
    obtain ⟨-, rfl⟩ := h
    simp only [StreamClient.onResponse, callsOf]
    split <;> rfl
  case complete =>
    obtain ⟨-, rfl⟩ := h
    rfl
  case error error =>
    obtain ⟨-, rfl⟩ := h
    rfl
  case dispose =>
    subst h
    exact calls_dispose

theorem disposer_mem_callsOf : .disposer ∈ callsOf function event ↔ event = .dispose := by
  cases event with
  | connected attempt => cases attempt <;> simp
  | next response =>
      simp only [callsOf]
      split <;> simp
  | complete => cases function <;> simp [StreamClient.completionCalls]
  | _ => simp

end

/-- What an event leaves that does not touch the stream. -/
theorem Owned.of_same (howned : Owned s) (htransport : t.transport = s.transport)
    (hstream : t.stream = s.stream) (hsubscription : t.subscription = s.subscription)
    (hlive : t.transport = .live) :
    t.stream = true ∧ t.subscription = true ∧ s.transport = .live := by
  have hbefore : s.transport = .live := htransport.symm.trans hlive
  obtain ⟨h, h'⟩ := howned hbefore
  exact ⟨hstream.trans h, hsubscription.trans h', hbefore⟩

/-- The stream becomes live by the connection only, and while it is live it stays within
the reach of the disposer. -/
theorem transport_of_step (howned : Owned s) (h : s.step function event = some t)
    (hlive : t.transport = .live) :
    t.stream = true ∧ t.subscription = true ∧
      (event ≠ .connected .opensStream → s.transport = .live) := by
  cases event <;> simp only [StreamClient.step, Option.some.injEq, Option.ite_none_right_eq_some,
    Option.ite_none_left_eq_some] at h
  case connected attempt =>
    obtain ⟨-, rfl⟩ := h
    cases attempt with
    | opensStream => exact ⟨rfl, rfl, fun hne => absurd rfl hne⟩
    | reloadsPage =>
        obtain ⟨hstream, hsubscription, hbefore⟩ :=
          howned.of_same (by simp [StreamClient.connected])
          (by simp [StreamClient.connected]) (by simp [StreamClient.connected]) hlive
        exact ⟨hstream, hsubscription, fun _ => hbefore⟩
  case failed attempt error =>
    obtain ⟨-, rfl⟩ := h
    obtain ⟨hstream, hsubscription, hbefore⟩ := howned.of_same (by simp [StreamClient.failed])
      (by simp [StreamClient.failed]) (by simp [StreamClient.failed]) hlive
    exact ⟨hstream, hsubscription, fun _ => hbefore⟩
  case status kind =>
    subst h
    obtain ⟨hstream, hsubscription⟩ := howned hlive
    exact ⟨hstream, hsubscription, fun _ => hlive⟩
  case tick kind =>
    obtain ⟨-, rfl⟩ := h
    cases kind <;>
    · obtain ⟨hstream, hsubscription⟩ := howned hlive
      exact ⟨hstream, hsubscription, fun _ => hlive⟩
  case next response =>
    obtain ⟨-, rfl⟩ := h
    unfold StreamClient.onResponse at hlive ⊢
    split at hlive <;>
    · obtain ⟨hstream, hsubscription⟩ := howned hlive
      exact ⟨hstream, hsubscription, fun _ => hlive⟩
  case complete =>
    obtain ⟨-, rfl⟩ := h
    cases hlive
  case error error =>
    obtain ⟨-, rfl⟩ := h
    cases hlive
  case dispose =>
    subst h
    exact absurd hlive (transport_dispose howned)

theorem Owned.step (howned : Owned s) (h : s.step function event = some t) : Owned t := by
  intro hlive
  obtain ⟨hstream, hsubscription, -⟩ := transport_of_step howned h hlive
  exact ⟨hstream, hsubscription⟩

/-- What a call of the stream tells of its event. -/
theorem ofStream_of_mem_callsOf {call : StreamCall α} (h : call ∈ callsOf function event)
    (hcontract : KeepsContract s event) (hcall : call.ofStream = true) :
    event = .connected .opensStream ∨ s.transport = .live := by
  cases event with
  | connected attempt =>
      cases attempt with
      | opensStream => exact .inl rfl
      | reloadsPage =>
          cases List.mem_singleton.mp h
          cases hcall
  | next response => exact .inr hcontract
  | complete => exact .inr hcontract
  | error error => exact .inr hcontract
  | failed attempt error =>
      cases List.mem_singleton.mp h
      cases hcall
  | dispose =>
      cases List.mem_singleton.mp h
      cases hcall
  | status kind => cases h
  | tick kind => cases h

/-! ## The end of a stream -/

/-- A client after whose disposal nothing has happened on the stream, nor can happen. -/
structure Disposable (s : StreamClient α) : Prop where
  owned : Owned s
  silent : .disposer ∈ s.calls → s.transport ≠ .live
  final : DisposalFinal s

theorem disposable_start (α : Type) : Disposable (StreamClient.start α) where
  owned := fun h => nomatch h
  silent := fun h => nomatch h
  final := List.Pairwise.nil

theorem Disposable.step (hs : Disposable s) (hcontract : KeepsContract s event)
    (hconnects : ConnectsBefore s event) (h : s.step function event = some t) :
    Disposable t := by
  have hcalls := calls_of_step h
  have hstays : .disposer ∈ s.calls →
      event ≠ .connected .opensStream ∧ s.transport ≠ .live :=
    fun hmem => ⟨fun hevent => hconnects hevent hmem, hs.silent hmem⟩
  refine ⟨hs.owned.step h, ?_, ?_⟩
  · intro hmem
    rw [hcalls, List.mem_append, disposer_mem_callsOf] at hmem
    rcases hmem with hmem | rfl
    · intro hlive
      obtain ⟨hevent, hsilent⟩ := hstays hmem
      exact hsilent ((transport_of_step hs.owned h hlive).2.2 hevent)
    · cases h
      exact transport_dispose hs.owned
  · unfold DisposalFinal
    rw [hcalls, List.pairwise_append]
    refine ⟨hs.final, pairwise_callsOf function event _, ?_⟩
    rintro _ hmem call hcall rfl
    obtain ⟨hevent, hsilent⟩ := hstays hmem
    by_contra hof
    rcases ofStream_of_mem_callsOf hcall hcontract (Bool.of_not_eq_false hof) with h | h
    · exact hevent h
    · exact hsilent h

/-- On a transport that keeps its contract, nothing happens on the stream after a call of
its disposer exactly if the connection does not come about after one. -/
theorem disposal_final_iff (function : StreamFunction) (events : List (ClientEvent α))
    {s : StreamClient α}
    (hrun : run (StreamClient.step function) (StreamClient.start α) events = some s)
    (hcontract : EachStep (StreamClient.step function) (StreamClient.start α) events
      KeepsContract) :
    Always (StreamClient.step function) (StreamClient.start α) events DisposalFinal ↔
      EachStep (StreamClient.step function) (StreamClient.start α) events ConnectsBefore := by
  constructor
  · rintro hfinal earlier _ t hearlier ht rfl hmem
    obtain ⟨u, later, hstep, hu, -⟩ := exists_step_of_prefix hearlier hrun ht
    have hpairs := hfinal _ u hearlier hu
    unfold DisposalFinal at hpairs
    rw [calls_of_step hstep, List.pairwise_append] at hpairs
    cases hpairs.2.2 _ hmem _ (List.mem_singleton.mpr rfl) rfl
  · intro hconnects
    have hboth : EachStep (StreamClient.step function) (StreamClient.start α) events
        fun t event => KeepsContract t event ∧ ConnectsBefore t event :=
      fun earlier event t hearlier ht =>
        ⟨hcontract earlier event t hearlier ht, hconnects earlier event t hearlier ht⟩
    refine (always_of_eachStep (disposable_start α) hboth ?_).mono fun _ h => h.final
    intro u event v hu hok hstep
    exact hu.step hok.1 hok.2 hstep

/-- A stream that is disposed after its first event. -/
theorem disposal_final_iff_connected :
    Always (StreamClient.step .requestStream) (StreamClient.start Nat)
        [.connected .opensStream, .next ⟨none, 5⟩, .dispose, .tick .error] DisposalFinal ↔
      EachStep (StreamClient.step .requestStream) (StreamClient.start Nat)
        [.connected .opensStream, .next ⟨none, 5⟩, .dispose, .tick .error] ConnectsBefore := by
  apply disposal_final_iff .requestStream _ rfl
  apply eachStep_of_check
  rfl

/-- The disposer is called before the connection has come about. -/
theorem stream_opened_after_disposal :
    ∃ s, run (StreamClient.step .requestStream) (StreamClient.start Nat)
        [.dispose, .connected .opensStream, .next ⟨none, 5⟩] = some s ∧
      s.calls = [.disposer, .onSubscribe, .onNext 5] ∧ ¬ DisposalFinal s := by
  refine ⟨_, rfl, rfl, ?_⟩
  unfold DisposalFinal
  decide

end ArtPlatform.Web
