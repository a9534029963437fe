import ArtPlatform.Foundation.EventRun
import Mathlib.Logic.Function.Basic

/-!
# The clients of a page

A page talks to the panel through clients: one of its own, one more for every stream that a
component requests, and one for every external platform.  A client makes an attempt to
connect; when the attempt is over a timer starts, which looks at the status of the page's
own client, and not at that of its client, and makes another attempt while that client is
down.  A client that connects again reloads the page.

Main results:

- Theorem `attempts_of_step`: what starts an attempt, and what settles it.
- Theorem `stream_of_step`: how a stream is led on.
- Theorem `calls_of_step`: callbacks are called by pending attempts and subscribed streams.
-/

namespace ArtPlatform.Web.Connection

open Function (update update_apply)
open EventRun

/-! ## Clients -/

inductive ConnectionStatus
  | notConnected
  | connecting
  | connected
  | closed
  | error
  deriving DecidableEq

/-- The cases in which the timer makes another attempt. -/
def ConnectionStatus.isDown : ConnectionStatus → Bool
  | .notConnected | .closed | .error => true
  | .connecting | .connected => false

/-- Who connects: the page itself, `requestStream` or `infinityRequestStream`, or the dialog
of an external platform. -/
inductive Purpose
  | platform
  | stream (infinity : Bool)
  | external
  deriving DecidableEq

inductive Interval
  | absent
  | ticking
  | cleared
  deriving DecidableEq

structure PlatformClient where
  purpose : Purpose
  connectionStatus : ConnectionStatus := .notConnected
  rsocket : Option Nat := none
  subscriptions : List Nat := []
  /-- The stream that the closing function of the client knows. -/
  stream : Option Nat := none
  reconnectionInterval : Interval := .absent

/-- What is to be done when an attempt succeeds: the caller's `connected`, or a reload. -/
inductive Reason
  | connect
  | reconnect
  deriving DecidableEq

structure Attempt where
  client : Nat
  reason : Reason
  pending : Bool := true
  deriving DecidableEq

structure Socket where
  client : Nat
  closed : Bool := false

inductive StreamKind
  | stream
  | infinityStream
  | chunkedRequest
  deriving DecidableEq

inductive Phase
  | requested
  | subscribed
  | ended
  | canceled
  deriving DecidableEq

structure ClientStream where
  client : Nat
  kind : StreamKind
  phase : Phase := .requested

/-- The callbacks that the requests of a client were given. -/
inductive Callback
  | connected
  | onNext
  | onComplete
  | onError
  deriving DecidableEq

/-- The clients that the page has created, the first of them its own; the attempts, sockets
and streams of all of them; the callbacks that have been called for each. -/
structure Page where
  clients : Nat → PlatformClient := fun _ => { purpose := .platform }
  clientCount : Nat := 0
  attempts : List Attempt := []
  sockets : List Socket := []
  streams : List ClientStream := []
  calls : Nat → List Callback := fun _ => []
  reloads : Nat := 0

namespace Page

variable (page : Page)

def modifyClient (c : Nat) (f : PlatformClient → PlatformClient) : Page :=
  { page with clients := update page.clients c (f (page.clients c)) }

def call (c : Nat) (callback : Callback) : Page :=
  { page with calls := update page.calls c (page.calls c ++ [callback]) }

/-! ### Attempts -/

/-- `#processConnection`, up to its promise. -/
def processConnection (c : Nat) (reason : Reason) : Page :=
  let attempt : Attempt := { client := c, reason := reason }
  { page with attempts := page.attempts ++ [attempt] }

/-- `newPlatformClient` and its `connect`. -/
def connect (purpose : Purpose) : Page :=
  let client : PlatformClient := { purpose := purpose }
  { page with
    clients := update page.clients page.clientCount client
    clientCount := page.clientCount + 1 }.processConnection page.clientCount .connect

def startConnectionListening (c : Nat) : Page :=
  page.modifyClient c fun client =>
    if client.reconnectionInterval = Interval.absent then
      { client with reconnectionInterval := .ticking }
    else client

def settle (a : Nat) (attempt : Attempt) : Page :=
  { page with attempts := page.attempts.set a { attempt with pending := false } }

def openSocket (c : Nat) : Page :=
  let socket : Socket := { client := c }
  { page with sockets := page.sockets ++ [socket] }.modifyClient c fun client =>
    { client with rsocket := some page.sockets.length }

/-- `this.#rsocket!.requestStream(payload)` with its subscriber. -/
def request (c : Nat) (kind : StreamKind) : Page :=
  let stream : ClientStream := { client := c, kind := kind }
  { page with streams := page.streams ++ [stream] }

/-- The callback of an attempt that succeeds. -/
def connected (c : Nat) : Reason → Page
  | .connect =>
      match (page.clients c).purpose with
      | .platform | .external => page.call c .connected
      | .stream infinity =>
          (page.request c (if infinity then .infinityStream else .stream)).modifyClient c
            fun client => { client with stream := some page.streams.length }
  | .reconnect =>
      { page with reloads := page.reloads + 1 }.modifyClient c fun client =>
        if client.reconnectionInterval = Interval.absent then client
        else { client with reconnectionInterval := .cleared }

def resolve (a : Nat) (attempt : Attempt) : Page :=
  (((page.settle a attempt).openSocket attempt.client).startConnectionListening
    attempt.client).connected attempt.client attempt.reason

/-- The caller's `failed` is called for every attempt, the later ones too. -/
def reject (a : Nat) (attempt : Attempt) : Page :=
  (((page.settle a attempt).modifyClient attempt.client fun client =>
    { client with connectionStatus := .error }).startConnectionListening attempt.client).call
      attempt.client .onError

/-- The function of the timer. -/
def tick (c : Nat) : Page :=
  if (page.clients 0).connectionStatus.isDown then page.processConnection c .reconnect
  else page

/-! ### Streams -/

def setPhase (k : Nat) (stream : ClientStream) (phase : Phase) : Page :=
  { page with streams := page.streams.set k { stream with phase := phase } }

/-- `this.#subscriptions.delete(subscription)`. -/
def unsubscribe (k c : Nat) : Page :=
  page.modifyClient c fun client =>
    { client with subscriptions := client.subscriptions.filter fun j => j ≠ k }

def onSubscribe (k : Nat) (stream : ClientStream) : Page :=
  (page.setPhase k stream .subscribed).modifyClient stream.client fun client =>
    { client with subscriptions := k :: client.subscriptions }

/-- A response may hold an exception.  The uploads have no `onNext`. -/
def onNext (stream : ClientStream) (failed : Bool) : Page :=
  match stream.kind with
  | .chunkedRequest => page
  | _ => page.call stream.client (if failed then .onError else .onNext)

/-- An infinite stream is requested without `onComplete`. -/
def onComplete (k : Nat) (stream : ClientStream) : Page :=
  let ended := (page.setPhase k stream .ended).unsubscribe k stream.client
  match stream.kind with
  | .infinityStream => ended
  | _ => ended.call stream.client .onComplete

def onError (k : Nat) (stream : ClientStream) : Page :=
  ((page.setPhase k stream .ended).unsubscribe k stream.client).call stream.client .onError

/-- The function that a request returns. -/
def cancel (k : Nat) (stream : ClientStream) : Page :=
  match stream.phase with
  | .subscribed => (page.setPhase k stream .canceled).unsubscribe k stream.client
  | _ => page

/-- The streams, of which those with the given numbers are canceled. -/
def canceling (ks : List Nat) : List ClientStream :=
  page.streams.mapIdx fun k stream =>
    if k ∈ ks then { stream with phase := .canceled } else stream

def cancelSubscriptions (c : Nat) : Page :=
  { page with streams := page.canceling (page.clients c).subscriptions }.modifyClient c
    fun client => { client with subscriptions := [] }

def closeRsocket (c : Nat) : Page :=
  match (page.clients c).rsocket with
  | none => page
  | some socket =>
      { page with
        sockets := page.sockets.modify socket fun s => { s with closed := true } }

def disposeRsocket (c : Nat) : Page :=
  (page.cancelSubscriptions c).closeRsocket c

/-- The function that `requestStream` returns to the component. -/
def close (c : Nat) : Page :=
  match (page.clients c).stream with
  | none => page.disposeRsocket c
  | some k =>
      match page.streams[k]? with
      | none => page.disposeRsocket c
      | some stream => (page.cancel k stream).disposeRsocket c

def disposeRsockets : Page :=
  (List.range page.clientCount).foldl disposeRsocket page

end Page

/-! ## Runs of a page -/

inductive PageEvent
  | requestStream (infinity : Bool)
  | connectExternal
  | chunkedRequest
  | resolve (attempt : Nat)
  | reject (attempt : Nat)
  | status (socket : Nat) (kind : ConnectionStatus)
  | tick (client : Nat)
  | onSubscribe (stream : Nat)
  | onNext (stream : Nat) (failed : Bool)
  | onComplete (stream : Nat)
  | onError (stream : Nat)
  | cancelRequest (stream : Nat)
  | close (client : Nat)
  | beforeUnload

namespace Page

variable (page : Page)

/-- An attempt is settled once. -/
def pending? (a : Nat) : Option Attempt :=
  page.attempts[a]?.filter fun attempt => attempt.pending

/-- A stream is subscribed first; one that has ended or was canceled is not heard of. -/
def streamIn? (phase : Phase) (k : Nat) : Option ClientStream :=
  page.streams[k]?.filter fun stream => stream.phase = phase

/-- What may happen on a page.  Its own client has no closing function. -/
def step : PageEvent → Option Page
  | .requestStream infinity => some (page.connect (.stream infinity))
  | .connectExternal => some (page.connect .external)
  | .chunkedRequest =>
      if (page.clients 0).rsocket.isSome then some (page.request 0 .chunkedRequest) else none
  | .resolve a => (page.pending? a).map (page.resolve a)
  | .reject a => (page.pending? a).map (page.reject a)
  | .status socket kind =>
      page.sockets[socket]?.map fun s =>
        page.modifyClient s.client fun client => { client with connectionStatus := kind }
  | .tick c =>
      if c < page.clientCount ∧ (page.clients c).reconnectionInterval = .ticking then
        some (page.tick c)
      else none
  | .onSubscribe k => (page.streamIn? .requested k).map (page.onSubscribe k)
  | .onNext k failed => (page.streamIn? .subscribed k).map fun s => page.onNext s failed
  | .onComplete k => (page.streamIn? .subscribed k).map (page.onComplete k)
  | .onError k => (page.streamIn? .subscribed k).map (page.onError k)
  | .cancelRequest k =>
      (page.streams[k]?.filter fun s => s.kind = .chunkedRequest).map (page.cancel k)
  | .close c =>
      if 0 < c ∧ c < page.clientCount then some (page.close c) else none
  | .beforeUnload => some page.disposeRsockets

/-- A page that has been loaded connects its client. -/
def loaded : Page :=
  connect {} .platform

end Page

/-! ## What a step does to the tables -/

namespace Page

variable {page page' : Page} {event : PageEvent} {a c k : Nat}

theorem pending?_eq_some_iff {attempt : Attempt} :
    page.pending? a = some attempt ↔
      page.attempts[a]? = some attempt ∧ attempt.pending = true := by
  simp [pending?, Option.filter_eq_some_iff]

theorem streamIn?_eq_some_iff {phase : Phase} {stream : ClientStream} :
    page.streamIn? phase k = some stream ↔
      page.streams[k]? = some stream ∧ stream.phase = phase := by
  simp [streamIn?, Option.filter_eq_some_iff]

/-- What every disposal of a single client keeps is kept by that of all. -/
theorem disposeRsockets_induction {P : Page → Prop} (h : P page)
    (hstep : ∀ (page : Page) (c : Nat), P page → P (page.disposeRsocket c)) :
    P page.disposeRsockets :=
  List.foldlRecOn (motive := P) _ disposeRsocket h fun page hpage c _ => hstep page c hpage

@[simp] theorem attempts_connected (c : Nat) (reason : Reason) :
    (page.connected c reason).attempts = page.attempts := by
  fun_cases connected page c reason <;> rfl

@[simp] theorem attempts_onNext (s : ClientStream) (failed : Bool) :
    (page.onNext s failed).attempts = page.attempts := by
  fun_cases onNext page s failed <;> rfl

@[simp] theorem attempts_onComplete (k : Nat) (s : ClientStream) :
    (page.onComplete k s).attempts = page.attempts := by
  fun_cases onComplete page k s <;> rfl

@[simp] theorem attempts_cancel (k : Nat) (s : ClientStream) :
    (page.cancel k s).attempts = page.attempts := by
  fun_cases cancel page k s <;> rfl

@[simp] theorem attempts_disposeRsocket (c : Nat) :
    (page.disposeRsocket c).attempts = page.attempts := by
  unfold disposeRsocket closeRsocket
  split <;> rfl

@[simp] theorem attempts_close (c : Nat) : (page.close c).attempts = page.attempts := by
  fun_cases close page c <;> simp

@[simp] theorem clientCount_connected (c : Nat) (reason : Reason) :
    (page.connected c reason).clientCount = page.clientCount := by
  fun_cases connected page c reason <;> rfl

@[simp] theorem clientCount_onNext (s : ClientStream) (failed : Bool) :
    (page.onNext s failed).clientCount = page.clientCount := by
  fun_cases onNext page s failed <;> rfl

@[simp] theorem clientCount_onComplete (k : Nat) (s : ClientStream) :
    (page.onComplete k s).clientCount = page.clientCount := by
  fun_cases onComplete page k s <;> rfl

@[simp] theorem clientCount_cancel (k : Nat) (s : ClientStream) :
    (page.cancel k s).clientCount = page.clientCount := by
  fun_cases cancel page k s <;> rfl

@[simp] theorem clientCount_disposeRsocket (c : Nat) :
    (page.disposeRsocket c).clientCount = page.clientCount := by
  unfold disposeRsocket closeRsocket
  split <;> rfl

@[simp] theorem clientCount_close (c : Nat) :
    (page.close c).clientCount = page.clientCount := by
  fun_cases close page c <;> simp

/-- What a step does to the attempts: it starts the attempt of a new client, starts one to
connect again, which only a timer does that finds the page's client down, or settles one. -/
inductive Attempts (page : Page) (event : PageEvent) (page' : Page) : Prop
  | connect (hcount : page'.clientCount = page.clientCount + 1)
      (h : page'.attempts =
        page.attempts ++ [{ client := page.clientCount, reason := .connect }])
  | reconnect {c : Nat} (hevent : event = .tick c) (hc : c < page.clientCount)
      (hdown : (page.clients 0).connectionStatus.isDown = true)
      (hcount : page'.clientCount = page.clientCount)
      (h : page'.attempts = page.attempts ++ [{ client := c, reason := .reconnect }])
  | settle {a : Nat} {attempt : Attempt} (hpending : page.pending? a = some attempt)
      (hcount : page'.clientCount = page.clientCount)
      (h : page'.attempts = page.attempts.set a { attempt with pending := false })
  | keep (hcount : page'.clientCount = page.clientCount)
      (h : page'.attempts = page.attempts)

theorem attempts_of_step (h : page.step event = some page') : Attempts page event page' := by
  cases event <;> simp only [step, Option.some.injEq, Option.map_eq_some_iff,
    Option.ite_none_right_eq_some] at h
  case requestStream => exact h ▸ .connect rfl rfl
  case connectExternal => exact h ▸ .connect rfl rfl
  case resolve a =>
      obtain ⟨attempt, hpending, rfl⟩ := h
      refine .settle hpending ?_ ?_
      · rw [resolve, clientCount_connected]
        rfl
      · rw [resolve, attempts_connected]
        rfl
  case reject a =>
      obtain ⟨attempt, hpending, rfl⟩ := h
      exact .settle hpending rfl rfl
  case tick c =>
      obtain ⟨⟨hc, -⟩, rfl⟩ := h
      unfold tick
      split
      · rename_i hdown
        exact .reconnect rfl hc hdown rfl rfl
      · exact .keep rfl rfl
  case beforeUnload =>
      rw [← h]
      refine disposeRsockets_induction (P := fun p => Attempts page _ p) (.keep rfl rfl) ?_
      intro p c hp
      have hcount : (p.disposeRsocket c).clientCount = p.clientCount :=
        clientCount_disposeRsocket c
      have hattempts : (p.disposeRsocket c).attempts = p.attempts := attempts_disposeRsocket c
      cases hp with
      | connect hcount' h => exact .connect (hcount.trans hcount') (hattempts.trans h)
      | reconnect hevent => cases hevent
      | settle hpending hcount' h =>
          exact .settle hpending (hcount.trans hcount') (hattempts.trans h)
      | keep hcount' h => exact .keep (hcount.trans hcount') (hattempts.trans h)
  case chunkedRequest =>
      obtain ⟨-, rfl⟩ := h
      exact .keep rfl rfl
  case close =>
      obtain ⟨-, rfl⟩ := h
      exact .keep (clientCount_close _) (attempts_close _)
  all_goals
    obtain ⟨_, -, rfl⟩ := h
    refine .keep ?_ ?_ <;>
      simp [onSubscribe, onError, modifyClient, setPhase, unsubscribe, call]

theorem clientCount_le_of_step (h : page.step event = some page') :
    page.clientCount ≤ page'.clientCount := by
  cases attempts_of_step h with
  | connect hcount => exact hcount ▸ Nat.le_succ _
  | reconnect _ _ _ hcount => exact hcount.ge
  | settle _ hcount => exact hcount.ge
  | keep hcount => exact hcount.ge

/-! ### Streams -/

theorem getElem?_canceling (ks : List Nat) (k : Nat) :
    (page.canceling ks)[k]? = page.streams[k]?.map fun s =>
      if k ∈ ks then { s with phase := .canceled } else s := by
  simp [canceling, List.getElem?_mapIdx]

@[simp] theorem streams_disposeRsocket (c : Nat) :
    (page.disposeRsocket c).streams = page.canceling (page.clients c).subscriptions := by
  unfold disposeRsocket closeRsocket
  split <;> rfl

@[simp] theorem streams_onNext (s : ClientStream) (failed : Bool) :
    (page.onNext s failed).streams = page.streams := by
  fun_cases onNext page s failed <;> rfl

@[simp] theorem streams_onComplete (k : Nat) (s : ClientStream) :
    (page.onComplete k s).streams = page.streams.set k { s with phase := .ended } := by
  fun_cases onComplete page k s <;> rfl

/-- A step leads a stream on to its subscription, from there to its end, or cancels it. -/
inductive Leads : ClientStream → ClientStream → Prop
  | same (s : ClientStream) : Leads s s
  | subscribed {s : ClientStream} (h : s.phase = .requested) :
      Leads s { s with phase := .subscribed }
  | ended {s : ClientStream} (h : s.phase = .subscribed) : Leads s { s with phase := .ended }
  | canceled (s : ClientStream) : Leads s { s with phase := .canceled }

/-- The streams of a page are those of another, some of them canceled. -/
def Cancels (page page' : Page) : Prop :=
  ∀ (k : Nat) (s' : ClientStream), page'.streams[k]? = some s' →
    ∃ s : ClientStream,
      page.streams[k]? = some s ∧ (s' = s ∨ s' = { s with phase := .canceled })

theorem Cancels.refl (page : Page) : Cancels page page :=
  fun _ s hs => ⟨s, hs, .inl rfl⟩

theorem Cancels.trans {page'' : Page} (h : Cancels page page') (h' : Cancels page' page'') :
    Cancels page page'' := by
  intro k s'' hs''
  obtain ⟨s', hs', hlast⟩ := h' k s'' hs''
  obtain ⟨s, hs, hfirst⟩ := h k s' hs'
  refine ⟨s, hs, ?_⟩
  rcases hlast with rfl | rfl
  · exact hfirst
  · rcases hfirst with rfl | rfl
    · exact .inr rfl
    · exact .inr rfl

theorem cancels_disposeRsocket (page : Page) (c : Nat) : Cancels page (page.disposeRsocket c) := by
  intro k s' hs'
  rw [streams_disposeRsocket, getElem?_canceling, Option.map_eq_some_iff] at hs'
  obtain ⟨s, hs, rfl⟩ := hs'
  refine ⟨s, hs, ?_⟩
  split
  · exact .inr rfl
  · exact .inl rfl

theorem cancels_disposeRsockets (page : Page) : Cancels page page.disposeRsockets :=
  disposeRsockets_induction (Cancels.refl page) fun page c ih =>
    ih.trans (cancels_disposeRsocket page c)

theorem getElem?_set_cases {α : Type} {l : List α} {j : Nat} {x y : α}
    (h : (l.set k x)[j]? = some y) : j = k ∧ y = x ∨ j ≠ k ∧ l[j]? = some y := by
  rw [List.getElem?_set] at h
  split at h
  · rename_i hj
    split at h
    · exact .inl ⟨hj.symm, (Option.some.inj h).symm⟩
    · cases h
  · rename_i hj
    exact .inr ⟨fun heq => hj heq.symm, h⟩

theorem cancels_cancel {s : ClientStream} (hs : page.streams[k]? = some s) :
    Cancels page (page.cancel k s) := by
  unfold cancel
  split
  · intro j s' hs'
    rcases getElem?_set_cases hs' with ⟨rfl, rfl⟩ | ⟨-, hother⟩
    · exact ⟨s, hs, .inr rfl⟩
    · exact ⟨s', hother, .inl rfl⟩
  · exact .refl page

theorem cancels_close (page : Page) (c : Nat) : Cancels page (page.close c) := by
  fun_cases close page c
  · exact cancels_disposeRsocket page c
  · exact cancels_disposeRsocket page c
  · rename_i hs
    exact (cancels_cancel hs).trans (cancels_disposeRsocket _ c)

theorem Cancels.leads {s' : ClientStream} (h : Cancels page page')
    (hs : page'.streams[k]? = some s') :
    ∃ s, page.streams[k]? = some s ∧ Leads s s' := by
  obtain ⟨s, hold, rfl | rfl⟩ := h k s' hs
  · exact ⟨s', hold, .same s'⟩
  · exact ⟨s, hold, .canceled s⟩

/-- A stream under a number after a step: one that was there has been led on, or it is a new
one of the page's client or of a client whose attempt was pending. -/
theorem stream_of_step {s' : ClientStream} (h : page.step event = some page')
    (hs : page'.streams[k]? = some s') :
    (∃ s, page.streams[k]? = some s ∧ Leads s s') ∨
      s'.phase = .requested ∧ page.streams.length ≤ k ∧
        (s'.client = 0 ∨
          ∃ a attempt, page.pending? a = some attempt ∧ attempt.client = s'.client) := by
  have hsame : page'.streams = page.streams → ∃ s, page.streams[k]? = some s ∧ Leads s s' :=
    fun heq => ⟨s', heq ▸ hs, .same s'⟩
  have happend : ∀ t : ClientStream, page'.streams = page.streams ++ [t] →
      (∃ s, page.streams[k]? = some s ∧ Leads s s') ∨ page.streams.length ≤ k ∧ s' = t := by
    intro t heq
    rw [heq] at hs
    by_cases hk : k < page.streams.length
    · rw [List.getElem?_append_left hk] at hs
      exact .inl ⟨s', hs, .same s'⟩
    · rw [List.getElem?_append_right (Nat.le_of_not_lt hk)] at hs
      exact .inr ⟨Nat.le_of_not_lt hk, by simpa using List.mem_of_getElem? hs⟩
  have hset : ∀ j t phase, page.streams[j]? = some t →
      page'.streams = page.streams.set j { t with phase := phase } →
      Leads t { t with phase := phase } → ∃ s, page.streams[k]? = some s ∧ Leads s s' := by
    intro j t phase ht heq hleads
    rw [heq] at hs
    rcases getElem?_set_cases hs with ⟨rfl, rfl⟩ | ⟨-, hother⟩
    · exact ⟨t, ht, hleads⟩
    · exact ⟨s', hother, .same s'⟩
  cases event <;> simp only [step, Option.some.injEq, Option.map_eq_some_iff,
    Option.ite_none_right_eq_some, streamIn?_eq_some_iff, Option.filter_eq_some_iff] at h
  case requestStream => exact .inl (hsame (h ▸ rfl))
  case connectExternal => exact .inl (hsame (h ▸ rfl))
  case chunkedRequest =>
      obtain ⟨-, rfl⟩ := h
      rcases happend _ rfl with hold | ⟨hk, rfl⟩
      · exact .inl hold
      · exact .inr ⟨rfl, hk, .inl rfl⟩
  case resolve a =>
      obtain ⟨attempt, hpending, rfl⟩ := h
      have hconnected : (page.resolve a attempt).streams = page.streams ∨
          ∃ kind, (page.resolve a attempt).streams =
            page.streams ++ [{ client := attempt.client, kind := kind }] := by
        unfold resolve connected
        split
        · split
          · exact .inl rfl
          · exact .inl rfl
          · exact .inr ⟨_, rfl⟩
        · exact .inl rfl
      rcases hconnected with hstreams | ⟨kind, hstreams⟩
      · exact .inl (hsame hstreams)
      · rcases happend _ hstreams with hold | ⟨hk, rfl⟩
        · exact .inl hold
        · exact .inr ⟨rfl, hk, .inr ⟨a, attempt, hpending, rfl⟩⟩
  case reject a =>
      obtain ⟨attempt, -, rfl⟩ := h
      exact .inl (hsame rfl)
  case status =>
      obtain ⟨_, -, rfl⟩ := h
      exact .inl (hsame rfl)
  case tick =>
      obtain ⟨-, rfl⟩ := h
      unfold tick at hsame
      split at hsame
      · exact .inl (hsame rfl)
      · exact .inl (hsame rfl)
  case onSubscribe j =>
      obtain ⟨t, ⟨ht, hphase⟩, rfl⟩ := h
      exact .inl (hset j t _ ht rfl (.subscribed hphase))
  case onNext =>
      obtain ⟨t, -, rfl⟩ := h
      exact .inl (hsame (streams_onNext t _))
  case onComplete j =>
      obtain ⟨t, ⟨ht, hphase⟩, rfl⟩ := h
      exact .inl (hset j t _ ht (streams_onComplete j t) (.ended hphase))
  case onError j =>
      obtain ⟨t, ⟨ht, hphase⟩, rfl⟩ := h
      exact .inl (hset j t _ ht rfl (.ended hphase))
  case cancelRequest j =>
      obtain ⟨t, ⟨ht, -⟩, rfl⟩ := h
      exact .inl ((cancels_cancel ht).leads hs)
  case close c =>
      obtain ⟨-, rfl⟩ := h
      exact .inl ((cancels_close page c).leads hs)
  case beforeUnload => exact .inl ((h ▸ cancels_disposeRsockets page).leads hs)

/-! ### Callbacks -/

@[simp] theorem calls_disposeRsocket (c : Nat) :
    (page.disposeRsocket c).calls = page.calls := by
  unfold disposeRsocket closeRsocket
  split <;> rfl

@[simp] theorem calls_cancel (k : Nat) (s : ClientStream) :
    (page.cancel k s).calls = page.calls := by
  fun_cases cancel page k s <;> rfl

@[simp] theorem calls_close (c : Nat) : (page.close c).calls = page.calls := by
  fun_cases close page c <;> simp

theorem calls_call_of_ne (page : Page) {c d : Nat} (callback : Callback) (h : c ≠ d) :
    (page.call d callback).calls c = page.calls c :=
  Function.update_of_ne h _ _

/-- Callbacks are called by a pending attempt of the client or by one of its subscribed
streams. -/
theorem calls_of_step (h : page.step event = some page')
    (hattempts : ∀ a attempt, page.pending? a = some attempt → attempt.client ≠ c)
    (hstreams : ∀ k s, page.streamIn? .subscribed k = some s → s.client ≠ c) :
    page'.calls c = page.calls c := by
  cases event <;> simp only [step, Option.some.injEq, Option.map_eq_some_iff,
    Option.ite_none_right_eq_some] at h
  case requestStream => exact h ▸ rfl
  case connectExternal => exact h ▸ rfl
  case chunkedRequest =>
      obtain ⟨-, rfl⟩ := h
      rfl
  case resolve a =>
      obtain ⟨attempt, hpending, rfl⟩ := h
      have hne := (hattempts a attempt hpending).symm
      unfold resolve connected
      split
      · split
        · exact calls_call_of_ne _ _ hne
        · exact calls_call_of_ne _ _ hne
        · rfl
      · rfl
  case reject a =>
      obtain ⟨attempt, hpending, rfl⟩ := h
      exact calls_call_of_ne _ _ (hattempts a attempt hpending).symm
  case status =>
      obtain ⟨_, -, rfl⟩ := h
      rfl
  case tick =>
      obtain ⟨-, rfl⟩ := h
      unfold tick
      split <;> rfl
  case onSubscribe =>
      obtain ⟨_, -, rfl⟩ := h
      rfl
  case onNext k failed =>
      obtain ⟨s, hs, rfl⟩ := h
      unfold onNext
      split
      · rfl
      · exact calls_call_of_ne _ _ (hstreams k s hs).symm
  case onComplete k =>
      obtain ⟨s, hs, rfl⟩ := h
      unfold onComplete
      dsimp only
      split
      · rfl
      · exact calls_call_of_ne _ _ (hstreams k s hs).symm
  case onError k =>
      obtain ⟨s, hs, rfl⟩ := h
      exact calls_call_of_ne _ _ (hstreams k s hs).symm
  case cancelRequest k =>
      obtain ⟨s, -, rfl⟩ := h
      exact congrFun (calls_cancel k s) c
  case close d =>
      obtain ⟨-, rfl⟩ := h
      exact congrFun (calls_close d) c
  case beforeUnload =>
      rw [← h]
      exact disposeRsockets_induction (P := fun p => p.calls c = page.calls c) rfl
        fun _ d ih => (congrFun (calls_disposeRsocket d) c).trans ih

end Page

end ArtPlatform.Web.Connection
