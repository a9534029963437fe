import ArtPlatform.Common.Chunked
import ArtPlatform.ManagementPanel.LoadTestingService

/-!
# Flow control of load tests

A stream that is chunked asks its agent for a number of events and counts the handled
ones; when half of them are left it asks for as many again.  The count of a load test's
stream is taken down by the handler of its events through a requester, which holds the
count of the stream that was chunked last.  All load tests share one requester.

A consumer that subscribes to a chunked stream may ask for events on its own; how many
these are is a parameter, none when it asks for all.

Main results:

- Theorem `flow_isolated`: while every handler finds the count of its own stream, the
  outstanding demand of a stream depends on its own events only and stays positive.
- Theorem `neighbour_asked`: a handler that asks for events of another stream.
-/

namespace ArtPlatform

open Interleaving
open Function (update)

/-! ## The requester and the streams -/

def AGENT_STREAM_CHUNKS_COUNT : Nat := 512

/-- The count of a requester, and what the consumer of a chunked stream asks for. -/
structure Chunking where
  count : Nat
  consumer : Option Nat

/-- The stream whose count the requester holds, and of every stream the count, whether
it has its subscription, and the events that its agent may still send. -/
structure Flow where
  active : Option Nat := none
  chunksCounter : Nat → Int := fun _ => 0
  subscribed : Nat → Bool := fun _ => false
  demand : Nat → Option Nat := fun _ => some 0

namespace Flow

/-- `chunked(requester)`: the requester is activated for the stream. -/
def activate (flow : Flow) (k : Chunking) (run : Nat) : Flow :=
  { flow with
    active := some run
    chunksCounter := update flow.chunksCounter run k.count }

/-- `doOnSubscribe`, and then the consumer's own demand. -/
def subscribe (flow : Flow) (k : Chunking) (run : Nat) : Flow :=
  { flow with
    subscribed := update flow.subscribed run true
    demand := update flow.demand run (k.consumer.map fun n => n + k.count) }

def deliver (flow : Flow) (run : Nat) : Flow :=
  { flow with demand := update flow.demand run ((flow.demand run).map fun n => n - 1) }

def decrement (flow : Flow) (run : Nat) : Flow :=
  { flow with chunksCounter := update flow.chunksCounter run (flow.chunksCounter run - 1) }

def refill (flow : Flow) (k : Chunking) (run : Nat) : Flow :=
  { flow with
    chunksCounter := update flow.chunksCounter run (flow.chunksCounter run + k.count) }

def ask (flow : Flow) (k : Chunking) (run : Nat) : Flow :=
  { flow with demand := update flow.demand run ((flow.demand run).map fun n => n + k.count) }

end Flow

/-! ## Tasks -/

/-- Positions of `requester.request()`. -/
inductive RequestPosition
  | read
  | count (stream : Nat)
  | refill (stream : Nat)
  | ask (stream : Nat)

/-- The stream whose count the requester held when it was read. -/
def RequestPosition.stream : RequestPosition → Option Nat
  | .read => none
  | .count stream | .refill stream | .ask stream => some stream

inductive FlowTask
  | load (t : LoadTestTask)
  | request (b : LoadTestStart) (position : RequestPosition)

/-- A handler's request is taken in single actions. -/
def FlowTask.ofLoad : LoadTestTask → FlowTask
  | .stream b .eventRequest => .request b .read
  | t => .load t

structure FlowPanel where
  panel : PanelState
  flow : Flow := {}

/-- What an action of the load-test service does to the streams. -/
def Flow.after (flow : Flow) (k : Chunking) : LoadTestTask → Signal LoadTestEvent → Flow
  | .body b .chunk, .go _ => flow.activate k b.run
  | .body b .subscribe, .go _ => flow.subscribe k b.run
  | .stream b .idle, .next _ => flow.deliver b.run
  | _, _ => flow

/-- An agent sends no event that it has not been asked for. -/
def Flow.withholds (flow : Flow) : LoadTestTask → Signal LoadTestEvent → Bool
  | .stream b .idle, .next _ => flow.demand b.run = some 0
  | _, _ => false

/-- One action of `requester.request()` by the handler of an event. -/
def requestStep (k : Chunking) (b : LoadTestStart) :
    RequestPosition → Signal LoadTestEvent → FlowPanel → Option (FlowPanel × List FlowTask)
  | .read, .go _, s =>
      match s.flow.active with
      | none => some ({ s with panel := s.panel.onLoads (·.terminate b.run) }, [])
      | some stream => some (s, [.request b (.count stream)])
  | .count stream, .go _, s =>
      let flow := s.flow.decrement stream
      some ({ s with flow := flow },
        if flow.chunksCounter stream = ((k.count / 2 : Nat) : Int) then
          [.request b (.refill stream)]
        else [.load (.stream b .idle)])
  | .refill stream, .go _, s =>
      some ({ s with flow := s.flow.refill k stream }, [.request b (.ask stream)])
  | .ask stream, .go _, s =>
      if s.flow.subscribed stream then
        some ({ s with flow := s.flow.ask k stream }, [.load (.stream b .idle)])
      else some ({ s with panel := s.panel.onLoads (·.terminate b.run) }, [])
  | _, _, _ => none

def FlowTask.step (r : Rendering) (k : Chunking) :
    Actions FlowPanel FlowTask (Signal LoadTestEvent)
  | .load t, x, s =>
      if s.flow.withholds t x then none
      else
        (t.step r x s.panel).map fun (panel, ts) =>
          (⟨panel, s.flow.after k t x⟩, ts.map .ofLoad)
  | .request b position, x, s => requestStep k b position x s

/-! ## What a task knows of its stream -/

variable {r : Rendering} {k : Chunking} {run events : Nat} {flow flow' : Flow}

/-- The task leads the body of the run on to its stream, or handles an event of the
stream. -/
def FlowTask.carries (run : Nat) : FlowTask → Bool
  | .load (.body b p) => b.run = run && p ≠ .register
  | .load (.stream b p) => b.run = run && !p.isCompleting
  | .request b _ => b.run = run
  | .load _ => false

/-- The count and the demand of a stream. -/
structure FlowAt (k : Chunking) (run : Nat) (flow : Flow) (counter outstanding : Nat) :
    Prop where
  subscribed : flow.subscribed run = true
  counter : flow.chunksCounter run = counter
  demand : flow.demand run = k.consumer.map fun n => n + outstanding

/-- The last event of the stream is being handled, up to a place at which the count and
the demand are functions of the count before it. -/
def HandlesLast (k : Chunking) (run events : Nat) (flow : Flow)
    (counter outstanding : Nat → Nat) : Prop :=
  ∃ n, events = n + 1 ∧
    FlowAt k run flow (counter (chunkCounter k.count n)) (outstanding (chunkCounter k.count n))

/-- The last event is the one at which the count reaches its half. -/
def FillsUp (k : Chunking) (events : Nat) : Prop :=
  ∃ n, events = n + 1 ∧ chunkCounter k.count n - 1 = k.count / 2

/-- What holds of the stream of the run, after a number of its events, at each of the
tasks that carry it. -/
def FlowFollows (k : Chunking) (run events : Nat) (flow : Flow) : FlowTask → Prop
  | .load (.body _ p) => events = 0 ∧ (p = .subscribe → flow.chunksCounter run = k.count)
  | .load (.stream _ .idle) =>
      FlowAt k run flow (chunkCounter k.count events) (chunkCounter k.count events)
  | .load (.stream _ .eventRequest) => False
  | .load (.stream _ _) | .request _ .read | .request _ (.count _) =>
      HandlesLast k run events flow id fun counter => counter - 1
  | .request _ (.refill _) =>
      FillsUp k events ∧ FlowAt k run flow (k.count / 2) (k.count / 2)
  | .request _ (.ask _) =>
      FillsUp k events ∧ FlowAt k run flow (k.count / 2 + k.count) (k.count / 2)
  | .load _ => True

/-- The count, the subscription and the demand of the stream are the same. -/
def SameFlow (run : Nat) (flow flow' : Flow) : Prop :=
  flow'.chunksCounter run = flow.chunksCounter run ∧
    flow'.subscribed run = flow.subscribed run ∧ flow'.demand run = flow.demand run

theorem FlowAt.congr {counter outstanding : Nat} (hsame : SameFlow run flow flow')
    (h : FlowAt k run flow counter outstanding) : FlowAt k run flow' counter outstanding :=
  ⟨hsame.2.1.trans h.subscribed, hsame.1.trans h.counter, hsame.2.2.trans h.demand⟩

theorem FlowFollows.congr {t : FlowTask} (hsame : SameFlow run flow flow')
    (h : FlowFollows k run events flow t) : FlowFollows k run events flow' t := by
  cases t with
  | load t =>
      cases t with
      | body b p => exact ⟨h.1, fun hp => hsame.1.trans (h.2 hp)⟩
      | stream b p =>
          cases p with
          | idle => exact FlowAt.congr hsame h
          | eventRequest => exact h.elim
          | _ =>
              obtain ⟨n, hn, hflow⟩ := h
              exact ⟨n, hn, hflow.congr hsame⟩
      | _ => trivial
  | request b p =>
      cases p with
      | read | count _ =>
          obtain ⟨n, hn, hflow⟩ := h
          exact ⟨n, hn, hflow.congr hsame⟩
      | refill _ | ask _ => exact ⟨h.1, h.2.congr hsame⟩

/-! ## The actions of another task -/

theorem sameFlow_refl (run : Nat) (flow : Flow) : SameFlow run flow flow :=
  ⟨rfl, rfl, rfl⟩

theorem sameFlow_activate {other : Nat} (h : other ≠ run) (flow : Flow) :
    SameFlow run flow (flow.activate k other) :=
  ⟨Function.update_of_ne h.symm _ _, rfl, rfl⟩

theorem sameFlow_subscribe {other : Nat} (h : other ≠ run) (flow : Flow) :
    SameFlow run flow (flow.subscribe k other) :=
  ⟨rfl, Function.update_of_ne h.symm _ _, Function.update_of_ne h.symm _ _⟩

theorem sameFlow_deliver {other : Nat} (h : other ≠ run) (flow : Flow) :
    SameFlow run flow (flow.deliver other) :=
  ⟨rfl, rfl, Function.update_of_ne h.symm _ _⟩

theorem sameFlow_decrement {other : Nat} (h : other ≠ run) (flow : Flow) :
    SameFlow run flow (flow.decrement other) :=
  ⟨Function.update_of_ne h.symm _ _, rfl, rfl⟩

theorem sameFlow_refill {other : Nat} (h : other ≠ run) (flow : Flow) :
    SameFlow run flow (flow.refill k other) :=
  ⟨Function.update_of_ne h.symm _ _, rfl, rfl⟩

theorem sameFlow_ask {other : Nat} (h : other ≠ run) (flow : Flow) :
    SameFlow run flow (flow.ask k other) :=
  ⟨rfl, rfl, Function.update_of_ne h.symm _ _⟩

attribute [local simp] FlowTask.carries LoadStreamPosition.isCompleting in
/-- What a task that does not carry the run does to its stream: nothing. -/
theorem sameFlow_after {t : LoadTestTask} {x : Signal LoadTestEvent}
    (ht : ¬ (FlowTask.load t).carries run = true) (flow : Flow) :
    SameFlow run flow (flow.after k t x) := by
  unfold Flow.after
  split
  · refine sameFlow_activate ?_ flow
    rintro rfl
    simp at ht
  · refine sameFlow_subscribe ?_ flow
    rintro rfl
    simp at ht
  · refine sameFlow_deliver ?_ flow
    rintro rfl
    simp at ht
  · exact sameFlow_refl run flow

/-- A request that has read the requester works on the count of its own stream. -/
def FlowTask.OwnRequest : FlowTask → Prop
  | .request b p => ∀ stream, p.stream = some stream → stream = b.run
  | .load _ => True

theorem ownRequest_ofLoad (t : LoadTestTask) : (FlowTask.ofLoad t).OwnRequest := by
  unfold FlowTask.ofLoad
  split
  · intro stream h
    cases h
  · trivial

theorem carries_ofLoad (t : LoadTestTask) :
    (FlowTask.ofLoad t).carries run = (FlowTask.load t).carries run := by
  unfold FlowTask.ofLoad
  split
  · simp [FlowTask.carries, LoadStreamPosition.isCompleting]
  · rfl

theorem filter_ofLoad_eq_nil {ts : List LoadTestTask}
    (h : ∀ u ∈ ts, ¬ (FlowTask.load u).carries run = true) :
    (ts.map FlowTask.ofLoad).filter (·.carries run) = [] := by
  refine List.filter_eq_nil_iff.mpr ?_
  intro u hu
  obtain ⟨t, ht, rfl⟩ := List.mem_map.mp hu
  rw [carries_ofLoad]
  exact h t ht

theorem not_carries_of_isAside {t : LoadTestTask} (h : t.isAside = true) :
    ¬ (FlowTask.load t).carries run = true := by
  cases t <;> simp [FlowTask.carries, LoadTestTask.isAside] at *

theorem not_carries_stream {b : LoadTestStart} {p : LoadStreamPosition}
    (h : b.run ≠ run ∨ p.isCompleting = true) :
    ¬ (FlowTask.load (.stream b p)).carries run = true := by
  rcases h with h | h <;> simp [FlowTask.carries, h]

/-- What a task that does not carry the run leaves of it: its stream as it is, and no
task that carries it, unless the task starts the run. -/
def LeavesRun (run : Nat) (s s' : FlowPanel) (ts : List FlowTask) : Prop :=
  SameFlow run s.flow s'.flow ∧ (∀ u ∈ ts, u.OwnRequest) ∧
    (s'.panel.loads.runs = s.panel.loads.runs ∧ ts.filter (·.carries run) = [] ∨
      s'.panel.loads.runs = s.panel.loads.runs + 1 ∧
        ∃ loadTest, ts = [.load (.body ⟨loadTest, s.panel.loads.runs⟩ .start)])

variable {x : Signal LoadTestEvent} {s s' : FlowPanel} {ts : List FlowTask}

theorem loadTasks_of_other {t : LoadTestTask} {panel panel' : PanelState}
    {us : List LoadTestTask} (ht : ¬ (FlowTask.load t).carries run = true)
    (h : t.step r x panel = some (panel', us)) :
    panel'.loads.runs = panel.loads.runs ∧
        (∀ u ∈ us, ¬ (FlowTask.load u).carries run = true) ∨
      panel'.loads.runs = panel.loads.runs + 1 ∧
        ∃ loadTest, us = [.body ⟨loadTest, panel.loads.runs⟩ .start] := by
  cases t with
  | body b p =>
      obtain ⟨hruns, htasks⟩ := loadBodyStep_tasks h
      refine .inl ⟨hruns, ?_⟩
      by_cases hb : b.run = run
      · have hp : p = .register := by simpa [FlowTask.carries, hb] using ht
        subst hp
        rcases htasks with ⟨hp, -⟩ | ⟨hp, -⟩ | ⟨-, -, rfl | ⟨m, rfl⟩ | ⟨q, -, -, rfl⟩⟩
        · cases hp
        · cases hp
        · simp
        · simp [FlowTask.carries]
        · cases x <;> simp [LoadTestTask.step, loadBodyStep] at h
      · rcases htasks with ⟨-, -, rfl⟩ | ⟨-, -, rfl⟩ |
          ⟨-, -, rfl | ⟨m, rfl⟩ | ⟨q, -, -, rfl⟩⟩ <;> simp [FlowTask.carries, hb]
  | stream b p =>
      obtain ⟨hruns, htasks⟩ := loadStreamStep_tasks h
      refine .inl ⟨hruns, ?_⟩
      have hb : b.run ≠ run ∨ p.isCompleting = true := by
        by_cases hb : b.run = run
        · exact .inr (by simpa [FlowTask.carries, hb] using ht)
        · exact .inl hb
      rcases hb with hb | hcompleting
      · intro u hu
        have hstream : ∀ q, ¬ (FlowTask.load (.stream b q)).carries run = true :=
          fun q => not_carries_stream (.inl hb)
        rcases htasks with ⟨_, -, -, rfl⟩ | ⟨-, rfl⟩ | ⟨_, -, -, rfl⟩ | ⟨-, q, -, rfl⟩ | rfl |
          ⟨-, v, rfl, ⟨q, -, rfl⟩ | haside⟩
        · exact List.mem_singleton.mp hu ▸ hstream _
        · exact List.mem_singleton.mp hu ▸ hstream _
        · exact List.mem_singleton.mp hu ▸ hstream _
        · exact List.mem_singleton.mp hu ▸ hstream _
        · cases hu
        · exact List.mem_singleton.mp hu ▸ hstream _
        · exact List.mem_singleton.mp hu ▸ not_carries_of_isAside haside
      · intro u hu
        rcases htasks with ⟨_, rfl, -⟩ | ⟨rfl, -⟩ | ⟨_, rfl, -⟩ | ⟨hhandling, -⟩ | rfl |
          ⟨-, v, rfl, ⟨q, hq, rfl⟩ | haside⟩
        · cases hcompleting
        · cases hcompleting
        · cases hcompleting
        · exact absurd hhandling (LoadStreamPosition.not_isHandling hcompleting)
        · cases hu
        · exact List.mem_singleton.mp hu ▸ not_carries_stream (.inr hq)
        · exact List.mem_singleton.mp hu ▸ not_carries_of_isAside haside
  | _ =>
      rcases loadTestStep_tasks_of_aside (by rfl) h with ⟨hruns, haside⟩ | hstart
      · exact .inl ⟨hruns, fun u hu => not_carries_of_isAside (haside u hu)⟩
      · exact .inr hstart

/-- The requester holds the count of the handler's stream when it is read, and the
events of the run are handled while its load test is running. -/
def HandlesOwn (run : Nat) (c : Config FlowPanel FlowTask) :
    Label FlowTask (Signal LoadTestEvent) → Prop
  | .call (.load (.startLog _)) | .call (.load (.cancelRead _)) => True
  | .call _ => False
  | .act (.request b .read) _ => c.shared.flow.active = some b.run
  | .act (.load (.stream b (.eventRead _))) _ =>
      b.run = run → (c.shared.panel.runningLoadTest b.loadTest.id).isSome = true
  | .act _ _ => True

theorem leavesRun_step {t : FlowTask} {tasks : List FlowTask}
    (ht : ¬ t.carries run = true) (hown : t.OwnRequest)
    (hok : HandlesOwn run ⟨s, tasks⟩ (.act t x)) (h : t.step r k x s = some (s', ts)) :
    LeavesRun run s s' ts := by
  cases t with
  | load t =>
      simp only [FlowTask.step] at h
      split at h
      · cases h
      · obtain ⟨⟨panel, us⟩, hact, heq⟩ := Option.map_eq_some_iff.mp h
        obtain ⟨rfl, rfl⟩ := Prod.mk.inj heq
        refine ⟨sameFlow_after ht s.flow, ?_, ?_⟩
        · intro u hu
          obtain ⟨v, -, rfl⟩ := List.mem_map.mp hu
          exact ownRequest_ofLoad v
        · rcases loadTasks_of_other ht hact with ⟨hruns, hnone⟩ | ⟨hruns, loadTest, rfl⟩
          · exact .inl ⟨hruns, filter_ofLoad_eq_nil hnone⟩
          · exact .inr ⟨hruns, loadTest, rfl⟩
  | request b p =>
      have hb : b.run ≠ run := by simpa [FlowTask.carries] using ht
      have hidle : ¬ (FlowTask.load (.stream b .idle)).carries run = true :=
        not_carries_stream (.inl hb)
      have hrequest : ∀ q, ¬ (FlowTask.request b q).carries run = true := by
        simp [FlowTask.carries, hb]
      change requestStep k b p x s = some (s', ts) at h
      revert h
      fun_cases requestStep k b p x s <;> intro h <;>
        simp only [Option.some.injEq, Prod.mk.injEq, reduceCtorEq] at h <;>
        rcases h with ⟨rfl, rfl⟩
      case case1 | case6 =>
          exact ⟨sameFlow_refl _ _, by simp, .inl ⟨rfl, rfl⟩⟩
      case case2 stream hactive =>
          have hstream : some b.run = some stream := hok.symm.trans hactive
          refine ⟨sameFlow_refl _ _, ?_, .inl ⟨rfl, ?_⟩⟩
          · intro u hu
            rw [List.mem_singleton.mp hu]
            intro q hq
            exact (Option.some.inj hq).symm.trans (Option.some.inj hstream).symm
          · simp [hrequest]
      case case3 stream _ _ =>
          have hstream : stream = b.run := hown stream rfl
          refine ⟨sameFlow_decrement (hstream ▸ hb) _, ?_, .inl ⟨rfl, ?_⟩⟩
          · intro u hu
            split at hu
            · rw [List.mem_singleton.mp hu]
              intro q hq
              exact (Option.some.inj hq).symm.trans hstream
            · rw [List.mem_singleton.mp hu]
              trivial
          · split
            · simp [hrequest]
            · simp [hidle]
      case case4 stream _ =>
          have hstream : stream = b.run := hown stream rfl
          refine ⟨sameFlow_refill (hstream ▸ hb) _, ?_, .inl ⟨rfl, ?_⟩⟩
          · intro u hu
            rw [List.mem_singleton.mp hu]
            intro q hq
            exact (Option.some.inj hq).symm.trans hstream
          · simp [hrequest]
      case case5 stream _ _ =>
          have hstream : stream = b.run := hown stream rfl
          refine ⟨sameFlow_ask (hstream ▸ hb) _, ?_, .inl ⟨rfl, ?_⟩⟩
          · intro u hu
            rw [List.mem_singleton.mp hu]
            trivial
          · simp [hidle]

/-! ## The actions of the task that carries the run -/

/-- The task takes an event of the run. -/
def FlowTask.takesEvent (run : Nat) : FlowTask → Signal LoadTestEvent → Bool
  | .load (.stream b .idle), .next _ => b.run = run
  | _, _ => false

/-- The number of events that the stream of the run has delivered. -/
def eventCount (run : Nat) (ls : List (Label FlowTask (Signal LoadTestEvent))) : Nat :=
  ls.countP fun
    | .act t x => t.takesEvent run x
    | .call _ => false

theorem eventCount_append_act (ls : List (Label FlowTask (Signal LoadTestEvent)))
    (t : FlowTask) (x : Signal LoadTestEvent) :
    eventCount run (ls ++ [.act t x]) = eventCount run ls + (t.takesEvent run x).toNat := by
  unfold eventCount
  rw [List.countP_append, List.countP_singleton]
  dsimp only
  split <;> simp_all

/-- What a task that carries the run leaves: its stream after the next event, if it
takes one, and at most one task that carries it on. -/
def CarriesOn (k : Chunking) (run events : Nat) (s s' : FlowPanel) (ts : List FlowTask) :
    Prop :=
  s'.panel.loads.runs = s.panel.loads.runs ∧ (∀ u ∈ ts, u.OwnRequest) ∧
    (ts.filter (·.carries run) = [] ∨
      ∃ u, ts.filter (·.carries run) = [u] ∧ FlowFollows k run events s'.flow u)

theorem followsLast_iff {b : LoadTestStart} {q : LoadStreamPosition}
    (hq : q.isHandling = true) :
    FlowFollows k run events flow (.ofLoad (.stream b q)) ↔
      HandlesLast k run events flow id fun counter => counter - 1 := by
  cases q with
  | idle | completeRead | completeLogRead _ | completePut _ => cases hq
  | _ => exact Iff.rfl

theorem HandlesLast.of_follows {b : LoadTestStart} {p : LoadStreamPosition}
    (hp : p.isHandling = true) (h : FlowFollows k run events flow (.load (.stream b p))) :
    HandlesLast k run events flow id fun counter => counter - 1 := by
  cases p with
  | idle | completeRead | completeLogRead _ | completePut _ => cases hp
  | eventRequest => exact h.elim
  | _ => exact h

theorem map_sub_map_add (consumer : Option Nat) {c : Nat} (h : 0 < c) :
    (consumer.map fun n => n + c).map (fun n => n - 1) =
      consumer.map fun n => n + (c - 1) := by
  cases consumer with
  | none => rfl
  | some n =>
      simp only [Option.map_some, Option.some.injEq]
      omega

theorem map_add_map_add (consumer : Option Nat) (c d : Nat) :
    (consumer.map fun n => n + c).map (fun n => n + d) =
      consumer.map fun n => n + (c + d) := by
  cases consumer with
  | none => rfl
  | some n =>
      simp only [Option.map_some, Option.some.injEq]
      omega

/-- A body carries its run up to the subscription. -/
theorem carriesOn_body {b : LoadTestStart} {p : BodyPosition} {panel : PanelState}
    {us : List LoadTestTask} (hb : b.run = run)
    (hfollows : FlowFollows k run events s.flow (.load (.body b p)))
    (h : loadBodyStep b p x s.panel = some (panel, us)) :
    CarriesOn k run events s ⟨panel, s.flow.after k (.body b p) x⟩ (us.map .ofLoad) := by
  subst hb
  obtain ⟨hruns, htasks⟩ := loadBodyStep_tasks h
  refine ⟨hruns, ?_, ?_⟩
  · intro u hu
    obtain ⟨v, -, rfl⟩ := List.mem_map.mp hu
    exact ownRequest_ofLoad v
  · rcases htasks with ⟨rfl, ⟨now, rfl⟩, rfl⟩ | ⟨rfl, ⟨now, rfl⟩, rfl⟩ |
      ⟨-, -, rfl | ⟨m, rfl⟩ | ⟨q, hsubscribe, hregister, rfl⟩⟩
    · refine .inr ⟨.load (.body b .subscribe), ?_, hfollows.1, fun _ => ?_⟩
      · simp [FlowTask.ofLoad, FlowTask.carries]
      · exact Function.update_self _ _ _
    · refine .inr ⟨.load (.stream b .idle), ?_, ?_⟩
      · simp [FlowTask.ofLoad, FlowTask.carries, LoadStreamPosition.isCompleting]
      · obtain ⟨rfl, hcounter⟩ := hfollows
        exact ⟨Function.update_self _ _ _, hcounter rfl, Function.update_self _ _ _⟩
    · exact .inl rfl
    · exact .inl (by simp [FlowTask.ofLoad, FlowTask.carries])
    · refine .inr ⟨.load (.body b q), ?_, hfollows.1, fun hq => absurd hq hsubscribe⟩
      simp [FlowTask.ofLoad, FlowTask.carries, hregister]

/-- A stream carries its run from event to event. -/
theorem carriesOn_stream {b : LoadTestStart} {p : LoadStreamPosition} {panel : PanelState}
    {us : List LoadTestTask} (hcount : 0 < k.count) (hb : b.run = run)
    (hfollows : FlowFollows k run events s.flow (.load (.stream b p)))
    (hrunning : ∀ event, p = .eventRead event →
      (s.panel.runningLoadTest b.loadTest.id).isSome = true)
    (h : loadStreamStep b p x s.panel = some (panel, us)) :
    CarriesOn k run (events + ((FlowTask.load (.stream b p)).takesEvent run x).toNat) s
      ⟨panel, s.flow.after k (.stream b p) x⟩ (us.map .ofLoad) := by
  subst hb
  obtain ⟨hruns, htasks⟩ := loadStreamStep_tasks h
  refine ⟨hruns, ?_, ?_⟩
  · intro u hu
    obtain ⟨v, -, rfl⟩ := List.mem_map.mp hu
    exact ownRequest_ofLoad v
  · rcases htasks with ⟨event, rfl, rfl, rfl⟩ | ⟨rfl, rfl⟩ | ⟨event, rfl, hnone, rfl⟩ |
      ⟨hp, q, hq, rfl⟩ | rfl | ⟨-, u, rfl, hu⟩
    · refine .inr ⟨.load (.stream b (.eventRead event)), ?_, events, ?_, ?_⟩
      · simp [FlowTask.ofLoad, FlowTask.carries, LoadStreamPosition.isCompleting]
      · simp [FlowTask.takesEvent]
      · have hdemand := (congrArg (Option.map fun n => n - 1) hfollows.demand).trans
          (map_sub_map_add k.consumer (chunkCounter_pos hcount events))
        exact ⟨hfollows.subscribed, hfollows.counter,
          (Function.update_self _ _ _).trans hdemand⟩
    · exact hfollows.elim
    · rw [hnone] at hrunning
      cases hrunning event rfl
    · have hlast := HandlesLast.of_follows hp hfollows
      refine .inr ⟨.ofLoad (.stream b q), ?_, ?_⟩
      · have hcarries : (FlowTask.ofLoad (.stream b q)).carries b.run = true := by
          rw [carries_ofLoad]
          cases q <;> simp [FlowTask.carries, LoadStreamPosition.isCompleting,
            LoadStreamPosition.isHandling] at *
        simp [hcarries]
      · cases p with
        | idle => cases hp
        | _ => exact (followsLast_iff hq).mpr hlast
    · exact .inl rfl
    · refine .inl (filter_ofLoad_eq_nil ?_)
      intro v hv
      rw [List.mem_singleton.mp hv]
      rcases hu with ⟨q, hq, rfl⟩ | haside
      · exact not_carries_stream (.inr hq)
      · exact not_carries_of_isAside haside

/-- The handler counts an event down: at the half it goes on to refill the counter, and
else the stream waits for its next event. -/
theorem carriesOn_count {b : LoadTestStart} {n : Nat} (hcount : 0 < k.count)
    (hflow : FlowAt k b.run s.flow (chunkCounter k.count n) (chunkCounter k.count n - 1)) :
    CarriesOn k b.run (n + 1) s { s with flow := s.flow.decrement b.run }
      (if (s.flow.decrement b.run).chunksCounter b.run = ((k.count / 2 : Nat) : Int) then
        [.request b (.refill b.run)]
      else [.load (.stream b .idle)]) := by
  have hhalf := half_lt_chunkCounter hcount n
  have hcounter : (s.flow.decrement b.run).chunksCounter b.run =
      (chunkCounter k.count n : Int) - 1 :=
    (Function.update_self _ _ _).trans (congrArg (· - 1) hflow.counter)
  refine ⟨rfl, ?_, ?_⟩
  · intro u hu
    split at hu
    · rw [List.mem_singleton.mp hu]
      exact fun stream h => (Option.some.inj h).symm
    · rw [List.mem_singleton.mp hu]
      trivial
  · by_cases hfull : chunkCounter k.count n - 1 = k.count / 2
    · have htest : (s.flow.decrement b.run).chunksCounter b.run =
          ((k.count / 2 : Nat) : Int) := by omega
      rw [if_pos htest]
      refine .inr ⟨.request b (.refill b.run), by simp [FlowTask.carries],
        ⟨n, rfl, hfull⟩, ?_⟩
      exact ⟨hflow.subscribed, htest, by rw [← hfull]; exact hflow.demand⟩
    · have htest : ¬ (s.flow.decrement b.run).chunksCounter b.run =
          ((k.count / 2 : Nat) : Int) := by omega
      have hnext : chunkCounter k.count (n + 1) = chunkCounter k.count n - 1 :=
        if_neg hfull
      rw [if_neg htest]
      refine .inr ⟨.load (.stream b .idle), ?_, ?_⟩
      · simp [FlowTask.carries, LoadStreamPosition.isCompleting]
      · refine ⟨hflow.subscribed, ?_, ?_⟩
        · rw [hnext]
          exact hcounter.trans (by omega)
        · rw [hnext]
          exact hflow.demand

/-- A request carries its run from a handled event to the next one. -/
theorem carriesOn_request {b : LoadTestStart} {p : RequestPosition} (hcount : 0 < k.count)
    (hb : b.run = run) (hown : (FlowTask.request b p).OwnRequest)
    (hactive : p = .read → s.flow.active = some b.run)
    (hfollows : FlowFollows k run events s.flow (.request b p))
    (h : requestStep k b p x s = some (s', ts)) : CarriesOn k run events s s' ts := by
  subst hb
  have hidle : (FlowTask.load (.stream b .idle)).carries b.run = true := by
    simp [FlowTask.carries, LoadStreamPosition.isCompleting]
  have hrequest : ∀ q, (FlowTask.request b q).carries b.run = true := by
    simp [FlowTask.carries]
  have hownRequest : ∀ q : RequestPosition, q.stream = some b.run →
      (FlowTask.request b q).OwnRequest :=
    fun q hq stream h => Option.some.inj (h.symm.trans hq)
  revert h
  fun_cases requestStep k b p x s <;> intro h <;>
    simp only [Option.some.injEq, Prod.mk.injEq, reduceCtorEq] at h <;>
    rcases h with ⟨rfl, rfl⟩
  case case1 | case6 => exact ⟨rfl, by simp, .inl rfl⟩
  case case2 stream hstream =>
      have heq : stream = b.run := Option.some.inj (hstream.symm.trans (hactive rfl))
      subst heq
      refine ⟨rfl, ?_, .inr ⟨.request b (.count b.run), ?_, hfollows⟩⟩
      · simpa using hownRequest (.count b.run) rfl
      · simp [hrequest]
  case case3 stream _ _ =>
      have heq : stream = b.run := hown stream rfl
      subst heq
      obtain ⟨n, rfl, hflow⟩ := hfollows
      exact carriesOn_count hcount hflow
  case case4 stream _ =>
      have heq : stream = b.run := hown stream rfl
      subst heq
      obtain ⟨hfull, hflow⟩ := hfollows
      refine ⟨rfl, ?_, .inr ⟨.request b (.ask b.run), by simp [hrequest], hfull, ?_⟩⟩
      · simpa using hownRequest (.ask b.run) rfl
      · refine ⟨hflow.subscribed, ?_, hflow.demand⟩
        exact (Function.update_self _ _ _).trans (by rw [hflow.counter]; omega)
  case case5 stream _ _ =>
      have heq : stream = b.run := hown stream rfl
      subst heq
      obtain ⟨⟨n, rfl, hfull⟩, hflow⟩ := hfollows
      have hnext : chunkCounter k.count (n + 1) = k.count / 2 + k.count := by
        unfold chunkCounter
        dsimp only
        rw [if_pos hfull, hfull]
      refine ⟨rfl, ?_, .inr ⟨.load (.stream b .idle), by simp [hidle], ?_⟩⟩
      · intro u hu
        rw [List.mem_singleton.mp hu]
        trivial
      · refine ⟨hflow.subscribed, ?_, ?_⟩
        · rw [hnext]
          exact hflow.counter
        · rw [hnext]
          refine (Function.update_self _ _ _).trans ?_
          rw [hflow.demand]
          exact map_add_map_add _ _ _

/-! ## Runs -/

/-- What the tasks know of the stream of a run after a number of its events: one task
at most carries the run, and a run that has not been started has no event. -/
structure StreamKept (k : Chunking) (run events : Nat) (c : Config FlowPanel FlowTask) :
    Prop where
  own : ∀ u ∈ c.tasks, u.OwnRequest
  carried : c.tasks.filter (·.carries run) = [] ∨
    ∃ u, c.tasks.filter (·.carries run) = [u] ∧ FlowFollows k run events c.shared.flow u
  unstarted : c.shared.panel.loads.runs ≤ run →
    c.tasks.filter (·.carries run) = [] ∧ events = 0

theorem streamKept_start (s : FlowPanel) : StreamKept k run 0 ⟨s, []⟩ :=
  ⟨by simp, .inl rfl, fun _ => ⟨rfl, rfl⟩⟩

theorem not_takesEvent {t : FlowTask} (ht : ¬ t.carries run = true) :
    t.takesEvent run x = false := by
  unfold FlowTask.takesEvent
  split
  · simpa [FlowTask.carries, LoadStreamPosition.isCompleting] using ht
  · rfl

variable {c c' : Config FlowPanel FlowTask} {t : FlowTask}
  {ls : List (Label FlowTask (Signal LoadTestEvent))}

/-- The action of the task that carries the run. -/
theorem carriesOn_step (hcount : 0 < k.count) (ht : t.carries run = true)
    (hown : t.OwnRequest) (hok : HandlesOwn run c (.act t x))
    (hfollows : FlowFollows k run events c.shared.flow t)
    (h : t.step r k x c.shared = some (s', ts)) :
    CarriesOn k run (events + (t.takesEvent run x).toNat) c.shared s' ts := by
  cases t with
  | load t =>
      simp only [FlowTask.step] at h
      split at h
      · cases h
      · obtain ⟨⟨panel, us⟩, hact, heq⟩ := Option.map_eq_some_iff.mp h
        obtain ⟨rfl, rfl⟩ := Prod.mk.inj heq
        cases t with
        | body b p =>
            have hb : b.run = run := by
              simp only [FlowTask.carries, Bool.and_eq_true, decide_eq_true_eq] at ht
              exact ht.1
            exact carriesOn_body hb hfollows hact
        | stream b p =>
            have hb : b.run = run := by
              simp only [FlowTask.carries, Bool.and_eq_true, decide_eq_true_eq] at ht
              exact ht.1
            refine carriesOn_stream hcount hb hfollows ?_ hact
            rintro event rfl
            exact hok hb
        | _ => cases ht
  | request b p =>
      have hb : b.run = run := by simpa [FlowTask.carries] using ht
      refine carriesOn_request hcount hb hown ?_ hfollows h
      rintro rfl
      exact hok

/-- An action of a task that carries the run. -/
theorem StreamKept.own_step (hcount : 0 < k.count) (hkept : StreamKept k run events c)
    (ht : t.carries run = true) (hok : HandlesOwn run c (.act t x))
    (hstep : Step (FlowTask.step r k) c (.act t x) c') :
    StreamKept k run (events + (t.takesEvent run x).toNat) c' := by
  have hmem : t ∈ c.tasks.filter (·.carries run) :=
    List.mem_filter.mpr ⟨hstep.mem_tasks, ht⟩
  obtain hnone | ⟨u, hone, hfollows⟩ := hkept.carried
  · rw [hnone] at hmem
    cases hmem
  · obtain ⟨rfl, ts, hact, hfilter⟩ := hstep.filter_of_own hone ht
    have hown := fun ts (hact : t.step r k x c.shared = some (c'.shared, ts)) =>
      carriesOn_step hcount ht (hkept.own t hstep.mem_tasks) hok hfollows hact
    obtain ⟨hruns, -, hcarried⟩ := hown ts hact
    refine ⟨?_, ?_, ?_⟩
    · exact hstep.forall_tasks (J := fun _ u => u.OwnRequest) hkept.own
        (fun ts hact => (hown ts hact).2.1) fun _ _ h => h
    · rw [hfilter]
      exact hcarried
    · intro hle
      rw [hruns] at hle
      rw [(hkept.unstarted hle).1] at hmem
      cases hmem

/-- An action of any other task. -/
theorem StreamKept.other_step (hkept : StreamKept k run events c)
    (ht : ¬ t.carries run = true) (hok : HandlesOwn run c (.act t x))
    (hstep : Step (FlowTask.step r k) c (.act t x) c') : StreamKept k run events c' := by
  obtain ⟨ts, hact, hfilter⟩ := hstep.filter_of_other ht
  have hleaves := fun ts (hact : t.step r k x c.shared = some (c'.shared, ts)) =>
    leavesRun_step ht (hkept.own t hstep.mem_tasks) hok hact
  have hown : ∀ u ∈ c'.tasks, u.OwnRequest :=
    hstep.forall_tasks (J := fun _ u => u.OwnRequest) hkept.own
      (fun ts hact => (hleaves ts hact).2.1) fun _ _ h => h
  obtain ⟨hsame, -, hruns⟩ := hleaves ts hact
  have hcarried : ts.filter (·.carries run) = [] →
      c'.tasks.filter (·.carries run) = [] ∨ ∃ u, c'.tasks.filter (·.carries run) = [u] ∧
        FlowFollows k run events c'.shared.flow u := by
    intro hnil
    rw [hnil, List.nil_append] at hfilter
    rcases hkept.carried with hnone | ⟨u, hone, hfollows⟩
    · rw [hnone] at hfilter
      exact .inl hfilter.eq_nil
    · rw [hone] at hfilter
      exact .inr ⟨u, List.perm_singleton.mp hfilter, hfollows.congr hsame⟩
  rcases hruns with ⟨hruns, hnil⟩ | ⟨hruns, loadTest, rfl⟩
  · refine ⟨hown, hcarried hnil, ?_⟩
    intro hle
    rw [hruns] at hle
    obtain ⟨hnone, hevents⟩ := hkept.unstarted hle
    rw [hnil, hnone] at hfilter
    exact ⟨hfilter.eq_nil, hevents⟩
  · by_cases hstart : c.shared.panel.loads.runs = run
    · obtain ⟨hnone, rfl⟩ := hkept.unstarted (by omega)
      rw [hnone, List.append_nil] at hfilter
      have hbody : [FlowTask.load (.body ⟨loadTest, c.shared.panel.loads.runs⟩ .start)].filter
          (·.carries run) = [.load (.body ⟨loadTest, c.shared.panel.loads.runs⟩ .start)] := by
        simp [FlowTask.carries, hstart]
      rw [hbody] at hfilter
      refine ⟨hown, .inr ⟨_, List.perm_singleton.mp hfilter, rfl, ?_⟩, ?_⟩
      · intro hp
        cases hp
      · intro hle
        omega
    · have hnil : [FlowTask.load (.body ⟨loadTest, c.shared.panel.loads.runs⟩ .start)].filter
          (·.carries run) = [] := by
        simp [FlowTask.carries, hstart]
      refine ⟨hown, hcarried hnil, ?_⟩
      intro hle
      obtain ⟨hnone, hevents⟩ := hkept.unstarted (by omega)
      rw [hnil, hnone] at hfilter
      exact ⟨hfilter.eq_nil, hevents⟩

/-- A call adds a task that carries no run. -/
theorem StreamKept.call_step (hkept : StreamKept k run events c)
    (hok : HandlesOwn run c (.call t)) : StreamKept k run events ⟨c.shared, t :: c.tasks⟩ := by
  have htask : ¬ t.carries run = true ∧ t.OwnRequest := by
    unfold HandlesOwn at hok
    split at hok <;> simp_all [FlowTask.carries, FlowTask.OwnRequest]
  have hfilter : (t :: c.tasks).filter (·.carries run) = c.tasks.filter (·.carries run) :=
    List.filter_cons_of_neg htask.1
  refine ⟨?_, ?_, ?_⟩
  · intro u hu
    rcases List.mem_cons.mp hu with rfl | hu
    · exact htask.2
    · exact hkept.own u hu
  · rw [hfilter]
    exact hkept.carried
  · rw [hfilter]
    exact hkept.unstarted

/-- What the tasks know of a stream is kept in every run. -/
theorem streamKept_of_run (hcount : 0 < k.count) (s : FlowPanel)
    (hrun : Run (FlowTask.step r k) (HandlesOwn run) ⟨s, []⟩ ls c) :
    StreamKept k run (eventCount run ls) c := by
  induction hrun with
  | refl => exact streamKept_start s
  | @tail c c' ls l _ hstep hok hkept =>
      cases l with
      | call t =>
          cases hstep
          simpa [eventCount] using hkept.call_step hok
      | act t x =>
          rw [eventCount_append_act]
          by_cases ht : t.carries run = true
          · exact hkept.own_step hcount ht hok hstep
          · rw [not_takesEvent ht]
            exact hkept.other_step ht hok hstep

/-- While every handler finds the count of its own stream, no handler asks for events of
another stream, and the demand that is outstanding between two events of a stream is a
function of the number of its own events and is positive. -/
theorem flow_isolated (r : Rendering) (k : Chunking) (hcount : 0 < k.count) (run : Nat)
    (s : FlowPanel) (ls : List (Label FlowTask (Signal LoadTestEvent)))
    (c : Config FlowPanel FlowTask)
    (hrun : Run (FlowTask.step r k) (HandlesOwn run) ⟨s, []⟩ ls c) :
    (∀ b stream, FlowTask.request b (.ask stream) ∈ c.tasks → stream = b.run) ∧
      ∀ b, b.run = run → FlowTask.load (.stream b .idle) ∈ c.tasks →
        c.shared.flow.demand run =
            k.consumer.map (fun n => n + chunkCounter k.count (eventCount run ls)) ∧
          c.shared.flow.demand run ≠ some 0 := by
  have hkept := streamKept_of_run hcount s hrun
  refine ⟨fun b stream hmem => hkept.own _ hmem stream rfl, ?_⟩
  rintro b rfl hmem
  have hcarries : FlowTask.load (.stream b .idle) ∈ c.tasks.filter (·.carries b.run) :=
    List.mem_filter.mpr ⟨hmem, by simp [FlowTask.carries, LoadStreamPosition.isCompleting]⟩
  rcases hkept.carried with hnone | ⟨u, hone, hfollows⟩
  · rw [hnone] at hcarries
    cases hcarries
  · rw [hone] at hcarries
    rw [← List.mem_singleton.mp hcarries] at hfollows
    have hpos := chunkCounter_pos hcount (eventCount b.run ls)
    refine ⟨hfollows.demand, ?_⟩
    rw [hfollows.demand]
    cases k.consumer with
    | none => simp
    | some n =>
        simp only [Option.map_some, ne_eq, Option.some.injEq]
        omega

instance (label : Label FlowTask (Signal LoadTestEvent)) :
    Decidable (HandlesOwn run c label) := by
  unfold HandlesOwn
  split <;> infer_instance

/-! ## One load test -/

/-- The shared requester, and a consumer that asks for all events. -/
def agentChunking : Chunking :=
  ⟨AGENT_STREAM_CHUNKS_COUNT, none⟩

private def loadRequest : LoadTestRequest where
  scenarioId := 1
  resourceId := ⟨1, "cluster", .openShift⟩
  projectId := 1
  version := ⟨"main", "1.0"⟩
  environmentVariables := []

private def loadStart : FlowPanel :=
  { panel := { store := .empty } }

/-- A load test is started and subscribes to its stream. -/
private def startMoves : List (Move FlowTask (Signal LoadTestEvent)) :=
  .call (.load (.startLog loadRequest)) :: List.replicate 13 (.act 0 (.go 0))

/-- The load test of the first run as it is stored while it is running. -/
private def firstStarted : LoadTest :=
  { createLoadTest loadRequest 1 0 1 with state := .startedOnResource }

/-- An event of the first load test that leaves it as it is. -/
private def firstEvent : LoadTestEvent :=
  ⟨firstStarted, "10 users", []⟩

private def plainRendering : Rendering where
  instant := toString
  errorColor := id
  stackTrace := id

/-- After one event of the first load test its count is one less. -/
theorem flow_isolated_first :
    ∃ ls c, Run (FlowTask.step plainRendering agentChunking) (HandlesOwn 1)
        ⟨loadStart, []⟩ ls c ∧ eventCount 1 ls = 1 ∧
      (∀ b stream, FlowTask.request b (.ask stream) ∈ c.tasks → stream = b.run) ∧
      ∀ b, b.run = 1 → FlowTask.load (.stream b .idle) ∈ c.tasks →
        c.shared.flow.demand 1 =
            agentChunking.consumer.map
              (fun n => n + chunkCounter agentChunking.count (eventCount 1 ls)) ∧
          c.shared.flow.demand 1 ≠ some 0 := by
  obtain ⟨ls, c, hrun, hend⟩ := exists_run_of_exec
    (FlowTask.step plainRendering agentChunking)
    (fun c label => decide (HandlesOwn 1 c label)) ⟨loadStart, []⟩
    (startMoves ++ .act 0 (.next firstEvent) :: List.replicate 5 (.act 0 (.go 0)))
    (fun ls _ => decide (eventCount 1 ls = 1)) (by decide)
  have hown : Run (FlowTask.step plainRendering agentChunking) (HandlesOwn 1)
      ⟨loadStart, []⟩ ls c := hrun.mono fun _ _ h => of_decide_eq_true h
  exact ⟨ls, c, hown, of_decide_eq_true hend,
    flow_isolated plainRendering agentChunking (by decide) 1 loadStart ls c hown⟩

/-! ## Two load tests -/

/-- The load test is running and its stream may send events, while the requester holds
the count of another stream. -/
structure Beside (other : Nat) (b : LoadTestStart) (counter : Nat) (s : FlowPanel) : Prop where
  active : s.flow.active = some other
  subscribed : s.flow.subscribed other = true
  counter : s.flow.chunksCounter other = counter
  demand : s.flow.demand b.run = none
  live : s.panel.loads.live b.run = true
  running : (s.panel.runningLoadTest b.loadTest.id).isSome = true
  log : (s.panel.store.logs.get b.loadTest.logId).isSome = true

/-- New runs start, and nothing else is called. -/
def StartsOnly (_ : Config FlowPanel FlowTask) :
    Label FlowTask (Signal LoadTestEvent) → Bool
  | .call (.load (.startLog _)) | .act _ _ => true
  | .call _ => false

variable {other counter : Nat} {b : LoadTestStart} {others : List FlowTask}

/-- An action of the first task of the pool. -/
theorem run_of_head {u : FlowTask} (h : t.step r k x s = some (s', [u])) :
    Run (FlowTask.step r k) (fun c l => StartsOnly c l = true) ⟨s, t :: others⟩
      [.act t x] ⟨s', u :: others⟩ := by
  have hstep : Step (FlowTask.step r k) ⟨s, t :: others⟩ (.act t x) ⟨s', [u] ++ others⟩ :=
    .act (.refl _) h
  exact .single hstep rfl

/-- An event is handled up to the count of the other stream. -/
theorem Beside.handle (h : Beside other b counter s) :
    ∃ ls s', Run (FlowTask.step r k) (fun c l => StartsOnly c l = true)
        ⟨s, .load (.stream b .idle) :: others⟩ ls ⟨s', .request b (.count other) :: others⟩ ∧
      Beside other b counter s' := by
  obtain ⟨stored, hstored⟩ := Option.isSome_iff_exists.mp h.running
  obtain ⟨log, hlog⟩ := Option.isSome_iff_exists.mp h.log
  have hid : stored.id = b.loadTest.id :=
    Space.key_of_get (Option.filter_eq_some_iff.mp hstored).1
  have hlogId : log.id = b.loadTest.logId := Space.key_of_get hlog
  let event : LoadTestEvent := ⟨stored, "", []⟩
  let flow := s.flow.deliver b.run
  let panel := s.panel.putLog (log.record event.logRecord)
  have hnext : (FlowTask.load (.stream b .idle)).step r k (.next event) s =
      some (⟨s.panel, flow⟩, [.load (.stream b (.eventRead event))]) := by
    simp [FlowTask.step, LoadTestTask.step, loadStreamStep, Flow.withholds, h.demand,
      h.live, hid, event, FlowTask.ofLoad, Flow.after, flow]
  have hread : (FlowTask.load (.stream b (.eventRead event))).step r k (.go 0)
      ⟨s.panel, flow⟩ =
      some (⟨s.panel, flow⟩, [.load (.stream b (.eventLogRead stored event))]) := by
    simp [FlowTask.step, LoadTestTask.step, loadStreamStep, Flow.withholds, hstored,
      FlowTask.ofLoad, Flow.after]
  have hlogRead : (FlowTask.load (.stream b (.eventLogRead stored event))).step r k (.go 0)
      ⟨s.panel, flow⟩ =
      some (⟨s.panel, flow⟩, [.load (.stream b (.eventLogPut stored event log))]) := by
    simp [FlowTask.step, LoadTestTask.step, loadStreamStep, Flow.withholds,
      PanelStore.getLog, PanelStore.orElseThrow, hlog, FlowTask.ofLoad, Flow.after]
  have hlogPut : (FlowTask.load (.stream b (.eventLogPut stored event log))).step r k (.go 0)
      ⟨s.panel, flow⟩ = some (⟨panel, flow⟩, [.request b .read]) := by
    simp [FlowTask.step, LoadTestTask.step, loadStreamStep, Flow.withholds,
      compareLoadEvent, event, FlowTask.ofLoad, Flow.after, panel]
  have hrequest : (FlowTask.request b .read).step r k (.go 0) ⟨panel, flow⟩ =
      some (⟨panel, flow⟩, [.request b (.count other)]) := by
    simp [FlowTask.step, requestStep, flow, Flow.deliver, h.active]
  refine ⟨_, ⟨panel, flow⟩, (run_of_head hnext).trans <| (run_of_head hread).trans <|
    (run_of_head hlogRead).trans <| (run_of_head hlogPut).trans (run_of_head hrequest), ?_⟩
  refine ⟨h.active, h.subscribed, h.counter, ?_, h.live, h.running, ?_⟩
  · simp [flow, Flow.deliver, h.demand]
  · have hkey : b.loadTest.logId = Keyed.key (log.record event.logRecord) := hlogId.symm
    change ((s.panel.store.logs.put (log.record event.logRecord)).get _).isSome = true
    rw [hkey, Space.get_put_self]
    rfl

theorem Beside.with_counter (h : Beside other b counter s) {flow : Flow} {counter' : Nat}
    (hflow : flow = { s.flow with
      chunksCounter := update s.flow.chunksCounter other counter' }) :
    Beside other b counter' { s with flow := flow } := by
  subst hflow
  exact ⟨h.active, h.subscribed, Function.update_self _ _ _, h.demand, h.live, h.running,
    h.log⟩

/-- An event takes down the count of the other stream. -/
theorem Beside.event (h : Beside other b (counter + 1) s) (hcounter : counter ≠ k.count / 2) :
    ∃ ls s', Run (FlowTask.step r k) (fun c l => StartsOnly c l = true)
        ⟨s, .load (.stream b .idle) :: others⟩ ls ⟨s', .load (.stream b .idle) :: others⟩ ∧
      Beside other b counter s' := by
  obtain ⟨ls, s', hrun, hbeside⟩ := h.handle
  have hpassed : s'.flow.chunksCounter other - 1 = counter := by
    rw [hbeside.counter]
    omega
  have hcount : (FlowTask.request b (.count other)).step r k (.go 0) s' =
      some ({ s' with flow := s'.flow.decrement other }, [.load (.stream b .idle)]) := by
    have htest : ¬ (s'.flow.decrement other).chunksCounter other =
        ((k.count / 2 : Nat) : Int) := by
      rw [show (s'.flow.decrement other).chunksCounter other = counter from
        (Function.update_self _ _ _).trans hpassed]
      omega
    simp only [FlowTask.step, requestStep, if_neg htest]
  refine ⟨_, _, hrun.trans (run_of_head hcount), hbeside.with_counter ?_⟩
  rw [Flow.decrement, hpassed]

/-- The event at which the count of the other stream reaches its half asks for events of
the other stream. -/
theorem Beside.asks (h : Beside other b (k.count / 2 + 1) s) :
    ∃ ls s', Run (FlowTask.step r k) (fun c l => StartsOnly c l = true)
        ⟨s, .load (.stream b .idle) :: others⟩ ls ⟨s', .request b (.ask other) :: others⟩ ∧
      Beside other b (k.count / 2 + k.count) s' := by
  obtain ⟨ls, s', hrun, hbeside⟩ := h.handle
  have hpassed : s'.flow.chunksCounter other - 1 = ((k.count / 2 : Nat) : Int) := by
    rw [hbeside.counter]
    omega
  have hfull : (s'.flow.decrement other).chunksCounter other = ((k.count / 2 : Nat) : Int) :=
    (Function.update_self _ _ _).trans hpassed
  have hcount : (FlowTask.request b (.count other)).step r k (.go 0) s' =
      some ({ s' with flow := s'.flow.decrement other }, [.request b (.refill other)]) := by
    simp only [FlowTask.step, requestStep, if_pos hfull]
  have hrefill : (FlowTask.request b (.refill other)).step r k (.go 0)
      { s' with flow := s'.flow.decrement other } =
      some ({ s' with flow := (s'.flow.decrement other).refill k other },
        [.request b (.ask other)]) := rfl
  refine ⟨_, _, (hrun.trans (run_of_head hcount)).trans (run_of_head hrefill),
    hbeside.with_counter ?_⟩
  rw [Flow.refill, hfull, Flow.decrement, Function.update_idem, Int.natCast_add]

/-- Event by event the count of the other stream falls to its half. -/
theorem Beside.fall (m : Nat) (h : Beside other b (k.count / 2 + 1 + m) s) :
    ∃ ls s', Run (FlowTask.step r k) (fun c l => StartsOnly c l = true)
        ⟨s, .load (.stream b .idle) :: others⟩ ls ⟨s', .request b (.ask other) :: others⟩ ∧
      Beside other b (k.count / 2 + k.count) s' := by
  induction m generalizing s with
  | zero => exact h.asks
  | succ m ih =>
      have hcounter : k.count / 2 + 1 + m ≠ k.count / 2 := by omega
      obtain ⟨ls, s', hrun, hbeside⟩ := Beside.event h hcounter
      obtain ⟨ls', s'', hrun', hasks⟩ := ih hbeside
      exact ⟨ls ++ ls', s'', hrun.trans hrun', hasks⟩

/-- Two load tests start one after the other, and the first one handles an event. -/
private def besideMoves : List (Move FlowTask (Signal LoadTestEvent)) :=
  startMoves ++ startMoves ++
    .act 2 (.next firstEvent) :: List.replicate 5 (.act 0 (.go 0))

private def isBeside (other counter : Nat) (s : FlowPanel) (b : LoadTestStart) : Bool :=
  s.flow.active = some other && s.flow.subscribed other &&
    s.flow.chunksCounter other = counter && s.flow.demand b.run = none &&
    s.panel.loads.live b.run && (s.panel.runningLoadTest b.loadTest.id).isSome &&
    (s.panel.store.logs.get b.loadTest.logId).isSome

private theorem beside_of_isBeside (h : isBeside other counter s b = true) :
    Beside other b counter s := by
  simp only [isBeside, Bool.and_eq_true, decide_eq_true_eq] at h
  obtain ⟨⟨⟨⟨⟨⟨hactive, hsubscribed⟩, hcounter⟩, hdemand⟩, hlive⟩, hrunning⟩, hlog⟩ := h
  exact ⟨hactive, hsubscribed, hcounter, hdemand, hlive, hrunning, hlog⟩

/-- The first task handles the stream of the first run beside the stream of the second. -/
private def handlesBeside (c : Config FlowPanel FlowTask) : Bool :=
  match c.tasks with
  | .load (.stream b .idle) :: _ => b.run = 1 && isBeside 2 511 c.shared b
  | _ => false

/-- The first of two running load tests asks for events of the second one: it is the
stream of the second that was chunked last. -/
theorem neighbour_asked :
    ∃ ls c, Run (FlowTask.step plainRendering agentChunking)
        (fun c l => StartsOnly c l = true) ⟨loadStart, []⟩ ls c ∧
      ∃ b, FlowTask.request b (.ask 2) ∈ c.tasks ∧ b.run = 1 ∧
        (c.shared.panel.runningLoadTest b.loadTest.id).isSome = true := by
  obtain ⟨ls, c, hrun, hend⟩ := exists_run_of_exec
    (FlowTask.step plainRendering agentChunking) StartsOnly ⟨loadStart, []⟩ besideMoves
    (fun _ => handlesBeside) (by decide)
  obtain ⟨s, tasks⟩ := c
  unfold handlesBeside at hend
  split at hend
  · rename_i b others htasks
    obtain ⟨hfirst, hbeside⟩ := Bool.and_eq_true_iff.mp hend
    have hstart : Beside 2 b (agentChunking.count / 2 + 1 + 254) s :=
      beside_of_isBeside hbeside
    obtain ⟨ls', s', hrun', hasks⟩ :=
      hstart.fall (r := plainRendering) 254
    cases htasks
    exact ⟨ls ++ ls', _, hrun.trans hrun', b, List.mem_cons_self, of_decide_eq_true hfirst,
      hasks.running⟩
  · cases hend

end ArtPlatform
