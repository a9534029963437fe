import ArtPlatform.Foundation.Interleaving
import ArtPlatform.ManagementPanel.Store
import Mathlib.Logic.Function.Basic

/-!
# The panel's process state

Beside the database the panel keeps process-wide maps of the streams it has
subscribed to and of the agents it has started.  This file gives those maps,
the signals that drive the panel's tasks, and the text of a formatted log
record.

A stream is named by the run that subscribed to it.  The maps of the source
hold subscription, disposable and client objects; here they hold the run that
registered the object, which is what distinguishes two objects under one key.
-/

namespace ArtPlatform

/-- What drives a task: its thread goes on with a number of its environment (the
clock, or the id of a file it has stored), a call it makes fails, or its stream
sends a signal. -/
inductive Signal (ε : Type)
  | go (now : Nat)
  | fail (message : String)
  | next (event : ε)
  | complete
  | error (message : String)

/-- The clock reading of a signal that carries one. -/
def Signal.clock {ε : Type} : Signal ε → Nat
  | .go now => now
  | .fail _ | .next _ | .complete | .error _ => 0

/-- Texts that the JDK and the colorizer produce. -/
structure Rendering where
  instant : Nat → String
  errorColor : String → String
  /-- The stack trace of the exception of a message. -/
  stackTrace : String → String

def formatLogRecord (r : Rendering) (now : Nat) (record : String) : String :=
  "[" ++ r.instant now ++ "]: " ++ record

/-! ## Streams and agents -/

/-- The concurrent maps of a service that builds or loads on agents, with the
pods its agents run in.  `latest` and `runs` only number the runs of the process: no
action of the source depends on them.  Runs of an earlier process have the number 0. -/
structure Registry where
  subscriptions : Nat → Option Nat := fun _ => none
  agents : Nat → Option Nat := fun _ => none
  disposables : Nat → Option Nat := fun _ => none
  requester : Nat → Bool := fun _ => false
  /-- The run whose agent the pod of an entity belongs to. -/
  pods : Nat → Option Nat := fun _ => none
  /-- Streams that are subscribed and neither cancelled nor terminated. -/
  live : Nat → Bool := fun _ => false
  /-- The last run that was stored for an entity. -/
  latest : Nat → Nat := fun _ => 0
  runs : Nat := 1

namespace Registry

open Function (update)

/-- Cancelling or disposing an absent stream does nothing. -/
def silence (reg : Registry) : Option Nat → Registry
  | none => reg
  | some run => { reg with live := update reg.live run false }

def cancelSubscription (reg : Registry) (id : Nat) : Registry :=
  reg.silence (reg.subscriptions id)

def dispose (reg : Registry) (id : Nat) : Registry :=
  reg.silence (reg.disposables id)

/-- The stream of a run ends. -/
def terminate (reg : Registry) (run : Nat) : Registry :=
  reg.silence (some run)

def createPod (reg : Registry) (id run : Nat) : Registry :=
  { reg with pods := update reg.pods id (some run) }

def deletePod (reg : Registry) (id : Nat) : Registry :=
  { reg with pods := update reg.pods id none }

def setAgent (reg : Registry) (id run : Nat) : Registry :=
  { reg with agents := update reg.agents id (some run) }

def setRequester (reg : Registry) (id : Nat) : Registry :=
  { reg with requester := update reg.requester id true }

/-- `doOnSubscribe`: the stream starts and its subscription is registered. -/
def subscribe (reg : Registry) (id run : Nat) : Registry :=
  { reg with
    subscriptions := update reg.subscriptions id (some run)
    live := update reg.live run true }

def setDisposable (reg : Registry) (id run : Nat) : Registry :=
  { reg with disposables := update reg.disposables id (some run) }

def removeAgent (reg : Registry) (id : Nat) : Registry :=
  { reg with agents := update reg.agents id none }

def removeDisposable (reg : Registry) (id : Nat) : Registry :=
  { reg with disposables := update reg.disposables id none }

def removeSubscription (reg : Registry) (id : Nat) : Registry :=
  { reg with subscriptions := update reg.subscriptions id none }

def removeRequester (reg : Registry) (id : Nat) : Registry :=
  { reg with requester := update reg.requester id false }

/-- Number the run that has just been stored for an entity. -/
def startRun (reg : Registry) (id : Nat) : Registry :=
  { reg with latest := update reg.latest id reg.runs, runs := reg.runs + 1 }

end Registry

/-- The database with the maps of the build and of the load-test service. -/
structure PanelState where
  store : PanelStore
  builds : Registry := {}
  loads : Registry := {}

namespace PanelState

def putAssembly (s : PanelState) (a : Assembly) : PanelState :=
  { s with store := s.store.putAssembly a }

def putLoadTest (s : PanelState) (t : LoadTest) : PanelState :=
  { s with store := s.store.putLoadTest t }

def putLog (s : PanelState) (log : Log) : PanelState :=
  { s with store := s.store.putLog log }

/-- Change the maps of the build service. -/
def onBuilds (s : PanelState) (f : Registry → Registry) : PanelState :=
  { s with builds := f s.builds }

/-- Change the maps of the load-test service. -/
def onLoads (s : PanelState) (f : Registry → Registry) : PanelState :=
  { s with loads := f s.loads }

@[simp] theorem putAssembly_store (s : PanelState) (a : Assembly) :
    (s.putAssembly a).store = s.store.putAssembly a := rfl

@[simp] theorem putAssembly_builds (s : PanelState) (a : Assembly) :
    (s.putAssembly a).builds = s.builds := rfl

@[simp] theorem putLoadTest_store (s : PanelState) (t : LoadTest) :
    (s.putLoadTest t).store = s.store.putLoadTest t := rfl

@[simp] theorem putLog_store (s : PanelState) (log : Log) :
    (s.putLog log).store = s.store.putLog log := rfl

@[simp] theorem putLog_builds (s : PanelState) (log : Log) :
    (s.putLog log).builds = s.builds := rfl

@[simp] theorem onBuilds_store (s : PanelState) (f : Registry → Registry) :
    (s.onBuilds f).store = s.store := rfl

@[simp] theorem onBuilds_builds (s : PanelState) (f : Registry → Registry) :
    (s.onBuilds f).builds = f s.builds := rfl

@[simp] theorem onLoads_store (s : PanelState) (f : Registry → Registry) :
    (s.onLoads f).store = s.store := rfl

end PanelState

end ArtPlatform
