import Mathlib.Data.List.Basic
import Mathlib.Tactic.Common

/-!
# The synchronizer of the web client

A synchronizer starts a list of actions and counts their calls of `process`.  Unmanaged,
it starts all of them at once; managed, one after the other.  When as many calls as there
are actions have been counted, it runs the completion handlers.

Actions and handlers are symbols: a call returns the handlers it runs and then the actions
it starts.
-/

namespace ArtPlatform.Web

structure Synchronizer (A H : Type) where
  actions : List A := []
  isManaged : Bool := false
  counter : Nat := 0
  done : Bool := false
  onStartHandlers : List H := []
  onCompleteHandlers : List H := []

/-- What a call of a synchronizer runs. -/
structure SynchronizerCalls (A H : Type) where
  handlers : List H := []
  actions : List A := []

namespace Synchronizer

variable {A H : Type}

def managed (s : Synchronizer A H) : Synchronizer A H :=
  { s with isManaged := true }

/-- `actions.shift()`, and the call of the action if there is one. -/
def shift (s : Synchronizer A H) : Synchronizer A H × List A :=
  match s.actions with
  | [] => (s, [])
  | action :: rest => ({ s with actions := rest }, [action])

def start (s : Synchronizer A H) : Synchronizer A H × SynchronizerCalls A H :=
  if s.counter = s.actions.length then (s, { handlers := s.onCompleteHandlers })
  else if s.isManaged then
    let (next, first) := s.shift
    (next, { handlers := s.onStartHandlers, actions := first })
  else (s, { handlers := s.onStartHandlers, actions := s.actions })

def action (s : Synchronizer A H) (action : A) : Synchronizer A H :=
  { s with actions := s.actions ++ [action] }

def process (s : Synchronizer A H) : Synchronizer A H × SynchronizerCalls A H :=
  let counted := { s with counter := s.counter + 1 }
  if counted.actions.length ≤ counted.counter then
    ({ counted with done := true }, { handlers := s.onCompleteHandlers })
  else if s.isManaged then
    let (next, first) := counted.shift
    (next, { actions := first })
  else (counted, {})

def reset (s : Synchronizer A H) : Synchronizer A H :=
  { s with actions := [], counter := 0, done := false }

/-- Start handlers run in the order in which they were added. -/
def onStart (s : Synchronizer A H) (handler : H) : Synchronizer A H :=
  { s with onStartHandlers := s.onStartHandlers ++ [handler] }

/-- The completion handler that was added last runs first. -/
def onComplete (s : Synchronizer A H) (handler : H) : Synchronizer A H :=
  { s with onCompleteHandlers := handler :: s.onCompleteHandlers }

/-! ## What the calls do -/

variable {s : Synchronizer A H}

@[simp] theorem foldl_action (s : Synchronizer A H) (as : List A) :
    as.foldl action s = { s with actions := s.actions ++ as } := by
  induction as generalizing s with
  | nil => simp
  | cons a as ih => simp [ih, action]

theorem start_of_eq (h : s.counter = s.actions.length) :
    s.start = (s, { handlers := s.onCompleteHandlers }) :=
  if_pos h

theorem start_of_ne (hmanaged : s.isManaged = false) (h : s.counter ≠ s.actions.length) :
    s.start = (s, { handlers := s.onStartHandlers, actions := s.actions }) := by
  simp [start, hmanaged, h]

theorem process_of_le (h : s.actions.length ≤ s.counter + 1) :
    s.process =
      ({ s with counter := s.counter + 1, done := true },
        { handlers := s.onCompleteHandlers }) :=
  if_pos h

theorem process_of_lt (hmanaged : s.isManaged = false)
    (h : s.counter + 1 < s.actions.length) :
    s.process = ({ s with counter := s.counter + 1 }, {}) := by
  simp [process, hmanaged, Nat.not_le.mpr h]

end Synchronizer

end ArtPlatform.Web
