import Mathlib.Data.List.Basic
import Mathlib.Data.List.TakeWhile

/-!
# The emitter of a stream of events

An agent answers with a stream.  What works on the answer shares one emitter, which
holds the current event: an emission reads it, builds the next event from it, writes that
back and hands the current event to the sink.  Nothing locks the emitter, so emissions of
different threads mix at every one of these steps, and one may write over another.

Main results:

- Theorem `EmitterAction.perform_keepsPart`: a part of the event that no emission changes
  stays as it is, however the emissions mix.
- Theorem `getLast?_events_emitted`: an emission that nothing disturbs hands on the event
  it has built.
- Theorem `received_of_open`: a sink without an error passes every event on.
-/

namespace ArtPlatform

/-- What the sink has been told. -/
inductive SinkSignal (E : Type)
  | next (event : E)
  | error
deriving DecidableEq

structure ReactiveEmitter (E : Type) where
  current : E
  signals : List (SinkSignal E) := []

/-- A mutator works on the event that the emission has read; it may also ask the emitter
for the event that is current while it runs. -/
abbrev Mutator (E : Type) :=
  E → E → E

inductive SinkCall
  | next
  | error

/-- What is left of an emission. -/
inductive EmitterAction (E : Type)
  | read (mutator : Mutator E) (call : SinkCall)
  | mutate (mutator : Mutator E) (base : E) (call : SinkCall)
  | write (event : E) (call : SinkCall)
  | reread (call : SinkCall)
  | send (signal : SinkSignal E)

variable {E β : Type}

/-- One action of an emission, and the next one. -/
def EmitterAction.perform (e : ReactiveEmitter E) :
    EmitterAction E → ReactiveEmitter E × Option (EmitterAction E)
  | .read mutator call => (e, some (.mutate mutator e.current call))
  | .mutate mutator base call => (e, some (.write (mutator base e.current) call))
  | .write event call => ({ e with current := event }, some (.reread call))
  | .reread .next => (e, some (.send (.next e.current)))
  | .reread .error => (e, some (.send .error))
  | .send signal => ({ e with signals := e.signals ++ [signal] }, none)

namespace ReactiveEmitter

def emit (mutator : Mutator E) : EmitterAction E :=
  .read mutator .next

def emitError : EmitterAction E :=
  .read (fun base _ => base) .error

/-- What an emission comes to that nothing disturbs. -/
def emitted (e : ReactiveEmitter E) (mutator : Mutator E) : ReactiveEmitter E where
  current := mutator e.current e.current
  signals := e.signals ++ [.next (mutator e.current e.current)]

/-- The events handed to the sink. -/
def events (e : ReactiveEmitter E) : List E :=
  e.signals.filterMap fun
    | .next event => some event
    | .error => none

/-- The events that the sink passes on: none after an error. -/
def received (e : ReactiveEmitter E) : List E :=
  events { e with
    signals := e.signals.takeWhile fun
      | .next _ => true
      | .error => false }

/-- A sink without an error passes every event on. -/
theorem received_of_open {e : ReactiveEmitter E} (h : .error ∉ e.signals) :
    e.received = e.events := by
  unfold received
  rw [List.takeWhile_eq_self_iff.mpr]
  intro signal hmem
  cases signal with
  | next event => rfl
  | error => exact absurd hmem h

theorem getLast?_events_emitted (e : ReactiveEmitter E) (mutator : Mutator E) :
    (e.emitted mutator).events.getLast? = some (e.emitted mutator).current := by
  simp [events, emitted]

theorem getLast?_events_foldl_emitted {e : ReactiveEmitter E} (mutators : List (Mutator E))
    (h : e.events.getLast? = some e.current) :
    (mutators.foldl emitted e).events.getLast? = some (mutators.foldl emitted e).current := by
  induction mutators generalizing e with
  | nil => exact h
  | cons mutator mutators ih => exact ih (getLast?_events_emitted e mutator)

end ReactiveEmitter

/-! ## What no emission changes -/

/-- An emission under way does not change a part of the event. -/
def EmitterAction.KeepsPart (part : E → β) (value : β) : EmitterAction E → Prop
  | .read mutator _ =>
      ∀ base now, part base = value → part now = value → part (mutator base now) = value
  | .mutate mutator base _ => ∀ now, part now = value → part (mutator base now) = value
  | .write event _ => part event = value
  | .reread _ | .send _ => True

/-- A part of the event that no emission changes stays as it is, however they mix. -/
theorem EmitterAction.perform_keepsPart {part : E → β} {value : β} {e : ReactiveEmitter E}
    {a : EmitterAction E} (he : part e.current = value) (ha : a.KeepsPart part value) :
    part (a.perform e).1.current = value ∧
      ∀ b ∈ (a.perform e).2, b.KeepsPart part value := by
  cases a with
  | read mutator call =>
      refine ⟨he, ?_⟩
      rintro _ ⟨⟩
      exact fun now hnow => ha e.current now he hnow
  | mutate mutator base call =>
      refine ⟨he, ?_⟩
      rintro _ ⟨⟩
      exact ha e.current he
  | write event call =>
      refine ⟨ha, ?_⟩
      rintro _ ⟨⟩
      trivial
  | reread call =>
      cases call <;>
      · refine ⟨he, ?_⟩
        rintro _ ⟨⟩
        trivial
  | send signal =>
      refine ⟨he, ?_⟩
      rintro _ ⟨⟩

end ArtPlatform
