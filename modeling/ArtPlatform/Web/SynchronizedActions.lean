import ArtPlatform.Foundation.EventRun
import ArtPlatform.Web.Synchronizer

/-!
# Actions started by a synchronizer

`start` begins the actions of a synchronizer, and each of them calls `process` once: within
its own call, or later.  The loop of an unmanaged start begins the next action when the
last one has returned; a managed `process` begins the next action itself.

Main results:

- Theorem `runsOnce_iff`: every action is begun once and the completion fires once, behind
  all of them, exactly if the synchronizer is unmanaged or has at most one action.
- Theorem `second_action_not_run`: a managed synchronizer of two actions.
-/

namespace ArtPlatform.Web

open EventRun

/-- The handlers of `onStart` run together, and so do those of `onComplete`. -/
inductive SynchronizerHandler
  | started
  | completed
deriving DecidableEq, Repr

/-- What a run shows: handlers, begun actions, and calls of `process` by the action that
was begun at an index. -/
inductive SynchronizerSignal (A : Type)
  | handler (handler : SynchronizerHandler)
  | action (action : A)
  | process (index : Nat)
deriving DecidableEq, Repr

/-- The actions that the code under way has still to call, the indexes of the begun ones
that have not called `process`, and the signals so far. -/
structure SynchronizerRun (A : Type) where
  synchronizer : Synchronizer A SynchronizerHandler
  loop : List A
  waiting : List Nat := []
  signals : List (SynchronizerSignal A)

inductive SynchronizerEvent
  | next
  | process (index : Nat)
deriving DecidableEq, Repr

variable {A : Type}

def begunActions (signals : List (SynchronizerSignal A)) : List A :=
  signals.filterMap fun
    | .action action => some action
    | _ => none

def processes (signals : List (SynchronizerSignal A)) : Nat :=
  signals.countP fun
    | .process _ => true
    | _ => false

def completionsFired (signals : List (SynchronizerSignal A)) : Nat :=
  signals.countP fun
    | .handler .completed => true
    | _ => false

/-- `synchronize`, with its handlers and actions. -/
def synchronize (managed : Bool) (actions : List A) : Synchronizer A SynchronizerHandler :=
  let synchronizer :=
    actions.foldl Synchronizer.action
      ((({} : Synchronizer A SynchronizerHandler).onStart .started).onComplete .completed)
  if managed then synchronizer.managed else synchronizer

namespace SynchronizerRun

/-- The handlers of a call run at once; its actions are called one after the other. -/
def perform (s : SynchronizerRun A) (synchronizer : Synchronizer A SynchronizerHandler)
    (calls : SynchronizerCalls A SynchronizerHandler) : SynchronizerRun A :=
  { s with
    synchronizer := synchronizer
    loop := s.loop ++ calls.actions
    signals := s.signals ++ calls.handlers.map .handler }

def start (managed : Bool) (actions : List A) : SynchronizerRun A :=
  let synchronizer := synchronize managed actions
  perform ⟨synchronizer, [], [], []⟩ synchronizer.start.1 synchronizer.start.2

/-- The next action is called, or an action calls `process`: while others are still to be
called, only the one that was called last can. -/
def step (s : SynchronizerRun A) : SynchronizerEvent → Option (SynchronizerRun A)
  | .next =>
      match s.loop with
      | [] => none
      | action :: loop => some { s with
          loop := loop
          waiting := s.waiting ++ [(begunActions s.signals).length]
          signals := s.signals ++ [.action action] }
  | .process index =>
      if index ∈ s.waiting ∧ (s.loop = [] ∨ index + 1 = (begunActions s.signals).length) then
        let called : SynchronizerRun A := { s with
          waiting := s.waiting.erase index
          signals := s.signals ++ [.process index] }
        some (called.perform s.synchronizer.process.1 s.synchronizer.process.2)
      else none

end SynchronizerRun

/-- Every action is begun once, in the order of the list, and with a managed synchronizer
when all before have called `process`; the completion fires once, when all have. -/
structure RunsOnce (managed : Bool) (actions : List A)
    (signals : List (SynchronizerSignal A)) : Prop where
  begun : begunActions signals = actions
  oneAtATime : managed = true → EachEvent signals fun before signal =>
    (∃ action, signal = .action action) → processes before = (begunActions before).length
  once : completionsFired signals = 1
  behindAll : EachEvent signals fun before signal =>
    signal = .handler .completed → processes before = actions.length

/-! ## Signals -/

variable {signals : List (SynchronizerSignal A)}

@[simp]
theorem begunActions_append (signals signals' : List (SynchronizerSignal A)) :
    begunActions (signals ++ signals') = begunActions signals ++ begunActions signals' :=
  List.filterMap_append

@[simp]
theorem processes_append (signals signals' : List (SynchronizerSignal A)) :
    processes (signals ++ signals') = processes signals + processes signals' :=
  List.countP_append

@[simp]
theorem completionsFired_append (signals signals' : List (SynchronizerSignal A)) :
    completionsFired (signals ++ signals') =
      completionsFired signals + completionsFired signals' :=
  List.countP_append

@[simp]
theorem begunActions_action (action : A) :
    begunActions (.action action :: signals) = action :: begunActions signals :=
  rfl

@[simp]
theorem begunActions_process (index : Nat) :
    begunActions (.process index :: signals) = begunActions signals :=
  rfl

@[simp]
theorem begunActions_handler (handler : SynchronizerHandler) :
    begunActions (.handler handler :: signals) = begunActions signals :=
  rfl

@[simp]
theorem begunActions_handlers (handlers : List SynchronizerHandler) :
    begunActions (handlers.map (.handler : SynchronizerHandler → SynchronizerSignal A)) = [] := by
  induction handlers with
  | nil => rfl
  | cons handler handlers ih => exact ih

@[simp]
theorem processes_action (action : A) :
    processes (.action action :: signals) = processes signals :=
  List.countP_cons_of_neg (by simp)

@[simp]
theorem processes_process (index : Nat) :
    processes (.process index :: signals) = processes signals + 1 :=
  List.countP_cons_of_pos (by simp)

@[simp]
theorem processes_handler (handler : SynchronizerHandler) :
    processes (.handler handler :: signals) = processes signals :=
  List.countP_cons_of_neg (by simp)

@[simp]
theorem completionsFired_action (action : A) :
    completionsFired (.action action :: signals) = completionsFired signals :=
  List.countP_cons_of_neg (by simp)

@[simp]
theorem completionsFired_process (index : Nat) :
    completionsFired (.process index :: signals) = completionsFired signals :=
  List.countP_cons_of_neg (by simp)

@[simp]
theorem completionsFired_completed :
    completionsFired (.handler .completed :: signals) = completionsFired signals + 1 :=
  List.countP_cons_of_pos (by simp)

@[simp]
theorem signals_nil : begunActions ([] : List (SynchronizerSignal A)) = [] ∧
    processes ([] : List (SynchronizerSignal A)) = 0 ∧
    completionsFired ([] : List (SynchronizerSignal A)) = 0 :=
  ⟨rfl, rfl, rfl⟩

/-! ## The calls of the synchronizer -/

theorem synchronize_eq (managed : Bool) (actions : List A) :
    synchronize managed actions =
      { actions := actions, isManaged := managed, onStartHandlers := [.started],
        onCompleteHandlers := [.completed] } := by
  cases managed <;> simp [synchronize, Synchronizer.managed, Synchronizer.onStart,
    Synchronizer.onComplete]

/-- What a managed call of `process` does before the last action has been counted. -/
theorem process_managed {s : Synchronizer A SynchronizerHandler} (hmanaged : s.isManaged = true)
    (h : s.counter + 1 < s.actions.length) :
    ∃ action rest, s.actions = action :: rest ∧
      s.process =
        ({ s with counter := s.counter + 1, actions := rest }, { actions := [action] }) := by
  cases hactions : s.actions with
  | nil =>
      rw [hactions] at h
      cases h
  | cons action rest =>
      rw [hactions] at h
      refine ⟨action, rest, rfl, ?_⟩
      have hnot : ¬ (action :: rest).length ≤ s.counter + 1 := Nat.not_le.mpr h
      simp only [Synchronizer.process, Synchronizer.shift, hactions, if_neg hnot, hmanaged, if_true]

namespace SynchronizerRun

variable {managed : Bool} {actions : List A} {s t : SynchronizerRun A} {index : Nat}

theorem step_next_inv (h : s.step .next = some t) :
    ∃ action loop, s.loop = action :: loop ∧
      t = { s with
        loop := loop
        waiting := s.waiting ++ [(begunActions s.signals).length]
        signals := s.signals ++ [.action action] } := by
  simp only [step] at h
  split at h
  · cases h
  · exact ⟨_, _, ‹_›, (Option.some.inj h).symm⟩

theorem step_process_inv (h : s.step (.process index) = some t) :
    index ∈ s.waiting ∧
      t = perform { s with
        waiting := s.waiting.erase index
        signals := s.signals ++ [.process index] } s.synchronizer.process.1
          s.synchronizer.process.2 := by
  simp only [step] at h
  split at h
  next hguard => exact ⟨hguard.1, (Option.some.inj h).symm⟩
  next => cases h

/-! ## At most one action at a time -/

/-- Unmanaged, or managed with at most one action: the completion has fired exactly if all
actions have called `process`. -/
structure Regular (managed : Bool) (actions : List A) (s : SynchronizerRun A) : Prop where
  isManaged : s.synchronizer.isManaged = managed
  handlers : s.synchronizer.onCompleteHandlers = [.completed]
  left : s.synchronizer.actions = if managed then [] else actions
  begun : begunActions s.signals ++ s.loop = actions
  counted : s.synchronizer.counter = processes s.signals
  waits : processes s.signals + s.waiting.length = (begunActions s.signals).length
  once : completionsFired s.signals = if processes s.signals = actions.length then 1 else 0
  oneAtATime : managed = true → EachEvent s.signals fun before signal =>
    (∃ action, signal = .action action) → processes before = (begunActions before).length
  behindAll : EachEvent s.signals fun before signal =>
    signal = .handler .completed → processes before = actions.length

theorem regular_start (hfew : managed = false ∨ actions.length ≤ 1) :
    Regular managed actions (start managed actions) := by
  cases actions with
  | nil =>
      have hstart : start managed ([] : List A) =
          ⟨synchronize managed [], [], [], [.handler .completed]⟩ := by
        simp [start, perform, synchronize_eq, Synchronizer.start]
      rw [hstart, synchronize_eq]
      refine ⟨rfl, rfl, by simp, rfl, rfl, rfl, rfl, fun _ => ?_, ?_⟩
      · exact eachEvent_singleton_iff.mpr fun _ => rfl
      · exact eachEvent_singleton_iff.mpr fun _ => rfl
  | cons action rest =>
      cases managed with
      | false =>
          have hstart : start false (action :: rest) =
              ⟨synchronize false (action :: rest), action :: rest, [], [.handler .started]⟩ := by
            simp [start, perform, synchronize_eq, Synchronizer.start]
          rw [hstart, synchronize_eq]
          refine ⟨rfl, rfl, rfl, rfl, rfl, rfl, ?_, ?_, ?_⟩
          · simp [completionsFired, processes]
          · intro hmanaged
            cases hmanaged
          · rw [eachEvent_singleton_iff]
            intro hsame
            cases hsame
      | true =>
          have hnil : rest = [] := by
            rcases hfew with h | h
            · cases h
            · exact List.length_eq_zero_iff.mp (by simpa using h)
          subst hnil
          have hstart : start true [action] =
              ⟨{ synchronize true [action] with actions := [] }, [action], [],
                [.handler .started]⟩ := by
            simp [start, perform, synchronize_eq, Synchronizer.start, Synchronizer.shift]
          rw [hstart, synchronize_eq]
          refine ⟨rfl, rfl, rfl, rfl, rfl, rfl, ?_, ?_, ?_⟩
          · simp [completionsFired, processes]
          · intro _
            rw [eachEvent_singleton_iff]
            rintro ⟨_, hsame⟩
            cases hsame
          · rw [eachEvent_singleton_iff]
            intro hsame
            cases hsame

theorem Regular.next (h : Regular managed actions s) (hfew : managed = false ∨ actions.length ≤ 1)
    {action : A} {loop : List A} (hloop : s.loop = action :: loop) :
    Regular managed actions { s with
      loop := loop
      waiting := s.waiting ++ [(begunActions s.signals).length]
      signals := s.signals ++ [.action action] } := by
  have hbegun := h.begun
  have hwaits := h.waits
  rw [hloop] at hbegun
  refine ⟨h.isManaged, h.handlers, h.left, ?_, ?_, ?_, ?_, ?_, ?_⟩
  · simpa using hbegun
  · simpa using h.counted
  · simp
    omega
  · simpa using h.once
  · intro hmanaged
    rw [eachEvent_snoc_iff]
    refine ⟨h.oneAtATime hmanaged, fun _ => ?_⟩
    -- the only action is the first to be begun
    have hlength := congrArg List.length hbegun
    simp only [List.length_append, List.length_cons] at hlength
    rcases hfew with hfalse | hfew
    · rw [hmanaged] at hfalse
      cases hfalse
    · omega
  · rw [eachEvent_snoc_iff]
    exact ⟨h.behindAll, fun h => nomatch h⟩

theorem Regular.process (h : Regular managed actions s)
    (hfew : managed = false ∨ actions.length ≤ 1) (hindex : index ∈ s.waiting) :
    Regular managed actions (perform { s with
      waiting := s.waiting.erase index
      signals := s.signals ++ [.process index] } s.synchronizer.process.1
        s.synchronizer.process.2) := by
  have hwaits := h.waits
  have hcounted := h.counted
  have hlength := congrArg List.length h.begun
  rw [List.length_append] at hlength
  have hpos := List.length_pos_of_mem hindex
  have herase := List.length_erase_of_mem hindex
  have hnotYet : processes s.signals ≠ actions.length := by omega
  by_cases hlast : processes s.signals + 1 = actions.length
  · -- the last call fires the completion
    have hle : s.synchronizer.actions.length ≤ s.synchronizer.counter + 1 := by
      rw [h.left, hcounted, hlast]
      cases managed <;> simp
    rw [Synchronizer.process_of_le hle, h.handlers]
    refine ⟨h.isManaged, rfl, h.left, ?_, ?_, ?_, ?_, ?_, ?_⟩
    · simpa [perform] using h.begun
    · simp [perform, hcounted]
    · simp [perform]
      omega
    · simp [perform, h.once, hnotYet, hlast]
    · intro hmanaged
      simp only [perform, List.map_cons, List.map_nil]
      rw [eachEvent_snoc_iff, eachEvent_snoc_iff]
      exact ⟨⟨h.oneAtATime hmanaged, fun ⟨_, h⟩ => nomatch h⟩, fun ⟨_, h⟩ => nomatch h⟩
    · simp only [perform, List.map_cons, List.map_nil]
      rw [eachEvent_snoc_iff, eachEvent_snoc_iff]
      refine ⟨⟨h.behindAll, fun h => nomatch h⟩, fun _ => ?_⟩
      simpa using hlast
  · -- a managed synchronizer has no other action
    have hmanaged : managed = false := by
      rcases hfew with hfalse | hfew
      · exact hfalse
      · omega
    have hlt : s.synchronizer.counter + 1 < s.synchronizer.actions.length := by
      rw [h.left, hmanaged, hcounted]
      simp only [Bool.false_eq_true, if_false]
      omega
    rw [Synchronizer.process_of_lt (h.isManaged.trans hmanaged) hlt]
    refine ⟨h.isManaged, h.handlers, h.left, ?_, ?_, ?_, ?_, ?_, ?_⟩
    · simpa [perform] using h.begun
    · simp [perform, hcounted]
    · simp [perform]
      omega
    · simp [perform, h.once, hnotYet, hlast]
    · intro htrue
      rw [hmanaged] at htrue
      cases htrue
    · simp only [perform, List.map_nil, List.append_nil]
      rw [eachEvent_snoc_iff]
      exact ⟨h.behindAll, fun h => nomatch h⟩

theorem Regular.step (h : Regular managed actions s)
    (hfew : managed = false ∨ actions.length ≤ 1) {event : SynchronizerEvent}
    (hstep : s.step event = some t) : Regular managed actions t := by
  cases event with
  | next =>
      obtain ⟨action, loop, hloop, rfl⟩ := step_next_inv hstep
      exact h.next hfew hloop
  | process index =>
      obtain ⟨hindex, rfl⟩ := step_process_inv hstep
      exact h.process hfew hindex

theorem Regular.runsOnce (h : Regular managed actions s) (hloop : s.loop = [])
    (hwaiting : s.waiting = []) : RunsOnce managed actions s.signals := by
  have hbegun := h.begun
  have hwaits := h.waits
  rw [hloop, List.append_nil] at hbegun
  rw [hwaiting, hbegun, List.length_nil, Nat.add_zero] at hwaits
  refine ⟨hbegun, h.oneAtATime, ?_, h.behindAll⟩
  rw [h.once, if_pos hwaits]

/-! ## More actions -/

/-- A managed synchronizer of two actions or more keeps one of them: its list gets shorter
with every action, and its counter is compared with what is left. -/
structure KeepsOne (actions : List A) (s : SynchronizerRun A) : Prop where
  isManaged : s.synchronizer.isManaged = true
  left : 0 < s.synchronizer.actions.length
  shared : s.synchronizer.actions.length + s.loop.length + (begunActions s.signals).length =
    actions.length

theorem keepsOne_start (hmany : 1 < actions.length) : KeepsOne actions (start true actions) := by
  obtain ⟨first, second, rest, rfl⟩ : ∃ first second rest, actions = first :: second :: rest := by
    match actions, hmany with
    | first :: second :: rest, _ => exact ⟨first, second, rest, rfl⟩
  have hstart : start true (first :: second :: rest) =
      ⟨{ synchronize true (first :: second :: rest) with actions := second :: rest }, [first], [],
        [.handler .started]⟩ := by
    simp [start, perform, synchronize_eq, Synchronizer.start, Synchronizer.shift]
  rw [hstart, synchronize_eq]
  refine ⟨rfl, Nat.succ_pos _, ?_⟩
  simp [begunActions]

theorem KeepsOne.step (h : KeepsOne actions s) {event : SynchronizerEvent}
    (hstep : s.step event = some t) : KeepsOne actions t := by
  have hshared := h.shared
  cases event with
  | next =>
      obtain ⟨action, loop, hloop, rfl⟩ := step_next_inv hstep
      refine ⟨h.isManaged, h.left, ?_⟩
      rw [hloop, List.length_cons] at hshared
      simp
      omega
  | process index =>
      obtain ⟨-, rfl⟩ := step_process_inv hstep
      by_cases hlt : s.synchronizer.counter + 1 < s.synchronizer.actions.length
      · obtain ⟨action, rest, hactions, hprocess⟩ := process_managed h.isManaged hlt
        rw [hprocess]
        rw [hactions, List.length_cons] at hshared hlt
        refine ⟨h.isManaged, ?_, ?_⟩
        · simp only [perform]
          omega
        · simp [perform]
          omega
      · rw [Synchronizer.process_of_le (Nat.not_lt.mp hlt)]
        refine ⟨h.isManaged, h.left, ?_⟩
        simpa [perform] using hshared

theorem KeepsOne.not_runsOnce (h : KeepsOne actions s) :
    ¬ RunsOnce managed actions s.signals := by
  intro hruns
  have hshared := h.shared
  have hleft := h.left
  rw [hruns.begun] at hshared
  omega

end SynchronizerRun

/-! ## Every action once -/

/-- When all actions that were begun have called `process`, each action has been run once
and the completion has fired once, behind all of them, exactly if the synchronizer is
unmanaged or has at most one action. -/
theorem runsOnce_iff (managed : Bool) (actions : List A) (events : List SynchronizerEvent)
    {s : SynchronizerRun A}
    (hrun : run SynchronizerRun.step (SynchronizerRun.start managed actions) events = some s)
    (hloop : s.loop = []) (hwaiting : s.waiting = []) :
    RunsOnce managed actions s.signals ↔ managed = false ∨ actions.length ≤ 1 := by
  constructor
  · intro hruns
    by_contra hmany
    rw [not_or, Bool.not_eq_false, Nat.not_le] at hmany
    obtain ⟨hmanaged, hmany⟩ := hmany
    subst hmanaged
    have hkeeps : SynchronizerRun.KeepsOne actions s := by
      apply EventRun.invariant_of_run (SynchronizerRun.keepsOne_start hmany) hrun
      exact fun u event v hu hstep => hu.step hstep
    exact hkeeps.not_runsOnce hruns
  · intro hfew
    have hregular : SynchronizerRun.Regular managed actions s := by
      apply EventRun.invariant_of_run (SynchronizerRun.regular_start hfew) hrun
      exact fun u event v hu hstep => hu.step hfew hstep
    exact hregular.runsOnce hloop hwaiting

/-- Two actions: the first calls `process` while the second is still to be called. -/
theorem runsOnce_iff_unmanaged :
    RunsOnce false [1, 2]
        [.handler .started, .action 1, .process 0, .action 2, .process 1, .handler .completed] ↔
      false = false ∨ [1, 2].length ≤ 1 :=
  runsOnce_iff false [1, 2] [.next, .process 0, .next, .process 1] rfl rfl rfl

/-- Managed, the second of two actions is not run. -/
theorem second_action_not_run :
    ∃ s, run SynchronizerRun.step (SynchronizerRun.start true [1, 2]) [.next, .process 0] =
        some s ∧ s.loop = [] ∧ s.waiting = [] ∧
      s.signals = [.handler .started, .action 1, .process 0, .handler .completed] ∧
      ¬ RunsOnce true [1, 2] s.signals := by
  refine ⟨_, rfl, rfl, rfl, rfl, fun h => ?_⟩
  have hbegun : [1] = [1, 2] := h.begun
  revert hbegun
  decide

end ArtPlatform.Web
