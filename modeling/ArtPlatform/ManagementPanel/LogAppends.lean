import ArtPlatform.Foundation.AppendHistory
import ArtPlatform.ManagementPanel.LoadTestingService

/-!
# Appending to a log

Three services append to a log: `addLogRecord` on request, the event and error
handlers of an assembly's stream, and those of a load test's stream.  Each reads
the log and puts a copy with one more record.  Here their tasks share one pool.

Main results:

- Theorem `step_logs`: what one action of any appender does to the stored logs.
- Theorem `Appended.of_run`: a run appends to a log as an append history.
- Theorem `records_perm_iff_fresh`: every appended record is in the log exactly
  once if and only if every put found the log that its appender had read.
- Theorem `appended_record_lost`: two appenders that overlap lose a record.
-/

namespace ArtPlatform

open Interleaving
open AppendHistory (Put value elements)

/-! ## The appenders -/

/-- The tasks that append: the two actions of `addLogRecord`, and the tasks of the
build and of the load-test service. -/
inductive Appender
  | addRead (logId : Nat) (record : String)
  | addPut (log : Log) (record : String)
  | assembly (t : AssemblyTask)
  | loadTest (t : LoadTestTask)

abbrev PanelSignal := Signal AssemblyEvent ⊕ Signal LoadTestEvent

def PanelSignal.clock : PanelSignal → Nat
  | .inl x => x.clock
  | .inr x => x.clock

def Appender.step (r : Rendering) : Actions PanelState Appender PanelSignal
  | .addRead logId record, .inl (.go _), s =>
      match s.store.getLog logId with
      | .error _ => some (s, [])
      | .ok log => some (s, [.addPut log record])
  | .addPut log record, .inl (.go _), s => some (s.putLog (log.record record), [])
  | .assembly t, .inl x, s =>
      (t.step r x s).map fun p => (p.1, p.2.map .assembly)
  | .loadTest t, .inr x, s =>
      (t.step r x s).map fun p => (p.1, p.2.map .loadTest)
  | _, _, _ => none

/-! ## The log that a task holds -/

/-- The log that the task has read, and the record that its next action appends. -/
def AssemblyTask.append (r : Rendering) (now : Nat) : AssemblyTask → Option (Log × String)
  | .stream _ (.eventLogPut _ _ record log) => some (log, formatLogRecord r now record)
  | .failure _ message (.logPut log) =>
      some (log, formatLogRecord r now (r.errorColor ("Assembly failed: " ++ message)))
  | _ => none

def LoadTestTask.append (r : Rendering) : LoadTestTask → Option (Log × String)
  | .stream _ (.eventLogPut _ event log) => some (log, event.logRecord)
  | .failure _ message (.logPut log) => some (log, failureRecord r message)
  | _ => none

def Appender.append (r : Rendering) (now : Nat) : Appender → Option (Log × String)
  | .addRead _ _ => none
  | .addPut log record => some (log, record)
  | .assembly t => t.append r now
  | .loadTest t => t.append r

/-- The stored logs after an append, if there is one. -/
def PanelStore.logsAfter (s : PanelStore) : Option (Log × String) → Space Log
  | none => s.logs
  | some (log, record) => s.logs.put (log.record record)

/-- What an action does to the logs: it makes the append that the task held, or it
stores a new empty log; and the tasks that continue it hold a log only when the
action has just read it. -/
def AppendsOnly {τ : Type} (append : Nat → τ → Option (Log × String)) (s s' : PanelStore)
    (held : Option (Log × String)) (ts : List τ) : Prop :=
  (s'.logs = s.logsAfter held ∨ held = none ∧ s'.logs = s.putNewLog.1.logs) ∧
    ∀ u ∈ ts, ∀ now a, append now u = some a → s.logs.get a.1.id = some a.1

variable {r : Rendering} {s s' : PanelState} {b : Build} {x : Signal AssemblyEvent}
  {ts : List AssemblyTask}

theorem get_of_getLog {id : Nat} {log : Log} (h : s.store.getLog id = .ok log) :
    s.store.logs.get log.id = some log := by
  have hget : s.store.logs.get id = some log := PanelStore.getLog_eq_ok.mp h
  have hkey : log.id = id := Space.key_of_get hget
  rw [hkey, hget]

/-! ## One action -/

attribute [local simp] AssemblyTask.append in
theorem bodyStep_logs {p : BodyPosition} (h : bodyStep b p x s = some (s', ts)) :
    AppendsOnly (AssemblyTask.append r) s.store s'.store none ts := by
  revert h
  fun_cases bodyStep b p x s <;> intro h <;>
    simp only [Option.some.injEq, Prod.mk.injEq, reduceCtorEq] at h <;>
    rcases h with ⟨rfl, rfl⟩ <;>
    refine ⟨.inl rfl, ?_⟩ <;> simp

theorem append_compareEvent {stored : Assembly} {event : AgentEvent b.assembly.id}
    {now : Nat} : (compareEvent b stored event).append r now = none := by
  unfold compareEvent
  split <;> rfl

theorem streamStep_logs {p : StreamPosition b.assembly.id}
    (h : streamStep r b p x s = some (s', ts)) :
    AppendsOnly (AssemblyTask.append r) s.store s'.store
      ((AssemblyTask.stream b p).append r x.clock) ts := by
  revert h
  fun_cases streamStep r b p x s <;> intro h <;>
    simp only [Option.some.injEq, Prod.mk.injEq, reduceCtorEq] at h <;>
    rcases h with ⟨rfl, rfl⟩ <;> refine ⟨.inl rfl, ?_⟩
  case case9 | case12 => simp [append_compareEvent]
  case case11 log hlog => simp [AssemblyTask.append, get_of_getLog hlog]
  all_goals simp [AssemblyTask.append]

theorem failureStep_logs {m : String} {p : FailurePosition}
    (h : failureStep r b m p x s = some (s', ts)) :
    AppendsOnly (AssemblyTask.append r) s.store s'.store
      ((AssemblyTask.failure b m p).append r x.clock) ts := by
  revert h
  fun_cases failureStep r b m p x s <;> intro h <;>
    simp only [Option.some.injEq, Prod.mk.injEq, reduceCtorEq] at h <;>
    rcases h with ⟨rfl, rfl⟩ <;> refine ⟨.inl rfl, ?_⟩
  case case5 log hlog => simp [AssemblyTask.append, get_of_getLog hlog]
  all_goals simp [AssemblyTask.append]

theorem destroyStep_logs {id run : Nat} {p : DestroyPosition}
    (h : destroyStep id run p x s = some (s', ts)) :
    AppendsOnly (AssemblyTask.append r) s.store s'.store none ts := by
  revert h
  fun_cases destroyStep id run p x s <;> intro h <;>
    simp only [Option.some.injEq, Prod.mk.injEq, reduceCtorEq] at h <;>
    rcases h with ⟨rfl, rfl⟩ <;> refine ⟨.inl rfl, ?_⟩ <;> simp [AssemblyTask.append]

theorem append_of_holdsNothing {u : AssemblyTask} {now : Nat}
    (h : u.holdsNothing = true) : u.append r now = none := by
  revert h
  fun_cases AssemblyTask.append r now u <;> simp [AssemblyTask.holdsNothing]

/-- A request stores no record: it leaves the logs alone or stores an empty one. -/
theorem requestStep_logs {t : AssemblyTask} (h : t.step r x s = some (s', ts))
    (ht : t.tag = none) :
    s'.store.logs = s.store.logs ∨ s'.store.logs = s.store.putNewLog.1.logs := by
  revert h ht
  fun_cases AssemblyTask.step r t x s <;> intro h ht
  case case8 | case9 | case10 | case11 => cases ht
  all_goals
    simp only [Option.some.injEq, Prod.mk.injEq, reduceCtorEq] at h
  all_goals
    rcases h with ⟨rfl, rfl⟩
  case case4 | case6 => exact .inr rfl
  all_goals exact .inl rfl

/-- The tasks of the build service append only what they hold. -/
theorem AssemblyTask.step_logs {t : AssemblyTask} (h : t.step r x s = some (s', ts)) :
    AppendsOnly (AssemblyTask.append r) s.store s'.store (t.append r x.clock) ts := by
  cases t with
  | body b p =>
      have hnone : (AssemblyTask.body b p).append r x.clock = none := rfl
      exact hnone ▸ bodyStep_logs h
  | stream b p => exact streamStep_logs h
  | failure b m p => exact failureStep_logs h
  | destroy id run p => exact destroyStep_logs h
  | _ =>
      refine ⟨(requestStep_logs h rfl).imp_right fun hlogs => ⟨rfl, hlogs⟩, ?_⟩
      intro u hu now a ha
      rw [append_of_holdsNothing (holdsNothing_of_step h rfl u hu)] at ha
      cases ha

variable {lb : LoadTestStart} {y : Signal LoadTestEvent} {us : List LoadTestTask}

attribute [local simp] LoadTestTask.append in
theorem loadBodyStep_logs {p : BodyPosition} (h : loadBodyStep lb p y s = some (s', us)) :
    AppendsOnly (fun _ => LoadTestTask.append r) s.store s'.store none us := by
  revert h
  fun_cases loadBodyStep lb p y s <;> intro h <;>
    simp only [Option.some.injEq, Prod.mk.injEq, reduceCtorEq] at h <;>
    rcases h with ⟨rfl, rfl⟩ <;>
    refine ⟨.inl rfl, ?_⟩ <;> simp

theorem append_compareLoadEvent {stored : LoadTest} {event : LoadTestEvent} :
    (compareLoadEvent lb stored event).append r = none := by
  unfold compareLoadEvent
  split
  · rfl
  · split <;> rfl

theorem loadStreamStep_logs {p : LoadStreamPosition}
    (h : loadStreamStep lb p y s = some (s', us)) :
    AppendsOnly (fun _ => LoadTestTask.append r) s.store s'.store
      ((LoadTestTask.stream lb p).append r) us := by
  revert h
  fun_cases loadStreamStep lb p y s <;> intro h <;>
    simp only [Option.some.injEq, Prod.mk.injEq, reduceCtorEq] at h <;>
    rcases h with ⟨rfl, rfl⟩ <;> refine ⟨.inl rfl, ?_⟩
  case case11 => simp [append_compareLoadEvent]
  case case10 log hlog => simp [LoadTestTask.append, get_of_getLog hlog]
  all_goals simp [LoadTestTask.append]

theorem loadFailureStep_logs {m : String} {p : LoadFailurePosition}
    (h : loadFailureStep r lb m p y s = some (s', us)) :
    AppendsOnly (fun _ => LoadTestTask.append r) s.store s'.store
      ((LoadTestTask.failure lb m p).append r) us := by
  revert h
  fun_cases loadFailureStep r lb m p y s <;> intro h <;>
    simp only [Option.some.injEq, Prod.mk.injEq, reduceCtorEq] at h <;>
    rcases h with ⟨rfl, rfl⟩ <;> refine ⟨.inl rfl, ?_⟩
  case case5 log hlog => simp [LoadTestTask.append, get_of_getLog hlog]
  all_goals simp [LoadTestTask.append]

theorem loadDestroyStep_logs {id run : Nat} {p : DestroyPosition}
    (h : loadDestroyStep id run p y s = some (s', us)) :
    AppendsOnly (fun _ => LoadTestTask.append r) s.store s'.store none us := by
  revert h
  fun_cases loadDestroyStep id run p y s <;> intro h <;>
    simp only [Option.some.injEq, Prod.mk.injEq, reduceCtorEq] at h <;>
    rcases h with ⟨rfl, rfl⟩ <;> refine ⟨.inl rfl, ?_⟩ <;> simp [LoadTestTask.append]

/-- The tasks of the load-test service append only what they hold. -/
theorem LoadTestTask.step_logs {t : LoadTestTask} (h : t.step r y s = some (s', us)) :
    AppendsOnly (fun _ => LoadTestTask.append r) s.store s'.store (t.append r) us := by
  revert h
  fun_cases LoadTestTask.step r t y s <;> intro h
  case case5 => exact loadBodyStep_logs h
  case case6 => exact loadStreamStep_logs h
  case case7 => exact loadFailureStep_logs h
  case case8 => exact loadDestroyStep_logs h
  all_goals
    simp only [Option.some.injEq, Prod.mk.injEq, reduceCtorEq] at h
  all_goals
    rcases h with ⟨rfl, rfl⟩
  · refine ⟨.inl rfl, ?_⟩
    fun_cases cancelLoadReadStep <;> simp [LoadTestTask.append]
  · refine ⟨.inl rfl, ?_⟩
    split <;> simp [LoadTestTask.append]
  · exact ⟨.inr ⟨rfl, rfl⟩, by simp [LoadTestTask.append]⟩
  · exact ⟨.inl rfl, by simp [LoadTestTask.append]⟩

/-- What one action of any appender does to the stored logs. -/
theorem Appender.step_logs {t : Appender} {z : PanelSignal} {ws : List Appender}
    (h : t.step r z s = some (s', ws)) :
    AppendsOnly (Appender.append r) s.store s'.store (t.append r z.clock) ws := by
  revert h
  fun_cases Appender.step r t z s <;> intro h
  case case1 =>
      simp only [Option.some.injEq, Prod.mk.injEq] at h
      rcases h with ⟨rfl, rfl⟩
      exact ⟨.inl rfl, by simp⟩
  case case2 log hlog =>
      simp only [Option.some.injEq, Prod.mk.injEq] at h
      rcases h with ⟨rfl, rfl⟩
      exact ⟨.inl rfl, by simp [Appender.append, get_of_getLog hlog]⟩
  case case3 =>
      simp only [Option.some.injEq, Prod.mk.injEq] at h
      rcases h with ⟨rfl, rfl⟩
      exact ⟨.inl rfl, by simp⟩
  case case4 t x =>
      obtain ⟨⟨s₁, ts⟩, hstep, heq⟩ := Option.map_eq_some_iff.mp h
      simp only [Prod.mk.injEq] at heq
      rcases heq with ⟨rfl, rfl⟩
      have hlogs := AssemblyTask.step_logs hstep
      refine ⟨hlogs.1, ?_⟩
      intro u hu
      obtain ⟨v, hv, rfl⟩ := List.mem_map.mp hu
      exact hlogs.2 v hv
  case case5 t y =>
      obtain ⟨⟨s₁, us⟩, hstep, heq⟩ := Option.map_eq_some_iff.mp h
      simp only [Prod.mk.injEq] at heq
      rcases heq with ⟨rfl, rfl⟩
      have hlogs := LoadTestTask.step_logs hstep
      refine ⟨hlogs.1, ?_⟩
      intro u hu
      obtain ⟨v, hv, rfl⟩ := List.mem_map.mp hu
      exact hlogs.2 v hv
  case case6 => cases h

/-! ## A run is an append history -/

abbrev AppendConfig := Config PanelState Appender

/-- The append that a step makes: the log that the task held, and the record. -/
def appendOf (r : Rendering) : Label Appender PanelSignal → Option (Log × String)
  | .call _ => none
  | .act t x => t.append r x.clock

/-- The append that a step makes to the log of an id. -/
def appendTo (r : Rendering) (id : Nat) (l : Label Appender PanelSignal) :
    Option (Put String) :=
  match appendOf r l with
  | none => none
  | some (log, record) => if log.id = id then some ⟨log.records, record⟩ else none

/-- The records that the steps append to the log of an id, in the order of their puts. -/
def appendedRecords (r : Rendering) (id : Nat) (ls : List (Label Appender PanelSignal)) :
    List String :=
  elements (ls.filterMap (appendTo r id))

/-- Tasks that start anywhere but between the read and the put of a log. -/
def callsHoldNothing (r : Rendering) (_ : AppendConfig) : Label Appender PanelSignal → Prop
  | .call t => ∀ now, t.append r now = none
  | .act _ _ => True

/-- A step that appends to the log finds in the store the log that its task holds. -/
def FreshAppend (r : Rendering) (id : Nat) (c : AppendConfig)
    (l : Label Appender PanelSignal) : Prop :=
  callsHoldNothing r c l ∧
    ∀ log record, appendOf r l = some (log, record) → log.id = id →
      c.shared.store.logs.get id = some log

/-- The configuration is what an append history of the log leads to. -/
structure Appended (r : Rendering) (log : Log) (puts : List (Put String))
    (c : AppendConfig) : Prop where
  history : AppendHistory.History log.records puts
  stored : c.shared.store.logs.get log.id = some ⟨log.id, value log.records puts⟩
  held : ∀ u ∈ c.tasks, ∀ now held record, u.append r now = some (held, record) →
    held.id = log.id → ∃ qs, qs <+: puts ∧ held.records = value log.records qs

variable {c c' : AppendConfig} {log : Log} {puts : List (Put String)}
  {l : Label Appender PanelSignal} {ls : List (Label Appender PanelSignal)}

/-- The logs of the other ids do not matter. -/
theorem get_logsAfter {id : Nat} {s : PanelStore} {held : Option (Log × String)}
    (hother : ∀ log record, held = some (log, record) → log.id ≠ id) :
    (s.logsAfter held).get id = s.logs.get id := by
  cases held with
  | none => rfl
  | some a =>
      obtain ⟨log, record⟩ := a
      exact s.logs.get_put_of_ne (log.record record) (hother log record rfl).symm

theorem get_putNewLog {id : Nat} {s : PanelStore} {log : Log}
    (h : s.logs.get id = some log) : s.putNewLog.1.logs.get id = some log := by
  have hne : id ≠ s.logs.freshKey := by
    intro heq
    rw [heq, s.logs.get_freshKey] at h
    cases h
  rw [← h]
  exact s.logs.get_put_of_ne { id := s.logs.freshKey } hne

/-- The log after an action that does not append to it. -/
theorem get_of_no_append {held : Option (Log × String)} {τ : Type}
    {append : Nat → τ → Option (Log × String)} {us : List τ}
    (hlogs : AppendsOnly append s.store s'.store held us)
    (hother : ∀ other record, held = some (other, record) → other.id ≠ log.id)
    {stored : Log} (hstored : s.store.logs.get log.id = some stored) :
    s'.store.logs.get log.id = some stored := by
  rcases hlogs.1 with hput | ⟨-, hnew⟩
  · rw [hput, get_logsAfter hother, hstored]
  · rw [hnew]
    exact get_putNewLog hstored

/-- The held logs after an action of a task: the other tasks keep theirs, and the
new ones have read the log of the store. -/
theorem Appended.held_of_act (h : Appended r log puts c) {t : Appender} {x : PanelSignal}
    {ts others : List Appender} (more : List (Put String))
    (hpool : c.tasks.Perm (t :: others))
    (hlogs : AppendsOnly (Appender.append r) c.shared.store s'.store
      (t.append r x.clock) ts) :
    ∀ u ∈ ts ++ others, ∀ now held record, u.append r now = some (held, record) →
      held.id = log.id → ∃ qs, qs <+: puts ++ more ∧
        held.records = value log.records qs := by
  intro u hu now held record happend hid
  rcases List.mem_append.mp hu with hu | hu
  · refine ⟨puts, List.prefix_append puts more, ?_⟩
    have hread : c.shared.store.logs.get held.id = some held := hlogs.2 u hu now _ happend
    rw [hid, h.stored] at hread
    rw [← Option.some.inj hread]
  · have hmem : u ∈ c.tasks := hpool.mem_iff.mpr (List.mem_cons_of_mem t hu)
    obtain ⟨qs, hqs, hrecords⟩ := h.held u hmem now held record happend hid
    exact ⟨qs, hqs.trans (List.prefix_append puts more), hrecords⟩

/-- One step extends the history by the append that it makes. -/
theorem Appended.step (h : Appended r log puts c) (hl : callsHoldNothing r c l)
    (hstep : Step (Appender.step r) c l c') :
    Appended r log (puts ++ (appendTo r log.id l).toList) c' := by
  cases hstep with
  | call t =>
      have hnone : (appendTo r log.id (.call t : Label Appender PanelSignal)).toList = [] := rfl
      rw [hnone, List.append_nil]
      refine ⟨h.history, h.stored, ?_⟩
      intro u hu now held record happend
      rcases List.mem_cons.mp hu with rfl | hu
      · rw [hl now] at happend
        cases happend
      · exact h.held u hu now held record happend
  | act hpool hact =>
      rename_i t x s' ts others
      have hlogs := Appender.step_logs hact
      have hheld := fun more => h.held_of_act more hpool hlogs
      by_cases happends : ∃ held record,
          t.append r x.clock = some (held, record) ∧ held.id = log.id
      · obtain ⟨held, record, happend, hid⟩ := happends
        have hput : appendTo r log.id (.act t x) = some ⟨held.records, record⟩ := by
          simp [appendTo, appendOf, happend, hid]
        obtain ⟨qs, hqs, hrecords⟩ := h.held t (hpool.mem_iff.mpr List.mem_cons_self)
          x.clock held record happend hid
        rw [hput, Option.toList_some]
        refine ⟨h.history.snoc hqs hrecords, ?_, hheld _⟩
        rw [happend] at hlogs
        rcases hlogs.1 with hstored | ⟨hnone, -⟩
        · rw [hstored, AppendHistory.value_snoc, ← hid]
          exact Space.get_put_self _ (held.record record)
        · cases hnone
      · have hother : ∀ held record, t.append r x.clock = some (held, record) →
            held.id ≠ log.id := fun held record happend hid =>
          happends ⟨held, record, happend, hid⟩
        have hput : appendTo r log.id (.act t x) = none := by
          unfold appendTo appendOf
          split
          · rfl
          · rename_i held record happend
            exact if_neg (hother held record happend)
        rw [hput, Option.toList_none]
        refine ⟨by simpa using h.history, ?_, hheld _⟩
        rw [List.append_nil]
        exact get_of_no_append hlogs hother h.stored

/-- A configuration in which nobody is between the read and the put of the log. -/
theorem Appended.start (hlog : c.shared.store.logs.get log.id = some log)
    (hpool : ∀ u ∈ c.tasks, ∀ now held record,
      u.append r now = some (held, record) → held.id ≠ log.id) :
    Appended r log [] c :=
  ⟨.nil, hlog, fun u hu now held record happend hid =>
    absurd hid (hpool u hu now held record happend)⟩

theorem filterMap_snoc {α β : Type} (f : α → Option β) (as : List α) (a : α) :
    (as ++ [a]).filterMap f = as.filterMap f ++ (f a).toList := by
  rw [List.filterMap_append]
  cases h : f a <;> simp [h]

/-- A run appends to a log as an append history. -/
theorem Appended.of_run (h : Appended r log [] c)
    (hrun : Run (Appender.step r) (callsHoldNothing r) c ls c') :
    Appended r log (ls.filterMap (appendTo r log.id)) c' := by
  induction hrun with
  | refl => exact h
  | tail hrun hstep hok ih =>
      rw [filterMap_snoc]
      exact ih.step hok hstep

/-! ## Freshness -/

/-- A put of the log finds what its appender has read: in the run exactly when it
does so in the history. -/
theorem freshAppend_iff (h : Appended r log puts c) (hl : callsHoldNothing r c l) :
    FreshAppend r log.id c l ↔
      ∀ p ∈ appendTo r log.id l, p.snapshot = value log.records puts := by
  constructor
  · rintro ⟨-, hfresh⟩ p hp
    unfold appendTo at hp
    split at hp
    · cases hp
    · rename_i held record happend
      split at hp
      · rename_i hid
        have hstored := hfresh held record happend hid
        rw [h.stored] at hstored
        rw [← Option.some.inj hp, ← Option.some.inj hstored]
      · cases hp
  · intro hfresh
    refine ⟨hl, ?_⟩
    intro held record happend hid
    have hput : appendTo r log.id l = some ⟨held.records, record⟩ := by
      simp [appendTo, happend, hid]
    have hrecords : held.records = value log.records puts := hfresh _ hput
    rw [h.stored, ← hrecords, ← hid]

theorem fresh_of_run (h : Appended r log [] c)
    (hrun : Run (Appender.step r) (FreshAppend r log.id) c ls c') :
    AppendHistory.Fresh log.records (ls.filterMap (appendTo r log.id)) := by
  induction hrun with
  | refl => exact .nil
  | tail hrun hstep hok ih =>
      rename_i d d' ls l
      have happended := h.of_run (hrun.mono fun _ _ hfresh => hfresh.1)
      have hput := (freshAppend_iff happended hok.1).mp hok
      rw [filterMap_snoc]
      cases hl : appendTo r log.id l with
      | none => simpa using ih
      | some p => exact ih.snoc (hput p hl)

theorem run_of_fresh (h : Appended r log [] c)
    (hrun : Run (Appender.step r) (callsHoldNothing r) c ls c')
    (hfresh : AppendHistory.Fresh log.records (ls.filterMap (appendTo r log.id))) :
    Run (Appender.step r) (FreshAppend r log.id) c ls c' := by
  induction hrun with
  | refl => exact .refl _
  | tail hrun hstep hok ih =>
      rename_i d d' ls l
      rw [filterMap_snoc] at hfresh
      have happended := h.of_run hrun
      cases hl : appendTo r log.id l with
      | none =>
          rw [hl] at hfresh
          refine .tail (ih (by simpa using hfresh)) hstep ?_
          rw [freshAppend_iff happended hok, hl]
          intro p hp
          cases hp
      | some p =>
          rw [hl] at hfresh
          obtain ⟨hbefore, hsnapshot⟩ := hfresh.inv
          refine .tail (ih hbefore) hstep ?_
          rw [freshAppend_iff happended hok, hl]
          intro q hq
          rw [← Option.some.inj hq]
          exact hsnapshot

/-! ## No record is lost or duplicated -/

/-- The stored log holds its first records and every record that the steps have
appended to it, each as often as it was appended. -/
def HoldsEveryRecord (r : Rendering) (log : Log) (ls : List (Label Appender PanelSignal))
    (c : AppendConfig) : Prop :=
  ∃ final, c.shared.store.logs.get log.id = some final ∧
    final.records.Perm (log.records ++ appendedRecords r log.id ls)

/-- No one is between the read and the put of a log. -/
def NobodyAppends (r : Rendering) (id : Nat) (c : AppendConfig) : Prop :=
  ∀ u ∈ c.tasks, ∀ now held record, u.append r now = some (held, record) → held.id ≠ id

/-- For any appenders and any interleaving of their reads and puts: the log holds
every record exactly once if and only if every put found in the store the log that
its appender had read. -/
theorem records_perm_iff_fresh (hlog : c.shared.store.logs.get log.id = some log)
    (hpool : NobodyAppends r log.id c)
    (hrun : Run (Appender.step r) (callsHoldNothing r) c ls c') :
    HoldsEveryRecord r log ls c' ↔
      Run (Appender.step r) (FreshAppend r log.id) c ls c' := by
  have hstart : Appended r log [] c := .start hlog hpool
  have happended := hstart.of_run hrun
  have hvalue : HoldsEveryRecord r log ls c' ↔
      (value log.records (ls.filterMap (appendTo r log.id))).Perm
        (log.records ++ appendedRecords r log.id ls) := by
    unfold HoldsEveryRecord
    rw [happended.stored]
    simp
  rw [hvalue, appendedRecords, AppendHistory.value_perm_iff_fresh happended.history]
  exact ⟨run_of_fresh hstart hrun, fresh_of_run hstart⟩

/-! ## Overlapping appenders -/

open SampleBuild (rendering)

/-- Every record that anybody appends stays in the log, exactly once. -/
def EveryRecordIsKept (r : Rendering) : Prop :=
  ∀ c log ls c', c.shared.store.logs.get log.id = some log → NobodyAppends r log.id c →
    Run (Appender.step r) (callsHoldNothing r) c ls c' → HoldsEveryRecord r log ls c'

/-- Two requests to append to an empty log. -/
private def twoRequests : AppendConfig where
  shared := { store := PanelStore.empty.putLog { id := 1 } }
  tasks := [.addRead 1 "first", .addRead 1 "second"]

private theorem twoRequests_nobodyAppends : NobodyAppends rendering 1 twoRequests := by
  intro u hu now held record happend
  rcases List.mem_cons.mp hu with rfl | hu
  · cases happend
  · rw [List.mem_singleton.mp hu] at happend
    cases happend

private def isAct : Label Appender PanelSignal → Bool
  | .call _ => false
  | .act _ _ => true

private theorem callsHoldNothing_of_isAct {c : AppendConfig}
    {l : Label Appender PanelSignal} (h : isAct l = true) :
    callsHoldNothing rendering c l := by
  cases l with
  | call t => cases h
  | act t x => trivial

private def goAt (position : Nat) : Move Appender PanelSignal :=
  .act position (.inl (.go 0))

/-- One after the other the two requests are both fresh. -/
theorem records_perm_iff_fresh_sequential :
    ∃ ls c', Run (Appender.step rendering) (callsHoldNothing rendering) twoRequests ls c' ∧
      (HoldsEveryRecord rendering { id := 1 } ls c' ↔
        Run (Appender.step rendering) (FreshAppend rendering 1) twoRequests ls c') := by
  obtain ⟨ls, c', hrun, -⟩ := exists_run_of_exec (Appender.step rendering)
    (fun _ => isAct) twoRequests [goAt 0, goAt 0, goAt 0, goAt 0] (fun _ _ => true)
    (by decide)
  have hrun' : Run (Appender.step rendering) (callsHoldNothing rendering) twoRequests ls c' :=
    hrun.mono fun _ _ hl => callsHoldNothing_of_isAct hl
  have hlog : twoRequests.shared.store.logs.get 1 = some { id := 1 } := rfl
  exact ⟨ls, c', hrun', records_perm_iff_fresh hlog twoRequests_nobodyAppends hrun'⟩

/-- One record in the log although two were appended. -/
private def lostRecord (ls : List (Label Appender PanelSignal)) (c : AppendConfig) : Bool :=
  (c.shared.store.logs.get 1).map (fun log => log.records.length) == some 1 &&
    (appendedRecords rendering 1 ls).length == 2

/-- Two requests that both read before either puts lose a record. -/
theorem appended_record_lost : ¬ ∀ r, EveryRecordIsKept r := by
  intro h
  obtain ⟨ls, c', hrun, hlost⟩ := exists_run_of_exec (Appender.step rendering)
    (fun _ => isAct) twoRequests [goAt 0, goAt 1, goAt 0, goAt 0] lostRecord (by decide)
  have hrun' : Run (Appender.step rendering) (callsHoldNothing rendering) twoRequests ls c' :=
    hrun.mono fun _ _ hl => callsHoldNothing_of_isAct hl
  obtain ⟨final, hfinal, hperm⟩ :=
    h rendering twoRequests { id := 1 } ls c' rfl twoRequests_nobodyAppends hrun'
  have hlength := hperm.length_eq
  simp only [lostRecord, hfinal, Option.map_some, Bool.and_eq_true, beq_iff_eq,
    Option.some.injEq] at hlost
  simp only [List.length_append, List.length_nil] at hlength
  omega

end ArtPlatform
