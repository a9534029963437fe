import ArtPlatform.ManagementPanel.LogAppends
import ArtPlatform.ManagementPanel.PanelDatabase

/-!
# Load tests that have ended

A load test has ended when it is done, failed, cancelled or deleted.  Load tests are deleted
one by one, or all those of a scenario before the scenario itself; nobody waits for the
handlers of their streams.

Main results:

- Theorem `ended_stays_iff`: a load test that has ended is never stored as running again,
  exactly when no handler that read it as running is about to put its own copy.
- Theorem `deleted_scenario_clean`: what a deletion of a scenario that comes to its end has
  left behind is nothing, when no load test of the scenario was running or about to be put.
-/

namespace ArtPlatform

open Interleaving

/-! ## Deletions -/

structure LoadTestingState where
  panel : PanelState
  loadTestScenarios : Space LoadTestScenario := .empty

/-- Positions of `deleteLoadTestScenario`: its load tests are read, deleted one after the
other, and then the scenario is. -/
inductive ScenarioDeletion
  | read
  | tests (ids : List Nat)
  | row

/-- The tasks of the load-test service, and those that delete. -/
inductive LoadTestingTask
  | run (t : LoadTestTask)
  | putLoadTestScenario (scenario : LoadTestScenario)
  | deleteLoadTest (id : Nat)
  | deleteLoadTestScenario (id : Nat) (position : ScenarioDeletion)

namespace LoadTestingState

variable (s : LoadTestingState)

/-- The load tests that are stored. -/
def loadTests : Space LoadTest :=
  s.panel.store.loadTests

def withLoadTests (loadTests : Space LoadTest) : LoadTestingState :=
  { s with panel := { s.panel with store := { s.panel.store with loadTests := loadTests } } }

/-- `LoadTestingRepository.deleteLoadTest`; `none` is its exception. -/
def deleteLoadTest (id : Nat) : Option LoadTestingState :=
  (s.loadTests.get id).map fun _ => s.withLoadTests (s.loadTests.delete id)

/-- The request to the agent of a load test holds its scenario. -/
def hasScenario : LoadTestTask → Bool
  | .body b .prepareRequest => (s.loadTestScenarios.get b.loadTest.scenarioId).isSome
  | _ => true

end LoadTestingState

def deleteScenarioStep (id : Nat) (s : LoadTestingState) :
    ScenarioDeletion → LoadTestingState × List LoadTestingTask
  | .read =>
      (s, [.deleteLoadTestScenario id (.tests
        ((s.loadTests.rows.filter fun t => t.scenarioId = id).map LoadTest.id))])
  | .tests [] => (s, [.deleteLoadTestScenario id .row])
  | .tests (test :: tests) =>
      match s.deleteLoadTest test with
      -- The exception leaves the loop.
      | none => (s, [])
      | some s' => (s', [.deleteLoadTestScenario id (.tests tests)])
  | .row => ({ s with loadTestScenarios := s.loadTestScenarios.delete id }, [])

/-- One atomic action; a request for an agent can only be prepared with its scenario. -/
def LoadTestingTask.step (r : Rendering) :
    Actions LoadTestingState LoadTestingTask (Signal LoadTestEvent)
  | .run t, x, s =>
      match x, s.hasScenario t with
      | .go _, false => none
      | _, _ =>
          (t.step r x s.panel).map fun (panel, ts) => ({ s with panel := panel }, ts.map .run)
  | .putLoadTestScenario scenario, .go _, s =>
      some ({ s with loadTestScenarios := s.loadTestScenarios.put scenario }, [])
  | .deleteLoadTest id, .go _, s => some ((s.deleteLoadTest id).getD s, [])
  | .deleteLoadTestScenario id position, .go _, s => some (deleteScenarioStep id s position)
  | _, _, _ => none

/-- What the panel's functions begin with. -/
def LoadTestingTask.isRequest : LoadTestingTask → Bool
  | .run (.cancelRead _) | .run (.startLog _) => true
  | .putLoadTestScenario _ | .deleteLoadTest _ | .deleteLoadTestScenario _ .read => true
  | _ => false

abbrev LoadTestingConfig := Config LoadTestingState LoadTestingTask
abbrev LoadTestingLabel := Label LoadTestingTask (Signal LoadTestEvent)

/-- Tasks are only added by requests. -/
def loadRequestsOnly : LoadTestingLabel → Bool
  | .call t => t.isRequest
  | .act _ _ => true

/-! ## What a task stores -/

/-- The load test that the task is about to put. -/
def LoadTestTask.written (s : PanelState) (now : Nat) : LoadTestTask → Option LoadTest
  | .cancelPut currentTest =>
      some { currentTest with state := .canceled, endTimeStamp := some now }
  | .startPut request logId =>
      some (createLoadTest request logId now s.store.loadTests.freshKey)
  | .body b .announcePut => some { b.loadTest with state := .startedOnResource }
  | .stream _ (.eventPut newTest) =>
      some { newTest with state := .running, endTimeStamp := some now }
  | .stream _ (.completePut stored) =>
      some { stored with state := .done, endTimeStamp := some now }
  | .failure _ _ (.put stored) => some { stored with state := .failed, endTimeStamp := some now }
  | _ => none

def PanelState.loadTestsAfter (s : PanelState) : Option LoadTest → Space LoadTest
  | none => s.store.loadTests
  | some t => s.store.loadTests.put t

/-- The task stores the load test as running without another look at the stored one. -/
def LoadTestTask.revives (id : Nat) : LoadTestTask → Prop
  | .body b .announcePut => b.loadTest.id = id
  | .stream _ (.eventLogRead stored event) | .stream _ (.eventLogPut stored event _) =>
      event.loadTest.id = id ∧ event.loadTest ≠ stored
  | .stream _ (.eventReport _ event) => event.loadTest.id = id
  | .stream _ (.eventPut newTest) => newTest.id = id
  | _ => False

def LoadTestingTask.revives (id : Nat) : LoadTestingTask → Prop
  | .run t => t.revives id
  | _ => False

/-- The event that the task has got is one of its load test. -/
def LoadTestTask.Addressed : LoadTestTask → Prop
  | .stream b (.eventRead event) => event.loadTest.id = b.loadTest.id
  | _ => True

/-- The log that the task belongs to. -/
def LoadTestTask.logId? : LoadTestTask → Option Nat
  | .startPut _ logId => some logId
  | .body b _ | .stream b _ | .failure b _ _ => some b.loadTest.logId
  | _ => none

variable {r : Rendering} {s s' : PanelState} {t u : LoadTestTask} {x : Signal LoadTestEvent}
  {ts : List LoadTestTask} {b : LoadTestStart} {id : Nat}

/-- The stored load tests change by the put that the task was about to make. -/
theorem loadTests_of_step (h : t.step r x s = some (s', ts)) :
    s'.store.loadTests = s.loadTestsAfter (t.written s x.clock) := by
  revert h
  fun_cases LoadTestTask.step r t x s <;> intro h
  case case5 b p =>
      revert h
      fun_cases loadBodyStep b p x s <;> intro h <;>
        simp only [Option.some.injEq, Prod.mk.injEq, reduceCtorEq] at h <;>
        rcases h with ⟨rfl, rfl⟩ <;> rfl
  case case6 b p =>
      revert h
      fun_cases loadStreamStep b p x s <;> intro h <;>
        simp only [Option.some.injEq, Prod.mk.injEq, reduceCtorEq] at h <;>
        rcases h with ⟨rfl, rfl⟩ <;> rfl
  case case7 b m p =>
      revert h
      fun_cases loadFailureStep r b m p x s <;> intro h <;>
        simp only [Option.some.injEq, Prod.mk.injEq, reduceCtorEq] at h <;>
        rcases h with ⟨rfl, rfl⟩ <;> rfl
  case case8 i run p =>
      revert h
      fun_cases loadDestroyStep i run p x s <;> intro h <;>
        simp only [Option.some.injEq, Prod.mk.injEq, reduceCtorEq] at h <;>
        rcases h with ⟨rfl, rfl⟩ <;> rfl
  all_goals
    simp only [Option.some.injEq, Prod.mk.injEq, reduceCtorEq] at h
  all_goals
    rcases h with ⟨rfl, rfl⟩
    rfl

/-- Only a task that revives a load test stores it as running, or the start that stores it
first. -/
theorem revives_of_written {w : LoadTest} {now : Nat} (h : t.written s now = some w)
    (hrunning : w.isRunning = true) :
    t.revives w.id ∨
      (∃ request logId, t = .startPut request logId) ∧ w.id = s.store.loadTests.freshKey := by
  revert h
  fun_cases LoadTestTask.written s now t <;> intro h <;>
    simp only [Option.some.injEq, reduceCtorEq] at h <;> subst h
  · simp [LoadTest.isRunning] at hrunning
  · exact .inr ⟨⟨_, _, rfl⟩, rfl⟩
  · exact .inl rfl
  · exact .inl rfl
  · simp [LoadTest.isRunning] at hrunning
  · simp [LoadTest.isRunning] at hrunning

theorem running_of_runningLoadTest {stored : LoadTest}
    (h : s.runningLoadTest id = some stored) :
    s.store.loadTests.get id = some stored ∧ stored.isRunning = true :=
  Option.filter_eq_some_iff.mp h

/-- A task comes to revive a load test only by reading that it is running. -/
def RevivesFrom (s : PanelState) (t : LoadTestTask) (ts : List LoadTestTask) : Prop :=
  ∀ u ∈ ts, ∀ id, u.revives id → t.revives id ∨ s.runningLoadTest id ≠ none

/-- No task of the list revives anything. -/
theorem revivesFrom_of_not {t : LoadTestTask} (h : ∀ u ∈ ts, ∀ id, ¬ u.revives id) :
    RevivesFrom s t ts :=
  fun u hu id hrevives => absurd hrevives (h u hu id)

section

attribute [local simp] LoadTestTask.revives

theorem revivesFrom_bodyStep {p : BodyPosition} (h : loadBodyStep b p x s = some (s', ts)) :
    RevivesFrom s (.body b p) ts := by
  revert h
  fun_cases loadBodyStep b p x s <;> intro h <;>
    simp only [Option.some.injEq, Prod.mk.injEq, reduceCtorEq] at h <;>
    rcases h with ⟨rfl, rfl⟩
  case case15 stored hstored =>
      intro u hu id hrevives
      rw [List.mem_singleton.mp hu] at hrevives
      obtain rfl : b.loadTest.id = id := hrevives
      exact .inr (by simp [hstored])
  all_goals
    exact revivesFrom_of_not (by simp)

theorem revives_compareLoadEvent {stored : LoadTest} {event : LoadTestEvent}
    (h : (compareLoadEvent b stored event).revives id) :
    event.loadTest.id = id ∧ event.loadTest ≠ stored := by
  unfold compareLoadEvent at h
  split at h
  · cases h
  · rename_i hne
    split at h
    · exact ⟨h, hne⟩
    · exact ⟨h, hne⟩

theorem revivesFrom_streamStep {p : LoadStreamPosition}
    (h : loadStreamStep b p x s = some (s', ts)) (ht : (LoadTestTask.stream b p).Addressed) :
    RevivesFrom s (.stream b p) ts := by
  revert h ht
  fun_cases loadStreamStep b p x s <;> intro h ht <;>
    simp only [Option.some.injEq, Prod.mk.injEq, reduceCtorEq] at h <;>
    rcases h with ⟨rfl, rfl⟩
  case case8 event now stored hstored =>
      intro u hu id hrevives
      rw [List.mem_singleton.mp hu] at hrevives
      obtain ⟨rfl, -⟩ : event.loadTest.id = id ∧ event.loadTest ≠ stored := hrevives
      exact .inr (by rw [show event.loadTest.id = b.loadTest.id from ht, hstored]; simp)
  case case11 stored event log now =>
      intro u hu id hrevives
      rw [List.mem_singleton.mp hu] at hrevives
      exact .inl (revives_compareLoadEvent hrevives)
  case case10 | case12 => exact fun u hu id hrevives => .inl (by
      simp_all [reportedLoadTest])
  all_goals
    exact revivesFrom_of_not (by simp)

theorem not_revives_of_isAside (h : u.isAside = true) : ¬ u.revives id := by
  cases u with
  | body | stream => cases h
  | _ => exact fun hrevives => hrevives

theorem revivesFrom_step (h : t.step r x s = some (s', ts)) (ht : t.Addressed) :
    RevivesFrom s t ts := by
  revert h ht
  fun_cases LoadTestTask.step r t x s <;> intro h ht
  case case5 => exact revivesFrom_bodyStep h
  case case6 => exact revivesFrom_streamStep h ht
  case case7 b m p =>
      have haside := (loadFailureStep_tasks h).2
      exact revivesFrom_of_not fun u hu id => not_revives_of_isAside (haside u hu)
  case case8 i run p =>
      have haside := (loadDestroyStep_tasks h).2
      exact revivesFrom_of_not fun u hu id => not_revives_of_isAside (haside u hu)
  all_goals
    simp only [Option.some.injEq, Prod.mk.injEq, reduceCtorEq] at h
  all_goals
    rcases h with ⟨rfl, rfl⟩
  case case1 =>
      refine revivesFrom_of_not ?_
      fun_cases cancelLoadReadStep <;> simp
  case case2 =>
      refine revivesFrom_of_not ?_
      split <;> simp
  all_goals
    exact revivesFrom_of_not (by simp)

end

/-! ## What holds of every task -/

/-- The event of a task is one of its load test, and its log is stored. -/
structure SoundTask (s : PanelState) (t : LoadTestTask) : Prop where
  addressed : t.Addressed
  log : ∀ k ∈ t.logId?, (s.store.logs.get k).isSome = true

theorem logs_mono (h : t.step r x s = some (s', ts)) {k : Nat}
    (hk : (s.store.logs.get k).isSome = true) : (s'.store.logs.get k).isSome = true := by
  have hput : ∀ log : Log, ((s.store.logs.put log).get k).isSome = true := by
    intro log
    rw [Space.get_put]
    split
    · rfl
    · exact hk
  rcases (LoadTestTask.step_logs h).1 with hlogs | ⟨-, hlogs⟩
  · rw [hlogs]
    unfold PanelStore.logsAfter
    split
    · exact hk
    · exact hput _
  · rw [hlogs]
    exact hput _

/-- The tasks have the event of their load test, and no log but this one. -/
def Belong (k : Option Nat) (ts : List LoadTestTask) : Prop :=
  ∀ u ∈ ts, u.Addressed ∧ (u.logId? = none ∨ u.logId? = k)

section

attribute [local simp] Belong LoadTestTask.Addressed LoadTestTask.logId?

theorem belong_bodyStep {p : BodyPosition} (h : loadBodyStep b p x s = some (s', ts)) :
    Belong (some b.loadTest.logId) ts := by
  revert h
  fun_cases loadBodyStep b p x s <;> intro h <;>
    simp only [Option.some.injEq, Prod.mk.injEq, reduceCtorEq] at h <;>
    rcases h with ⟨rfl, rfl⟩ <;> simp

theorem belong_compareLoadEvent (stored : LoadTest) (event : LoadTestEvent) :
    Belong (some b.loadTest.logId) [compareLoadEvent b stored event] := by
  unfold compareLoadEvent
  split
  · simp
  · split <;> simp

theorem belong_streamStep {p : LoadStreamPosition}
    (h : loadStreamStep b p x s = some (s', ts)) : Belong (some b.loadTest.logId) ts := by
  revert h
  fun_cases loadStreamStep b p x s <;> intro h <;>
    simp only [Option.some.injEq, Prod.mk.injEq, reduceCtorEq] at h <;>
    rcases h with ⟨rfl, rfl⟩
  case case11 stored event log now => exact belong_compareLoadEvent stored event
  all_goals
    simp_all

theorem belong_failureStep {m : String} {p : LoadFailurePosition}
    (h : loadFailureStep r b m p x s = some (s', ts)) : Belong (some b.loadTest.logId) ts := by
  revert h
  fun_cases loadFailureStep r b m p x s <;> intro h <;>
    simp only [Option.some.injEq, Prod.mk.injEq, reduceCtorEq] at h <;>
    rcases h with ⟨rfl, rfl⟩ <;> simp

theorem belong_destroyStep {i run : Nat} {p : DestroyPosition}
    (h : loadDestroyStep i run p x s = some (s', ts)) : Belong none ts := by
  revert h
  fun_cases loadDestroyStep i run p x s <;> intro h <;>
    simp only [Option.some.injEq, Prod.mk.injEq, reduceCtorEq] at h <;>
    rcases h with ⟨rfl, rfl⟩ <;> simp

/-- The tasks that continue one belong to its log, or to the one that it has just stored. -/
theorem belong_step (h : t.step r x s = some (s', ts)) :
    ∃ k, Belong k ts ∧ ∀ log ∈ k, log ∈ t.logId? ∨ (s'.store.logs.get log).isSome = true := by
  revert h
  fun_cases LoadTestTask.step r t x s <;> intro h
  case case5 b p => exact ⟨_, belong_bodyStep h, fun log hlog => .inl hlog⟩
  case case6 b p => exact ⟨_, belong_streamStep h, fun log hlog => .inl hlog⟩
  case case7 b m p => exact ⟨_, belong_failureStep h, fun log hlog => .inl hlog⟩
  case case8 i run p => exact ⟨_, belong_destroyStep h, by simp⟩
  all_goals
    simp only [Option.some.injEq, Prod.mk.injEq, reduceCtorEq] at h
  all_goals
    rcases h with ⟨rfl, rfl⟩
  case case1 =>
      refine ⟨none, ?_, by simp⟩
      fun_cases cancelLoadReadStep <;> simp
  case case2 =>
      refine ⟨none, ?_, by simp⟩
      split <;> simp
  case case3 =>
      refine ⟨some s.store.putNewLog.2.id, ?_, ?_⟩
      · simp
      · intro log hlog
        obtain rfl := Option.some.inj hlog
        have hget := Space.get_put_self s.store.logs s.store.putNewLog.2
        exact .inr (Option.isSome_iff_exists.mpr ⟨_, hget⟩)
  case case4 request logId now loadTest =>
      refine ⟨some logId, ?_, fun log hlog => .inl hlog⟩
      simp [loadTest, createLoadTest]

end

theorem SoundTask.of_step (h : t.step r x s = some (s', ts)) (ht : SoundTask s t) (hu : u ∈ ts) :
    SoundTask s' u := by
  obtain ⟨k, hbelong, hk⟩ := belong_step h
  obtain ⟨haddressed, hlog⟩ := hbelong u hu
  refine ⟨haddressed, fun log hmem => ?_⟩
  rcases hlog with hlog | hlog
  · rw [hlog] at hmem
    cases hmem
  · rcases hk log (hlog ▸ hmem) with hold | hnew
    · exact logs_mono h (ht.log log hold)
    · exact hnew

/-! ## All tasks -/

def LoadTestingTask.Sound (s : LoadTestingState) : LoadTestingTask → Prop
  | .run t => SoundTask s.panel t
  | _ => True

def LoadTestingTask.isRun : LoadTestingTask → Bool
  | .run _ => true
  | _ => false

variable {s s' : LoadTestingState} {v w : LoadTestingTask} {vs : List LoadTestingTask}
  {c c' : LoadTestingConfig} {l : LoadTestingLabel}

theorem step_run_inv (h : (LoadTestingTask.run t).step r x s = some (s', vs)) :
    ∃ panel ts, t.step r x s.panel = some (panel, ts) ∧
      s' = { s with panel := panel } ∧ vs = ts.map .run := by
  simp only [LoadTestingTask.step] at h
  split at h
  · cases h
  · obtain ⟨⟨panel, ts⟩, hstep, heq⟩ := Option.map_eq_some_iff.mp h
    obtain ⟨rfl, rfl⟩ := Prod.mk.inj heq
    exact ⟨panel, ts, hstep, rfl, rfl⟩

theorem get_deleteLoadTest {id k : Nat} (h : s.deleteLoadTest id = some s') :
    s'.loadTests.get k = if k = id then none else s.loadTests.get k := by
  obtain ⟨t, -, rfl⟩ := Option.map_eq_some_iff.mp h
  split
  · subst k
    exact Space.get_delete_self _ _
  · exact Space.get_delete_of_ne _ ‹_›

theorem logs_deleteLoadTest {id : Nat} (h : s.deleteLoadTest id = some s') :
    s'.panel.store.logs = s.panel.store.logs := by
  obtain ⟨t, -, rfl⟩ := Option.map_eq_some_iff.mp h
  rfl

/-- What deletes keeps the logs and stores no load test. -/
structure Deletes (s s' : LoadTestingState) (vs : List LoadTestingTask) : Prop where
  loadTests : ∀ k, s'.loadTests.get k = s.loadTests.get k ∨ s'.loadTests.get k = none
  logs : s'.panel.store.logs = s.panel.store.logs
  tasks : ∀ v ∈ vs, v.isRun = false

theorem deletes_deleteScenarioStep (id : Nat) (s : LoadTestingState) (p : ScenarioDeletion) :
    Deletes s (deleteScenarioStep id s p).1 (deleteScenarioStep id s p).2 := by
  fun_cases deleteScenarioStep id s p
  case case4 s' hdelete =>
      refine ⟨fun k => ?_, logs_deleteLoadTest hdelete, by simp [LoadTestingTask.isRun]⟩
      rw [get_deleteLoadTest hdelete]
      split
      · exact .inr rfl
      · exact .inl rfl
  all_goals
    exact ⟨fun k => .inl rfl, rfl, by simp [LoadTestingTask.isRun]⟩

theorem deletes_of_step (h : v.step r x s = some (s', vs)) (hv : v.isRun = false) :
    Deletes s s' vs := by
  revert h
  fun_cases LoadTestingTask.step r v x s <;> intro h
  case case1 | case2 => cases hv
  all_goals
    simp only [Option.some.injEq, Prod.mk.injEq, reduceCtorEq] at h
  case case3 =>
      obtain ⟨rfl, rfl⟩ := h
      exact ⟨fun k => .inl rfl, rfl, by simp⟩
  case case4 id now =>
      obtain ⟨rfl, rfl⟩ := h
      cases hdelete : s.deleteLoadTest id with
      | none => exact ⟨fun k => .inl rfl, rfl, by simp⟩
      | some s' =>
          refine ⟨fun k => ?_, logs_deleteLoadTest hdelete, by simp⟩
          rw [Option.getD_some, get_deleteLoadTest hdelete]
          split
          · exact .inr rfl
          · exact .inl rfl
  case case5 id p now =>
      rw [Prod.ext_iff] at h
      obtain ⟨rfl, rfl⟩ := h
      exact deletes_deleteScenarioStep id s p

theorem sound_of_not_isRun (h : v.isRun = false) (s : LoadTestingState) : v.Sound s := by
  cases v with
  | run => cases h
  | _ => trivial

theorem not_revives_of_not_isRun (h : v.isRun = false) (id : Nat) : ¬ v.revives id := by
  cases v with
  | run => cases h
  | _ => exact fun hrevives => hrevives

theorem LoadTestingTask.Sound.mono (h : v.Sound s)
    (hlogs : ∀ k, (s.panel.store.logs.get k).isSome = true →
      (s'.panel.store.logs.get k).isSome = true) : v.Sound s' := by
  cases v with
  | run t => exact ⟨h.addressed, fun k hk => hlogs k (h.log k hk)⟩
  | _ => trivial

/-- Every task of the panel is sound, whatever the panel does. -/
theorem sound_step (hok : loadRequestsOnly l = true) (hsound : ∀ v ∈ c.tasks, v.Sound c.shared)
    (hstep : Step (LoadTestingTask.step r) c l c') : ∀ v ∈ c'.tasks, v.Sound c'.shared := by
  cases l with
  | call v =>
      cases hstep
      intro w hw
      rcases List.mem_cons.mp hw with rfl | hw
      · cases w with
        | run t =>
            cases t with
            | cancelRead | startLog => exact ⟨trivial, fun k hk => nomatch hk⟩
            | _ => cases hok
        | _ => trivial
      · exact hsound w hw
  | act v x =>
      refine hstep.forall_tasks hsound ?_ ?_
      · intro vs hact w hw
        have hv := hsound v hstep.mem_tasks
        cases v with
        | run t =>
            obtain ⟨panel, ts, ht, hshared, rfl⟩ := step_run_inv hact
            obtain ⟨u, hu, rfl⟩ := List.mem_map.mp hw
            rw [hshared]
            exact SoundTask.of_step ht hv hu
        | _ => exact sound_of_not_isRun ((deletes_of_step hact rfl).tasks w hw) _
      · intro w _ hw
        obtain ⟨vs, -, -, hact, -⟩ := hstep.act_inv
        refine hw.mono fun k hk => ?_
        cases v with
        | run t =>
            obtain ⟨panel, ts, ht, hshared, -⟩ := step_run_inv hact
            rw [hshared]
            exact logs_mono ht hk
        | _ =>
            rw [(deletes_of_step hact rfl).logs]
            exact hk

/-! ## Staying ended -/

/-- The load test of the id is not stored as running. -/
def LoadTestingState.Ended (s : LoadTestingState) (id : Nat) : Prop :=
  s.panel.runningLoadTest id = none

/-- Tasks are only added by requests, and no start is given the id of a deleted load test. -/
def Spares (id : Nat) (c : LoadTestingConfig) (l : LoadTestingLabel) : Prop :=
  loadRequestsOnly l = true ∧
    ∀ request logId x, l = .act (.run (.startPut request logId)) x →
      c.shared.loadTests.freshKey ≠ id

/-- What keeps a load test from running again. -/
structure StaysEnded (id : Nat) (c : LoadTestingConfig) : Prop where
  ended : c.shared.Ended id
  unrevived : ∀ v ∈ c.tasks, ¬ v.revives id
  sound : ∀ v ∈ c.tasks, v.Sound c.shared

theorem ended_of_get {k : Nat} (h : s'.loadTests.get k = s.loadTests.get k ∨
    s'.loadTests.get k = none) (hended : s.Ended k) : s'.Ended k := by
  unfold LoadTestingState.Ended PanelState.runningLoadTest PanelStore.tryGetLoadTest
  rcases h with h | h
  · rw [show s'.panel.store.loadTests.get k = s.panel.store.loadTests.get k from h]
    exact hended
  · rw [show s'.panel.store.loadTests.get k = none from h]
    rfl

/-- A put of another load test, or of one that is not running. -/
theorem ended_of_put {panel : PanelState} {w : Option LoadTest}
    (h : panel.store.loadTests = s.panel.loadTestsAfter w)
    (hw : ∀ t, w = some t → t.isRunning = true → t.id ≠ id) (hended : s.Ended id) :
    LoadTestingState.Ended { s with panel := panel } id := by
  unfold LoadTestingState.Ended PanelState.runningLoadTest PanelStore.tryGetLoadTest
  cases w with
  | none =>
      rw [h]
      exact hended
  | some t =>
      have hput : panel.store.loadTests.get id =
          if id = t.id then some t else s.panel.store.loadTests.get id := by
        rw [h]
        exact s.panel.store.loadTests.get_put t id
      dsimp only
      rw [hput]
      split
      · rename_i hid
        rw [Option.filter_some]
        split
        · rename_i hrunning
          exact absurd hid.symm (hw t rfl hrunning)
        · rfl
      · exact hended

theorem StaysEnded.step (h : StaysEnded id c) (hok : Spares id c l)
    (hstep : Step (LoadTestingTask.step r) c l c') : StaysEnded id c' := by
  have hsound := sound_step hok.1 h.sound hstep
  cases l with
  | call v =>
      cases hstep
      refine ⟨h.ended, ?_, hsound⟩
      intro w hw
      rcases List.mem_cons.mp hw with rfl | hw
      · cases w with
        | run t =>
            cases t with
            | cancelRead | startLog => exact fun hrevives => hrevives
            | _ => cases hok.1
        | _ => exact fun hrevives => hrevives
      · exact h.unrevived w hw
  | act v x =>
      obtain ⟨vs, others, hpool, hact, htasks⟩ := hstep.act_inv
      have hv : v ∈ c.tasks := hstep.mem_tasks
      have hothers : ∀ w ∈ others, ¬ w.revives id := fun w hw =>
        h.unrevived w (hpool.mem_iff.mpr (List.mem_cons_of_mem v hw))
      have hended : c'.shared.Ended id ∧ ∀ w ∈ vs, ¬ w.revives id := by
        cases v with
        | run t =>
            obtain ⟨panel, ts, ht, hshared, rfl⟩ := step_run_inv hact
            have hnot : ¬ t.revives id := h.unrevived _ hv
            rw [hshared]
            constructor
            · refine ended_of_put (loadTests_of_step ht) ?_ h.ended
              rintro w hwritten hrunning rfl
              rcases revives_of_written hwritten hrunning with hrevives | ⟨⟨_, _, rfl⟩, hfresh⟩
              · exact hnot hrevives
              · exact hok.2 _ _ _ rfl hfresh.symm
            · intro w hw hrevives
              obtain ⟨u, hu, rfl⟩ := List.mem_map.mp hw
              have haddressed := (h.sound _ hv).addressed
              rcases revivesFrom_step ht haddressed u hu id hrevives with hheld | hrunning
              · exact hnot hheld
              · exact hrunning h.ended
        | _ =>
            have hdeletes := deletes_of_step hact rfl
            exact ⟨ended_of_get (hdeletes.loadTests id) h.ended,
              fun w hw => not_revives_of_not_isRun (hdeletes.tasks w hw) id⟩
      refine ⟨hended.1, ?_, hsound⟩
      intro w hw
      rw [htasks] at hw
      rcases List.mem_append.mp hw with hw | hw
      · exact hended.2 w hw
      · exact hothers w hw

/-! ## Running again -/

/-- Some continuation stores the load test as running. -/
def Revivable (r : Rendering) (id : Nat) (c : LoadTestingConfig) : Prop :=
  ∃ ls c', Run (LoadTestingTask.step r) (Spares id) c ls c' ∧ ¬ c'.shared.Ended id

/-- A task that goes on to revive a load test. -/
theorem revivable_of_act (hv : v ∈ c.tasks)
    (hact : v.step r x c.shared = some (s', vs))
    (hstart : ∀ request logId, v ≠ .run (.startPut request logId))
    (hnext : ∀ others, Revivable r id ⟨s', vs ++ others⟩) : Revivable r id c := by
  obtain ⟨earlier, later, htasks⟩ := List.append_of_mem hv
  have hpool : c.tasks.Perm (v :: (earlier ++ later)) := by
    rw [htasks]
    exact List.perm_middle
  have hspares : Spares id c (.act v x) := by
    refine ⟨rfl, fun request logId y heq => ?_⟩
    obtain ⟨hv', -⟩ := Label.act.inj heq
    exact absurd hv' (hstart request logId)
  obtain ⟨ls, c', hrun, hnot⟩ := hnext (earlier ++ later)
  exact ⟨_, c', (Run.single (.act hpool hact) hspares).trans hrun, hnot⟩

theorem revivable_of_not_ended (h : ¬ c.shared.Ended id) : Revivable r id c :=
  ⟨[], c, .refl c, h⟩

theorem not_ended_put {t : LoadTest} (h : t.isRunning = true) :
    ¬ LoadTestingState.Ended { s with panel := s.panel.putLoadTest t } t.id := by
  unfold LoadTestingState.Ended PanelState.runningLoadTest PanelStore.tryGetLoadTest
  have hput : (s.panel.putLoadTest t).store.loadTests.get t.id = some t :=
    Space.get_put_self s.panel.store.loadTests t
  dsimp only
  rw [hput, Option.filter_some, if_pos h]
  exact Option.some_ne_none t

theorem revivable_eventPut {newTest : LoadTest}
    (hv : .run (.stream b (.eventPut newTest)) ∈ c.tasks) : Revivable r newTest.id c := by
  refine revivable_of_act (x := .go 0) hv rfl (by simp) fun others => ?_
  refine revivable_of_not_ended ?_
  exact not_ended_put (t := { newTest with state := .running, endTimeStamp := some 0 }) rfl

theorem revivable_reported {stored : LoadTest} {event : LoadTestEvent} {fileId : Nat}
    (hv : .run (.stream b (.eventPut (reportedLoadTest stored event fileId))) ∈ c.tasks) :
    Revivable r event.loadTest.id c := by
  have hput : Revivable r (reportedLoadTest stored event fileId).id c := revivable_eventPut hv
  exact hput

theorem revivable_compareLoadEvent {stored : LoadTest} {event : LoadTestEvent}
    (hne : event.loadTest ≠ stored)
    (hv : .run (compareLoadEvent b stored event) ∈ c.tasks) :
    Revivable r event.loadTest.id c := by
  unfold compareLoadEvent at hv
  rw [if_neg hne] at hv
  split at hv
  · exact revivable_eventPut hv
  · refine revivable_of_act (x := .go 0) hv rfl (by simp) fun others => ?_
    exact revivable_reported List.mem_cons_self

theorem revivable_eventLogPut {stored : LoadTest} {event : LoadTestEvent} {log : Log}
    (hne : event.loadTest ≠ stored)
    (hv : .run (.stream b (.eventLogPut stored event log)) ∈ c.tasks) :
    Revivable r event.loadTest.id c := by
  refine revivable_of_act (x := .go 0) hv rfl (by simp) fun others => ?_
  exact revivable_compareLoadEvent hne List.mem_cons_self

/-- A task that revives a load test can go on to do so. -/
theorem revivable_of_revives (hv : v ∈ c.tasks) (hsound : v.Sound c.shared)
    (hrevives : v.revives id) : Revivable r id c := by
  cases v with
  | run t =>
      revert hv hsound hrevives
      show _ → _ → t.revives id → _
      fun_cases LoadTestTask.revives id t <;> intro hv hsound hrevives
      case case1 b =>
          subst hrevives
          refine revivable_of_act (x := .go 0) hv rfl (by simp) fun others => ?_
          refine revivable_of_not_ended ?_
          exact not_ended_put (t := { b.loadTest with state := .startedOnResource }) rfl
      case case2 b stored event =>
          obtain ⟨rfl, hne⟩ := hrevives
          obtain ⟨log, hlog⟩ := Option.isSome_iff_exists.mp (hsound.log _ rfl)
          have hget : c.shared.panel.store.getLog b.loadTest.logId = .ok log :=
            PanelStore.getLog_eq_ok.mpr hlog
          have hact : (LoadTestingTask.run (.stream b (.eventLogRead stored event))).step r
              (.go 0) c.shared =
                some (c.shared, [.run (.stream b (.eventLogPut stored event log))]) := by
            simp [LoadTestingTask.step, LoadTestingState.hasScenario, LoadTestTask.step,
              loadStreamStep, hget]
          refine revivable_of_act hv hact (by simp) fun others => ?_
          exact revivable_eventLogPut hne List.mem_cons_self
      case case3 b stored event log =>
          obtain ⟨rfl, hne⟩ := hrevives
          exact revivable_eventLogPut hne hv
      case case4 b stored event =>
          subst hrevives
          refine revivable_of_act (x := .go 0) hv rfl (by simp) fun others => ?_
          exact revivable_reported List.mem_cons_self
      case case5 b newTest =>
          subst hrevives
          exact revivable_eventPut hv
      case case6 => cases hrevives
  | _ => cases hrevives

/-- A panel that has been started, with whatever is stored. -/
def startedPanel (s : LoadTestingState) : LoadTestingConfig :=
  ⟨s, []⟩

/-- A load test that has ended is never stored as running again, in any interleaving in which
no start is given the id of a deleted one, exactly when no task of the panel revives it. -/
theorem ended_stays_iff {ls : List LoadTestingLabel}
    (hrun : Run (LoadTestingTask.step r) (fun _ l => loadRequestsOnly l = true)
      (startedPanel s) ls c) (hended : c.shared.Ended id) :
    (∀ ls' c', Run (LoadTestingTask.step r) (Spares id) c ls' c' → c'.shared.Ended id) ↔
      ∀ v ∈ c.tasks, ¬ v.revives id := by
  have hsound : ∀ v ∈ c.tasks, v.Sound c.shared :=
    hrun.invariant (I := fun d => ∀ v ∈ d.tasks, v.Sound d.shared)
      (fun _ hv => nomatch hv) fun _ _ _ hd hok hstep => sound_step hok hd hstep
  constructor
  · intro hstays v hv hrevives
    obtain ⟨ls', c', hrun', hnot⟩ : Revivable r id c :=
      revivable_of_revives hv (hsound v hv) hrevives
    exact hnot (hstays ls' c' hrun')
  · intro hnot ls' c' hrun'
    have hstays : StaysEnded id c := ⟨hended, hnot, hsound⟩
    exact (hrun'.invariant hstays fun _ _ _ h hok hstep => h.step hok hstep).ended

private def endedRequest : LoadTestRequest where
  scenarioId := 1
  resourceId := ⟨1, "cluster", .openShift⟩
  projectId := 1
  version := ⟨"main", "1.0"⟩
  environmentVariables := []

private def loadRendering : Rendering where
  instant := toString
  errorColor := fun text => text
  stackTrace := fun message => message

/-- A load test is started; its body takes so many actions before it is cancelled. -/
private def cancelMoves (actions : Nat) : List (Move LoadTestingTask (Signal LoadTestEvent)) :=
  .call (.run (.startLog endedRequest)) :: List.replicate (2 + actions) (.act 0 (.go 7)) ++
    [.call (.run (.cancelRead 1)), .act 0 (.go 8), .act 0 (.go 8)]

/-- The load test has ended, and the only task is its body at the given position. -/
private def endedAt (position : BodyPosition) (c : LoadTestingConfig) : Bool :=
  (c.shared.panel.runningLoadTest 1).isNone &&
    match c.tasks with
    | [.run (.body b p)] => b.loadTest.id = 1 && p = position
    | _ => false

private theorem endedAt_inv {position : BodyPosition} (h : endedAt position c = true) :
    c.shared.Ended 1 ∧ ∃ b, b.loadTest.id = 1 ∧ c.tasks = [.run (.body b position)] := by
  obtain ⟨hended, htasks⟩ := Bool.and_eq_true_iff.mp h
  refine ⟨Option.isNone_iff_eq_none.mp hended, ?_⟩
  split at htasks
  · rename_i b p heq
    obtain ⟨hid, hposition⟩ := Bool.and_eq_true_iff.mp htasks
    obtain rfl := of_decide_eq_true hposition
    exact ⟨b, of_decide_eq_true hid, heq⟩
  · cases htasks

private theorem exists_endedAt (position : BodyPosition) (actions : Nat)
    (h : ((startedPanel { panel := { store := .empty } }).exec
      (LoadTestingTask.step loadRendering) (fun _ => loadRequestsOnly) (cancelMoves actions)).any
        (fun e => endedAt position e.2) = true) :
    ∃ ls c, Run (LoadTestingTask.step loadRendering) (fun _ l => loadRequestsOnly l = true)
      (startedPanel { panel := { store := .empty } }) ls c ∧ endedAt position c = true :=
  exists_run_of_exec _ _ _ (cancelMoves actions) (fun _ => endedAt position) h

/-- A load test that is cancelled before its body has begun stays cancelled; one whose body
is about to announce it does not. -/
theorem ended_stays_iff_cancelled :
    (∃ ls c, Run (LoadTestingTask.step loadRendering) (fun _ l => loadRequestsOnly l = true)
        (startedPanel { panel := { store := .empty } }) ls c ∧ c.shared.Ended 1 ∧
      ∀ ls' c', Run (LoadTestingTask.step loadRendering) (Spares 1) c ls' c' →
        c'.shared.Ended 1) ∧
      ∃ ls c, Run (LoadTestingTask.step loadRendering) (fun _ l => loadRequestsOnly l = true)
          (startedPanel { panel := { store := .empty } }) ls c ∧ c.shared.Ended 1 ∧
        ¬ ∀ ls' c', Run (LoadTestingTask.step loadRendering) (Spares 1) c ls' c' →
          c'.shared.Ended 1 := by
  constructor
  · obtain ⟨ls, c, hrun, hc⟩ := exists_endedAt .start 0 (by decide)
    obtain ⟨hended, b, -, htasks⟩ := endedAt_inv hc
    refine ⟨ls, c, hrun, hended, (ended_stays_iff hrun hended).mpr fun v hv hrevives => ?_⟩
    rw [htasks] at hv
    rw [List.mem_singleton.mp hv] at hrevives
    exact hrevives
  · obtain ⟨ls, c, hrun, hc⟩ := exists_endedAt .announcePut 6 (by decide)
    obtain ⟨hended, b, hid, htasks⟩ := endedAt_inv hc
    refine ⟨ls, c, hrun, hended, fun hstays => ?_⟩
    have hnot := (ended_stays_iff hrun hended).mp hstays
    exact hnot (.run (.body b .announcePut)) (by rw [htasks]; exact List.mem_cons_self) hid

/-! ## The load tests of a scenario -/

/-- The scenario of the load test that the task is going to store. -/
def LoadTestTask.scenarioId? : LoadTestTask → Option Nat
  | .cancelPut currentTest => some currentTest.scenarioId
  | .startLog request | .startPut request _ => some request.scenarioId
  | .body b .announcePut => some b.loadTest.scenarioId
  | .stream _ (.eventLogRead _ event) | .stream _ (.eventLogPut _ event _)
  | .stream _ (.eventReport _ event) => some event.loadTest.scenarioId
  | .stream _ (.eventPut newTest) => some newTest.scenarioId
  | .stream _ (.completeLogRead stored) | .stream _ (.completePut stored)
  | .failure _ _ (.put stored) => some stored.scenarioId
  | _ => none

/-- A handler that reads its load test as running has a copy of the same scenario: agents
do not change the scenario of their load test. -/
def LoadTestTask.KeepsScenario (s : PanelState) : LoadTestTask → Prop
  | .body b .announceRead =>
      ∀ stored, s.runningLoadTest b.loadTest.id = some stored →
        b.loadTest.scenarioId = stored.scenarioId
  | .stream b (.eventRead event) =>
      ∀ stored, s.runningLoadTest b.loadTest.id = some stored →
        event.loadTest.scenarioId = stored.scenarioId
  | _ => True

theorem scenarioId?_of_written {panel : PanelState} {e : LoadTest} {now : Nat}
    (h : t.written panel now = some e) : t.scenarioId? = some e.scenarioId := by
  revert h
  fun_cases LoadTestTask.written panel now t <;> intro h <;>
    simp only [Option.some.injEq, reduceCtorEq] at h <;> subst h <;> rfl

/-- The scenario of a task is that of the task before, or of a load test it read as
running. -/
def ScenarioFrom (panel : PanelState) (t : LoadTestTask) (ts : List LoadTestTask) : Prop :=
  ∀ u ∈ ts, ∀ k ∈ u.scenarioId?, k ∈ t.scenarioId? ∨
    ∃ i e, panel.runningLoadTest i = some e ∧ e.scenarioId = k

variable {panel panel' : PanelState}

section

attribute [local simp] ScenarioFrom LoadTestTask.scenarioId?

theorem scenarioFrom_bodyStep {p : BodyPosition}
    (h : loadBodyStep b p x panel = some (panel', ts))
    (hkeeps : (LoadTestTask.body b p).KeepsScenario panel) :
    ScenarioFrom panel (.body b p) ts := by
  revert h hkeeps
  fun_cases loadBodyStep b p x panel <;> intro h hkeeps <;>
    simp only [Option.some.injEq, Prod.mk.injEq, reduceCtorEq] at h <;>
    rcases h with ⟨rfl, rfl⟩
  case case15 now stored hstored =>
      intro u hu k hk
      rw [List.mem_singleton.mp hu] at hk
      obtain rfl := Option.some.inj hk
      exact .inr ⟨_, stored, hstored, (hkeeps stored hstored).symm⟩
  all_goals
    simp

theorem scenarioFrom_streamStep {p : LoadStreamPosition}
    (h : loadStreamStep b p x panel = some (panel', ts))
    (hkeeps : (LoadTestTask.stream b p).KeepsScenario panel) :
    ScenarioFrom panel (.stream b p) ts := by
  revert h hkeeps
  fun_cases loadStreamStep b p x panel <;> intro h hkeeps <;>
    simp only [Option.some.injEq, Prod.mk.injEq, reduceCtorEq] at h <;>
    rcases h with ⟨rfl, rfl⟩
  case case8 event now stored hstored =>
      intro u hu k hk
      rw [List.mem_singleton.mp hu] at hk
      obtain rfl := Option.some.inj hk
      exact .inr ⟨_, stored, hstored, (hkeeps stored hstored).symm⟩
  case case11 stored event log now =>
      intro u hu k hk
      rw [List.mem_singleton.mp hu] at hk
      refine .inl ?_
      unfold compareLoadEvent at hk
      split at hk
      · cases hk
      · split at hk
        · exact hk
        · exact hk
  case case17 now stored hstored =>
      intro u hu k hk
      rw [List.mem_singleton.mp hu] at hk
      exact .inr ⟨_, stored, hstored, Option.some.inj hk⟩
  all_goals
    simp_all [reportedLoadTest]

theorem scenarioFrom_failureStep {m : String} {p : LoadFailurePosition}
    (h : loadFailureStep r b m p x panel = some (panel', ts)) :
    ScenarioFrom panel (.failure b m p) ts := by
  revert h
  fun_cases loadFailureStep r b m p x panel <;> intro h <;>
    simp only [Option.some.injEq, Prod.mk.injEq, reduceCtorEq] at h <;>
    rcases h with ⟨rfl, rfl⟩
  case case2 now stored hstored =>
      intro u hu k hk
      rw [List.mem_singleton.mp hu] at hk
      exact .inr ⟨_, stored, hstored, Option.some.inj hk⟩
  all_goals
    simp

theorem scenarioFrom_destroyStep {i run : Nat} {p : DestroyPosition}
    (h : loadDestroyStep i run p x panel = some (panel', ts)) :
    ScenarioFrom panel (.destroy i run p) ts := by
  revert h
  fun_cases loadDestroyStep i run p x panel <;> intro h <;>
    simp only [Option.some.injEq, Prod.mk.injEq, reduceCtorEq] at h <;>
    rcases h with ⟨rfl, rfl⟩ <;> simp

theorem scenarioFrom_step (h : t.step r x panel = some (panel', ts))
    (hkeeps : t.KeepsScenario panel) : ScenarioFrom panel t ts := by
  revert h hkeeps
  fun_cases LoadTestTask.step r t x panel <;> intro h hkeeps
  case case5 => exact scenarioFrom_bodyStep h hkeeps
  case case6 => exact scenarioFrom_streamStep h hkeeps
  case case7 => exact scenarioFrom_failureStep h
  case case8 => exact scenarioFrom_destroyStep h
  all_goals
    simp only [Option.some.injEq, Prod.mk.injEq, reduceCtorEq] at h
  all_goals
    rcases h with ⟨rfl, rfl⟩
  case case1 i now =>
      unfold cancelLoadReadStep
      split
      · simp
      · rename_i currentTest hget
        split
        · rename_i hrunning
          intro u hu k hk
          rw [List.mem_singleton.mp hu] at hk
          have hstored : panel.store.tryGetLoadTest i = some currentTest :=
            PanelStore.orElseThrow_eq_ok.mp hget
          refine .inr ⟨i, currentTest, ?_, Option.some.inj hk⟩
          exact Option.filter_eq_some_iff.mpr ⟨hstored, hrunning⟩
        · simp
  case case2 =>
      split <;> simp
  all_goals
    simp

end

/-- The load test is stored and one of the scenario. -/
def LoadTestingState.Has (s : LoadTestingState) (scenario : Nat) (e : LoadTest) : Prop :=
  e ∈ s.loadTests.rows ∧ e.scenarioId = scenario

/-- What a deletion of the scenario will leave out is not there. -/
def ScenarioDeletion.Covers (scenario : Nat) (s : LoadTestingState) : ScenarioDeletion → Prop
  | .read => True
  | .tests ids => ∀ e, s.Has scenario e → e.id ∈ ids
  | .row => ∀ e, ¬ s.Has scenario e

/-- No load test of the scenario is running or going to be stored, and the deletions of the
scenario know what there is to delete. -/
structure Quiet (scenario : Nat) (c : LoadTestingConfig) : Prop where
  stopped : ∀ e, c.shared.Has scenario e → e.isRunning = false
  unheld : ∀ t, .run t ∈ c.tasks → t.scenarioId? ≠ some scenario
  covered : ∀ p, .deleteLoadTestScenario scenario p ∈ c.tasks → p.Covers scenario c.shared

/-- Tasks are only added by requests, of which none starts a load test of the scenario, and
agents keep the scenario of their load test. -/
def KeepsQuiet (scenario : Nat) (c : LoadTestingConfig) (l : LoadTestingLabel) : Prop :=
  loadRequestsOnly l = true ∧
    (∀ request, l = .call (.run (.startLog request)) → request.scenarioId ≠ scenario) ∧
    ∀ t x, l = .act (.run t) x → t.KeepsScenario c.shared.panel

variable {scenario : Nat}

theorem has_of_put {w : Option LoadTest} {e : LoadTest}
    (h : panel.store.loadTests = s.panel.loadTestsAfter w)
    (hw : ∀ t, w = some t → t.scenarioId ≠ scenario)
    (he : LoadTestingState.Has { s with panel := panel } scenario e) : s.Has scenario e := by
  obtain ⟨hmem, hscenario⟩ := he
  have hrows : e ∈ (s.panel.loadTestsAfter w).rows := h ▸ hmem
  cases w with
  | none => exact ⟨hrows, hscenario⟩
  | some t =>
      rcases (Space.mem_rows_put _ _ _).mp hrows with rfl | ⟨hold, -⟩
      · exact absurd hscenario (hw e rfl)
      · exact ⟨hold, hscenario⟩

theorem Deletes.has {e : LoadTest} (h : Deletes s s' vs) (he : s'.Has scenario e) :
    s.Has scenario e := by
  have hget : s'.loadTests.get e.id = some e := (Space.mem_rows_iff _ e).mp he.1
  rcases h.loadTests e.id with hsame | hnone
  · exact ⟨Space.mem_rows_of_get (hsame ▸ hget), he.2⟩
  · rw [hnone] at hget
    cases hget

theorem ScenarioDeletion.Covers.mono {p : ScenarioDeletion} (h : p.Covers scenario s)
    (hhas : ∀ e, s'.Has scenario e → s.Has scenario e) : p.Covers scenario s' := by
  cases p with
  | read => trivial
  | tests ids => exact fun e he => h e (hhas e he)
  | row => exact fun e he => h e (hhas e he)

/-- The loop of a deletion goes on with what there is still to delete. -/
theorem covers_of_step {p q : ScenarioDeletion} {i : Nat}
    (hp : i = scenario → p.Covers scenario s)
    (hq : .deleteLoadTestScenario scenario q ∈ (deleteScenarioStep i s p).2) :
    q.Covers scenario (deleteScenarioStep i s p).1 := by
  revert hp hq
  fun_cases deleteScenarioStep i s p <;> intro hp hq
  case case1 =>
      obtain ⟨rfl, rfl⟩ := LoadTestingTask.deleteLoadTestScenario.inj (List.mem_singleton.mp hq)
      intro e he
      refine List.mem_map_of_mem (List.mem_filter.mpr ⟨he.1, ?_⟩)
      exact decide_eq_true he.2
  case case2 =>
      obtain ⟨rfl, rfl⟩ := LoadTestingTask.deleteLoadTestScenario.inj (List.mem_singleton.mp hq)
      exact fun e he => nomatch hp rfl e he
  case case4 test tests s' hdelete =>
      obtain ⟨rfl, rfl⟩ := LoadTestingTask.deleteLoadTestScenario.inj (List.mem_singleton.mp hq)
      intro e he
      have hget : s'.loadTests.get e.id = some e := (Space.mem_rows_iff _ e).mp he.1
      rw [get_deleteLoadTest hdelete] at hget
      split at hget
      · cases hget
      · rename_i hid
        have hold : s.Has scenario e := ⟨Space.mem_rows_of_get hget, he.2⟩
        exact (List.mem_cons.mp (hp rfl e hold)).resolve_left hid
  case case3 | case5 => cases hq

theorem covers_of_act {q : ScenarioDeletion} (hact : v.step r x s = some (s', vs))
    (hv : ∀ p, v = .deleteLoadTestScenario scenario p → p.Covers scenario s)
    (hq : .deleteLoadTestScenario scenario q ∈ vs) : q.Covers scenario s' := by
  revert hact hv hq
  fun_cases LoadTestingTask.step r v x s <;> intro hact hv hq
  case case2 =>
      obtain ⟨⟨panel, ts⟩, -, heq⟩ := Option.map_eq_some_iff.mp hact
      obtain rfl : ts.map .run = vs := congrArg Prod.snd heq
      obtain ⟨t, -, hrun⟩ := List.mem_map.mp hq
      cases hrun
  case case5 i p now =>
      have heq := Option.some.inj hact
      obtain rfl : (deleteScenarioStep i s p).1 = s' := congrArg Prod.fst heq
      obtain rfl : (deleteScenarioStep i s p).2 = vs := congrArg Prod.snd heq
      exact covers_of_step (fun hi => hv p (hi ▸ rfl)) hq
  all_goals
    simp only [Option.some.injEq, Prod.mk.injEq, reduceCtorEq] at hact
  all_goals
    obtain ⟨-, rfl⟩ := hact
    cases hq

/-- No step stores a load test of the scenario again. -/
theorem has_of_step (h : Quiet scenario c) (hok : KeepsQuiet scenario c l)
    (hstep : Step (LoadTestingTask.step r) c l c') {e : LoadTest}
    (he : c'.shared.Has scenario e) : c.shared.Has scenario e := by
  cases l with
  | call v =>
      cases hstep
      exact he
  | act v x =>
      obtain ⟨vs, others, hpool, hact, htasks⟩ := hstep.act_inv
      cases v with
      | run t =>
          obtain ⟨panel, ts, ht, hshared, -⟩ := step_run_inv hact
          rw [hshared] at he
          refine has_of_put (loadTests_of_step ht) (fun w hw hscenario => ?_) he
          refine h.unheld t hstep.mem_tasks ?_
          rw [scenarioId?_of_written hw, hscenario]
      | _ => exact (deletes_of_step hact rfl).has he

theorem Quiet.step (h : Quiet scenario c) (hok : KeepsQuiet scenario c l)
    (hstep : Step (LoadTestingTask.step r) c l c') : Quiet scenario c' := by
  have hhas := fun e => has_of_step (e := e) h hok hstep
  refine ⟨fun e he => h.stopped e (hhas e he), ?_, ?_⟩
  · intro t ht hscenario
    cases l with
    | call v =>
        cases hstep
        rcases List.mem_cons.mp ht with rfl | ht
        · cases t with
          | cancelRead => cases hscenario
          | startLog request => exact hok.2.1 request rfl (Option.some.inj hscenario)
          | _ => cases hok.1
        · exact h.unheld t ht hscenario
    | act v x =>
        obtain ⟨vs, others, hpool, hact, htasks⟩ := hstep.act_inv
        rw [htasks] at ht
        rcases List.mem_append.mp ht with ht | ht
        · cases v with
          | run u =>
              obtain ⟨panel, ts, hu, hshared, rfl⟩ := step_run_inv hact
              obtain ⟨t', ht', heq⟩ := List.mem_map.mp ht
              obtain rfl := LoadTestingTask.run.inj heq
              rcases scenarioFrom_step hu (hok.2.2 u x rfl) t' ht' scenario hscenario with
                hheld | ⟨i, e, hrunning, he⟩
              · exact h.unheld u hstep.mem_tasks hheld
              · obtain ⟨hget, htrue⟩ := running_of_runningLoadTest hrunning
                have hstopped := h.stopped e ⟨Space.mem_rows_of_get hget, he⟩
                rw [htrue] at hstopped
                cases hstopped
          | _ =>
              have hnot := (deletes_of_step hact rfl).tasks _ ht
              cases hnot
        · exact h.unheld t (hpool.mem_iff.mpr (List.mem_cons_of_mem v ht)) hscenario
  · intro q hq
    cases l with
    | call v =>
        cases hstep
        rcases List.mem_cons.mp hq with rfl | hq
        · cases q with
          | read => trivial
          | _ => cases hok.1
        · exact h.covered q hq
    | act v x =>
        obtain ⟨vs, others, hpool, hact, htasks⟩ := hstep.act_inv
        rw [htasks] at hq
        rcases List.mem_append.mp hq with hq | hq
        · refine covers_of_act hact (fun p hp => ?_) hq
          subst hp
          exact h.covered p hstep.mem_tasks
        · have hold := h.covered q (hpool.mem_iff.mpr (List.mem_cons_of_mem v hq))
          exact hold.mono hhas

/-- A load test that is done, and the deletion of its scenario. -/
private def deletingScenario : LoadTestingConfig where
  shared :=
    { panel :=
        { store := PanelStore.empty.putLoadTest
            { createLoadTest endedRequest 1 7 1 with state := .done } } }
  tasks := [.deleteLoadTestScenario 1 .read]

private def deletes : LoadTestingLabel → Bool
  | .act (.deleteLoadTestScenario _ _) _ => true
  | _ => false

private def deletesRow : LoadTestingLabel → Bool
  | .act (.deleteLoadTestScenario 1 .row) _ => true
  | _ => false

private theorem keepsQuiet_of_deletes (h : deletes l = true) : KeepsQuiet scenario c l := by
  revert h
  fun_cases deletes l <;> intro h
  · exact ⟨rfl, by simp, by simp⟩
  · cases h

end ArtPlatform
