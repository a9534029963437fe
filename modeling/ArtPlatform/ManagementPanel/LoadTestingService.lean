import ArtPlatform.ManagementPanel.AssemblyService

/-!
# Running a load test

The load-test services, in the form of `AssemblyService`: the same start, body,
stream, failure and destruction, with these differences.  Every event appends
its log record, and appends it as the agent sent it.  An event may carry a
report, which is stored as a file before the load test is put.  The failure
record holds the stack trace and no time.  There is no map of requesters.
-/

namespace ArtPlatform

structure LoadTestRequest where
  scenarioId : Nat
  resourceId : ResourceIdentifier
  projectId : Nat
  version : ProjectVersion
  environmentVariables : List EnvironmentVariable

/-- A started load test: the receiver of the handlers and the number of its run. -/
structure LoadTestStart where
  loadTest : LoadTest
  run : Nat

/-! ## Tasks -/

/-- Positions of the stream's event and completion handlers. -/
inductive LoadStreamPosition
  | idle
  | eventRead (event : LoadTestEvent)
  | eventLogRead (stored : LoadTest) (event : LoadTestEvent)
  | eventLogPut (stored : LoadTest) (event : LoadTestEvent) (log : Log)
  | eventReport (stored : LoadTest) (event : LoadTestEvent)
  | eventPut (newTest : LoadTest)
  | eventRequest
  | completeRead
  | completeLogRead (stored : LoadTest)
  | completePut (stored : LoadTest)

/-- Positions of `handleLoadTestError`. -/
inductive LoadFailurePosition
  | read
  | put (stored : LoadTest)
  | logRead
  | logPut (log : Log)

inductive LoadTestTask
  | cancelRead (id : Nat)
  | cancelPut (currentTest : LoadTest)
  | startLog (request : LoadTestRequest)
  | startPut (request : LoadTestRequest) (logId : Nat)
  | body (b : LoadTestStart) (position : BodyPosition)
  | stream (b : LoadTestStart) (position : LoadStreamPosition)
  | failure (b : LoadTestStart) (message : String) (position : LoadFailurePosition)
  | destroy (id run : Nat) (position : DestroyPosition)

/-! ## Snapshots that are put -/

def createLoadTest (request : LoadTestRequest) (logId now id : Nat) : LoadTest where
  id := id
  scenarioId := request.scenarioId
  logId := logId
  environmentVariables := request.environmentVariables
  projectId := request.projectId
  resourceId := request.resourceId
  version := request.version
  startTimeStamp := now

def reportName (id : Nat) : String :=
  "report-" ++ toString id ++ ".zip"

/-- The event's load test with the report that was stored for it. -/
def reportedLoadTest (stored : LoadTest) (event : LoadTestEvent) (fileId : Nat) : LoadTest :=
  { event.loadTest with reportArchiveName := some ⟨fileId, reportName stored.id⟩ }

def failureRecord (r : Rendering) (message : String) : String :=
  r.errorColor ("Load test failed: " ++ message ++ "\n" ++ r.stackTrace message)

/-! ## Actions -/

/-- `tryGetLoadTest(id).filter { it.isRunning }`. -/
def PanelState.runningLoadTest (s : PanelState) (id : Nat) : Option LoadTest :=
  (s.store.tryGetLoadTest id).filter LoadTest.isRunning

def cancelLoadReadStep (id : Nat) (s : PanelState) : List LoadTestTask :=
  match s.store.getLoadTest id with
  | .error _ => []
  | .ok currentTest => if currentTest.isRunning then [.cancelPut currentTest] else []

/-- The early return: nothing is destroyed unless the snapshot was on a resource. -/
def cancelLoadPutStep (currentTest : LoadTest) (now : Nat) (s : PanelState) :
    PanelState × List LoadTestTask :=
  let newTest := { currentTest with state := .canceled, endTimeStamp := some now }
  (s.putLoadTest newTest,
    if currentTest.state = .running ∨ currentTest.state = .startedOnResource then
      [.destroy newTest.id (s.loads.latest newTest.id) .createBuilder]
    else [])

def loadBodyStep (b : LoadTestStart) : BodyPosition → Signal LoadTestEvent → PanelState →
    Option (PanelState × List LoadTestTask)
  | .start, .go _, s => some (s, [.body b .checkCanceled])
  | .start, .fail _, s => some (s, [])
  | .checkCanceled, .go _, s =>
      match s.store.getLoadTest b.loadTest.id with
      | .error e => some (s, [.failure b e.message .read])
      | .ok t =>
          if t.isCanceled then some (s, [.body b .stopCanceled])
          else some (s, [.body b .startAgent])
  | .startAgent, .go _, s =>
      some (s.onLoads (·.createPod b.loadTest.id b.run), [.body b .awaitReadiness])
  | .startAgent, .fail m, s => some (s, [.failure b m .read])
  | .awaitReadiness, .go _, s => some (s, [.body b .checkCanceledAgain])
  | .awaitReadiness, .fail m, s => some (s, [.failure b m .read])
  | .checkCanceledAgain, .go _, s =>
      match s.store.getLoadTest b.loadTest.id with
      | .error e => some (s, [.failure b e.message .read])
      | .ok t =>
          if t.isCanceled then some (s, [.body b .stopCanceled])
          else some (s, [.body b .announceRead])
  | .stopCanceled, .go _, s => some (s.onLoads (·.deletePod b.loadTest.id), [])
  | .stopCanceled, .fail m, s => some (s, [.failure b m .read])
  | .announceRead, .go _, s =>
      match s.runningLoadTest b.loadTest.id with
      | some _ => some (s, [.body b .announcePut])
      | none => some (s, [.body b .prepareRequest])
  | .announceRead, .fail m, s => some (s, [.failure b m .read])
  | .announcePut, .go _, s =>
      some (s.putLoadTest { b.loadTest with state := .startedOnResource },
        [.body b .prepareRequest])
  | .prepareRequest, .go _, s => some (s, [.body b .connect])
  | .prepareRequest, .fail m, s => some (s, [.failure b m .read])
  | .connect, .go _, s =>
      some (s.onLoads (·.setAgent b.loadTest.id b.run), [.body b .chunk])
  | .connect, .fail m, s => some (s, [.failure b m .read])
  -- The shared requester is pointed at this stream.
  | .chunk, .go _, s => some (s, [.body b .subscribe])
  | .subscribe, .go _, s =>
      some (s.onLoads (·.subscribe b.loadTest.id b.run),
        [.stream b .idle, .body b .register])
  | .register, .go _, s => some (s.onLoads (·.setDisposable b.loadTest.id b.run), [])
  | _, _, _ => none

/-- The rest of the event handler after the log record. -/
def compareLoadEvent (b : LoadTestStart) (stored : LoadTest) (event : LoadTestEvent) :
    LoadTestTask :=
  if event.loadTest = stored then .stream b .eventRequest
  else if event.reportArchiveBytes.isEmpty then .stream b (.eventPut event.loadTest)
  else .stream b (.eventReport stored event)

def loadStreamStep (b : LoadTestStart) : LoadStreamPosition → Signal LoadTestEvent →
    PanelState → Option (PanelState × List LoadTestTask)
  | .idle, .next event, s =>
      if s.loads.live b.run ∧ event.loadTest.id = b.loadTest.id then
        some (s, [.stream b (.eventRead event)])
      else none
  | .idle, .complete, s =>
      if s.loads.live b.run then
        some (s.onLoads (·.terminate b.run), [.stream b .completeRead])
      else none
  | .idle, .error m, s =>
      if s.loads.live b.run then
        some (s.onLoads (·.terminate b.run), [.failure b m .read])
      else none
  | .eventRead event, .go _, s =>
      match s.runningLoadTest b.loadTest.id with
      | none => some (s, [.stream b .idle])
      | some stored => some (s, [.stream b (.eventLogRead stored event)])
  | .eventLogRead stored event, .go _, s =>
      match s.store.getLog b.loadTest.logId with
      | .error _ => some (s.onLoads (·.terminate b.run), [])
      | .ok log => some (s, [.stream b (.eventLogPut stored event log)])
  | .eventLogPut stored event log, .go _, s =>
      some (s.putLog (log.record event.logRecord), [compareLoadEvent b stored event])
  | .eventReport stored event, .go fileId, s =>
      some (s, [.stream b (.eventPut (reportedLoadTest stored event fileId))])
  | .eventReport _ _, .fail _, s => some (s.onLoads (·.terminate b.run), [])
  | .eventPut newTest, .go now, s =>
      some (s.putLoadTest { newTest with state := .running, endTimeStamp := some now },
        [.stream b .eventRequest])
  | .eventRequest, .go _, s => some (s, [.stream b .idle])
  | .completeRead, .go _, s =>
      match s.runningLoadTest b.loadTest.id with
      | none => some (s, [.destroy b.loadTest.id b.run .cancelSubscription])
      | some stored => some (s, [.stream b (.completeLogRead stored)])
  | .completeLogRead stored, .go _, s =>
      match s.store.getLog b.loadTest.logId with
      | .error _ => some (s, [])
      | .ok _ => some (s, [.stream b (.completePut stored)])
  | .completePut stored, .go now, s =>
      some (s.putLoadTest { stored with state := .done, endTimeStamp := some now },
        [.destroy b.loadTest.id b.run .cancelSubscription])
  | _, _, _ => none

def loadFailureStep (r : Rendering) (b : LoadTestStart) (message : String) :
    LoadFailurePosition → Signal LoadTestEvent → PanelState →
    Option (PanelState × List LoadTestTask)
  | .read, .go _, s =>
      match s.runningLoadTest b.loadTest.id with
      | none => some (s, [.destroy b.loadTest.id b.run .cancelSubscription])
      | some stored => some (s, [.failure b message (.put stored)])
  | .put stored, .go now, s =>
      some (s.putLoadTest { stored with state := .failed, endTimeStamp := some now },
        [.failure b message .logRead])
  | .logRead, .go _, s =>
      match s.store.getLog b.loadTest.logId with
      | .error _ => some (s, [])
      | .ok log => some (s, [.failure b message (.logPut log)])
  | .logPut log, .go _, s =>
      some (s.putLog (log.record (failureRecord r message)),
        [.destroy b.loadTest.id b.run .cancelSubscription])
  | _, _, _ => none

def loadDestroyStep (id run : Nat) : DestroyPosition → Signal LoadTestEvent → PanelState →
    Option (PanelState × List LoadTestTask)
  | .createBuilder, .go _, s => some (s, [.destroy id run .cancelSubscription])
  | .createBuilder, .fail _, s => some (s, [])
  | .cancelSubscription, .go _, s =>
      some (s.onLoads (·.cancelSubscription id), [.destroy id run .dispose])
  | .dispose, .go _, s => some (s.onLoads (·.dispose id), [.destroy id run .stopAgent])
  | .stopAgent, .go _, s => some (s.onLoads (·.deletePod id), [.destroy id run .removeAgent])
  | .stopAgent, .fail _, s => some (s, [])
  | .removeAgent, .go _, s =>
      some (s.onLoads (·.removeAgent id), [.destroy id run .removeDisposable])
  | .removeDisposable, .go _, s =>
      some (s.onLoads (·.removeDisposable id), [.destroy id run .removeSubscription])
  | .removeSubscription, .go _, s => some (s.onLoads (·.removeSubscription id), [])
  | _, _, _ => none

/-- One atomic action of a task of the load-test service. -/
def LoadTestTask.step (r : Rendering) :
    Interleaving.Actions PanelState LoadTestTask (Signal LoadTestEvent)
  | .cancelRead id, .go _, s => some (s, cancelLoadReadStep id s)
  | .cancelPut currentTest, .go now, s => some (cancelLoadPutStep currentTest now s)
  | .startLog request, .go _, s =>
      some ({ s with store := s.store.putNewLog.1 },
        [.startPut request s.store.putNewLog.2.id])
  | .startPut request logId, .go now, s =>
      let loadTest := createLoadTest request logId now s.store.loadTests.freshKey
      some ((s.putLoadTest loadTest).onLoads (·.startRun loadTest.id),
        [.body ⟨loadTest, s.loads.runs⟩ .start])
  | .body b position, x, s => loadBodyStep b position x s
  | .stream b position, x, s => loadStreamStep b position x s
  | .failure b message position, x, s => loadFailureStep r b message position x s
  | .destroy id run position, x, s => loadDestroyStep id run position x s
  | _, _, _ => none

/-! ## What continues a task -/

/-- An event is being handled. -/
def LoadStreamPosition.isHandling : LoadStreamPosition → Bool
  | .idle | .completeRead | .completeLogRead _ | .completePut _ => false
  | _ => true

/-- The end of the stream is being handled. -/
def LoadStreamPosition.isCompleting : LoadStreamPosition → Bool
  | .completeRead | .completeLogRead _ | .completePut _ => true
  | _ => false

theorem LoadStreamPosition.not_isHandling {p : LoadStreamPosition}
    (h : p.isCompleting = true) : ¬ p.isHandling = true := by
  cases p <;> simp [isCompleting, isHandling] at *

/-- The task leads neither a body nor a stream on. -/
def LoadTestTask.isAside : LoadTestTask → Bool
  | .body _ _ | .stream _ _ => false
  | _ => true

variable {r : Rendering} {b : LoadTestStart} {x : Signal LoadTestEvent} {s s' : PanelState}
  {ts : List LoadTestTask}

theorem loads_runs_silence (reg : Registry) (run : Option Nat) :
    (reg.silence run).runs = reg.runs := by
  cases run <;> rfl

/-- The body is led on by one task, up to its subscription. -/
theorem loadBodyStep_tasks {p : BodyPosition} (h : loadBodyStep b p x s = some (s', ts)) :
    s'.loads.runs = s.loads.runs ∧
      (p = .chunk ∧ (∃ now, x = .go now) ∧ ts = [.body b .subscribe] ∨
        p = .subscribe ∧ (∃ now, x = .go now) ∧ ts = [.stream b .idle, .body b .register] ∨
        p ≠ .chunk ∧ p ≠ .subscribe ∧
          (ts = [] ∨ (∃ m, ts = [.failure b m .read]) ∨
            ∃ q, q ≠ .subscribe ∧ q ≠ .register ∧ ts = [.body b q])) := by
  revert h
  fun_cases loadBodyStep b p x s <;> intro h <;>
    simp only [Option.some.injEq, Prod.mk.injEq, reduceCtorEq] at h <;>
    rcases h with ⟨rfl, rfl⟩ <;> refine ⟨rfl, ?_⟩ <;> simp

theorem handling_compareLoadEvent (b : LoadTestStart) (stored : LoadTest)
    (event : LoadTestEvent) :
    ∃ q : LoadStreamPosition, q.isHandling = true ∧
      compareLoadEvent b stored event = .stream b q := by
  unfold compareLoadEvent
  split
  · exact ⟨_, rfl, rfl⟩
  · split
    · exact ⟨_, rfl, rfl⟩
    · exact ⟨_, rfl, rfl⟩

/-- The stream is led on by one task; an event is handled before the next one. -/
theorem loadStreamStep_tasks {p : LoadStreamPosition}
    (h : loadStreamStep b p x s = some (s', ts)) :
    s'.loads.runs = s.loads.runs ∧
      ((∃ event, p = .idle ∧ x = .next event ∧ ts = [.stream b (.eventRead event)]) ∨
        p = .eventRequest ∧ ts = [.stream b .idle] ∨
        (∃ event, p = .eventRead event ∧ s.runningLoadTest b.loadTest.id = none ∧
          ts = [.stream b .idle]) ∨
        p.isHandling = true ∧ (∃ q, q.isHandling = true ∧ ts = [.stream b q]) ∨
        ts = [] ∨
        p.isHandling = false ∧ ∃ u, ts = [u] ∧
          ((∃ q, q.isCompleting = true ∧ u = .stream b q) ∨ u.isAside = true)) := by
  revert h
  fun_cases loadStreamStep b p x s <;> intro h <;>
    simp only [Option.some.injEq, Prod.mk.injEq, reduceCtorEq] at h <;>
    rcases h with ⟨rfl, rfl⟩ <;> refine ⟨rfl, ?_⟩
  case case11 stored event log now =>
      obtain ⟨q, hq, htask⟩ := handling_compareLoadEvent b stored event
      exact .inr (.inr (.inr (.inl ⟨rfl, q, hq, by rw [htask]⟩)))
  all_goals
    simp_all [LoadStreamPosition.isHandling, LoadStreamPosition.isCompleting,
      LoadTestTask.isAside]

theorem loadFailureStep_tasks {m : String} {p : LoadFailurePosition}
    (h : loadFailureStep r b m p x s = some (s', ts)) :
    s'.loads.runs = s.loads.runs ∧ ∀ u ∈ ts, u.isAside = true := by
  revert h
  fun_cases loadFailureStep r b m p x s <;> intro h <;>
    simp only [Option.some.injEq, Prod.mk.injEq, reduceCtorEq] at h <;>
    rcases h with ⟨rfl, rfl⟩ <;> refine ⟨rfl, ?_⟩ <;> simp [LoadTestTask.isAside]

theorem loadDestroyStep_tasks {id run : Nat} {p : DestroyPosition}
    (h : loadDestroyStep id run p x s = some (s', ts)) :
    s'.loads.runs = s.loads.runs ∧ ∀ u ∈ ts, u.isAside = true := by
  revert h
  fun_cases loadDestroyStep id run p x s <;> intro h <;>
    simp only [Option.some.injEq, Prod.mk.injEq, reduceCtorEq] at h <;>
    rcases h with ⟨rfl, rfl⟩ <;> refine ⟨?_, ?_⟩ <;>
    first | exact loads_runs_silence _ _ | simp [LoadTestTask.isAside] | rfl

/-- All other tasks lead neither a body nor a stream on, but for the start of a run. -/
theorem loadTestStep_tasks_of_aside {t : LoadTestTask} (ht : t.isAside = true)
    (h : t.step r x s = some (s', ts)) :
    s'.loads.runs = s.loads.runs ∧ (∀ u ∈ ts, u.isAside = true) ∨
      s'.loads.runs = s.loads.runs + 1 ∧
        ∃ loadTest, ts = [.body ⟨loadTest, s.loads.runs⟩ .start] := by
  revert h
  fun_cases LoadTestTask.step r t x s <;> intro h
  case case5 => cases ht
  case case6 => cases ht
  case case7 => exact .inl (loadFailureStep_tasks h)
  case case8 => exact .inl (loadDestroyStep_tasks h)
  all_goals
    simp only [Option.some.injEq, Prod.mk.injEq, reduceCtorEq] at h
  all_goals
    rcases h with ⟨rfl, rfl⟩
  case case1 =>
      refine .inl ⟨rfl, ?_⟩
      fun_cases cancelLoadReadStep <;> simp [LoadTestTask.isAside]
  case case2 =>
      refine .inl ⟨rfl, ?_⟩
      split <;> simp [LoadTestTask.isAside]
  case case3 => exact .inl ⟨rfl, by simp [LoadTestTask.isAside]⟩
  case case4 => exact .inr ⟨rfl, _, rfl⟩

end ArtPlatform
