import ArtPlatform.ManagementPanel.AssemblyService
import ArtPlatform.ManagementPanel.PanelAction
import Mathlib.Logic.Function.Iterate

/-!
# The artifacts of a built assembly

The agent reports each uploaded artifact with an event that carries the assembly with the
artifact.  The handler of the events puts an assembly only when it differs from the stored
one, and equality of assemblies leaves the artifacts out.  The handlers of the stream are
written here as they act when nothing comes between their actions.

Main results:

- Theorems `proceed_updateAssembly`, `proceed_completeAssembly` and
  `proceed_handleAssemblyError`: the stream's task, alone, does what the handlers do.
- Theorem `stored_updateAssembly`: the assembly that is stored after an event.
- Theorem `artifacts_reported_iff`: the artifacts of the last event are stored at the end
  exactly when it differs from the stored assembly, or brings no other artifacts.
-/

namespace ArtPlatform

/-! ## The handlers -/

section Handlers

variable (r : Rendering) (b : Build)

/-- The log record of an event. -/
def recordEvent (event : AgentEvent b.assembly.id) (now : Nat) :
    PanelAction PanelState Unit := do
  match event.val.logRecord with
  | none => pure ()
  | some record =>
      let log ← PanelAction.ofExcept ((← get).store.getLog b.assembly.logId)
      modify (·.putLog (log.record (formatLogRecord r now record)))

def updateAssembly (event : AgentEvent b.assembly.id) (now : Nat) :
    PanelAction PanelState Unit := do
  match (← get).runningAssembly b.assembly.id with
  | none => pure ()
  | some assembly =>
      recordEvent r b event now
      if event.val.assembly.equals assembly then pure ()
      else modify (·.putAssembly (eventAssembly event now))

def completeAssembly (now : Nat) : PanelAction PanelState Unit := do
  match (← get).runningAssembly b.assembly.id with
  | none => pure ()
  | some assembly =>
      let _ ← PanelAction.ofExcept ((← get).store.getLog b.assembly.logId)
      modify (·.putAssembly (doneAssembly assembly now))

def handleAssemblyError (message : String) (now : Nat) : PanelAction PanelState Unit := do
  match (← get).runningAssembly b.assembly.id with
  | none => pure ()
  | some assembly =>
      modify (·.putAssembly (failedAssembly assembly now))
      let log ← PanelAction.ofExcept ((← get).store.getLog b.assembly.logId)
      modify (·.putLog (log.record (formatLogRecord r now
        (r.errorColor ("Assembly failed: " ++ message)))))

/-- The events of a stream, each with the time at which it is handled. -/
def updateAssemblies (events : List (AgentEvent b.assembly.id × Nat)) :
    PanelAction PanelState Unit :=
  events.forM fun e => updateAssembly r b e.1 e.2

/-- How a stream ends. -/
inductive StreamEnd
  | complete
  | error (message : String)

def endStream (now : Nat) : StreamEnd → PanelAction PanelState Unit
  | .complete => completeAssembly b now
  | .error message => handleAssemblyError r b message now

end Handlers

/-! ## What the handlers do -/

section Results

variable {r : Rendering} {b : Build} {s : PanelState} {now : Nat} {assembly : Assembly}
  {event : AgentEvent b.assembly.id}

/-- The state after the put of an event that differs from the stored assembly. -/
def PanelState.afterEvent (s : PanelState) (b : Build) (event : AgentEvent b.assembly.id)
    (now : Nat) (assembly : Assembly) : PanelState :=
  if event.val.assembly.equals assembly then s else s.putAssembly (eventAssembly event now)

theorem updateAssembly_of_none (h : s.runningAssembly b.assembly.id = none) :
    updateAssembly r b event now s = .ok () s := by
  simp [updateAssembly, PanelAction.bind_apply, h]

theorem updateAssembly_of_silent (h : s.runningAssembly b.assembly.id = some assembly)
    (hrecord : event.val.logRecord = none) :
    updateAssembly r b event now s = .ok () (s.afterEvent b event now assembly) := by
  unfold PanelState.afterEvent
  by_cases hequals : event.val.assembly.equals assembly = true
  · simp [updateAssembly, recordEvent, PanelAction.bind_apply, h, hrecord, hequals]
  · simp [updateAssembly, recordEvent, PanelAction.bind_apply, h, hrecord, hequals]

theorem updateAssembly_of_logged {record : String} {log : Log}
    (h : s.runningAssembly b.assembly.id = some assembly)
    (hrecord : event.val.logRecord = some record)
    (hlog : s.store.getLog b.assembly.logId = .ok log) :
    updateAssembly r b event now s =
      .ok () ((s.putLog (log.record (formatLogRecord r now record))).afterEvent b event now
        assembly) := by
  unfold PanelState.afterEvent
  by_cases hequals : event.val.assembly.equals assembly = true
  · simp [updateAssembly, recordEvent, PanelAction.bind_apply, h, hrecord, hlog, hequals]
  · simp [updateAssembly, recordEvent, PanelAction.bind_apply, h, hrecord, hlog, hequals]

theorem updateAssembly_of_no_log {record : String} {exception : PlatformException}
    (h : s.runningAssembly b.assembly.id = some assembly)
    (hrecord : event.val.logRecord = some record)
    (hlog : s.store.getLog b.assembly.logId = .error exception) :
    updateAssembly r b event now s = .error (.raised exception) s := by
  simp [updateAssembly, recordEvent, PanelAction.bind_apply, h, hrecord, hlog]

theorem completeAssembly_of_none (h : s.runningAssembly b.assembly.id = none) :
    completeAssembly b now s = .ok () s := by
  simp [completeAssembly, PanelAction.bind_apply, h]

theorem completeAssembly_of_logged {log : Log}
    (h : s.runningAssembly b.assembly.id = some assembly)
    (hlog : s.store.getLog b.assembly.logId = .ok log) :
    completeAssembly b now s = .ok () (s.putAssembly (doneAssembly assembly now)) := by
  simp [completeAssembly, PanelAction.bind_apply, h, hlog]

theorem completeAssembly_of_no_log {exception : PlatformException}
    (h : s.runningAssembly b.assembly.id = some assembly)
    (hlog : s.store.getLog b.assembly.logId = .error exception) :
    completeAssembly b now s = .error (.raised exception) s := by
  simp [completeAssembly, PanelAction.bind_apply, h, hlog]

theorem handleAssemblyError_of_none {message : String}
    (h : s.runningAssembly b.assembly.id = none) :
    handleAssemblyError r b message now s = .ok () s := by
  simp [handleAssemblyError, PanelAction.bind_apply, h]

/-- The log is read after the put of the assembly, which leaves it. -/
theorem getLog_putAssembly (store : PanelStore) (assembly : Assembly) (id : Nat) :
    (store.putAssembly assembly).getLog id = store.getLog id := rfl

theorem handleAssemblyError_of_logged {message : String} {log : Log}
    (h : s.runningAssembly b.assembly.id = some assembly)
    (hlog : s.store.getLog b.assembly.logId = .ok log) :
    handleAssemblyError r b message now s =
      .ok () ((s.putAssembly (failedAssembly assembly now)).putLog
        (log.record (formatLogRecord r now
          (r.errorColor ("Assembly failed: " ++ message))))) := by
  simp [handleAssemblyError, PanelAction.bind_apply, h, getLog_putAssembly, hlog]

theorem handleAssemblyError_of_no_log {message : String} {exception : PlatformException}
    (h : s.runningAssembly b.assembly.id = some assembly)
    (hlog : s.store.getLog b.assembly.logId = .error exception) :
    handleAssemblyError r b message now s =
      .error (.raised exception) (s.putAssembly (failedAssembly assembly now)) := by
  simp [handleAssemblyError, PanelAction.bind_apply, h, getLog_putAssembly, hlog]

end Results

/-! ## The stream's task alone -/

section Alone

variable {r : Rendering} {b : Build} {s : PanelState} {now : Nat}

/-- The next action of a task that is alone. -/
def proceed (r : Rendering) (now : Nat) (c : PanelState × List AssemblyTask) :
    PanelState × List AssemblyTask :=
  match c.2 with
  | [t] => (t.step r (.go now) c.1).getD c
  | _ => c

theorem proceed_of_step {t : AssemblyTask} {c : PanelState × List AssemblyTask}
    (h : t.step r (.go now) s = some c) : proceed r now (s, [t]) = c := by
  simp [proceed, h]

theorem proceed_of_none {t : AssemblyTask} (h : t.step r (.go now) s = none) :
    proceed r now (s, [t]) = (s, [t]) := by
  simp [proceed, h]

/-- A task that waits for its stream stays. -/
theorem iterate_proceed_idle (n : Nat) :
    (proceed r now)^[n] (s, [.stream b .idle]) = (s, [.stream b .idle]) := by
  induction n with
  | zero => rfl
  | succ n ih => rw [Function.iterate_succ_apply, proceed_of_none rfl, ih]

/-- The put of an event that differs, and the request for the next one. -/
theorem proceed_compareEvent (assembly : Assembly) (event : AgentEvent b.assembly.id) (n : Nat) :
    (proceed r now)^[n + 2] (s, [compareEvent b assembly event]) =
      (s.afterEvent b event now assembly, [.stream b .idle]) := by
  unfold compareEvent PanelState.afterEvent
  by_cases hequals : event.val.assembly.equals assembly = true
  · rw [if_pos hequals, if_pos hequals, Function.iterate_succ_apply, proceed_of_step rfl,
      iterate_proceed_idle]
  · rw [if_neg hequals, if_neg hequals, Function.iterate_succ_apply,
      Function.iterate_succ_apply, proceed_of_step rfl, proceed_of_step rfl,
      iterate_proceed_idle]

theorem iterate_proceed_nil (n : Nat) : (proceed r now)^[n] (s, []) = (s, []) := by
  induction n with
  | zero => rfl
  | succ n ih => rw [Function.iterate_succ_apply, show proceed r now (s, []) = (s, []) from rfl, ih]

/-- The task of an event handler does what the handler does; one that throws cancels the
stream. -/
theorem proceed_updateAssembly (event : AgentEvent b.assembly.id) :
    (proceed r now)^[5] (s, [.stream b (.eventRead event)]) =
      match updateAssembly r b event now s with
      | .ok _ s' => (s', [.stream b .idle])
      | .error _ s' => (s'.onBuilds (·.terminate b.run), []) := by
  rw [Function.iterate_succ_apply]
  cases hrunning : s.runningAssembly b.assembly.id with
  | none =>
      have hread : AssemblyTask.step r (.stream b (.eventRead event)) (.go now) s =
          some (s, [.stream b .idle]) := by
        simp [AssemblyTask.step, streamStep, hrunning]
      rw [proceed_of_step hread, iterate_proceed_idle, updateAssembly_of_none hrunning]
  | some assembly =>
      cases hrecord : event.val.logRecord with
      | none =>
          have hread : AssemblyTask.step r (.stream b (.eventRead event)) (.go now) s =
              some (s, [compareEvent b assembly event]) := by
            simp [AssemblyTask.step, streamStep, hrunning, hrecord]
          rw [proceed_of_step hread, proceed_compareEvent,
            updateAssembly_of_silent hrunning hrecord]
      | some record =>
          have hread : AssemblyTask.step r (.stream b (.eventRead event)) (.go now) s =
              some (s, [.stream b (.eventLogRead assembly event record)]) := by
            simp [AssemblyTask.step, streamStep, hrunning, hrecord]
          rw [proceed_of_step hread, Function.iterate_succ_apply]
          cases hlog : s.store.getLog b.assembly.logId with
          | error exception =>
              have hread : AssemblyTask.step r
                  (.stream b (.eventLogRead assembly event record)) (.go now) s =
                    some (s.onBuilds (·.terminate b.run), []) := by
                simp [AssemblyTask.step, streamStep, hlog]
              rw [proceed_of_step hread, iterate_proceed_nil,
                updateAssembly_of_no_log hrunning hrecord hlog]
          | ok log =>
              have hread : AssemblyTask.step r
                  (.stream b (.eventLogRead assembly event record)) (.go now) s =
                    some (s, [.stream b (.eventLogPut assembly event record log)]) := by
                simp [AssemblyTask.step, streamStep, hlog]
              rw [proceed_of_step hread, Function.iterate_succ_apply, proceed_of_step rfl,
                proceed_compareEvent, updateAssembly_of_logged hrunning hrecord hlog]

/-- The task of the completion does what the handler does, and goes on with the
destruction; one that throws ends. -/
theorem proceed_completeAssembly :
    ∃ n, (proceed r now)^[n] (s, [.stream b .completeRead]) =
      match completeAssembly b now s with
      | .ok _ s' => (s', [.destroy b.assembly.id b.run .cancelSubscription])
      | .error _ s' => (s', []) := by
  cases hrunning : s.runningAssembly b.assembly.id with
  | none =>
      have hread : AssemblyTask.step r (.stream b .completeRead) (.go now) s =
          some (s, [.destroy b.assembly.id b.run .cancelSubscription]) := by
        simp [AssemblyTask.step, streamStep, hrunning]
      refine ⟨1, ?_⟩
      rw [completeAssembly_of_none hrunning]
      exact proceed_of_step hread
  | some assembly =>
      have hread : AssemblyTask.step r (.stream b .completeRead) (.go now) s =
          some (s, [.stream b (.completeLogRead assembly)]) := by
        simp [AssemblyTask.step, streamStep, hrunning]
      cases hlog : s.store.getLog b.assembly.logId with
      | error exception =>
          have hreadLog : AssemblyTask.step r (.stream b (.completeLogRead assembly)) (.go now) s =
              some (s, []) := by
            simp [AssemblyTask.step, streamStep, hlog]
          refine ⟨2, ?_⟩
          rw [completeAssembly_of_no_log hrunning hlog]
          simp [proceed_of_step hread, proceed_of_step hreadLog]
      | ok log =>
          have hreadLog : AssemblyTask.step r (.stream b (.completeLogRead assembly)) (.go now) s =
              some (s, [.stream b (.completePut assembly)]) := by
            simp [AssemblyTask.step, streamStep, hlog]
          have hput : AssemblyTask.step r (.stream b (.completePut assembly)) (.go now) s =
              some (s.putAssembly (doneAssembly assembly now),
                [.destroy b.assembly.id b.run .cancelSubscription]) := rfl
          refine ⟨3, ?_⟩
          rw [completeAssembly_of_logged hrunning hlog]
          simp [proceed_of_step hread, proceed_of_step hreadLog, proceed_of_step hput]

/-- The task of the error handler does what the handler does, and goes on with the
destruction; one that throws ends. -/
theorem proceed_handleAssemblyError (message : String) :
    ∃ n, (proceed r now)^[n] (s, [.failure b message .read]) =
      match handleAssemblyError r b message now s with
      | .ok _ s' => (s', [.destroy b.assembly.id b.run .cancelSubscription])
      | .error _ s' => (s', []) := by
  cases hrunning : s.runningAssembly b.assembly.id with
  | none =>
      have hread : AssemblyTask.step r (.failure b message .read) (.go now) s =
          some (s, [.destroy b.assembly.id b.run .cancelSubscription]) := by
        simp [AssemblyTask.step, failureStep, hrunning]
      refine ⟨1, ?_⟩
      rw [handleAssemblyError_of_none hrunning]
      exact proceed_of_step hread
  | some assembly =>
      have hread : AssemblyTask.step r (.failure b message .read) (.go now) s =
          some (s, [.failure b message (.put assembly)]) := by
        simp [AssemblyTask.step, failureStep, hrunning]
      have hput : AssemblyTask.step r (.failure b message (.put assembly)) (.go now) s =
          some (s.putAssembly (failedAssembly assembly now),
            [.failure b message .logRead]) := rfl
      have hkept := getLog_putAssembly s.store (failedAssembly assembly now) b.assembly.logId
      cases hlog : s.store.getLog b.assembly.logId with
      | error exception =>
          have hreadLog : AssemblyTask.step r (.failure b message .logRead) (.go now)
              (s.putAssembly (failedAssembly assembly now)) =
                some (s.putAssembly (failedAssembly assembly now), []) := by
            simp [AssemblyTask.step, failureStep, hkept, hlog]
          refine ⟨3, ?_⟩
          rw [handleAssemblyError_of_no_log hrunning hlog]
          simp [proceed_of_step hread, proceed_of_step hput, proceed_of_step hreadLog]
      | ok log =>
          have hreadLog : AssemblyTask.step r (.failure b message .logRead) (.go now)
              (s.putAssembly (failedAssembly assembly now)) =
                some (s.putAssembly (failedAssembly assembly now),
                  [.failure b message (.logPut log)]) := by
            simp [AssemblyTask.step, failureStep, hkept, hlog]
          have hputLog : AssemblyTask.step r (.failure b message (.logPut log)) (.go now)
              (s.putAssembly (failedAssembly assembly now)) =
                some ((s.putAssembly (failedAssembly assembly now)).putLog
                    (log.record (formatLogRecord r now
                      (r.errorColor ("Assembly failed: " ++ message)))),
                  [.destroy b.assembly.id b.run .cancelSubscription]) := rfl
          refine ⟨4, ?_⟩
          rw [handleAssemblyError_of_logged hrunning hlog]
          simp [proceed_of_step hread, proceed_of_step hput, proceed_of_step hreadLog,
            proceed_of_step hputLog]

end Alone

/-! ## The artifacts that are stored -/

section Artifacts

variable {r : Rendering} {b : Build} {s s' : PanelState} {now : Nat} {assembly : Assembly}
  {event : AgentEvent b.assembly.id}

/-- The artifacts are a set. -/
def SameArtifacts (a a' : Assembly) : Prop :=
  ∀ artifact, artifact ∈ a.artifacts ↔ artifact ∈ a'.artifacts

/-- The assembly that is stored after an event. -/
def storedAssembly (event : AgentEvent b.assembly.id) (now : Nat) (assembly : Assembly) :
    Assembly :=
  if event.val.assembly.equals assembly then assembly else eventAssembly event now

/-- The handler of an event that does not throw leaves a running assembly. -/
theorem runningAssembly_afterEvent (h : s.runningAssembly b.assembly.id = some assembly) :
    (s.afterEvent b event now assembly).runningAssembly b.assembly.id =
      some (storedAssembly event now assembly) := by
  unfold PanelState.afterEvent storedAssembly
  by_cases hequals : event.val.assembly.equals assembly = true
  · rw [if_pos hequals, if_pos hequals]
    exact h
  · rw [if_neg hequals, if_neg hequals, runningAssembly_eq_some]
    refine ⟨?_, rfl⟩
    have hid : Keyed.key (eventAssembly event now) = b.assembly.id := event.property
    have hput := s.store.assemblies.get_put_self (eventAssembly event now)
    rw [hid] at hput
    exact hput

theorem stored_updateAssembly (h : s.runningAssembly b.assembly.id = some assembly)
    (hupdate : updateAssembly r b event now s = .ok () s') :
    s'.runningAssembly b.assembly.id = some (storedAssembly event now assembly) := by
  cases hrecord : event.val.logRecord with
  | none =>
      rw [updateAssembly_of_silent h hrecord] at hupdate
      cases hupdate
      exact runningAssembly_afterEvent h
  | some record =>
      cases hlog : s.store.getLog b.assembly.logId with
      | error exception =>
          rw [updateAssembly_of_no_log h hrecord hlog] at hupdate
          cases hupdate
      | ok log =>
          rw [updateAssembly_of_logged h hrecord hlog] at hupdate
          cases hupdate
          exact runningAssembly_afterEvent h

/-- Handled events leave a running assembly. -/
theorem exists_running_updateAssemblies {events : List (AgentEvent b.assembly.id × Nat)}
    (h : s.runningAssembly b.assembly.id = some assembly)
    (hupdate : updateAssemblies r b events s = .ok () s') :
    ∃ assembly', s'.runningAssembly b.assembly.id = some assembly' := by
  induction events generalizing s assembly with
  | nil =>
      cases hupdate
      exact ⟨assembly, h⟩
  | cons e events ih =>
      change (updateAssembly r b e.1 e.2 >>= fun _ => updateAssemblies r b events) s = _
        at hupdate
      rw [PanelAction.bind_apply] at hupdate
      cases hfirst : updateAssembly r b e.1 e.2 s with
      | error exception s₁ =>
          rw [hfirst] at hupdate
          cases hupdate
      | ok _ s₁ =>
          rw [hfirst] at hupdate
          exact ih (stored_updateAssembly h hfirst) hupdate

/-- The end of the stream keeps the artifacts of the stored assembly. -/
theorem artifacts_endStream (h : s.runningAssembly b.assembly.id = some assembly)
    (streamEnd : StreamEnd) (now : Nat) :
    ∃ final, ((endStream r b now streamEnd).storeAfter s).store.tryGetAssembly b.assembly.id =
        some final ∧
      final.artifacts = assembly.artifacts := by
  have hstored : s.store.tryGetAssembly b.assembly.id = some assembly :=
    (runningAssembly_eq_some.mp h).1
  have hid : assembly.id = b.assembly.id := id_of_runningAssembly h
  have hput : ∀ a : Assembly, a.id = assembly.id →
      (s.store.putAssembly a).tryGetAssembly b.assembly.id = some a := by
    intro a ha
    have hget := s.store.assemblies.get_put_self a
    rwa [show Keyed.key a = b.assembly.id from ha.trans hid] at hget
  cases hlog : s.store.getLog b.assembly.logId with
  | error exception =>
      cases streamEnd with
      | complete =>
          refine ⟨assembly, ?_, rfl⟩
          unfold endStream
          rw [PanelAction.storeAfter_of_error (completeAssembly_of_no_log h hlog)]
          exact hstored
      | error message =>
          refine ⟨failedAssembly assembly now, ?_, rfl⟩
          unfold endStream
          rw [PanelAction.storeAfter_of_error (handleAssemblyError_of_no_log h hlog)]
          exact hput _ rfl
  | ok log =>
      cases streamEnd with
      | complete =>
          refine ⟨doneAssembly assembly now, ?_, rfl⟩
          unfold endStream
          rw [PanelAction.storeAfter_of_ok (completeAssembly_of_logged h hlog)]
          exact hput _ rfl
      | error message =>
          refine ⟨failedAssembly assembly now, ?_, rfl⟩
          unfold endStream
          rw [PanelAction.storeAfter_of_ok (handleAssemblyError_of_logged h hlog)]
          exact hput (failedAssembly assembly now) rfl

/-- The artifacts of the last event are stored at the end of the stream exactly when the
event differs from the assembly that was stored before it, or brings its artifacts. -/
theorem artifacts_reported_iff (r : Rendering) (b : Build) (s s₁ s₂ : PanelState)
    (events : List (AgentEvent b.assembly.id × Nat)) (last : AgentEvent b.assembly.id)
    (now endTime : Nat) (streamEnd : StreamEnd)
    (hrunning : (s.runningAssembly b.assembly.id).isSome = true)
    (hevents : updateAssemblies r b events s = .ok () s₁)
    (hlast : updateAssembly r b last now s₁ = .ok () s₂) :
    (∃ final, ((endStream r b endTime streamEnd).storeAfter s₂).store.tryGetAssembly
        b.assembly.id = some final ∧ SameArtifacts final last.val.assembly) ↔
      ∃ stored, s₁.store.tryGetAssembly b.assembly.id = some stored ∧
        (last.val.assembly.equals stored = true →
          SameArtifacts stored last.val.assembly) := by
  obtain ⟨assembly, hassembly⟩ := Option.isSome_iff_exists.mp hrunning
  obtain ⟨stored, hstored⟩ := exists_running_updateAssemblies hassembly hevents
  have hget : s₁.store.tryGetAssembly b.assembly.id = some stored :=
    (runningAssembly_eq_some.mp hstored).1
  obtain ⟨final, hfinal, hartifacts⟩ :=
    artifacts_endStream (r := r) (stored_updateAssembly hstored hlast) streamEnd endTime
  rw [hfinal, hget]
  simp only [Option.some.injEq, exists_eq_left', SameArtifacts, hartifacts, storedAssembly]
  by_cases hequals : last.val.assembly.equals stored = true
  · simp [hequals]
  · simp [hequals, eventAssembly]

end Artifacts

/-! ## An upload that is the first event -/

/-- A panel whose only assembly is announced on its resource. -/
private def announcedPanel : PanelState where
  store := (PanelStore.empty.putLog { id := 1 }).putAssembly SampleBuild.assembly

private def announcedBuild : Build :=
  ⟨SampleBuild.assembly, 1⟩

private def uploaded : AssembledArtifact :=
  ⟨"shop", "1.0", "shop:1.0", ⟨2, "nexus", .artifacts⟩⟩

private def uploadEvent : AgentEvent announcedBuild.assembly.id :=
  ⟨{ assembly := { SampleBuild.assembly with artifacts := [uploaded] }
     logRecord := some "Added artifact with an external id: shop:1.0" }, rfl⟩

/-- The last event of the build, which sets the end. -/
private def endEvent : AgentEvent announcedBuild.assembly.id :=
  ⟨{ assembly := { SampleBuild.assembly with artifacts := [uploaded], endTimeStamp := some 9 }
     logRecord := none }, rfl⟩

/-- The artifact of an event that sets the end is stored. -/
theorem artifacts_reported_with_end :
    ∃ final, ((endStream SampleBuild.rendering announcedBuild 9 .complete).storeAfter
        (announcedPanel.afterEvent announcedBuild endEvent 9
          SampleBuild.assembly)).store.tryGetAssembly announcedBuild.assembly.id = some final ∧
      SameArtifacts final endEvent.val.assembly :=
  (artifacts_reported_iff SampleBuild.rendering announcedBuild announcedPanel announcedPanel
    (announcedPanel.afterEvent announcedBuild endEvent 9 SampleBuild.assembly) [] endEvent 9 9
    .complete rfl rfl rfl).mpr
    ⟨SampleBuild.assembly, rfl, fun hequals => absurd hequals (by decide)⟩

/-- The artifact of an event that changes nothing else is lost when the build fails. -/
theorem reported_artifact_lost :
    ∃ s', updateAssembly SampleBuild.rendering announcedBuild uploadEvent 5 announcedPanel =
        .ok () s' ∧
      ∀ final, ((endStream SampleBuild.rendering announcedBuild 6
          (.error "connection lost")).storeAfter s').store.tryGetAssembly
            announcedBuild.assembly.id = some final →
        ¬ SameArtifacts final uploadEvent.val.assembly := by
  refine ⟨_, rfl, ?_⟩
  intro final hfinal hsame
  cases hfinal
  exact absurd ((hsame uploaded).mpr List.mem_cons_self) (by decide)

end ArtPlatform
