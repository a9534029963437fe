import ArtPlatform.ManagementPanel.AssemblyCancellation
import ArtPlatform.ManagementPanel.BuildResources
import ArtPlatform.ManagementPanel.LogAppends

/-!
# What a cancellation leaves behind

A cancellation destroys the agent and the stream of a build only when the snapshot
that it has read was on a resource; before that the body is to stop by itself, at one
of its two checks.  A run of the body has two phases:

- Up to the second check the body works alone: there is no stream, and the pending
  cancellations have read nothing on a resource.
- After it the body is committed to its stream, and whatever it has created is live or
  will be taken away by a task of the pool.

Main results:

- Theorem `late_step`: what the second phase keeps.
- Theorem `nothing_survives`: if no cancellation without a destruction is put while the
  body is committed or its stream is live, and no destruction begins while the body is
  committed or fails, then nothing survives a cancellation.
- Theorem `stream_survives`: otherwise a live stream does.
-/

namespace ArtPlatform

open Interleaving

variable {r : Rendering} {t u : AssemblyTask} {x : Signal AssemblyEvent} {b : Build}
  {s s' : PanelState} {ts others : List AssemblyTask} {run : Nat} {resource : RunResource}
  {c c' : BuildConfig} {l : Label AssemblyTask (Signal AssemblyEvent)}
  {ls : List (Label AssemblyTask (Signal AssemblyEvent))}

/-! ## Positions -/

/-- The body has not passed its second check. -/
def BodyPosition.isEarly : BodyPosition → Bool
  | .start | .checkCanceled | .startAgent | .awaitReadiness | .checkCanceledAgain
  | .stopCanceled => true
  | _ => false

/-- The body will subscribe without looking at the stored assembly again. -/
def AssemblyTask.isCommitted : AssemblyTask → Bool
  | .body _ p => !p.isEarly && p != .register
  | _ => false

/-- The destruction has not silenced the stream yet. -/
def AssemblyTask.silences : AssemblyTask → Bool
  | .destroy _ _ .createBuilder | .destroy _ _ .cancelSubscription => true
  | _ => false

/-- The destruction has begun. -/
def AssemblyTask.destroys : AssemblyTask → Bool
  | .destroy i run p => !(AssemblyTask.destroy i run p).silences
  | _ => false

/-- The rest of the task takes the resource away or makes it the stream's. -/
def AssemblyTask.cleans (resource : RunResource) : AssemblyTask → Bool
  | .body _ p => p != .register
  | .stream _ .completeRead | .stream _ (.completeLogRead _)
  | .stream _ (.completePut _) => true
  | .failure _ _ _ => true
  | .destroy _ _ p => p.touches resource
  | _ => false

/-- A subscribed stream that waits for a signal. -/
def AssemblyTask.isIdle : AssemblyTask → Bool
  | .stream _ .idle => true
  | _ => false

/-! ## Runs of one body with cancellations -/

/-- Only cancellations of the assembly are called. -/
def cancelsOnly (b : Build) : Label AssemblyTask (Signal AssemblyEvent) → Bool
  | .call (.cancelRead i none) => i = b.assembly.id
  | .call _ => false
  | .act _ _ => true

/-- A cancellation that destroys nothing is put only while the body is not committed
and its stream is not live, and a destruction begins only while the body is not
committed and does not fail. -/
def cancelsCleanly (b : Build) (c : BuildConfig) :
    Label AssemblyTask (Signal AssemblyEvent) → Bool
  | .call t => cancelsOnly b (.call t)
  | .act (.cancelPut a _) _ =>
      a.state.onResource || !c.tasks.any AssemblyTask.isCommitted && !c.shared.builds.live b.run
  | .act (.destroy _ _ _) (.fail _) => false
  | .act (.destroy _ _ .cancelSubscription) _ => !c.tasks.any AssemblyTask.isCommitted
  | .act _ _ => true

/-- The body of a build at its start, and nothing else going on. -/
def buildConfig (store : PanelStore) (b : Build) : BuildConfig :=
  ⟨{ store := store }, [.body b .start]⟩

/-- The assembly is stored as not on a resource, and its log is stored. -/
structure ReadyToBuild (store : PanelStore) (b : Build) : Prop where
  assembly : ∃ a, store.tryGetAssembly b.assembly.id = some a ∧ a.state.onResource = false
  log : ∃ log, store.getLog b.assembly.logId = .ok log

/-- No stream that is registered for the assembly is live, and no agent is left. -/
structure NothingSurvives (id : Nat) (s : PanelState) : Prop where
  subscription : ∀ run, s.builds.subscriptions id = some run → s.builds.live run = false
  disposable : ∀ run, s.builds.disposables id = some run → s.builds.live run = false
  pod : s.builds.pods id = none
  agent : s.builds.agents id = none

/-! ## The second phase -/

/-- The tasks of the second phase. -/
inductive LateTask (b : Build) : AssemblyTask → Prop
  | body (p : BodyPosition) (h : p.isEarly = false) : LateTask b (.body b p)
  | stream (p : StreamPosition b.assembly.id) : LateTask b (.stream b p)
  | failure (m : String) (p : FailurePosition) : LateTask b (.failure b m p)
  | destroy (run : Nat) (p : DestroyPosition) : LateTask b (.destroy b.assembly.id run p)
  | cancelRead : LateTask b (.cancelRead b.assembly.id none)
  | cancelPut (a : Assembly) (h : a.id = b.assembly.id) : LateTask b (.cancelPut a none)

/-- The second phase.  Whatever is not live will be taken away, and what is live in spite
of a cancellation will be silenced. -/
structure Late (b : Build) (c : BuildConfig) : Prop where
  shape : ∀ u ∈ c.tasks, LateTask b u
  live : ∀ run, c.shared.builds.live run = true →
    run = b.run ∧ c.shared.builds.subscriptions b.assembly.id = some b.run
  silenced : ∀ u ∈ c.tasks, u.destroys = true →
    (∀ run, c.shared.builds.live run = false) ∧ ∀ v ∈ c.tasks, v.isCommitted = false
  pending : c.shared.StoredCanceled b.assembly.id →
    (c.shared.builds.live b.run = true ∨ ∃ u ∈ c.tasks, u.isCommitted = true) →
    ∃ u ∈ c.tasks, u.silences = true
  cleaned : ∀ resource, resource = .pod ∨ resource = .agent →
    c.shared.builds.owner resource b.assembly.id ≠ none →
    c.shared.builds.live b.run = true ∨ ∃ u ∈ c.tasks, u.cleans resource = true

/-- When only idle streams are left of a cancelled build, nothing survives. -/
theorem Late.nothingSurvives (h : Late b c) (hcanceled : c.shared.StoredCanceled b.assembly.id)
    (hidle : ∀ u ∈ c.tasks, u.isIdle = true) : NothingSurvives b.assembly.id c.shared := by
  have hnone : ∀ (p : AssemblyTask → Bool), (∀ d : Build, p (.stream d .idle) = false) →
      ¬ ∃ u ∈ c.tasks, p u = true := by
    rintro p hp ⟨u, hu, hpu⟩
    have hu' := hidle u hu
    revert hu' hpu
    fun_cases AssemblyTask.isIdle u <;> intro hpu hu'
    · rw [hp] at hpu
      cases hpu
    · cases hu'
  have hrun : c.shared.builds.live b.run = false := by
    by_contra hlive
    have hlive' : c.shared.builds.live b.run = true := by simpa using hlive
    exact hnone _ (fun _ => rfl) (h.pending hcanceled (.inl hlive'))
  have hlive : ∀ run, c.shared.builds.live run = false := by
    intro run
    by_contra hnot
    have hlive' : c.shared.builds.live run = true := by simpa using hnot
    rw [(h.live run hlive').1, hrun] at hlive'
    cases hlive'
  have howner : ∀ resource, resource = .pod ∨ resource = .agent →
      c.shared.builds.owner resource b.assembly.id = none := by
    intro resource hresource
    by_contra hsome
    rcases h.cleaned resource hresource hsome with hlive' | hcleans
    · rw [hrun] at hlive'
      cases hlive'
    · exact hnone _ (fun _ => rfl) hcleans
  exact ⟨fun run _ => hlive run, fun run _ => hlive run, howner .pod (.inl rfl),
    howner .agent (.inr rfl)⟩

/-! ## Tasks of the second phase -/

theorem cancelRead_inv {id : Nat} {caller : Option Assembly}
    (h : (AssemblyTask.cancelRead id caller).step r x s = some (s', ts)) :
    s' = s ∧ ts = cancelReadStep id caller s := by
  cases x with
  | go now =>
      obtain ⟨rfl, rfl⟩ := Prod.mk.inj (Option.some.inj h)
      exact ⟨rfl, rfl⟩
  | _ => cases h

theorem cancelPut_inv {a : Assembly} {caller : Option Assembly}
    (h : (AssemblyTask.cancelPut a caller).step r x s = some (s', ts)) :
    ∃ now, s' = s.putAssembly (canceledAssembly a now) ∧
      ts = (cancelPutStep a caller now s).2 := by
  cases x with
  | go now =>
      obtain ⟨rfl, rfl⟩ := Prod.mk.inj (Option.some.inj h)
      exact ⟨now, rfl, rfl⟩
  | _ => cases h

/-- What continues a task of the second phase: only a committed body stays committed, and
only a destruction begins to destroy. -/
structure Continues (b : Build) (t u : AssemblyTask) : Prop where
  late : LateTask b u
  committed : u.isCommitted = true → t.isCommitted = true
  destroys : u.destroys = true → t.destroys = true ∨
    ∃ run, t = .destroy b.assembly.id run .cancelSubscription

/-- A task that is neither committed nor destroys. -/
theorem Continues.of_quiet (hlate : LateTask b u) (hcommitted : u.isCommitted = false)
    (hdestroys : u.destroys = false) : Continues b t u := by
  refine ⟨hlate, ?_, ?_⟩
  · rw [hcommitted]
    exact fun h => absurd h Bool.false_ne_true
  · rw [hdestroys]
    exact fun h => absurd h Bool.false_ne_true

theorem continues_bodyStep {p : BodyPosition} (hp : p.isEarly = false)
    (h : bodyStep b p x s = some (s', ts)) : ∀ u ∈ ts, Continues b (.body b p) u := by
  revert hp h
  fun_cases bodyStep b p x s <;> intro hp h <;>
    simp only [Option.some.injEq, Prod.mk.injEq, reduceCtorEq] at h <;>
    rcases h with ⟨rfl, rfl⟩
  all_goals first
    | (cases hp; done)
    | intro u hu
  all_goals first
    | (cases hu; done)
    | (rw [List.mem_singleton.mp hu]; exact ⟨.body _ rfl, fun _ => rfl, fun h => absurd h Bool.false_ne_true⟩)
    | (rw [List.mem_singleton.mp hu]; exact .of_quiet (.failure _ _) rfl rfl)
    | rcases List.mem_cons.mp hu with rfl | hu
  -- The subscription goes on as a stream and as a body.
  · exact .of_quiet (.stream _) rfl rfl
  · rw [List.mem_singleton.mp hu]
    exact .of_quiet (.body _ rfl) rfl rfl

theorem continues_compareEvent {stored : Assembly} {event : AgentEvent b.assembly.id} :
    Continues b t (compareEvent b stored event) := by
  unfold compareEvent
  split <;> exact .of_quiet (.stream _) rfl rfl

theorem continues_streamStep {p : StreamPosition b.assembly.id}
    (h : streamStep r b p x s = some (s', ts)) : ∀ u ∈ ts, Continues b t u := by
  revert h
  fun_cases streamStep r b p x s <;> intro h <;>
    simp only [Option.some.injEq, Prod.mk.injEq, reduceCtorEq] at h <;>
    rcases h with ⟨rfl, rfl⟩ <;> intro u hu
  all_goals first
    | (cases hu; done)
    | rw [List.mem_singleton.mp hu]
  all_goals first
    | exact .of_quiet (.stream _) rfl rfl
    | exact .of_quiet (.failure _ _) rfl rfl
    | exact .of_quiet (.destroy _ _) rfl rfl
    | exact continues_compareEvent

theorem continues_failureStep {m : String} {p : FailurePosition}
    (h : failureStep r b m p x s = some (s', ts)) : ∀ u ∈ ts, Continues b t u := by
  revert h
  fun_cases failureStep r b m p x s <;> intro h <;>
    simp only [Option.some.injEq, Prod.mk.injEq, reduceCtorEq] at h <;>
    rcases h with ⟨rfl, rfl⟩ <;> intro u hu
  all_goals first
    | (cases hu; done)
    | rw [List.mem_singleton.mp hu]
  all_goals first
    | exact .of_quiet (.failure _ _) rfl rfl
    | exact .of_quiet (.destroy _ _) rfl rfl

theorem continues_destroyStep {p : DestroyPosition}
    (h : destroyStep b.assembly.id run p x s = some (s', ts)) :
    ∀ u ∈ ts, Continues b (.destroy b.assembly.id run p) u := by
  revert h
  fun_cases destroyStep b.assembly.id run p x s <;> intro h <;>
    simp only [Option.some.injEq, Prod.mk.injEq, reduceCtorEq] at h <;>
    rcases h with ⟨rfl, rfl⟩ <;> intro u hu
  all_goals first
    | (cases hu; done)
    | rw [List.mem_singleton.mp hu]
  case case1 => exact .of_quiet (.destroy _ _) rfl rfl
  case case3 => exact ⟨.destroy _ _, fun h => absurd h Bool.false_ne_true, fun _ => .inr ⟨run, rfl⟩⟩
  all_goals exact ⟨.destroy _ _, fun h => absurd h Bool.false_ne_true, fun _ => .inl rfl⟩

/-- The tasks that continue a cancellation are destructions of its assembly. -/
theorem continues_cancelPutStep {a : Assembly} (ha : a.id = b.assembly.id) (now : Nat) :
    ∀ u ∈ (cancelPutStep a none now s).2, Continues b t u := by
  intro u hu
  rcases List.mem_append.mp hu with hu | hu
  · split at hu
    · rw [List.mem_singleton.mp hu]
      show Continues b t (.destroy a.id _ .createBuilder)
      rw [ha]
      exact .of_quiet (.destroy _ _) rfl rfl
    · cases hu
  · cases hu

theorem continues_cancelReadStep :
    ∀ u ∈ cancelReadStep b.assembly.id none s, Continues b t u := by
  fun_cases cancelReadStep b.assembly.id none s
  case case2 a hget _ =>
      intro u hu
      rw [List.mem_singleton.mp hu]
      exact .of_quiet (.cancelPut a (id_of_getAssembly hget)) rfl rfl
  all_goals simp [resumeRebuild]

theorem continues_of_step (ht : LateTask b t) (h : t.step r x s = some (s', ts)) :
    ∀ u ∈ ts, Continues b t u := by
  cases ht with
  | body p hp => exact continues_bodyStep hp h
  | stream p => exact continues_streamStep h
  | failure m p => exact continues_failureStep h
  | destroy run p => exact continues_destroyStep h
  | cancelRead =>
      obtain ⟨-, rfl⟩ := cancelRead_inv h
      exact continues_cancelReadStep
  | cancelPut a ha =>
      obtain ⟨now, -, rfl⟩ := cancelPut_inv h
      exact continues_cancelPutStep ha now

/-! ## What is left to clean -/

/-- The log of the build is stored. -/
def LogStored (b : Build) (s : PanelState) : Prop :=
  ∃ log, s.store.getLog b.assembly.logId = .ok log

theorem logStored_of_step (hlog : LogStored b s) (h : t.step r x s = some (s', ts)) :
    LogStored b s' := by
  obtain ⟨log, hget⟩ := hlog
  have hfound : s.store.logs.get b.assembly.logId = some log := PanelStore.getLog_eq_ok.mp hget
  have hput : ∀ other : Log, ∃ found,
      (s.store.logs.put other).get b.assembly.logId = some found := by
    intro other
    rw [Space.get_put]
    split
    · exact ⟨other, rfl⟩
    · exact ⟨log, hfound⟩
  have hstored : ∃ found, s'.store.logs.get b.assembly.logId = some found := by
    rcases (AssemblyTask.step_logs h).1 with hlogs | ⟨-, hlogs⟩
    · rw [hlogs]
      cases t.append r x.clock with
      | none => exact ⟨log, hfound⟩
      | some a => exact hput _
    · rw [hlogs]
      exact hput _
  obtain ⟨found, hstored⟩ := hstored
  exact ⟨found, PanelStore.getLog_eq_ok.mpr hstored⟩

/-- After a step nothing is left of a resource, or it is live, or a task that continues
the step cleans it, or the step had nothing to do with it. -/
def Cleaned (b : Build) (resource : RunResource) (s s' : PanelState) (t : AssemblyTask)
    (ts : List AssemblyTask) : Prop :=
  s'.builds.owner resource b.assembly.id = none ∨ s'.builds.live b.run = true ∨
    (∃ u ∈ ts, u.cleans resource = true) ∨
    t.cleans resource = false ∧ s'.builds.live b.run = s.builds.live b.run ∧
      s'.builds.owner resource b.assembly.id = s.builds.owner resource b.assembly.id

theorem cleaned_singleton (h : u.cleans resource = true) : Cleaned b resource s s' t [u] :=
  .inr (.inr (.inl ⟨u, List.mem_singleton_self u, h⟩))

theorem cleaned_of_builds (ht : t.cleans resource = false) (h : s'.builds = s.builds) :
    Cleaned b resource s s' t ts :=
  .inr (.inr (.inr ⟨ht, by rw [h], by rw [h]⟩))

theorem cleaned_bodyStep {p : BodyPosition} (hp : p.isEarly = false)
    (hresource : resource = .pod ∨ resource = .agent)
    (h : bodyStep b p x s = some (s', ts)) : Cleaned b resource s s' (.body b p) ts := by
  revert hp h
  fun_cases bodyStep b p x s <;> intro hp h <;>
    simp only [Option.some.injEq, Prod.mk.injEq, reduceCtorEq] at h <;>
    rcases h with ⟨rfl, rfl⟩
  all_goals first
    | (cases hp; done)
    | exact cleaned_singleton rfl
    | skip
  · exact .inr (.inl (live_subscribe_self s.builds b.assembly.id b.run))
  · -- The disposable is neither a pod nor an agent.
    refine .inr (.inr (.inr ⟨rfl, rfl, ?_⟩))
    rcases hresource with rfl | rfl <;> rfl

theorem cleaned_streamStep {p : StreamPosition b.assembly.id} (hlog : LogStored b s)
    (h : streamStep r b p x s = some (s', ts)) :
    Cleaned b resource s s' (.stream b p) ts := by
  obtain ⟨stored, hget⟩ := hlog
  revert h
  fun_cases streamStep r b p x s <;> intro h <;>
    simp only [Option.some.injEq, Prod.mk.injEq, reduceCtorEq] at h <;>
    rcases h with ⟨rfl, rfl⟩
  all_goals first
    | exact cleaned_of_builds rfl rfl
    | exact cleaned_singleton rfl
    | skip
  -- The log is stored, so the handlers do not throw.
  all_goals
    rename_i herror
    rw [hget] at herror
    cases herror

theorem cleaned_failureStep {m : String} {p : FailurePosition} (hlog : LogStored b s)
    (h : failureStep r b m p x s = some (s', ts)) :
    Cleaned b resource s s' (.failure b m p) ts := by
  obtain ⟨stored, hget⟩ := hlog
  revert h
  fun_cases failureStep r b m p x s <;> intro h <;>
    simp only [Option.some.injEq, Prod.mk.injEq, reduceCtorEq] at h <;>
    rcases h with ⟨rfl, rfl⟩
  all_goals first
    | exact cleaned_singleton rfl
    | skip
  rename_i herror
  rw [hget] at herror
  cases herror

theorem cleaned_destroyStep {p : DestroyPosition}
    (hresource : resource = .pod ∨ resource = .agent) (hok : ∀ m, x ≠ .fail m)
    (h : destroyStep b.assembly.id run p x s = some (s', ts)) :
    Cleaned b resource s s' (.destroy b.assembly.id run p) ts := by
  revert h
  fun_cases destroyStep b.assembly.id run p x s <;> intro h <;>
    simp only [Option.some.injEq, Prod.mk.injEq, reduceCtorEq] at h <;>
    rcases h with ⟨rfl, rfl⟩
  case case2 | case6 => exact absurd rfl (hok _)
  all_goals
    rcases hresource with rfl | rfl
  all_goals first
    | exact cleaned_singleton rfl
    | exact .inr (.inr (.inr ⟨rfl, rfl, rfl⟩))
    | exact .inl (by simp)

theorem cleaned_of_step (ht : LateTask b t) (hlog : LogStored b s)
    (hresource : resource = .pod ∨ resource = .agent)
    (hok : ∀ i run p m, t = .destroy i run p → x ≠ .fail m)
    (h : t.step r x s = some (s', ts)) : Cleaned b resource s s' t ts := by
  cases ht with
  | body p hp => exact cleaned_bodyStep hp hresource h
  | stream p => exact cleaned_streamStep hlog h
  | failure m p => exact cleaned_failureStep hlog h
  | destroy run p => exact cleaned_destroyStep hresource (fun m => hok _ _ _ m rfl) h
  | cancelRead =>
      obtain ⟨rfl, -⟩ := cancelRead_inv h
      exact cleaned_of_builds rfl rfl
  | cancelPut a ha =>
      obtain ⟨now, rfl, -⟩ := cancelPut_inv h
      exact cleaned_of_builds rfl rfl

/-! ## The invariants of the second phase -/

/-- A stored cancellation that was not stored before is a cancellation's put. -/
theorem storedCanceled_of_step {id : Nat} (h : t.step r x s = some (s', ts))
    (hput : ∀ a caller, t ≠ .cancelPut a caller) (hcanceled : s'.StoredCanceled id) :
    s.StoredCanceled id := by
  obtain ⟨a, hget, ha⟩ := hcanceled
  unfold PanelStore.tryGetAssembly at hget
  rw [assemblies_of_step h] at hget
  have hnot : ∀ b ∈ t.written s x.clock, b.isCanceled = false := by
    intro d hd
    revert hd
    fun_cases AssemblyTask.written s x.clock t <;> intro hd
    case case1 => exact absurd rfl (hput _ _)
    all_goals first
      | (cases hd; done)
      | (rw [← Option.some.inj hd]; rfl)
  cases hwritten : t.written s x.clock with
  | none =>
      rw [hwritten] at hget
      exact ⟨a, hget, ha⟩
  | some d =>
      rw [hwritten] at hget
      simp only [PanelState.assembliesAfter, Space.get_put] at hget
      split at hget
      · have hd := hnot d hwritten
        rw [Option.some.inj hget, ha] at hd
        cases hd
      · exact ⟨a, hget, ha⟩

/-- A task of the pool is the acting one, or one of the others. -/
theorem exists_mem_cons {p : AssemblyTask → Prop} (hpool : c.tasks.Perm (t :: others))
    (h : ∃ u ∈ c.tasks, p u) : p t ∨ ∃ u ∈ others, p u := by
  obtain ⟨u, hu, hp⟩ := h
  rcases List.mem_cons.mp (hpool.mem_iff.mp hu) with rfl | hu
  · exact .inl hp
  · exact .inr ⟨u, hu, hp⟩

/-- What makes the stream of the build live. -/
theorem subscribe_of_subscribedBy (ht : LateTask b t) (hsub : SubscribedBy run t) :
    t = .body b .subscribe ∧ run = b.run := by
  obtain ⟨b', rfl, rfl⟩ := hsub
  cases ht
  exact ⟨rfl, rfl⟩

theorem body_subscribe_inv (h : (AssemblyTask.body b .subscribe).step r x s = some (s', ts)) :
    s' = s.onBuilds (·.subscribe b.assembly.id b.run) := by
  cases x with
  | go now => exact (Prod.mk.inj (Option.some.inj h)).1.symm
  | _ => cases h

theorem begin_inv {id : Nat}
    (h : (AssemblyTask.destroy id run .cancelSubscription).step r x s = some (s', ts)) :
    s' = s.onBuilds (·.cancelSubscription id) ∧ ∃ now, x = .go now := by
  cases x with
  | go now => exact ⟨(Prod.mk.inj (Option.some.inj h)).1.symm, now, rfl⟩
  | _ => cases h

/-- A destruction that has not begun leaves the registered subscription. -/
theorem subscriptions_of_not_destroys (ht : LateTask b t) (hnot : t.destroys = false)
    (hsub : s.builds.subscriptions b.assembly.id = some b.run)
    (h : t.step r x s = some (s', ts)) :
    s'.builds.subscriptions b.assembly.id = some b.run := by
  cases ht with
  | body p hp =>
      revert h
      simp only [AssemblyTask.step]
      fun_cases bodyStep b p x s <;> intro h <;>
        simp only [Option.some.injEq, Prod.mk.injEq, reduceCtorEq] at h <;>
        rcases h with ⟨rfl, rfl⟩
      all_goals first
        | exact hsub
        | simp [Registry.subscribe]
  | stream p =>
      have hsame : s'.builds.owner .subscription = s.builds.owner .subscription :=
        owner_streamStep h
      exact (congrFun hsame _).trans hsub
  | failure m p => rw [builds_failureStep h, hsub]
  | destroy run p =>
      revert h hnot
      simp only [AssemblyTask.step]
      fun_cases destroyStep b.assembly.id run p x s <;> intro hnot h <;>
        simp only [Option.some.injEq, Prod.mk.injEq, reduceCtorEq] at h <;>
        rcases h with ⟨rfl, rfl⟩
      all_goals first
        | exact hsub
        | (cases hnot; done)
        | skip
      -- The cancellation of the subscription keeps its entry.
      have hsame : (s.builds.cancelSubscription b.assembly.id).owner .subscription =
          s.builds.owner .subscription := owner_cancelSubscription _ _
      exact (congrFun hsame _).trans hsub
  | cancelRead =>
      obtain ⟨rfl, -⟩ := cancelRead_inv h
      exact hsub
  | cancelPut a ha =>
      obtain ⟨now, rfl, -⟩ := cancelPut_inv h
      exact hsub

theorem Late.live_step (h : Late b c) (ht : t ∈ c.tasks)
    (hact : t.step r x c.shared = some (s', ts)) (run : Nat)
    (hlive : s'.builds.live run = true) :
    run = b.run ∧ s'.builds.subscriptions b.assembly.id = some b.run := by
  rcases live_of_step hact hlive with hbefore | hsub
  · obtain ⟨hrun, hsubs⟩ := h.live run hbefore
    have hnot : t.destroys = false := by
      by_contra hdestroys
      have hdead := (h.silenced t ht (by simpa using hdestroys)).1 run
      rw [hbefore] at hdead
      cases hdead
    exact ⟨hrun, subscriptions_of_not_destroys (h.shape t ht) hnot hsubs hact⟩
  · obtain ⟨rfl, hrun⟩ := subscribe_of_subscribedBy (h.shape t ht) hsub
    rw [body_subscribe_inv hact]
    exact ⟨hrun, by simp [Registry.subscribe]⟩

/-- Where a destruction has begun, no stream is live after a step. -/
theorem Late.dead_of_destroys (h : Late b c) (ht : t ∈ c.tasks)
    (hact : t.step r x c.shared = some (s', ts))
    (hbegun : ∃ v ∈ c.tasks, v.destroys = true) (run : Nat) :
    s'.builds.live run = false := by
  obtain ⟨v, hv, hdestroys⟩ := hbegun
  obtain ⟨hdead, hnone⟩ := h.silenced v hv hdestroys
  by_contra hlive
  rcases live_of_step hact (eq_true_of_ne_false hlive) with hbefore | ⟨b', rfl, -⟩
  · rw [hdead run] at hbefore
    cases hbefore
  · exact absurd (hnone _ ht) (by simp [AssemblyTask.isCommitted, BodyPosition.isEarly])

/-- The first action of a destruction leaves no live stream. -/
theorem Late.dead_of_begin (h : Late b c) {run' : Nat}
    (hact : (AssemblyTask.destroy b.assembly.id run' .cancelSubscription).step r x c.shared =
      some (s', ts)) (run : Nat) : s'.builds.live run = false := by
  obtain ⟨rfl, -⟩ := begin_inv hact
  by_contra hlive
  have hlive' : (c.shared.builds.silence
      (c.shared.builds.subscriptions b.assembly.id)).live run = true :=
    eq_true_of_ne_false hlive
  obtain ⟨hbefore, hother⟩ := live_of_silence hlive'
  obtain ⟨rfl, hsub⟩ := h.live run hbefore
  exact hother hsub

/-- A destruction begins only while no body is committed. -/
theorem not_committed_of_begin {id : Nat}
    (hok : cancelsCleanly b c (.act (.destroy id run .cancelSubscription) x) = true)
    (hact : (AssemblyTask.destroy id run .cancelSubscription).step r x c.shared =
      some (s', ts)) : ∀ v ∈ c.tasks, v.isCommitted = false := by
  obtain ⟨-, now, rfl⟩ := begin_inv hact
  intro v hv
  have hnone : c.tasks.any AssemblyTask.isCommitted = false := by
    simpa [cancelsCleanly] using hok
  simpa using List.any_eq_false.mp hnone v hv

theorem Late.silenced_step (h : Late b c) (ht : t ∈ c.tasks)
    (hothers : ∀ u ∈ others, u ∈ c.tasks) (hok : cancelsCleanly b c (.act t x) = true)
    (hact : t.step r x c.shared = some (s', ts)) :
    ∀ u ∈ ts ++ others, u.destroys = true →
      (∀ run, s'.builds.live run = false) ∧ ∀ v ∈ ts ++ others, v.isCommitted = false := by
  intro u hu hdestroys
  have hcontinues := continues_of_step (h.shape t ht) hact
  have hbegun : (∃ v ∈ c.tasks, v.destroys = true) ∨
      ∃ run, t = .destroy b.assembly.id run .cancelSubscription := by
    rcases List.mem_append.mp hu with hu | hu
    · rcases (hcontinues u hu).destroys hdestroys with hbefore | hbegin
      · exact .inl ⟨t, ht, hbefore⟩
      · exact .inr hbegin
    · exact .inl ⟨u, hothers u hu, hdestroys⟩
  have hquiet : (∀ run, s'.builds.live run = false) ∧
      ∀ v ∈ c.tasks, v.isCommitted = false := by
    rcases hbegun with hbegun | ⟨run, rfl⟩
    · refine ⟨h.dead_of_destroys ht hact hbegun, ?_⟩
      obtain ⟨v, hv, hv'⟩ := hbegun
      exact (h.silenced v hv hv').2
    · exact ⟨h.dead_of_begin hact, not_committed_of_begin hok hact⟩
  refine ⟨hquiet.1, ?_⟩
  intro v hv
  rcases List.mem_append.mp hv with hv | hv
  · by_contra hnot
    have hbefore := (hcontinues v hv).committed (eq_true_of_ne_false hnot)
    rw [hquiet.2 t ht] at hbefore
    cases hbefore
  · exact hquiet.2 v (hothers v hv)

/-- A cancellation that is put while the build goes on starts a destruction. -/
theorem Late.pending_cancelPut (h : Late b c) (ht : t ∈ c.tasks)
    {a : Assembly} {caller : Option Assembly} (heq : t = .cancelPut a caller)
    (hothers : ∀ u ∈ others, u ∈ c.tasks) (hok : cancelsCleanly b c (.act t x) = true)
    (hact : t.step r x c.shared = some (s', ts))
    (hbusy : s'.builds.live b.run = true ∨ ∃ u ∈ ts ++ others, u.isCommitted = true) :
    ∃ u ∈ ts ++ others, u.silences = true := by
  subst heq
  have hcontinues := continues_of_step (h.shape _ ht) hact
  obtain ⟨now, rfl, rfl⟩ := cancelPut_inv hact
  by_cases hresource : a.state.onResource = true
  · refine ⟨.destroy a.id (c.shared.builds.latest a.id) .createBuilder, ?_, rfl⟩
    refine List.mem_append_left _ (List.mem_append_left _ ?_)
    rw [if_pos hresource]
    exact List.mem_cons_self
  · exfalso
    have hidle : (∀ u ∈ c.tasks, u.isCommitted = false) ∧
        c.shared.builds.live b.run = false := by
      simpa [cancelsCleanly, hresource] using hok
    rcases hbusy with hlive | ⟨u, hu, hcommitted⟩
    · rw [PanelState.putAssembly_builds, hidle.2] at hlive
      cases hlive
    · rcases List.mem_append.mp hu with hu | hu
      · cases (hcontinues u hu).committed hcommitted
      · rw [hidle.1 u (hothers u hu)] at hcommitted
        cases hcommitted

/-- While a cancelled build goes on, a destruction that has not begun is pending. -/
theorem Late.pending_step (h : Late b c) (hpool : c.tasks.Perm (t :: others))
    (hok : cancelsCleanly b c (.act t x) = true)
    (hact : t.step r x c.shared = some (s', ts))
    (hcanceled : s'.StoredCanceled b.assembly.id)
    (hbusy : s'.builds.live b.run = true ∨ ∃ u ∈ ts ++ others, u.isCommitted = true) :
    ∃ u ∈ ts ++ others, u.silences = true := by
  have ht : t ∈ c.tasks := hpool.mem_iff.mpr List.mem_cons_self
  have hothers : ∀ u ∈ others, u ∈ c.tasks :=
    fun u hu => hpool.mem_iff.mpr (List.mem_cons_of_mem t hu)
  by_cases hput : ∃ a caller, t = .cancelPut a caller
  · obtain ⟨a, caller, heq⟩ := hput
    exact h.pending_cancelPut ht heq hothers hok hact hbusy
  have hbefore : c.shared.StoredCanceled b.assembly.id :=
    storedCanceled_of_step hact (fun a caller heq => hput ⟨a, caller, heq⟩) hcanceled
  have hcontinues := continues_of_step (h.shape t ht) hact
  have hwasBusy : c.shared.builds.live b.run = true ∨
      ∃ u ∈ c.tasks, u.isCommitted = true := by
    rcases hbusy with hlive | ⟨u, hu, hcommitted⟩
    · rcases live_of_step hact hlive with hlive | ⟨b', rfl, -⟩
      · exact .inl hlive
      · exact .inr ⟨_, ht, rfl⟩
    · rcases List.mem_append.mp hu with hu | hu
      · exact .inr ⟨t, ht, (hcontinues u hu).committed hcommitted⟩
      · exact .inr ⟨u, hothers u hu, hcommitted⟩
  rcases exists_mem_cons hpool (h.pending hbefore hwasBusy) with hself | ⟨u, hu, hsilences⟩
  · cases h.shape t ht with
    | destroy run p =>
        cases p with
        | createBuilder =>
            cases x with
            | go now =>
                obtain ⟨-, rfl⟩ := Prod.mk.inj (Option.some.inj hact)
                exact ⟨_, List.mem_cons_self, rfl⟩
            | fail m => cases hok
            | _ => cases hact
        | cancelSubscription =>
            exfalso
            rcases hbusy with hlive | ⟨u, hu, hcommitted⟩
            · rw [h.dead_of_begin hact] at hlive
              cases hlive
            · have hnone := not_committed_of_begin hok hact
              rcases List.mem_append.mp hu with hu | hu
              · cases (hcontinues u hu).committed hcommitted
              · rw [hnone u (hothers u hu)] at hcommitted
                cases hcommitted
        | _ => cases hself
    | _ => cases hself
  · exact ⟨u, List.mem_append_right _ hu, hsilences⟩

theorem Late.cleaned_step (h : Late b c) (hlog : LogStored b c.shared)
    (hpool : c.tasks.Perm (t :: others)) (hok : cancelsCleanly b c (.act t x) = true)
    (hact : t.step r x c.shared = some (s', ts))
    (hresource : resource = .pod ∨ resource = .agent)
    (howner : s'.builds.owner resource b.assembly.id ≠ none) :
    s'.builds.live b.run = true ∨ ∃ u ∈ ts ++ others, u.cleans resource = true := by
  have ht : t ∈ c.tasks := hpool.mem_iff.mpr List.mem_cons_self
  have hnotFailed : ∀ i run p m, t = .destroy i run p → x ≠ .fail m := by
    rintro i run p m rfl rfl
    cases p <;> cases hok
  rcases cleaned_of_step (h.shape t ht) hlog hresource hnotFailed hact with
    hnone | hlive | ⟨u, hu, hcleans⟩ | ⟨hnot, hlive, hsame⟩
  · exact absurd hnone howner
  · exact .inl hlive
  · exact .inr ⟨u, List.mem_append_left _ hu, hcleans⟩
  · rw [hsame] at howner
    rcases h.cleaned resource hresource howner with hbefore | hcleans
    · exact .inl (hlive.trans hbefore)
    · rcases exists_mem_cons hpool hcleans with hself | ⟨u, hu, hcleans⟩
      · rw [hnot] at hself
        cases hself
      · exact .inr ⟨u, List.mem_append_right _ hu, hcleans⟩

/-- Only cancellations of the assembly are called. -/
theorem call_inv (hok : cancelsOnly b (.call t) = true) :
    t = .cancelRead b.assembly.id none := by
  cases t with
  | cancelRead i caller =>
      cases caller with
      | none => rw [show i = b.assembly.id by simpa [cancelsOnly] using hok]
      | some a => cases hok
  | _ => cases hok

theorem Late.call (h : Late b c) :
    Late b ⟨c.shared, .cancelRead b.assembly.id none :: c.tasks⟩ where
  shape u hu := by
    rcases List.mem_cons.mp hu with rfl | hu
    · exact .cancelRead
    · exact h.shape u hu
  live := h.live
  silenced u hu hdestroys := by
    rcases List.mem_cons.mp hu with rfl | hu
    · cases hdestroys
    · refine ⟨(h.silenced u hu hdestroys).1, ?_⟩
      intro v hv
      rcases List.mem_cons.mp hv with rfl | hv
      · rfl
      · exact (h.silenced u hu hdestroys).2 v hv
  pending hcanceled hbusy := by
    have hwasBusy : c.shared.builds.live b.run = true ∨
        ∃ u ∈ c.tasks, u.isCommitted = true := by
      rcases hbusy with hlive | ⟨u, hu, hcommitted⟩
      · exact .inl hlive
      · rcases List.mem_cons.mp hu with rfl | hu
        · cases hcommitted
        · exact .inr ⟨u, hu, hcommitted⟩
    obtain ⟨u, hu, hsilences⟩ := h.pending hcanceled hwasBusy
    exact ⟨u, List.mem_cons_of_mem _ hu, hsilences⟩
  cleaned resource hresource howner := by
    rcases h.cleaned resource hresource howner with hlive | ⟨u, hu, hcleans⟩
    · exact .inl hlive
    · exact .inr ⟨u, List.mem_cons_of_mem _ hu, hcleans⟩

/-- The second phase keeps its invariants. -/
theorem late_step (h : Late b c) (hlog : LogStored b c.shared)
    (hok : cancelsCleanly b c l = true) (hstep : Step (AssemblyTask.step r) c l c') :
    Late b c' := by
  cases l with
  | call t =>
      cases hstep
      rw [call_inv hok]
      exact h.call
  | act t x =>
      obtain ⟨ts, others, hpool, hact, htasks⟩ := hstep.act_inv
      have ht := hstep.mem_tasks
      have hothers : ∀ u ∈ others, u ∈ c.tasks :=
        fun u hu => hpool.mem_iff.mpr (List.mem_cons_of_mem t hu)
      refine ⟨?_, h.live_step ht hact, ?_, ?_, ?_⟩
      · intro u hu
        rw [htasks] at hu
        rcases List.mem_append.mp hu with hu | hu
        · exact (continues_of_step (h.shape t ht) hact u hu).late
        · exact h.shape u (hothers u hu)
      · rw [htasks]
        exact h.silenced_step ht hothers hok hact
      · rw [htasks]
        exact h.pending_step hpool hok hact
      · rw [htasks]
        exact fun resource hresource => h.cleaned_step hlog hpool hok hact hresource

/-! ## The first phase -/

/-- A cancellation that has read nothing on a resource. -/
inductive EarlyCancel (b : Build) : AssemblyTask → Prop
  | read : EarlyCancel b (.cancelRead b.assembly.id none)
  | put (a : Assembly) (hid : a.id = b.assembly.id) (h : a.state.onResource = false) :
      EarlyCancel b (.cancelPut a none)

/-- What the panel is like while the body has not passed its second check. -/
structure EarlyPanel (b : Build) (s : PanelState) : Prop where
  stored : ∃ a, s.store.tryGetAssembly b.assembly.id = some a ∧ a.state.onResource = false
  live : ∀ run, s.builds.live run = false
  agent : s.builds.agents b.assembly.id = none

/-- The first phase: the body works beside cancellations only. -/
structure Early (b : Build) (c : BuildConfig) : Prop where
  panel : EarlyPanel b c.shared
  pool : ∃ p others, c.tasks.Perm (.body b p :: others) ∧ p.isEarly = true ∧
    (p = .start → c.shared.builds.pods b.assembly.id = none) ∧ ∀ u ∈ others, EarlyCancel b u

/-- With cancellations only, the second phase has nothing to keep. -/
theorem late_of_earlyCancels (hpanel : EarlyPanel b s)
    (hpod : s.builds.pods b.assembly.id = none) (hothers : ∀ u ∈ others, EarlyCancel b u) :
    Late b ⟨s, others⟩ where
  shape u hu := by
    cases hothers u hu with
    | read => exact .cancelRead
    | put a hid _ => exact .cancelPut a hid
  live run hlive := by
    rw [show s.builds.live run = false from hpanel.live run] at hlive
    cases hlive
  silenced u hu hdestroys := by
    cases hothers u hu <;> cases hdestroys
  pending _ hbusy := by
    rcases hbusy with hlive | ⟨u, hu, hcommitted⟩
    · rw [show s.builds.live b.run = false from hpanel.live b.run] at hlive
      cases hlive
    · cases hothers u hu <;> cases hcommitted
  cleaned resource hresource howner := by
    rcases hresource with rfl | rfl
    · exact absurd hpod howner
    · exact absurd hpanel.agent howner

/-- The first phase ends with a failure, or with a committed body of an assembly that is
not cancelled. -/
theorem late_of_exit (hpanel : EarlyPanel b s) (hothers : ∀ u ∈ others, EarlyCancel b u)
    (hexit : (∃ m, t = .failure b m .read) ∨
      t = .body b .announceRead ∧ ¬ s.StoredCanceled b.assembly.id) :
    Late b ⟨s, t :: others⟩ where
  shape u hu := by
    rcases List.mem_cons.mp hu with rfl | hu
    · rcases hexit with ⟨m, rfl⟩ | ⟨rfl, -⟩
      · exact .failure _ _
      · exact .body _ rfl
    · cases hothers u hu with
      | read => exact .cancelRead
      | put a hid _ => exact .cancelPut a hid
  live run hlive := by
    rw [show s.builds.live run = false from hpanel.live run] at hlive
    cases hlive
  silenced u hu hdestroys := by
    rcases List.mem_cons.mp hu with rfl | hu
    · rcases hexit with ⟨m, rfl⟩ | ⟨rfl, -⟩ <;> cases hdestroys
    · cases hothers u hu <;> cases hdestroys
  pending hcanceled hbusy := by
    rcases hbusy with hlive | ⟨u, hu, hcommitted⟩
    · rw [show s.builds.live b.run = false from hpanel.live b.run] at hlive
      cases hlive
    · rcases hexit with ⟨m, rfl⟩ | ⟨-, hnot⟩
      · rcases List.mem_cons.mp hu with rfl | hu
        · cases hcommitted
        · cases hothers u hu <;> cases hcommitted
      · exact absurd hcanceled hnot
  cleaned resource _ _ := by
    refine .inr ⟨t, List.mem_cons_self, ?_⟩
    rcases hexit with ⟨m, rfl⟩ | ⟨rfl, -⟩ <;> rfl

theorem not_storedCanceled_of_get {a : Assembly} {id : Nat} (hget : s.store.getAssembly id = .ok a)
    (hnot : ¬ a.isCanceled = true) : ¬ s.StoredCanceled id := by
  rintro ⟨a', hget', hcanceled⟩
  have hsame := (PanelStore.getAssembly_eq_ok.mp hget).symm.trans hget'
  rw [Option.some.inj hsame] at hnot
  exact hnot hcanceled

/-- An action of the body in the first phase: it goes on in that phase, or it leaves it. -/
theorem early_bodyStep {p : BodyPosition} (hpanel : EarlyPanel b s) (hp : p.isEarly = true)
    (hstart : p = .start → s.builds.pods b.assembly.id = none)
    (hothers : ∀ u ∈ others, EarlyCancel b u) (h : bodyStep b p x s = some (s', ts)) :
    Late b ⟨s', ts ++ others⟩ ∨
      EarlyPanel b s' ∧ ∃ q, ts = [.body b q] ∧ q.isEarly = true ∧ q ≠ .start := by
  revert hp hstart h
  fun_cases bodyStep b p x s <;> intro hp hstart h <;>
    simp only [Option.some.injEq, Prod.mk.injEq, reduceCtorEq] at h <;>
    rcases h with ⟨rfl, rfl⟩
  all_goals first
    | (cases hp; done)
    | exact .inl (late_of_exit hpanel hothers (.inl ⟨_, rfl⟩))
    | exact .inr ⟨hpanel, _, rfl, rfl, by simp⟩
    | skip
  case case2 => exact .inl (late_of_earlyCancels hpanel (hstart rfl) hothers)
  case case6 =>
      exact .inr ⟨⟨hpanel.stored, hpanel.live, hpanel.agent⟩, _, rfl, rfl, by simp⟩
  · rename_i a hnot hget
    exact .inl (late_of_exit hpanel hothers
      (.inr ⟨rfl, not_storedCanceled_of_get hget hnot⟩))
  · refine .inl (late_of_earlyCancels ⟨hpanel.stored, hpanel.live, hpanel.agent⟩ ?_ hothers)
    exact Function.update_self _ _ _

/-- A cancellation in the first phase reads and puts nothing on a resource, and destroys
nothing. -/
theorem early_cancelStep (hpanel : EarlyPanel b s) (ht : EarlyCancel b t)
    (h : t.step r x s = some (s', ts)) :
    EarlyPanel b s' ∧ s'.builds = s.builds ∧ ∀ u ∈ ts, EarlyCancel b u := by
  cases ht with
  | read =>
      obtain ⟨rfl, rfl⟩ := cancelRead_inv h
      refine ⟨hpanel, rfl, ?_⟩
      obtain ⟨a, hget, hearly⟩ := hpanel.stored
      fun_cases cancelReadStep b.assembly.id none s'
      case case2 a' hget' _ =>
          intro u hu
          have hsame := (PanelStore.getAssembly_eq_ok.mp hget').symm.trans hget
          rw [List.mem_singleton.mp hu]
          exact .put a' (id_of_getAssembly hget') (Option.some.inj hsame ▸ hearly)
      all_goals simp [resumeRebuild]
  | put a hid hearly =>
      obtain ⟨now, rfl, rfl⟩ := cancelPut_inv h
      refine ⟨⟨?_, hpanel.live, hpanel.agent⟩, rfl, ?_⟩
      · refine ⟨canceledAssembly a now, ?_, rfl⟩
        rw [← hid]
        exact s.store.assemblies.get_put_self (canceledAssembly a now)
      · intro u hu
        simp [cancelPutStep, hearly, resumeRebuild] at hu

/-- The first phase goes on, or the second one begins. -/
theorem early_step (h : Early b c) (hok : cancelsCleanly b c l = true)
    (hstep : Step (AssemblyTask.step r) c l c') : Early b c' ∨ Late b c' := by
  obtain ⟨hpanel, p, pending, hpool, hp, hstart, hcancels⟩ := h
  cases l with
  | call t =>
      cases hstep
      rw [call_inv hok]
      refine .inl ⟨hpanel, p, .cancelRead b.assembly.id none :: pending, ?_, hp, hstart, ?_⟩
      · exact (hpool.cons _).trans (List.Perm.swap _ _ _)
      · intro u hu
        rcases List.mem_cons.mp hu with rfl | hu
        · exact .read
        · exact hcancels u hu
  | act t x =>
      obtain ⟨ts, others, hpool', hact, htasks⟩ := hstep.act_inv
      rcases List.mem_cons.mp (hpool.mem_iff.mp hstep.mem_tasks) with rfl | ht
      · -- The body acts, beside the pending cancellations.
        have hothers : others.Perm pending := (hpool'.symm.trans hpool).cons_inv
        have hearly : ∀ u ∈ others, EarlyCancel b u :=
          fun u hu => hcancels u (hothers.mem_iff.mp hu)
        rcases early_bodyStep hpanel hp hstart hearly hact with hlate | ⟨hpanel', q, rfl, hq, hne⟩
        · right
          rw [← htasks] at hlate
          exact hlate
        · left
          refine ⟨hpanel', q, others, ?_, hq, fun heq => absurd heq hne, hearly⟩
          rw [htasks]
          exact List.Perm.refl _
      · -- A cancellation acts, and the body stays where it is.
        obtain ⟨hpanel', hbuilds, hnew⟩ := early_cancelStep hpanel (hcancels t ht) hact
        obtain ⟨before, after, rfl⟩ := List.append_of_mem ht
        have hrest : others.Perm (.body b p :: (before ++ after)) := by
          refine List.Perm.cons_inv (a := t) ?_
          refine (hpool'.symm.trans hpool).trans ?_
          refine (List.Perm.cons _ List.perm_middle).trans (List.Perm.swap _ _ _)
        refine .inl ⟨hpanel', p, ts ++ (before ++ after), ?_, hp, ?_, ?_⟩
        · rw [htasks]
          exact (List.Perm.append_left ts hrest).trans List.perm_middle
        · intro heq
          rw [hbuilds]
          exact hstart heq
        · intro u hu
          rcases List.mem_append.mp hu with hu | hu
          · exact hnew u hu
          · refine hcancels u ?_
            rcases List.mem_append.mp hu with hu | hu
            · exact List.mem_append_left _ hu
            · exact List.mem_append_right _ (List.mem_cons_of_mem _ hu)

/-! ## Nothing survives -/

/-- When a build is cancelled cleanly and only idle streams are left of it, no stream
that is registered for its assembly is live and no agent is left. -/
theorem nothing_survives {store : PanelStore} (hready : ReadyToBuild store b)
    (hrun : Run (AssemblyTask.step r) (fun d k => cancelsCleanly b d k = true)
      (buildConfig store b) ls c)
    (hcanceled : c.shared.StoredCanceled b.assembly.id)
    (hidle : ∀ u ∈ c.tasks, u.isIdle = true) : NothingSurvives b.assembly.id c.shared := by
  have hphases : LogStored b c.shared ∧ (Early b c ∨ Late b c) := by
    refine hrun.invariant (I := fun d => LogStored b d.shared ∧ (Early b d ∨ Late b d)) ?_ ?_
    · refine ⟨hready.log, .inl ⟨⟨hready.assembly, fun _ => rfl, rfl⟩, .start, [], ?_⟩⟩
      exact ⟨List.Perm.refl _, rfl, fun _ => rfl, fun u hu => absurd hu List.not_mem_nil⟩
    · rintro d k d' ⟨hlog, hphase⟩ hok hstep
      constructor
      · cases hstep with
        | call => exact hlog
        | act _ hact => exact logStored_of_step hlog hact
      · rcases hphase with hearly | hlate
        · exact early_step hearly hok hstep
        · exact .inr (late_step hlate hlog hok hstep)
  rcases hphases.2 with hearly | hlate
  · -- The body of the first phase is no idle stream.
    obtain ⟨-, p, pending, hpool, -⟩ := hearly
    cases hidle _ (hpool.mem_iff.mpr List.mem_cons_self)
  · exact hlate.nothingSurvives hcanceled hidle

/-! ## A cancellation during and after the body -/

open SampleBuild (rendering request)

private def startedBuild : Build :=
  ⟨createAssembly request "gradle" 1 0 1, 1⟩

private def startedStore : PanelStore :=
  (PanelStore.empty.putLog { id := 1 }).putAssembly startedBuild.assembly

private theorem readyToBuild_started : ReadyToBuild startedStore startedBuild :=
  ⟨⟨startedBuild.assembly, rfl, rfl⟩, { id := 1 }, rfl⟩

/-- Cancel the build when its body has registered the stream. -/
private def lateCancelMoves : List (Move AssemblyTask (Signal AssemblyEvent)) :=
  List.replicate 11 (.act 0 (.go 0)) ++ .act 1 (.go 0) ::
    .call (.cancelRead 1 none) :: List.replicate 10 (.act 0 (.go 0))

/-- Cancel the build between the second check and the announcement. -/
private def earlyCancelMoves : List (Move AssemblyTask (Signal AssemblyEvent)) :=
  List.replicate 5 (.act 0 (.go 0)) ++ .call (.cancelRead 1 none) ::
    List.replicate 7 (.act 0 (.go 0)) ++ [.act 1 (.go 0)]

private def canceledAndIdle (c : BuildConfig) : Bool :=
  (c.shared.store.tryGetAssembly 1).any Assembly.isCanceled &&
    c.tasks.all AssemblyTask.isIdle

private theorem canceledAndIdle_inv (h : canceledAndIdle c = true) :
    c.shared.StoredCanceled 1 ∧ ∀ u ∈ c.tasks, u.isIdle = true := by
  obtain ⟨hcanceled, hidle⟩ := Bool.and_eq_true_iff.mp h
  obtain ⟨a, hget, ha⟩ := (Option.any_eq_true _ _).mp hcanceled
  exact ⟨⟨a, hget, ha⟩, List.all_eq_true.mp hidle⟩

/-- A cancellation of a registered stream leaves nothing. -/
theorem nothing_survives_registered :
    ∃ c : BuildConfig, c.shared.StoredCanceled 1 ∧ NothingSurvives 1 c.shared := by
  obtain ⟨ls, c, hrun, hc⟩ := exists_run_of_exec (AssemblyTask.step rendering)
    (cancelsCleanly startedBuild) (buildConfig startedStore startedBuild) lateCancelMoves
    (fun _ => canceledAndIdle) (by decide)
  obtain ⟨hcanceled, hidle⟩ := canceledAndIdle_inv hc
  exact ⟨c, hcanceled, nothing_survives readyToBuild_started hrun hcanceled hidle⟩

/-- When a build is cancelled and all tasks have run, nothing survives. -/
def CancellationIsComplete (r : Rendering) : Prop :=
  ∀ store b ls c, ReadyToBuild store b →
    Run (AssemblyTask.step r) (fun _ k => cancelsOnly b k = true) (buildConfig store b) ls c →
    c.shared.StoredCanceled b.assembly.id →
    (∀ u ∈ c.tasks, u.isIdle = true) →
    NothingSurvives b.assembly.id c.shared

private def registeredLive (c : BuildConfig) : Bool :=
  (c.shared.builds.subscriptions 1).any c.shared.builds.live

/-- A cancellation that is put after the second check finds nothing to destroy, and the
body subscribes nevertheless. -/
theorem stream_survives : ¬ ∀ r, CancellationIsComplete r := by
  intro h
  obtain ⟨ls, c, hrun, hc⟩ := exists_run_of_exec (AssemblyTask.step rendering)
    (fun _ => cancelsOnly startedBuild) (buildConfig startedStore startedBuild)
    earlyCancelMoves (fun _ d => canceledAndIdle d && registeredLive d) (by decide)
  obtain ⟨hdone, hlive⟩ := Bool.and_eq_true_iff.mp hc
  obtain ⟨hcanceled, hidle⟩ := canceledAndIdle_inv hdone
  have hnothing := h rendering _ _ ls c readyToBuild_started hrun hcanceled hidle
  unfold registeredLive at hlive
  cases hsub : c.shared.builds.subscriptions 1 with
  | none =>
      rw [hsub] at hlive
      cases hlive
  | some run =>
      rw [hsub, Option.any_some, hnothing.subscription run hsub] at hlive
      cases hlive

end ArtPlatform
