import ArtPlatform.ManagementPanel.AssemblyService

/-!
# The resources of a build

A run of a build owns at most a pod, an agent connection, a subscription and a
disposable, all under the id of its assembly.  The body of `buildProject`
registers them one after the other; `destroyAgent` removes them, whichever run
has registered them.

Main results:

- Theorem `owner_of_step`: a resource gets an owner only by a body that registers
  its own run.
- Theorem `owner_kept_of_destroyStep`: a destruction takes away only what it touches.
- Theorem `live_of_step`: a stream comes to life only when its own body subscribes.
- Theorem `builder_of_step`: a body or a stream comes from one of the same run, or
  starts the next run.
-/

namespace ArtPlatform

open Function (update)

/-! ## Owners -/

inductive RunResource
  | pod
  | agent
  | subscription
  | disposable
deriving DecidableEq

/-- The run that a resource of an assembly belongs to. -/
def Registry.owner (reg : Registry) : RunResource → Nat → Option Nat
  | .pod => reg.pods
  | .agent => reg.agents
  | .subscription => reg.subscriptions
  | .disposable => reg.disposables

/-- The resource that the body registers next. -/
def BodyPosition.registers : BodyPosition → Option RunResource
  | .startAgent => some .pod
  | .connect => some .agent
  | .subscribe => some .subscription
  | .register => some .disposable
  | _ => none

/-- The resources that the rest of a destruction cancels, deletes or removes. -/
def DestroyPosition.touches : DestroyPosition → RunResource → Bool
  | .createBuilder, _ | .cancelSubscription, _ | .dispose, _ | .stopAgent, _ => true
  | .removeAgent, resource => resource ≠ .pod
  | .removeDisposable, resource => resource = .disposable || resource = .subscription
  | .removeSubscription, resource => resource = .subscription
  | .removeRequester, _ => false

/-- The resources that the rest of a task may take away: a failure ends in a
destruction, and a cancelled body deletes the pod. -/
def AssemblyTask.touches : AssemblyTask → RunResource → Bool
  | .body _ .stopCanceled, resource => resource = .pod
  | .failure _ _ _, _ => true
  | .destroy _ _ p, resource => p.touches resource
  | _, _ => false

/-- The body or the stream of a run. -/
def AssemblyTask.builder : AssemblyTask → Option (Nat × Nat)
  | .body b _ | .stream b _ => some (b.assembly.id, b.run)
  | _ => none

variable {r : Rendering} {t u : AssemblyTask} {b : Build} {x : Signal AssemblyEvent}
  {s s' : PanelState} {ts : List AssemblyTask} {id run run' : Nat} {resource : RunResource}

theorem tag_of_builder {k : Nat × Nat} (h : t.builder = some k) : t.tag = some k := by
  cases t <;> first | exact h | cases h

/-! ## The maps after an operation -/

@[simp] theorem owner_silence (reg : Registry) (o : Option Nat) :
    (reg.silence o).owner resource = reg.owner resource := by
  cases o <;> cases resource <;> rfl

@[simp] theorem owner_terminate (reg : Registry) (run : Nat) :
    (reg.terminate run).owner resource = reg.owner resource :=
  owner_silence reg (some run)

@[simp] theorem owner_cancelSubscription (reg : Registry) (id : Nat) :
    (reg.cancelSubscription id).owner resource = reg.owner resource :=
  owner_silence reg _

@[simp] theorem owner_dispose (reg : Registry) (id : Nat) :
    (reg.dispose id).owner resource = reg.owner resource :=
  owner_silence reg _

@[simp] theorem owner_startRun (reg : Registry) (id : Nat) :
    (reg.startRun id).owner resource = reg.owner resource := by
  cases resource <;> rfl

@[simp] theorem owner_setRequester (reg : Registry) (id : Nat) :
    (reg.setRequester id).owner resource = reg.owner resource := by
  cases resource <;> rfl

@[simp] theorem owner_removeRequester (reg : Registry) (id : Nat) :
    (reg.removeRequester id).owner resource = reg.owner resource := by
  cases resource <;> rfl

section

variable (reg : Registry) (id run i : Nat)

@[simp] theorem owner_createPod : (reg.createPod id run).owner resource i =
    if resource = .pod ∧ i = id then some run else reg.owner resource i := by
  cases resource <;> simp [Registry.owner, Registry.createPod, Function.update_apply]

@[simp] theorem owner_setAgent : (reg.setAgent id run).owner resource i =
    if resource = .agent ∧ i = id then some run else reg.owner resource i := by
  cases resource <;> simp [Registry.owner, Registry.setAgent, Function.update_apply]

@[simp] theorem owner_subscribe : (reg.subscribe id run).owner resource i =
    if resource = .subscription ∧ i = id then some run else reg.owner resource i := by
  cases resource <;> simp [Registry.owner, Registry.subscribe, Function.update_apply]

@[simp] theorem owner_setDisposable : (reg.setDisposable id run).owner resource i =
    if resource = .disposable ∧ i = id then some run else reg.owner resource i := by
  cases resource <;> simp [Registry.owner, Registry.setDisposable, Function.update_apply]

@[simp] theorem owner_deletePod : (reg.deletePod id).owner resource i =
    if resource = .pod ∧ i = id then none else reg.owner resource i := by
  cases resource <;> simp [Registry.owner, Registry.deletePod, Function.update_apply]

@[simp] theorem owner_removeAgent : (reg.removeAgent id).owner resource i =
    if resource = .agent ∧ i = id then none else reg.owner resource i := by
  cases resource <;> simp [Registry.owner, Registry.removeAgent, Function.update_apply]

@[simp] theorem owner_removeDisposable : (reg.removeDisposable id).owner resource i =
    if resource = .disposable ∧ i = id then none else reg.owner resource i := by
  cases resource <;> simp [Registry.owner, Registry.removeDisposable, Function.update_apply]

@[simp] theorem owner_removeSubscription : (reg.removeSubscription id).owner resource i =
    if resource = .subscription ∧ i = id then none else reg.owner resource i := by
  cases resource <;> simp [Registry.owner, Registry.removeSubscription, Function.update_apply]

end

/-- A silenced registry has no stream that the registry did not have. -/
theorem live_of_silence {reg : Registry} {o : Option Nat}
    (h : (reg.silence o).live run = true) : reg.live run = true ∧ o ≠ some run := by
  cases o with
  | none => exact ⟨h, nofun⟩
  | some run' =>
      have hupdate : (if run = run' then false else reg.live run) = true := by
        rw [← Function.update_apply]
        exact h
      by_cases heq : run = run'
      · rw [if_pos heq] at hupdate
        cases hupdate
      · rw [if_neg heq] at hupdate
        exact ⟨hupdate, fun hrun => heq (Option.some.inj hrun).symm⟩

theorem live_of_terminate {reg : Registry} (h : (reg.terminate run').live run = true) :
    reg.live run = true :=
  (live_of_silence (o := some run') h).1

@[simp] theorem live_subscribe_self (reg : Registry) (id run : Nat) :
    (reg.subscribe id run).live run = true := by
  simp [Registry.subscribe]

theorem live_silence_of_ne {reg : Registry} {o : Option Nat} (h : o ≠ some run) :
    (reg.silence o).live run = reg.live run := by
  cases o with
  | none => rfl
  | some run' =>
      refine Function.update_of_ne ?_ _ _
      intro heq
      exact h (congrArg some heq.symm)

/-! ## The owners after a step -/

/-- The resource of the assembly that the next action registers. -/
def AssemblyTask.registers (id : Nat) : AssemblyTask → Signal AssemblyEvent → Option RunResource
  | .body b p, .go _ => if b.assembly.id = id then p.registers else none
  | _, _ => none

/-- The task registers the resource for its own run. -/
def RegisteredBy (resource : RunResource) (id run : Nat) (t : AssemblyTask)
    (x : Signal AssemblyEvent) : Prop :=
  t.registers id x = some resource ∧ t.builder = some (id, run)

theorem owner_of_bodyStep {p : BodyPosition} (h : bodyStep b p x s = some (s', ts))
    (howner : s'.builds.owner resource id = some run) :
    s.builds.owner resource id = some run ∨ RegisteredBy resource id run (.body b p) x := by
  revert h howner
  fun_cases bodyStep b p x s <;> intro h howner <;>
    simp only [Option.some.injEq, Prod.mk.injEq, reduceCtorEq] at h <;>
    rcases h with ⟨rfl, rfl⟩
  all_goals first
    | exact .inl howner
    | simp only [PanelState.onBuilds_builds, owner_createPod, owner_setAgent, owner_subscribe,
        owner_setDisposable, owner_deletePod] at howner
  all_goals first
    | exact .inl howner
    | split at howner
  all_goals first
    | exact .inl howner
    | (cases howner; done)
    | skip
  all_goals
    rename_i heq
    obtain ⟨rfl, rfl⟩ := heq
    rw [← Option.some.inj howner]
    exact .inr ⟨if_pos rfl, rfl⟩

/-- The handlers of a stream register and remove nothing. -/
theorem owner_streamStep {p : StreamPosition b.assembly.id}
    (h : streamStep r b p x s = some (s', ts)) :
    s'.builds.owner resource = s.builds.owner resource := by
  revert h
  fun_cases streamStep r b p x s <;> intro h <;>
    simp only [Option.some.injEq, Prod.mk.injEq, reduceCtorEq] at h <;>
    rcases h with ⟨rfl, rfl⟩ <;> rfl

theorem builds_failureStep {m : String} {p : FailurePosition}
    (h : failureStep r b m p x s = some (s', ts)) : s'.builds = s.builds := by
  revert h
  fun_cases failureStep r b m p x s <;> intro h <;>
    simp only [Option.some.injEq, Prod.mk.injEq, reduceCtorEq] at h <;>
    rcases h with ⟨rfl, rfl⟩ <;> rfl

theorem owner_of_destroyStep {i : Nat} {p : DestroyPosition}
    (h : destroyStep i run' p x s = some (s', ts))
    (howner : s'.builds.owner resource id = some run) :
    s.builds.owner resource id = some run := by
  revert h howner
  fun_cases destroyStep i run' p x s <;> intro h howner <;>
    simp only [Option.some.injEq, Prod.mk.injEq, reduceCtorEq] at h <;>
    rcases h with ⟨rfl, rfl⟩
  all_goals first
    | exact howner
    | simp only [PanelState.onBuilds_builds, owner_cancelSubscription, owner_dispose,
        owner_deletePod, owner_removeAgent, owner_removeDisposable,
        owner_removeSubscription] at howner
  all_goals first
    | exact howner
    | split at howner
  all_goals first
    | exact howner
    | cases howner

/-- A destruction takes away what it touches, of its own assembly. -/
theorem owner_kept_of_destroyStep {i : Nat} {p : DestroyPosition}
    (h : destroyStep i run' p x s = some (s', ts))
    (htouches : i = id → p.touches resource = false) :
    s'.builds.owner resource id = s.builds.owner resource id := by
  revert h htouches
  fun_cases destroyStep i run' p x s <;> intro h htouches <;>
    simp only [Option.some.injEq, Prod.mk.injEq, reduceCtorEq] at h <;>
    rcases h with ⟨rfl, rfl⟩
  all_goals first
    | rfl
    | simp only [PanelState.onBuilds_builds, owner_cancelSubscription, owner_dispose,
        owner_deletePod, owner_removeAgent, owner_removeDisposable,
        owner_removeSubscription]
  -- An entry is removed: it is another assembly's, or it is touched.
  all_goals
    split
    · rename_i heq
      obtain ⟨rfl, rfl⟩ := heq
      cases htouches rfl
    · rfl

/-! ## Requests -/

/-- The id of the assembly whose new run a rebuild is about to store. -/
def AssemblyTask.restarts : AssemblyTask → Option Nat
  | .rebuildPut a _ => some a.id
  | _ => none

/-- A request starts nothing but destructions for the last run of a stored assembly,
or it stores a new run. -/
structure AsksOnly (s s' : PanelState) (ts : List AssemblyTask) : Prop where
  builds : s'.builds = s.builds
  tasks : ∀ u ∈ ts, u.tag = none ∨ ∃ i p, u = .destroy i (s.builds.latest i) p ∧
    (s'.store.tryGetAssembly i).isSome

theorem tag_resumeRebuild {caller : Option Assembly} :
    ∀ u ∈ resumeRebuild caller, u.tag = none := by
  cases caller <;> simp [resumeRebuild, AssemblyTask.tag]

theorem tag_cancelReadStep {caller : Option Assembly} :
    ∀ u ∈ cancelReadStep id caller s, u.tag = none := by
  fun_cases cancelReadStep id caller s
  case case3 => exact tag_resumeRebuild
  all_goals simp [AssemblyTask.tag]

theorem tag_rebuildReadStep : ∀ u ∈ rebuildReadStep id s, u.tag = none := by
  fun_cases rebuildReadStep id s <;> simp [AssemblyTask.tag]

theorem asksOnly_cancelPutStep (a : Assembly) (caller : Option Assembly) (now : Nat) :
    AsksOnly s (cancelPutStep a caller now s).1 (cancelPutStep a caller now s).2 := by
  refine ⟨rfl, ?_⟩
  intro u hu
  rcases List.mem_append.mp hu with hu | hu
  · right
    split at hu
    · refine ⟨_, _, List.mem_singleton.mp hu, ?_⟩
      have hget := s.store.assemblies.get_put_self (canceledAssembly a now)
      exact Option.isSome_iff_exists.mpr ⟨_, hget⟩
    · cases hu
  · exact .inl (tag_resumeRebuild u hu)

theorem request_step (h : t.step r x s = some (s', ts)) (htag : t.tag = none) :
    AsksOnly s s' ts ∨ ∃ a, s' = (startBuild a s).1 ∧ ts = (startBuild a s).2 ∧
      (t.restarts = some a.id ∨ s.store.tryGetAssembly a.id = none) := by
  revert h htag
  fun_cases AssemblyTask.step r t x s <;> intro h htag
  case case8 | case9 | case10 | case11 => cases htag
  all_goals
    simp only [Option.some.injEq, Prod.mk.injEq, reduceCtorEq] at h
  case case2 =>
      obtain ⟨rfl, rfl⟩ := Prod.mk.inj h
      exact .inl (asksOnly_cancelPutStep _ _ _)
  case case5 =>
      obtain ⟨rfl, rfl⟩ := Prod.mk.inj h
      exact .inr ⟨_, rfl, rfl, .inl rfl⟩
  case case7 =>
      obtain ⟨rfl, rfl⟩ := Prod.mk.inj h
      exact .inr ⟨_, rfl, rfl, .inr s.store.assemblies.get_freshKey⟩
  all_goals
    rcases h with ⟨rfl, rfl⟩
    refine .inl ⟨rfl, fun u hu => .inl ?_⟩
  · exact tag_cancelReadStep u hu
  · exact tag_rebuildReadStep u hu
  all_goals
    rw [List.mem_singleton.mp hu]
    rfl

/-! ## Numbers of runs -/

/-- The registry has numbered no further run. -/
def SameNumbers (s s' : PanelState) : Prop :=
  s'.builds.latest = s.builds.latest ∧ s'.builds.runs = s.builds.runs

theorem numbers_silence (reg : Registry) (o : Option Nat) :
    (reg.silence o).latest = reg.latest ∧ (reg.silence o).runs = reg.runs := by
  cases o <;> exact ⟨rfl, rfl⟩

theorem numbers_bodyStep {p : BodyPosition} (h : bodyStep b p x s = some (s', ts)) :
    SameNumbers s s' := by
  revert h
  fun_cases bodyStep b p x s <;> intro h <;>
    simp only [Option.some.injEq, Prod.mk.injEq, reduceCtorEq] at h <;>
    rcases h with ⟨rfl, rfl⟩ <;> exact ⟨rfl, rfl⟩

theorem numbers_streamStep {p : StreamPosition b.assembly.id}
    (h : streamStep r b p x s = some (s', ts)) : SameNumbers s s' := by
  revert h
  fun_cases streamStep r b p x s <;> intro h <;>
    simp only [Option.some.injEq, Prod.mk.injEq, reduceCtorEq] at h <;>
    rcases h with ⟨rfl, rfl⟩ <;> exact ⟨rfl, rfl⟩

theorem numbers_destroyStep {p : DestroyPosition}
    (h : destroyStep id run p x s = some (s', ts)) : SameNumbers s s' := by
  revert h
  fun_cases destroyStep id run p x s <;> intro h <;>
    simp only [Option.some.injEq, Prod.mk.injEq, reduceCtorEq] at h <;>
    rcases h with ⟨rfl, rfl⟩
  all_goals first
    | exact ⟨rfl, rfl⟩
    | exact numbers_silence _ _

/-- A task that works for a run starts no other. -/
theorem numbers_of_step (h : t.step r x s = some (s', ts)) {k : Nat × Nat}
    (htag : t.tag = some k) : SameNumbers s s' := by
  cases t with
  | body b p => exact numbers_bodyStep h
  | stream b p => exact numbers_streamStep h
  | failure b m p =>
      have hbuilds := builds_failureStep h
      exact ⟨congrArg Registry.latest hbuilds, congrArg Registry.runs hbuilds⟩
  | destroy id run p => exact numbers_destroyStep h
  | _ => cases htag

/-! ## Streams -/

/-- A body and a stream are continued by tasks of their run, the others by neither. -/
theorem builder_of_step (h : t.step r x s = some (s', ts)) {k : Nat × Nat}
    (htag : t.tag = some k) : ∀ u ∈ ts, ∀ j, u.builder = some j → t.builder = some j := by
  intro u hu j hj
  have hsame : u.tag = t.tag := (tag_of_step h htag u hu).trans htag.symm
  have hbuilder : t.tag = some j := hsame ▸ tag_of_builder hj
  cases t with
  | body b p => exact hbuilder
  | stream b p => exact hbuilder
  | failure b m p =>
      revert h
      simp only [AssemblyTask.step]
      fun_cases failureStep r b m p x s <;> intro h <;>
        simp only [Option.some.injEq, Prod.mk.injEq, reduceCtorEq] at h <;>
        rcases h with ⟨rfl, rfl⟩
      all_goals first
        | (cases hu; done)
        | (rw [List.mem_singleton.mp hu] at hj; cases hj)
  | destroy id run p =>
      revert h
      simp only [AssemblyTask.step]
      fun_cases destroyStep id run p x s <;> intro h <;>
        simp only [Option.some.injEq, Prod.mk.injEq, reduceCtorEq] at h <;>
        rcases h with ⟨rfl, rfl⟩
      all_goals first
        | (cases hu; done)
        | (rw [List.mem_singleton.mp hu] at hj; cases hj)
  | _ => cases htag

/-- A body subscribes to the stream of the run. -/
def SubscribedBy (run : Nat) (t : AssemblyTask) : Prop :=
  ∃ b, t = .body b .subscribe ∧ b.run = run

theorem live_of_bodyStep {p : BodyPosition} (h : bodyStep b p x s = some (s', ts))
    (hlive : s'.builds.live run = true) :
    s.builds.live run = true ∨ SubscribedBy run (.body b p) := by
  revert h hlive
  fun_cases bodyStep b p x s <;> intro h hlive <;>
    simp only [Option.some.injEq, Prod.mk.injEq, reduceCtorEq] at h <;>
    rcases h with ⟨rfl, rfl⟩
  all_goals first
    | exact .inl hlive
    | skip
  -- The subscription.
  by_cases heq : run = b.run
  · exact .inr ⟨b, rfl, heq.symm⟩
  · left
    have hother := Function.update_of_ne heq true s.builds.live
    exact hother ▸ hlive

theorem live_of_streamStep {p : StreamPosition b.assembly.id}
    (h : streamStep r b p x s = some (s', ts)) (hlive : s'.builds.live run = true) :
    s.builds.live run = true := by
  revert h hlive
  fun_cases streamStep r b p x s <;> intro h hlive <;>
    simp only [Option.some.injEq, Prod.mk.injEq, reduceCtorEq] at h <;>
    rcases h with ⟨rfl, rfl⟩
  all_goals first
    | exact hlive
    | exact live_of_terminate hlive

theorem live_of_destroyStep {p : DestroyPosition}
    (h : destroyStep id run' p x s = some (s', ts)) (hlive : s'.builds.live run = true) :
    s.builds.live run = true := by
  revert h hlive
  fun_cases destroyStep id run' p x s <;> intro h hlive <;>
    simp only [Option.some.injEq, Prod.mk.injEq, reduceCtorEq] at h <;>
    rcases h with ⟨rfl, rfl⟩
  all_goals first
    | exact hlive
    | exact (live_of_silence hlive).1

/-- A stream comes to life only when its own body subscribes. -/
theorem live_of_step (h : t.step r x s = some (s', ts)) (hlive : s'.builds.live run = true) :
    s.builds.live run = true ∨ SubscribedBy run t := by
  cases t with
  | body b p => exact live_of_bodyStep h hlive
  | stream b p => exact .inl (live_of_streamStep h hlive)
  | failure b m p => exact .inl (builds_failureStep h ▸ hlive)
  | destroy id run p => exact .inl (live_of_destroyStep h hlive)
  | _ =>
      left
      rcases request_step h rfl with hasks | ⟨a, rfl, -, -⟩
      · exact hasks.builds ▸ hlive
      · exact hlive

/-- A resource gets an owner only by a body that registers its own run. -/
theorem owner_of_step (h : t.step r x s = some (s', ts))
    (howner : s'.builds.owner resource id = some run) :
    s.builds.owner resource id = some run ∨ RegisteredBy resource id run t x := by
  cases t with
  | body b p => exact owner_of_bodyStep h howner
  | stream b p => exact .inl (owner_streamStep h ▸ howner)
  | failure b m p => exact .inl (builds_failureStep h ▸ howner)
  | destroy id run p => exact .inl (owner_of_destroyStep h howner)
  | _ =>
      left
      rcases request_step h rfl with hasks | ⟨a, rfl, -, -⟩
      · exact hasks.builds ▸ howner
      · exact owner_startRun s.builds a.id ▸ howner

end ArtPlatform
