import ArtPlatform.ManagementPanel.BuildResources

/-!
# Isolation of a rebuild

A rebuild stores a new run of an assembly under the id of the old one, and both
share one key in every map.  What is left of the old run then works on the entries
and on the stored assembly of the new run.

What may be left without harm are the rest of a destruction and a stream that has
been cancelled, as long as the destruction is past a resource when the new run
registers it.

Main results:

- Theorem `wellNumbered_of_run`: runs are numbered apart, and tasks and owners carry
  numbers that have been given.
- Theorems `assemblies_of_leftover`, `owner_of_leftover`: a leftover changes no
  assembly and no resource that it does not touch.
- Theorem `rebuild_isolated`: if only leftovers remain when a new run is stored, and
  none of them touches what the new run registers, the superseded runs leave the new
  one alone.
- Theorem `rebuild_disturbed`: otherwise an event of the old stream overwrites the
  assembly of the new run.
-/

namespace ArtPlatform

open Interleaving

variable {r : Rendering} {t u : AssemblyTask} {x : Signal AssemblyEvent}
  {s s' : PanelState} {ts : List AssemblyTask} {id run : Nat} {resource : RunResource}
  {c c' : BuildConfig} {l : Label AssemblyTask (Signal AssemblyEvent)}
  {ls : List (Label AssemblyTask (Signal AssemblyEvent))}

/-! ## Stored rows stay -/

theorem stored_of_step (h : t.step r x s = some (s', ts))
    (hstored : (s.store.tryGetAssembly id).isSome) :
    (s'.store.tryGetAssembly id).isSome := by
  unfold PanelStore.tryGetAssembly at *
  rw [assemblies_of_step h]
  cases t.written s x.clock with
  | none => exact hstored
  | some a =>
      simp only [PanelState.assembliesAfter, Space.get_put]
      split
      · rfl
      · exact hstored

/-! ## Numbers -/

/-- Runs are numbered apart: every number that a task or an owner carries has been
given to a run of a stored assembly, and no two builds share one. -/
structure WellNumbered (c : BuildConfig) : Prop where
  latest : ∀ i, c.shared.builds.latest i < c.shared.builds.runs
  tagged : ∀ t ∈ c.tasks, ∀ k, t.tag = some k → k.2 < c.shared.builds.runs ∧
    (c.shared.store.tryGetAssembly k.1).isSome
  builders : ∀ t ∈ c.tasks, ∀ u ∈ c.tasks, ∀ j k, t.builder = some j → u.builder = some k →
    j.2 = k.2 → j = k
  owners : ∀ resource i run, c.shared.builds.owner resource i = some run →
    run < c.shared.builds.runs

theorem wellNumbered_initial (store : PanelStore) : WellNumbered (initialConfig store) where
  latest _ := Nat.zero_lt_one
  tagged _ ht := absurd ht List.not_mem_nil
  builders _ ht := absurd ht List.not_mem_nil
  owners resource _ _ h := by cases resource <;> cases h

theorem builder_of_tag_none (h : t.tag = none) : t.builder = none := by
  cases t <;> first | rfl | cases h

theorem WellNumbered.call (h : WellNumbered c) (ht : t.tag = none) :
    WellNumbered ⟨c.shared, t :: c.tasks⟩ where
  latest := h.latest
  tagged u hu k hk := by
    rcases List.mem_cons.mp hu with rfl | hu
    · rw [ht] at hk
      cases hk
    · exact h.tagged u hu k hk
  builders u hu v hv j k hj hk := by
    have hnone := builder_of_tag_none ht
    rcases List.mem_cons.mp hu with rfl | hu
    · rw [hnone] at hj
      cases hj
    · rcases List.mem_cons.mp hv with rfl | hv
      · rw [hnone] at hk
        cases hk
      · exact h.builders u hu v hv j k hj hk
  owners := h.owners

/-- Every builder of a pool after a step was a builder of the pool before it. -/
theorem builders_of_origin (h : WellNumbered c)
    (horigin : ∀ u ∈ c'.tasks, ∀ j, u.builder = some j → ∃ v ∈ c.tasks, v.builder = some j) :
    ∀ t ∈ c'.tasks, ∀ u ∈ c'.tasks, ∀ j k, t.builder = some j → u.builder = some k →
      j.2 = k.2 → j = k := by
  intro t ht u hu j k hj hk heq
  obtain ⟨t₀, ht₀, hj₀⟩ := horigin t ht j hj
  obtain ⟨u₀, hu₀, hk₀⟩ := horigin u hu k hk
  exact h.builders t₀ ht₀ u₀ hu₀ j k hj₀ hk₀ heq

/-- A step of a task that works for a run keeps the numbers. -/
theorem WellNumbered.tagged_step (h : WellNumbered c) {k : Nat × Nat} (htag : t.tag = some k)
    (hstep : Step (AssemblyTask.step r) c (.act t x) c') : WellNumbered c' := by
  obtain ⟨ts, others, hpool, hact, htasks⟩ := hstep.act_inv
  obtain ⟨hlatest, hruns⟩ := numbers_of_step hact htag
  have hmem := hstep.mem_tasks
  have hothers : ∀ u ∈ others, u ∈ c.tasks :=
    fun u hu => hpool.mem_iff.mpr (List.mem_cons_of_mem _ hu)
  refine ⟨?_, ?_, builders_of_origin h ?_, ?_⟩
  · rw [hlatest, hruns]
    exact h.latest
  · intro u hu j hj
    rw [hruns]
    have hbefore : j.2 < c.shared.builds.runs ∧ (c.shared.store.tryGetAssembly j.1).isSome := by
      rw [htasks] at hu
      rcases List.mem_append.mp hu with hu | hu
      · rw [tag_of_step hact htag u hu] at hj
        exact h.tagged t hmem j (htag.trans hj)
      · exact h.tagged u (hothers u hu) j hj
    exact ⟨hbefore.1, stored_of_step hact hbefore.2⟩
  · intro u hu j hj
    rw [htasks] at hu
    rcases List.mem_append.mp hu with hu | hu
    · exact ⟨t, hmem, builder_of_step hact htag u hu j hj⟩
    · exact ⟨u, hothers u hu, hj⟩
  · intro resource i run howner
    rw [hruns]
    rcases owner_of_step hact howner with hbefore | ⟨-, hbuilder⟩
    · exact h.owners resource i run hbefore
    · exact (h.tagged t hmem _ (tag_of_builder hbuilder)).1

/-- A request that stores no run keeps the numbers. -/
theorem WellNumbered.asking_step (h : WellNumbered c) {others : List AssemblyTask}
    (hothers : ∀ u ∈ others, u ∈ c.tasks)
    (hstored : ∀ i, (c.shared.store.tryGetAssembly i).isSome →
      (s'.store.tryGetAssembly i).isSome)
    (hasks : AsksOnly c.shared s' ts) : WellNumbered ⟨s', ts ++ others⟩ := by
  obtain ⟨hbuilds, hnew⟩ := hasks
  refine ⟨?_, ?_, builders_of_origin h ?_, ?_⟩
  · rw [hbuilds]
    exact h.latest
  · intro u hu j hj
    rw [hbuilds]
    rcases List.mem_append.mp hu with hu | hu
    · rcases hnew u hu with hnone | ⟨i, p, rfl, hsome⟩
      · rw [hnone] at hj
        cases hj
      · rw [← Option.some.inj hj]
        exact ⟨h.latest i, hsome⟩
    · obtain ⟨hlt, hsome⟩ := h.tagged u (hothers u hu) j hj
      exact ⟨hlt, hstored j.1 hsome⟩
  · intro u hu j hj
    rcases List.mem_append.mp hu with hu | hu
    · rcases hnew u hu with hnone | ⟨i, p, rfl, -⟩
      · rw [builder_of_tag_none hnone] at hj
        cases hj
      · cases hj
    · exact ⟨u, hothers u hu, hj⟩
  · rw [hbuilds]
    exact h.owners

/-- A new run gets a number that no task and no owner carries. -/
theorem WellNumbered.starting_step (h : WellNumbered c) {others : List AssemblyTask}
    (hothers : ∀ u ∈ others, u ∈ c.tasks) {a : Assembly}
    (hstored : ∀ i, (c.shared.store.tryGetAssembly i).isSome →
      ((startBuild a c.shared).1.store.tryGetAssembly i).isSome) :
    WellNumbered ⟨(startBuild a c.shared).1, (startBuild a c.shared).2 ++ others⟩ := by
  have hruns : (startBuild a c.shared).1.builds.runs = c.shared.builds.runs + 1 := rfl
  have hold : ∀ u ∈ c.tasks, ∀ j, u.builder = some j → j.2 < c.shared.builds.runs :=
    fun u hu j hj => (h.tagged u hu j (tag_of_builder hj)).1
  refine ⟨?_, ?_, ?_, ?_⟩
  · intro i
    show Function.update c.shared.builds.latest a.id c.shared.builds.runs i <
      c.shared.builds.runs + 1
    rw [Function.update_apply]
    have hlatest := h.latest i
    split <;> omega
  · intro u hu j hj
    rcases List.mem_cons.mp hu with rfl | hu
    · rw [← Option.some.inj hj]
      refine ⟨Nat.lt_succ_self _, ?_⟩
      exact Option.isSome_iff_exists.mpr ⟨a, c.shared.store.assemblies.get_put_self a⟩
    · obtain ⟨hlt, hsome⟩ := h.tagged u (hothers u hu) j hj
      exact ⟨Nat.lt_succ_of_lt hlt, hstored j.1 hsome⟩
  · intro u hu v hv j k hj hk heq
    rcases List.mem_cons.mp hu with rfl | hu
    · have hjrun : j.2 = c.shared.builds.runs := by rw [← Option.some.inj hj]
      rcases List.mem_cons.mp hv with rfl | hv
      · exact Option.some.inj (hj.symm.trans hk)
      · have hlt := hold v (hothers v hv) k hk
        omega
    · have hlt := hold u (hothers u hu) j hj
      rcases List.mem_cons.mp hv with rfl | hv
      · have hkrun : k.2 = c.shared.builds.runs := by rw [← Option.some.inj hk]
        omega
      · exact h.builders u (hothers u hu) v (hothers v hv) j k hj hk heq
  · intro resource i run howner
    rw [hruns]
    have howner' : c.shared.builds.owner resource i = some run := by
      rw [← owner_startRun c.shared.builds a.id]
      exact howner
    exact Nat.lt_succ_of_lt (h.owners resource i run howner')

theorem WellNumbered.step (h : WellNumbered c) (hok : requestsOnly l = true)
    (hstep : Step (AssemblyTask.step r) c l c') : WellNumbered c' := by
  cases l with
  | call t =>
      cases hstep
      exact h.call (tag_of_isRequest hok)
  | act t x =>
      cases htag : t.tag with
      | some k => exact h.tagged_step htag hstep
      | none =>
          obtain ⟨ts, others, hpool, hact, htasks⟩ := hstep.act_inv
          have hothers : ∀ u ∈ others, u ∈ c.tasks :=
            fun u hu => hpool.mem_iff.mpr (List.mem_cons_of_mem t hu)
          have hstored : ∀ i, (c.shared.store.tryGetAssembly i).isSome →
              (c'.shared.store.tryGetAssembly i).isSome := fun _ hi => stored_of_step hact hi
          have hc' : c' = ⟨c'.shared, ts ++ others⟩ := by rw [← htasks]
          rw [hc']
          rcases request_step hact htag with hasks | ⟨a, hshared, rfl, -⟩
          · exact h.asking_step hothers hstored hasks
          · rw [hshared] at hstored ⊢
            exact h.starting_step hothers hstored

theorem wellNumbered_of_run {store : PanelStore}
    (hrun : Run (AssemblyTask.step r) (fun _ k => requestsOnly k = true)
      (initialConfig store) ls c) : WellNumbered c :=
  hrun.invariant (wellNumbered_initial store) fun _ _ _ h hok hstep => h.step hok hstep

/-! ## Superseded runs and their leftovers -/

/-- The task works for a run of the assembly that is not the last one. -/
def PanelState.supersedes (s : PanelState) (id : Nat) (t : AssemblyTask) : Bool :=
  match t.tag with
  | some (i, run) => i = id && run ≠ s.builds.latest id
  | none => false

/-- What may be left of a run: the rest of a destruction, or a cancelled stream none
of whose handlers has anything to put. -/
def AssemblyTask.isLeftover (s : PanelState) : AssemblyTask → Bool
  | .destroy _ _ _ | .failure _ _ .logRead | .failure _ _ (.logPut _) => true
  | .stream b .idle | .stream b .eventRequest => !s.builds.live b.run
  | _ => false

/-- The task works for no run of the assembly, or is a leftover. -/
def AssemblyTask.leaves (s : PanelState) (id : Nat) (t : AssemblyTask) : Bool :=
  t.tag.all fun k => k.1 ≠ id || t.isLeftover s

/-- Only leftovers remain when a rebuild stores a new run of the assembly, and what its
body registers is touched by no superseded run. -/
def isolatesRuns (id : Nat) (c : BuildConfig) : Label AssemblyTask (Signal AssemblyEvent) → Bool
  | .call t => t.isRequest
  | .act t x =>
      (t.restarts ≠ some id || c.tasks.all (·.leaves c.shared id)) &&
        (t.registers id x).all fun resource =>
          c.tasks.all fun u => !(c.shared.supersedes id u && u.touches resource)

/-- What the last run of an assembly owns stays its own. -/
structure KeepsLastRun (id : Nat) (s s' : PanelState) : Prop where
  assembly : s'.store.tryGetAssembly id = s.store.tryGetAssembly id
  resources : ∀ resource, s.builds.owner resource id = some (s.builds.latest id) →
    s'.builds.owner resource id = some (s.builds.latest id)
  live : s'.builds.live (s.builds.latest id) = s.builds.live (s.builds.latest id)

theorem supersedes_iff : s.supersedes id t = true ↔
    ∃ run, t.tag = some (id, run) ∧ run ≠ s.builds.latest id := by
  unfold PanelState.supersedes
  constructor
  · intro h
    split at h
    · rename_i i run htag
      simp only [Bool.and_eq_true, decide_eq_true_eq] at h
      exact ⟨run, h.1 ▸ htag, h.2⟩
    · cases h
  · rintro ⟨run, htag, hrun⟩
    simp [htag, hrun]

/-! ## What a leftover does -/

/-- What continues a leftover is one, and touches no more than the leftover did. -/
def ContinuesLeftover (s' : PanelState) (t u : AssemblyTask) : Prop :=
  u.isLeftover s' = true ∧
    ∀ resource, t.touches resource = false → u.touches resource = false

theorem leftover_continues (h : t.step r x s = some (s', ts)) (ht : t.isLeftover s = true) :
    ∀ u ∈ ts, ContinuesLeftover s' t u := by
  intro u hu
  cases t with
  | destroy i run p =>
      revert h
      simp only [AssemblyTask.step]
      fun_cases destroyStep i run p x s <;> intro h <;>
        simp only [Option.some.injEq, Prod.mk.injEq, reduceCtorEq] at h <;>
        rcases h with ⟨rfl, rfl⟩
      all_goals first
        | (cases hu; done)
        | rw [List.mem_singleton.mp hu]
      all_goals
        refine ⟨rfl, fun resource hres => ?_⟩
        cases resource <;> first | rfl | cases hres
  | failure b m p =>
      revert h ht
      simp only [AssemblyTask.step]
      fun_cases failureStep r b m p x s <;> intro h ht <;>
        simp only [Option.some.injEq, Prod.mk.injEq, reduceCtorEq] at h <;>
        rcases h with ⟨rfl, rfl⟩
      all_goals first
        | (cases ht; done)
        | (cases hu; done)
        | (rw [List.mem_singleton.mp hu]; exact ⟨rfl, fun _ hres => absurd hres.symm Bool.false_ne_true⟩)
  | stream b p =>
      revert h ht
      simp only [AssemblyTask.step]
      fun_cases streamStep r b p x s <;> intro h ht <;>
        simp only [Option.some.injEq, Prod.mk.injEq, reduceCtorEq] at h <;>
        rcases h with ⟨rfl, rfl⟩
      all_goals first
        | cases ht
        | (rw [List.mem_singleton.mp hu]; exact ⟨ht, fun _ _ => rfl⟩)
        | skip
      -- A cancelled stream receives nothing.
      all_goals
        simp_all [AssemblyTask.isLeftover]
  | _ => cases ht

/-- A leftover puts no assembly. -/
theorem assemblies_of_leftover (h : t.step r x s = some (s', ts))
    (ht : t.isLeftover s = true) : s'.store.assemblies = s.store.assemblies := by
  have hwritten : t.written s x.clock = none := by
    revert ht
    fun_cases AssemblyTask.isLeftover s t <;> intro ht <;> first | rfl | cases ht
  rw [assemblies_of_step h, hwritten]
  rfl

/-- A leftover takes away only what it touches. -/
theorem owner_of_leftover (h : t.step r x s = some (s', ts)) (ht : t.isLeftover s = true)
    (htouches : t.touches resource = false) :
    s'.builds.owner resource id = s.builds.owner resource id := by
  cases t with
  | destroy i run p => exact owner_kept_of_destroyStep h fun _ => htouches
  | failure b m p => rw [builds_failureStep h]
  | stream b p => rw [owner_streamStep h]
  | _ => cases ht

/-- A leftover cancels only a stream that it finds registered. -/
theorem live_of_leftover (h : t.step r x s = some (s', ts)) (ht : t.isLeftover s = true)
    (hsubscription : t.touches .subscription = true →
      ∀ i, t.tag.map Prod.fst = some i → s.builds.subscriptions i ≠ some run)
    (hdisposable : t.touches .disposable = true →
      ∀ i, t.tag.map Prod.fst = some i → s.builds.disposables i ≠ some run) :
    s'.builds.live run = s.builds.live run := by
  cases t with
  | destroy i run' p =>
      revert h hsubscription hdisposable
      simp only [AssemblyTask.step]
      fun_cases destroyStep i run' p x s <;> intro h hsubscription hdisposable <;>
        simp only [Option.some.injEq, Prod.mk.injEq, reduceCtorEq] at h <;>
        rcases h with ⟨rfl, rfl⟩
      case case3 => exact live_silence_of_ne (hsubscription rfl i rfl)
      case case4 => exact live_silence_of_ne (hdisposable rfl i rfl)
      all_goals rfl
  | failure b m p => rw [builds_failureStep h]
  | stream b p =>
      revert h ht
      simp only [AssemblyTask.step]
      fun_cases streamStep r b p x s <;> intro h ht <;>
        simp only [Option.some.injEq, Prod.mk.injEq, reduceCtorEq] at h <;>
        rcases h with ⟨rfl, rfl⟩
      all_goals first
        | rfl
        | cases ht
        | simp_all [AssemblyTask.isLeftover]
  | _ => cases ht

/-! ## Isolation -/

/-- Superseded runs have left nothing but leftovers, and these touch nothing that the
last run owns. -/
structure RunsIsolated (id : Nat) (c : BuildConfig) : Prop where
  leftover : ∀ u ∈ c.tasks, c.shared.supersedes id u = true → u.isLeftover c.shared = true
  untouched : ∀ resource, c.shared.builds.owner resource id = some (c.shared.builds.latest id) →
    ∀ u ∈ c.tasks, c.shared.supersedes id u = true → u.touches resource = false

theorem supersedes_congr (hlatest : s'.builds.latest id = s.builds.latest id)
    (htag : u.tag = t.tag) : s'.supersedes id u = s.supersedes id t := by
  unfold PanelState.supersedes
  rw [htag, hlatest]

theorem supersedes_of_tag_none (h : t.tag = none) : s.supersedes id t = false := by
  unfold PanelState.supersedes
  rw [h]

/-- A leftover stays one when a task that is no superseded body acts. -/
theorem leftover_stable (hnumbered : WellNumbered c) (hisolated : RunsIsolated id c)
    (ht : t ∈ c.tasks) (h : t.step r x c.shared = some (s', ts)) (hu : u ∈ c.tasks)
    (hold : c.shared.supersedes id u = true) (hleft : u.isLeftover c.shared = true) :
    u.isLeftover s' = true := by
  have hstream : ∀ b p, u = .stream b p → c.shared.builds.live b.run = false →
      s'.builds.live b.run = false := by
    rintro b p rfl hdead
    by_contra hlive
    rcases live_of_step h (by simpa using hlive) with hbefore | ⟨b', rfl, hrun⟩
    · rw [hdead] at hbefore
      cases hbefore
    · -- The body that subscribes would be one of the superseded run.
      have hsame := hnumbered.builders _ ht _ hu _ _ rfl rfl hrun
      have htag : (AssemblyTask.body b' .subscribe).tag = (AssemblyTask.stream b p).tag :=
        congrArg some hsame
      have hbody := hisolated.leftover _ ht (supersedes_congr rfl htag ▸ hold)
      cases hbody
  revert hleft
  fun_cases AssemblyTask.isLeftover c.shared u <;> intro hleft
  case case4 b =>
      have hdead := hstream b _ rfl (by simpa using hleft)
      simpa [AssemblyTask.isLeftover] using hdead
  case case5 b =>
      have hdead := hstream b _ rfl (by simpa using hleft)
      simpa [AssemblyTask.isLeftover] using hdead
  case case6 => cases hleft
  all_goals rfl

/-- The registration of a resource finds it untouched. -/
theorem untouched_of_registers (hok : isolatesRuns id c (.act t x) = true)
    (hregisters : t.registers id x = some resource) (hu : u ∈ c.tasks)
    (hold : c.shared.supersedes id u = true) : u.touches resource = false := by
  have hall := (Bool.and_eq_true_iff.mp hok).2
  rw [hregisters, Option.all_some] at hall
  simpa [hold] using List.all_eq_true.mp hall u hu

/-- A step of a task that works for a run keeps the runs of the assembly isolated. -/
theorem RunsIsolated.tagged_step (h : RunsIsolated id c) (hnumbered : WellNumbered c)
    {k : Nat × Nat} (htag : t.tag = some k) (hok : isolatesRuns id c (.act t x) = true)
    (hstep : Step (AssemblyTask.step r) c (.act t x) c') : RunsIsolated id c' := by
  obtain ⟨ts, others, hpool, hact, htasks⟩ := hstep.act_inv
  have ht := hstep.mem_tasks
  have hothers : ∀ u ∈ others, u ∈ c.tasks :=
    fun u hu => hpool.mem_iff.mpr (List.mem_cons_of_mem t hu)
  have hlatest : c'.shared.builds.latest id = c.shared.builds.latest id := by
    rw [(numbers_of_step hact htag).1]
  -- A superseded task of the new pool is an old one, or continues the acting leftover.
  have horigin : ∀ u ∈ c'.tasks, c'.shared.supersedes id u = true →
      (u ∈ c.tasks ∧ c.shared.supersedes id u = true) ∨
        (c.shared.supersedes id t = true ∧ t.isLeftover c.shared = true ∧
          ContinuesLeftover c'.shared t u) := by
    intro u hu hold
    rw [htasks] at hu
    rcases List.mem_append.mp hu with hu | hu
    · right
      have hsame : u.tag = t.tag := (tag_of_step hact htag u hu).trans htag.symm
      have htold : c.shared.supersedes id t = true := supersedes_congr hlatest hsame ▸ hold
      have htleft := h.leftover t ht htold
      exact ⟨htold, htleft, leftover_continues hact htleft u hu⟩
    · exact .inl ⟨hothers u hu, supersedes_congr hlatest rfl ▸ hold⟩
  constructor
  · intro u hu hold
    rcases horigin u hu hold with ⟨hu', hold'⟩ | ⟨-, -, hcontinues⟩
    · exact leftover_stable hnumbered h ht hact hu' hold' (h.leftover u hu' hold')
    · exact hcontinues.1
  · intro resource howner u hu hold
    rw [hlatest] at howner
    rcases owner_of_step hact howner with hbefore | ⟨hregisters, hbuilder⟩
    · rcases horigin u hu hold with ⟨hu', hold'⟩ | ⟨htold, -, hcontinues⟩
      · exact h.untouched resource hbefore u hu' hold'
      · exact hcontinues.2 resource (h.untouched resource hbefore t ht htold)
    · rcases horigin u hu hold with ⟨hu', hold'⟩ | ⟨htold, -, -⟩
      · exact untouched_of_registers hok hregisters hu' hold'
      · -- The registering task works for the last run.
        obtain ⟨run, htrun, hne⟩ := supersedes_iff.mp htold
        have hsame := htrun.symm.trans (tag_of_builder hbuilder)
        exact absurd (congrArg Prod.snd (Option.some.inj hsame)) hne

/-- Requests that store no run of the assembly only add destructions for its last run. -/
theorem RunsIsolated.asking_step (h : RunsIsolated id c) {others : List AssemblyTask}
    (hothers : ∀ u ∈ others, u ∈ c.tasks) (hasks : AsksOnly c.shared s' ts) :
    RunsIsolated id ⟨s', ts ++ others⟩ := by
  obtain ⟨hbuilds, hnew⟩ := hasks
  have hlatest : s'.builds.latest id = c.shared.builds.latest id := by rw [hbuilds]
  have horigin : ∀ u ∈ ts ++ others, s'.supersedes id u = true →
      u ∈ c.tasks ∧ c.shared.supersedes id u = true := by
    intro u hu hold
    rw [supersedes_congr hlatest rfl] at hold
    rcases List.mem_append.mp hu with hu | hu
    · exfalso
      rcases hnew u hu with hnone | ⟨i, p, rfl, -⟩
      · rw [supersedes_of_tag_none hnone] at hold
        cases hold
      · obtain ⟨run, htag, hne⟩ := supersedes_iff.mp hold
        obtain ⟨rfl, rfl⟩ := Prod.mk.inj (Option.some.inj htag)
        exact hne rfl
    · exact ⟨hothers u hu, hold⟩
  have hleft : ∀ u : AssemblyTask, u.isLeftover s' = u.isLeftover c.shared := by
    intro u
    unfold AssemblyTask.isLeftover
    rw [hbuilds]
  constructor
  · intro u hu hold
    obtain ⟨hu', hold'⟩ := horigin u hu hold
    exact (hleft u).trans (h.leftover u hu' hold')
  · intro resource howner u hu hold
    obtain ⟨hu', hold'⟩ := horigin u hu hold
    refine h.untouched resource ?_ u hu' hold'
    rw [← hbuilds]
    exact howner

/-- A new run finds leftovers only, and owns nothing yet. -/
theorem RunsIsolated.starting_step (h : RunsIsolated id c) (hnumbered : WellNumbered c)
    {others : List AssemblyTask} (hothers : ∀ u ∈ others, u ∈ c.tasks) {a : Assembly}
    (hleaves : a.id = id → ∀ u ∈ c.tasks, u.leaves c.shared id = true) :
    RunsIsolated id ⟨(startBuild a c.shared).1, (startBuild a c.shared).2 ++ others⟩ := by
  have hlatest : ∀ i, (startBuild a c.shared).1.builds.latest i =
      if i = a.id then c.shared.builds.runs else c.shared.builds.latest i :=
    Function.update_apply c.shared.builds.latest a.id c.shared.builds.runs
  have howners : ∀ resource, (startBuild a c.shared).1.builds.owner resource id =
      c.shared.builds.owner resource id :=
    fun resource => congrFun (owner_startRun c.shared.builds a.id) id
  by_cases hid : a.id = id
  · have hnew : (startBuild a c.shared).1.builds.latest id = c.shared.builds.runs := by
      rw [hlatest, if_pos hid.symm]
    constructor
    · intro u hu hold
      obtain ⟨run, htag, hne⟩ := supersedes_iff.mp hold
      rcases List.mem_cons.mp hu with rfl | hu
      · exact absurd (congrArg Prod.snd (Option.some.inj htag)).symm (hnew ▸ hne)
      · have hleave := hleaves hid u (hothers u hu)
        unfold AssemblyTask.leaves at hleave
        rw [htag, Option.all_some] at hleave
        have hleft : u.isLeftover c.shared = true := by simpa using hleave
        exact hleft
    · intro resource howner
      rw [hnew, howners] at howner
      exact absurd (hnumbered.owners resource id _ howner) (Nat.lt_irrefl _)
  · have hsame : (startBuild a c.shared).1.builds.latest id = c.shared.builds.latest id := by
      rw [hlatest, if_neg fun heq => hid heq.symm]
    have horigin : ∀ u ∈ (startBuild a c.shared).2 ++ others,
        (startBuild a c.shared).1.supersedes id u = true →
        u ∈ c.tasks ∧ c.shared.supersedes id u = true := by
      intro u hu hold
      rcases List.mem_cons.mp hu with rfl | hu
      · obtain ⟨run, htag, -⟩ := supersedes_iff.mp hold
        exact absurd (congrArg Prod.fst (Option.some.inj htag)) hid
      · exact ⟨hothers u hu, supersedes_congr hsame rfl ▸ hold⟩
    constructor
    · intro u hu hold
      obtain ⟨hu', hold'⟩ := horigin u hu hold
      exact h.leftover u hu' hold'
    · intro resource howner u hu hold
      obtain ⟨hu', hold'⟩ := horigin u hu hold
      refine h.untouched resource ?_ u hu' hold'
      rw [← hsame, ← howners]
      exact howner

/-- No task works for an assembly that is not stored. -/
theorem leaves_of_not_stored (hnumbered : WellNumbered c)
    (hnone : c.shared.store.tryGetAssembly id = none) :
    ∀ u ∈ c.tasks, u.leaves c.shared id = true := by
  intro u hu
  unfold AssemblyTask.leaves
  cases htag : u.tag with
  | none => rfl
  | some k =>
      have hstored := (hnumbered.tagged u hu k htag).2
      have hne : k.1 ≠ id := by
        intro heq
        rw [heq, hnone] at hstored
        cases hstored
      simp [hne]

theorem RunsIsolated.step (h : RunsIsolated id c) (hnumbered : WellNumbered c)
    (hok : isolatesRuns id c l = true) (hstep : Step (AssemblyTask.step r) c l c') :
    RunsIsolated id c' := by
  cases l with
  | call t =>
      cases hstep
      have hnone : c.shared.supersedes id t = false :=
        supersedes_of_tag_none (tag_of_isRequest hok)
      constructor
      · intro u hu hold
        rcases List.mem_cons.mp hu with rfl | hu
        · exact absurd (hnone.symm.trans hold) Bool.false_ne_true
        · exact h.leftover u hu hold
      · intro resource howner u hu hold
        rcases List.mem_cons.mp hu with rfl | hu
        · exact absurd (hnone.symm.trans hold) Bool.false_ne_true
        · exact h.untouched resource howner u hu hold
  | act t x =>
      cases htag : t.tag with
      | some k => exact h.tagged_step hnumbered htag hok hstep
      | none =>
          obtain ⟨ts, others, hpool, hact, htasks⟩ := hstep.act_inv
          have hothers : ∀ u ∈ others, u ∈ c.tasks :=
            fun u hu => hpool.mem_iff.mpr (List.mem_cons_of_mem t hu)
          have hc' : c' = ⟨c'.shared, ts ++ others⟩ := by rw [← htasks]
          rw [hc']
          rcases request_step hact htag with hasks | ⟨a, hshared, rfl, hnew⟩
          · exact h.asking_step hothers hasks
          · rw [hshared]
            refine h.starting_step hnumbered hothers fun hid => ?_
            rw [hid] at hnew
            rcases hnew with hrestarts | hnone
            · have hall := (Bool.and_eq_true_iff.mp hok).1
              rw [hrestarts] at hall
              simpa using hall
            · exact leaves_of_not_stored hnumbered hnone

/-- In every run that stores a new run of the assembly over leftovers only, and whose
bodies register only what no superseded run touches any more, the runs are isolated. -/
theorem runsIsolated_of_run {store : PanelStore}
    (hrun : Run (AssemblyTask.step r) (fun d k => isolatesRuns id d k = true)
      (initialConfig store) ls c) : WellNumbered c ∧ RunsIsolated id c := by
  refine hrun.invariant (I := fun d => WellNumbered d ∧ RunsIsolated id d) ?_ ?_
  · refine ⟨wellNumbered_initial store, ?_, ?_⟩
    · exact fun u hu => absurd hu List.not_mem_nil
    · exact fun _ _ u hu => absurd hu List.not_mem_nil
  · rintro d k d' ⟨hnumbered, hisolated⟩ hok hstep
    refine ⟨hnumbered.step ?_ hstep, hisolated.step hnumbered hok hstep⟩
    cases k with
    | call t => exact hok
    | act t x => rfl

/-- Rebuilds are isolated where only leftovers remain: no task of a superseded run
changes the assembly, the resources or the stream of the run that is the last. -/
theorem rebuild_isolated {store : PanelStore}
    (hrun : Run (AssemblyTask.step r) (fun d k => isolatesRuns id d k = true)
      (initialConfig store) ls c)
    (hold : c.shared.supersedes id t = true)
    (hstep : Step (AssemblyTask.step r) c (.act t x) c') :
    KeepsLastRun id c.shared c'.shared := by
  obtain ⟨-, hisolated⟩ := runsIsolated_of_run hrun
  have ht := hstep.mem_tasks
  have hleft := hisolated.leftover t ht hold
  obtain ⟨run, htag, -⟩ := supersedes_iff.mp hold
  obtain ⟨ts, others, -, hact, -⟩ := hstep.act_inv
  have huntouched : ∀ resource,
      c.shared.builds.owner resource id = some (c.shared.builds.latest id) →
      t.touches resource = false :=
    fun resource howner => hisolated.untouched resource howner t ht hold
  refine ⟨?_, ?_, ?_⟩
  · unfold PanelStore.tryGetAssembly
    rw [assemblies_of_leftover hact hleft]
  · intro resource howner
    rw [owner_of_leftover hact hleft (huntouched resource howner)]
    exact howner
  · have hnot : ∀ resource, t.touches resource = true → ∀ i, t.tag.map Prod.fst = some i →
        c.shared.builds.owner resource i ≠ some (c.shared.builds.latest id) := by
      intro resource htouches i hi howner
      rw [htag] at hi
      rw [← Option.some.inj hi] at howner
      exact absurd (huntouched resource howner) (by simp [htouches])
    exact live_of_leftover hact hleft (hnot .subscription) (hnot .disposable)

/-! ## A rebuild of a finished and of a running assembly -/

open SampleBuild

/-- Build an assembly to its end, rebuild it, and leave the last action of the old
run's destruction to be done when the new run has registered everything. -/
private def finishedMoves : List (Move AssemblyTask (Signal AssemblyEvent)) :=
  moves ++ .act 0 .complete :: List.replicate 9 (.act 0 (.go 0)) ++
    .call (.rebuildRead 1) :: List.replicate 14 (.act 0 (.go 0)) ++ [.act 1 (.go 0)]

/-- Build an assembly to its stream and rebuild it; an event of the old stream is
handled up to its put. -/
private def runningMoves : List (Move AssemblyTask (Signal AssemblyEvent)) :=
  moves ++ .call (.rebuildRead 1) :: List.replicate 3 (.act 0 (.go 0)) ++
    [.act 1 (.go 0), .act 0 (.go 0), .act 2 (.next lastEvent)] ++
    List.replicate 3 (.act 0 (.go 0))

private def stepSupersedes (c : BuildConfig) :
    Label AssemblyTask (Signal AssemblyEvent) → Bool
  | .act t _ => c.shared.supersedes 1 t
  | .call _ => false

private theorem stepSupersedes_inv (h : stepSupersedes c l = true) :
    ∃ t x, l = .act t x ∧ c.shared.supersedes 1 t = true := by
  cases l with
  | call t => cases h
  | act t x => exact ⟨t, x, rfl, h⟩

private def endsSuperseded (c : BuildConfig) : Bool :=
  (c.move (AssemblyTask.step rendering) (.act 1 (.go 0))).any fun e => stepSupersedes c e.1

/-- The end of the first run's destruction does not disturb the second run. -/
theorem rebuild_isolated_finished :
    ∃ ls c t x c', Run (AssemblyTask.step rendering) (fun d k => isolatesRuns 1 d k = true)
        (initialConfig .empty) ls c ∧
      Step (AssemblyTask.step rendering) c (.act t x) c' ∧
      KeepsLastRun 1 c.shared c'.shared := by
  obtain ⟨ls, c, hrun, hc⟩ := exists_run_of_exec (AssemblyTask.step rendering)
    (isolatesRuns 1) (initialConfig .empty) finishedMoves (fun _ => endsSuperseded)
    (by decide)
  obtain ⟨l, c', hstep, hl⟩ := exists_step_of_move _ (fun l _ => stepSupersedes c l) hc
  obtain ⟨t, x, rfl, hold⟩ := stepSupersedes_inv hl
  exact ⟨ls, c, t, x, c', hrun, hstep, rebuild_isolated hrun hold hstep⟩

/-- No task of a superseded run disturbs the last run of its assembly. -/
def RebuildsAreIsolated (r : Rendering) : Prop :=
  ∀ store ls c id t x c',
    Run (AssemblyTask.step r) (fun _ k => requestsOnly k = true) (initialConfig store) ls c →
    c.shared.supersedes id t = true →
    Step (AssemblyTask.step r) c (.act t x) c' →
    KeepsLastRun id c.shared c'.shared

private def stateOf (c : BuildConfig) : Option AssemblyState :=
  (c.shared.store.tryGetAssembly 1).map Assembly.state

private def disturbs (c : BuildConfig) : Bool :=
  (c.move (AssemblyTask.step rendering) (.act 0 (.go 0))).any fun e =>
    stepSupersedes c e.1 && stateOf e.2 != stateOf c

/-- A rebuild of a running assembly: the old stream is still alive when the new run is
stored, and its next event puts the old run's snapshot. -/
theorem rebuild_disturbed : ¬ ∀ r, RebuildsAreIsolated r := by
  intro h
  obtain ⟨ls, c, hrun, hc⟩ := exists_run_of_exec (AssemblyTask.step rendering)
    (fun _ => requestsOnly) (initialConfig .empty) runningMoves (fun _ => disturbs)
    (by decide)
  obtain ⟨l, c', hstep, hl⟩ := exists_step_of_move _
    (fun l d => stepSupersedes c l && stateOf d != stateOf c) hc
  obtain ⟨hold, hchanged⟩ := Bool.and_eq_true_iff.mp hl
  obtain ⟨t, x, rfl, hold⟩ := stepSupersedes_inv hold
  have hkeeps := h rendering _ ls c 1 t x c' hrun hold hstep
  have hsame : stateOf c' = stateOf c := congrArg (Option.map Assembly.state) hkeeps.assembly
  exact absurd hsame (bne_iff_ne.mp hchanged)

end ArtPlatform
