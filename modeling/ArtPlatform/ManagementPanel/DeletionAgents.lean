import ArtPlatform.ManagementPanel.ProjectDeletion

/-!
# The agents of a deleted project

Which agents are stopped when a project is deleted.  An agent is going to be stopped as
long as some task will still do it: the thread, when it has the assembly before it and
finds it on a resource, or the destruction that a cancellation has started.  There is at
most one such task, and when it fails, the agent is lost.

Main results:

- Theorem `stopping_of_step`: what a step does to the tasks that will stop an agent.
- Theorem `deletion_clean_iff`: exactly when a finished deletion leaves nothing behind.
- Theorem `deletion_leaves_agent`: a destruction that begins after the project is gone.
-/

namespace ArtPlatform

open Interleaving

variable {r : Rendering} {t u : DeletionTask} {x : Signal AssemblyEvent}
  {s s' : DeletionState} {ts : List DeletionTask} {projectId k id now : Nat}
  {db₀ db : PanelDatabase} {a : Assembly} {as ms : List Nat}
  {c c' : DeletionConfig} {l : Label DeletionTask (Signal AssemblyEvent)}
  {ls : List (Label DeletionTask (Signal AssemblyEvent))}

/-! ## Tasks that will stop an agent -/

def PanelDatabase.storedOnResource (db : PanelDatabase) (k : Nat) : Bool :=
  (db.panel.tryGetAssembly k).any fun a => a.state.onResource

/-- An assembly of the project that a cancellation would find on a resource. -/
def PanelDatabase.projectOnResource (db : PanelDatabase) (projectId k : Nat) : Bool :=
  (db.panel.tryGetAssembly k).any fun a => a.projectId = projectId && a.state.onResource

/-- The rest of the task stops the agent of the assembly, unless it fails. -/
def DeletionTask.stops (db : PanelDatabase) (k : Nat) : DeletionTask → Bool
  | .readModules projectId => db.projectOnResource projectId k
  | .deleteModules projectId _ => db.projectOnResource projectId k
  | .readAssemblies projectId => db.projectOnResource projectId k
  | .cancelAssembly _ ids => k ∈ ids && db.storedOnResource k
  | .putCanceled _ currentAssembly ids =>
      currentAssembly.id = k && currentAssembly.state.onResource ||
        k ∈ ids && db.storedOnResource k
  | .deleteAssembly _ _ ids => k ∈ ids && db.storedOnResource k
  | .deleteProject _ => false
  | .asynchronous newAssembly t => newAssembly.id = k && t.touches .pod

def stopping (k : Nat) (c : DeletionConfig) : Nat :=
  c.tasks.countP (DeletionTask.stops c.shared.database k)

def Signal.isFail {ε : Type} : Signal ε → Bool
  | .fail _ => true
  | _ => false

/-- The destruction whose failure is a step. -/
def failing (c : DeletionConfig) : Label DeletionTask (Signal AssemblyEvent) → Option Nat
  | .act (.asynchronous newAssembly t) x =>
      if (c.shared.signal newAssembly t x).isFail then some newAssembly.id else none
  | _ => none

/-- Nothing but the deletion and its destructions acts, and no destruction fails whose
assembly has an agent. -/
def stopsAgents (c : DeletionConfig) (l : Label DeletionTask (Signal AssemblyEvent)) : Bool :=
  actsOnly c l && (failing c l).all fun k => (c.shared.builds.pods k).isNone

/-! ## The thread -/

theorem Sweeps.projectOnResource (h : Sweeps projectId db₀ db ms as) :
    db.projectOnResource projectId k = (k ∈ as && db.storedOnResource k) := by
  have hleft := h.assemblies.left k
  unfold PanelDatabase.projectOnResource PanelDatabase.storedOnResource
  cases hget : db.panel.tryGetAssembly k with
  | none => simp
  | some a =>
      have hmem : k ∈ as ↔ a.projectId = projectId := by
        rw [hleft]
        constructor
        · rintro ⟨a', hget', ha'⟩
          cases hget.symm.trans hget'
          exact of_decide_eq_true ha'
        · exact fun ha => ⟨a, hget, decide_eq_true ha⟩
      simp [hmem]

theorem storedOnResource_of_get (hget : db.panel.tryGetAssembly k = some a) :
    db.storedOnResource k = a.state.onResource := by
  rw [PanelDatabase.storedOnResource, hget]
  rfl

/-- An assembly on a resource is running. -/
theorem isRunning_of_onResource (h : a.state.onResource = true) : a.isRunning = true := by
  unfold Assembly.isRunning
  revert h
  cases a.state <;> simp [AssemblyState.onResource, AssemblyState.isRunning]

theorem builds_deletionStep : (deletionStep now s t).1.builds = s.builds := by
  fun_cases deletionStep now s t
  case case10 currentAssembly _ panel _ hput =>
      have hpanel : panel = s.panel.putAssembly (canceledAssembly currentAssembly now) :=
        (congrArg Prod.fst hput).symm
      rw [hpanel]
      rfl
  all_goals rfl

/-- Rows of other assemblies do not matter to the ids that are left. -/
theorem mem_and_storedOnResource_congr {db' : PanelDatabase} (hnot : id ∉ as)
    (h : ∀ j, j ≠ id → db'.panel.tryGetAssembly j = db.panel.tryGetAssembly j) :
    (decide (k ∈ as) && db'.storedOnResource k) = (decide (k ∈ as) && db.storedOnResource k) := by
  by_cases hmem : k ∈ as
  · have hne : k ≠ id := fun heq => hnot (heq ▸ hmem)
    rw [PanelDatabase.storedOnResource, PanelDatabase.storedOnResource, h k hne]
  · simp [hmem]

theorem countP_stops_singleton {b : Bool} (h : u.stops db k = b) :
    [u].countP (DeletionTask.stops db k) = if b then 1 else 0 := by
  rw [List.countP_singleton, h]

theorem countP_stops_asynchronous (newAssembly : Assembly) (us : List AssemblyTask) :
    (us.map (.asynchronous newAssembly)).countP (DeletionTask.stops db k) =
      if newAssembly.id = k then us.countP fun v => v.touches .pod else 0 := by
  rw [List.countP_map]
  by_cases h : newAssembly.id = k
  · rw [if_pos h]
    exact List.countP_congr fun v _ => by simp [DeletionTask.stops, h]
  · rw [if_neg h]
    exact List.countP_eq_zero.mpr fun v _ => by simp [DeletionTask.stops, h]

/-- The next assembly is put as cancelled when it is running; one on a resource is. -/
theorem stops_cancelAssembly (now : Nat) (h : Sweeps projectId db₀ s.database [] (id :: as)) :
    (deletionStep now s (.cancelAssembly projectId (id :: as))).2.countP
        (DeletionTask.stops
          (deletionStep now s (.cancelAssembly projectId (id :: as))).1.database k) =
      if (DeletionTask.cancelAssembly projectId (id :: as)).stops s.database k then 1
      else 0 := by
  rcases h.getAssembly with ⟨a, hfound, hget, rfl, -⟩
  have hnot : a.id ∉ as := (List.nodup_cons.mp h.assemblies.nodup).1
  have hstored := storedOnResource_of_get hget
  by_cases hrunning : a.isRunning = true
  · simp only [deletionStep, hfound, if_pos hrunning]
    refine countP_stops_singleton ?_
    by_cases hk : a.id = k
    · subst hk
      simp [DeletionTask.stops, hnot, hstored]
    · simp [DeletionTask.stops, hk, Ne.symm hk]
  · have hoff : a.state.onResource = false := by
      rw [← Bool.not_eq_true]
      exact fun hon => hrunning (isRunning_of_onResource hon)
    simp only [deletionStep, hfound, if_neg hrunning]
    refine countP_stops_singleton ?_
    by_cases hk : a.id = k
    · subst hk
      simp [DeletionTask.stops, hnot, hstored, hoff]
    · simp [DeletionTask.stops, Ne.symm hk]

/-- The destructions that a cancellation starts stop the agent of an assembly that was on
a resource. -/
theorem countP_started (a : Assembly) (now : Nat) (panel : PanelState) :
    ((cancelPutStep a none now panel).2.map
        (DeletionTask.asynchronous (canceledAssembly a now))).countP
        (DeletionTask.stops db k) =
      if a.id = k ∧ a.state.onResource = true then 1 else 0 := by
  rw [countP_stops_asynchronous, started_cancelPutStep]
  change (if a.id = k then _ else 0) = _
  by_cases hk : a.id = k
  · by_cases hon : a.state.onResource = true
    · rw [if_pos hk, if_pos hon, if_pos ⟨hk, hon⟩]
      rfl
    · rw [if_pos hk, if_neg hon, if_neg fun h => hon h.2]
      rfl
  · rw [if_neg hk, if_neg fun h => hk h.1]

theorem stops_putCanceled (now : Nat)
    (h : Sweeps projectId db₀ s.database [] (a.id :: as)) :
    (deletionStep now s (.putCanceled projectId a as)).2.countP
        (DeletionTask.stops (deletionStep now s (.putCanceled projectId a as)).1.database k) =
      if (DeletionTask.putCanceled projectId a as).stops s.database k then 1 else 0 := by
  have hnot : a.id ∉ as := (List.nodup_cons.mp h.assemblies.nodup).1
  have hdelete : (DeletionTask.deleteAssembly projectId a.id as).stops
      (deletionStep now s (.putCanceled projectId a as)).1.database k =
        (decide (k ∈ as) && s.database.storedOnResource k) :=
    mem_and_storedOnResource_congr hnot fun j hj =>
      Space.get_put_of_ne s.database.panel.assemblies (canceledAssembly a now) hj
  have hstep : (deletionStep now s (.putCanceled projectId a as)).2 =
      .deleteAssembly projectId a.id as :: (cancelPutStep a none now s.panel).2.map
        (DeletionTask.asynchronous (canceledAssembly a now)) := rfl
  rw [hstep, List.countP_cons, countP_started, hdelete]
  by_cases hk : a.id = k
  · subst hk
    simp [DeletionTask.stops, hnot]
  · simp [DeletionTask.stops, hk]

/-- The thread hands the agents that it stops on to its next position and to the
destructions that it starts. -/
theorem stops_deletionStep (now : Nat) (h : Progress projectId db₀ s.database [t]) :
    (deletionStep now s t).2.countP
        (DeletionTask.stops (deletionStep now s t).1.database k) =
      if t.stops s.database k then 1 else 0 := by
  cases h with
  | readModules h => exact countP_stops_singleton rfl
  | @deleteModules ms as h =>
      cases ms with
      | nil => exact countP_stops_singleton rfl
      | cons id ms =>
          simp only [deletionStep, h.deleteModule.1]
          exact countP_stops_singleton rfl
  | readAssemblies h =>
      exact countP_stops_singleton h.selectAssemblies.projectOnResource.symm
  | @cancelAssembly as h =>
      cases as with
      | nil => exact countP_stops_singleton (by simp [DeletionTask.stops])
      | cons id as => exact stops_cancelAssembly now h
  | putCanceled h _ => exact stops_putCanceled now h
  | @deleteAssembly id as h =>
      have hnot : id ∉ as := (List.nodup_cons.mp h.assemblies.nodup).1
      simp only [deletionStep, h.deleteAssembly.1]
      refine countP_stops_singleton ?_
      exact mem_and_storedOnResource_congr hnot fun j hj =>
        Space.get_delete_of_ne s.database.panel.assemblies hj
  | deleteProject h =>
      cases hstore : s.database.panel.deleteProject projectId with
      | error e =>
          simp only [deletionStep, hstore]
          rfl
      | ok store =>
          simp only [deletionStep, hstore]
          rfl

/-! ## The destructions -/

theorem pods_silence (reg : Registry) (stream : Option Nat) :
    (reg.silence stream).pods = reg.pods := by
  cases stream <;> rfl

/-- A destruction goes on to stop the agent, or it stops it, or it fails. -/
inductive DestroyOutcome (id : Nat) (pods pods' : Nat → Option Nat) (isFail before : Bool)
    (after : Nat) : Prop
  | goes (hpods : pods' = pods) (hfail : isFail = false)
      (hafter : after = if before then 1 else 0)
  | stops (hpods : pods' = Function.update pods id none) (hfail : isFail = false)
      (hbefore : before = true) (hafter : after = 0)
  | fails (hpods : pods' = pods) (hfail : isFail = true) (hbefore : before = true)
      (hafter : after = 0)

theorem outcome_destroyStep {run : Nat} {p : DestroyPosition} {panel panel' : PanelState}
    {us : List AssemblyTask} (h : destroyStep id run p x panel = some (panel', us)) :
    DestroyOutcome id panel.builds.pods panel'.builds.pods x.isFail (p.touches .pod)
      (us.countP fun v => v.touches .pod) := by
  revert h
  fun_cases destroyStep id run p x panel <;> intro h <;>
    simp only [Option.some.injEq, Prod.mk.injEq, reduceCtorEq] at h <;>
    rcases h with ⟨rfl, rfl⟩
  case case2 => exact .fails rfl rfl rfl rfl
  case case5 => exact .stops rfl rfl rfl rfl
  case case6 => exact .fails rfl rfl rfl rfl
  all_goals first
    | exact .goes rfl rfl rfl
    | exact .goes (pods_silence _ _) rfl rfl

/-! ## A step -/

/-- A step keeps the number of the tasks that will stop an agent, or one of them is over:
it has stopped the agent, or it has failed. -/
inductive StopOutcome (k : Nat) (c c' : DeletionConfig)
    (l : Label DeletionTask (Signal AssemblyEvent)) : Prop
  | same (hcount : stopping k c' = stopping k c)
      (hpods : c'.shared.builds.pods k = c.shared.builds.pods k) (hfails : failing c l ≠ some k)
  | stopped (hcount : stopping k c' + 1 = stopping k c)
      (hpods : c'.shared.builds.pods k = none) (hfails : failing c l ≠ some k)
  | failed (hcount : stopping k c' + 1 = stopping k c)
      (hpods : c'.shared.builds.pods k = c.shared.builds.pods k) (hfails : failing c l = some k)

theorem failing_of_isThread (ht : t.isThread = true) : failing c (.act t x) = none := by
  cases t
  case asynchronous => cases ht
  all_goals rfl

/-- The other tasks count as before: a step of the thread leaves only destructions, and
those do not look at the database. -/
theorem stops_congr (h : u.isThread = false ∨ db = db₀) : u.stops db k = u.stops db₀ k := by
  rcases h with hu | rfl
  · cases u
    case asynchronous => rfl
    all_goals cases hu
  · rfl

theorem stopping_of_thread (h : Deleting projectId db₀ c) (ht : t.isThread = true)
    (hstep : Step (DeletionTask.step r) c (.act t x) c') (k : Nat) :
    StopOutcome k c c' (.act t x) := by
  have hmem : t ∈ c.tasks.filter DeletionTask.isThread :=
    List.mem_filter.mpr ⟨hstep.mem_tasks, ht⟩
  have hone := h.progress.eq_singleton hmem
  have hprogress := h.progress
  rw [hone] at hprogress
  have hothers : ∀ others, c.tasks.Perm (t :: others) → ∀ u ∈ others,
      u.stops c'.shared.database k = u.stops c.shared.database k := by
    intro others hpool u hu
    have hfilter := hpool.filter DeletionTask.isThread
    rw [hone, List.filter_cons_of_pos ht] at hfilter
    have hnone := (List.cons.inj (List.singleton_perm.mp hfilter)).2
    refine stops_congr (.inl ?_)
    simpa using List.filter_eq_nil_iff.mp hnone.symm u hu
  rcases hstep.countP_tasks hothers with ⟨ts, hact, hcount⟩
  rcases threadStep_inv ht hact with ⟨now, heq⟩
  have hshared : c'.shared = (deletionStep now c.shared t).1 := congrArg Prod.fst heq
  have hts : ts = (deletionStep now c.shared t).2 := congrArg Prod.snd heq
  have hstops := stops_deletionStep (k := k) now hprogress
  rw [← hshared, ← hts] at hstops
  rw [hstops] at hcount
  refine .same ?_ ?_ ?_
  · unfold stopping
    omega
  · rw [hshared, builds_deletionStep]
  · rw [failing_of_isThread ht]
    exact nofun

theorem stopping_of_destruction {run : Nat} {p : DestroyPosition}
    (hstep : Step (DeletionTask.step r) c (.act (.asynchronous a (.destroy a.id run p)) x) c')
    (k : Nat) : StopOutcome k c c' (.act (.asynchronous a (.destroy a.id run p)) x) := by
  obtain ⟨ts, -, -, hact, -⟩ := hstep.act_inv
  rcases asynchronous_inv hact with ⟨panel, us, hdestroy, hshared, -⟩
  have hdatabase : c'.shared.database = c.shared.database := by
    rw [hshared]
  have hothers : ∀ others, c.tasks.Perm (.asynchronous a (.destroy a.id run p) :: others) →
      ∀ u ∈ others, u.stops c'.shared.database k = u.stops c.shared.database k :=
    fun _ _ _ _ => stops_congr (.inr hdatabase)
  rcases hstep.countP_tasks hothers with ⟨ts', hact', hcount⟩
  rcases asynchronous_inv hact' with ⟨panel', us', hdestroy', -, rfl⟩
  cases hdestroy.symm.trans hdestroy'
  have hpods : c'.shared.builds = panel.builds := by
    rw [hshared]
  have hbefore : (DeletionTask.asynchronous a (.destroy a.id run p)).stops c.shared.database k =
      (decide (a.id = k) && p.touches .pod) := rfl
  have hfailing : failing c (.act (.asynchronous a (.destroy a.id run p)) x) =
      if (c.shared.signal a (.destroy a.id run p) x).isFail then some a.id else none := rfl
  have houtcome := outcome_destroyStep hdestroy
  rw [countP_stops_asynchronous, hbefore] at hcount
  change stopping k c' + _ = _ + stopping k c at hcount
  rw [← hpods] at houtcome
  change DestroyOutcome a.id c.shared.builds.pods _ _ _ _ at houtcome
  by_cases hk : a.id = k
  · subst hk
    rw [if_pos rfl, decide_eq_true rfl, Bool.true_and] at hcount
    cases houtcome with
    | goes hsame hfail hafter =>
        rw [hafter] at hcount
        rw [hfail] at hfailing
        exact .same (by omega) (congrFun hsame a.id) (by rw [hfailing]; exact nofun)
    | stops hupdate hfail htouches hafter =>
        rw [htouches, if_pos rfl, hafter, Nat.zero_add] at hcount
        rw [hfail] at hfailing
        refine .stopped hcount ?_ (by rw [hfailing]; exact nofun)
        rw [hupdate, Function.update_self]
    | fails hsame hfail htouches hafter =>
        rw [htouches, if_pos rfl, hafter, Nat.zero_add] at hcount
        rw [hfail] at hfailing
        exact .failed hcount (congrFun hsame a.id) hfailing
  · have hne : failing c (.act (.asynchronous a (.destroy a.id run p)) x) ≠ some k := by
      rw [hfailing]
      split
      · exact fun heq => hk (Option.some.inj heq)
      · exact nofun
    rw [if_neg hk, decide_eq_false hk, Bool.false_and, Nat.zero_add] at hcount
    refine .same hcount ?_ hne
    cases houtcome with
    | goes hsame => rw [hsame]
    | stops hupdate => rw [hupdate, Function.update_of_ne (Ne.symm hk)]
    | fails hsame => rw [hsame]

theorem stopping_of_step (h : Deleting projectId db₀ c) (hok : actsOnly c l = true)
    (hstep : Step (DeletionTask.step r) c l c') (k : Nat) : StopOutcome k c c' l := by
  cases l with
  | call t => cases hok
  | act t x =>
      by_cases ht : t.isThread = true
      · exact stopping_of_thread h ht hstep k
      · rcases (h.destructions t hstep.mem_tasks).eq_destroy ht with ⟨a, run, p, rfl⟩
        exact stopping_of_destruction hstep k

/-! ## Runs -/

/-- The assembly has an agent and nothing will stop it. -/
def Lost (k : Nat) (c : DeletionConfig) : Prop :=
  c.shared.builds.pods k ≠ none ∧ stopping k c = 0

theorem Lost.of_step (hlost : Lost k c) (h : Deleting projectId db₀ c)
    (hok : actsOnly c l = true) (hstep : Step (DeletionTask.step r) c l c') : Lost k c' := by
  rcases hlost with ⟨hpod, hzero⟩
  cases stopping_of_step h hok hstep k with
  | same hcount hpods _ =>
      rw [Lost, hcount, hpods]
      exact ⟨hpod, hzero⟩
  | stopped hcount => omega
  | failed hcount => omega

/-- When a destruction fails whose assembly has an agent, the agent is lost. -/
theorem lost_of_step (h : Deleting projectId db₀ c) (hle : ∀ k, stopping k c ≤ 1)
    (hok : actsOnly c l = true) (hnot : ¬ stopsAgents c l = true)
    (hstep : Step (DeletionTask.step r) c l c') : ∃ k, Lost k c' ∧ stopping k c = 1 := by
  rw [stopsAgents, hok, Bool.true_and] at hnot
  cases hfailing : failing c l with
  | none =>
      rw [hfailing] at hnot
      exact absurd rfl hnot
  | some k =>
      rw [hfailing, Option.all_some, Option.isNone_iff_eq_none] at hnot
      have hone := hle k
      refine ⟨k, ?_⟩
      cases stopping_of_step h hok hstep k with
      | same _ _ hfails => exact absurd hfailing hfails
      | stopped _ _ hfails => exact absurd hfailing hfails
      | failed hcount hpods _ =>
          refine ⟨⟨?_, by omega⟩, by omega⟩
          rw [hpods]
          exact hnot

/-- No step adds a task that will stop an agent, or an agent. -/
structure NoMore (c₀ c : DeletionConfig) : Prop where
  stopping : ∀ k, stopping k c ≤ stopping k c₀
  pods : ∀ k, c.shared.builds.pods k = none ∨
    c.shared.builds.pods k = c₀.shared.builds.pods k

theorem NoMore.of_step {c₀ : DeletionConfig} (hmore : NoMore c₀ c)
    (h : Deleting projectId db₀ c) (hok : actsOnly c l = true)
    (hstep : Step (DeletionTask.step r) c l c') : NoMore c₀ c' := by
  constructor
  · intro k
    have hle := hmore.stopping k
    cases stopping_of_step h hok hstep k with
    | same hcount => omega
    | stopped hcount => omega
    | failed hcount => omega
  · intro k
    cases stopping_of_step h hok hstep k with
    | same _ hpods =>
        rw [hpods]
        exact hmore.pods k
    | stopped _ hpods => exact .inl hpods
    | failed _ hpods =>
        rw [hpods]
        exact hmore.pods k

section Runs

variable {c₀ : DeletionConfig} (h₀ : Deleting projectId db₀ c₀)
include h₀

theorem invariant_of_run
    (hrun : Run (DeletionTask.step r) (fun d k => actsOnly d k = true) c₀ ls c) :
    Deleting projectId db₀ c ∧ NoMore c₀ c := by
  refine hrun.invariant (I := fun d => Deleting projectId db₀ d ∧ NoMore c₀ d)
    ⟨h₀, fun _ => Nat.le_refl _, fun _ => .inr rfl⟩ ?_
  rintro d l d' ⟨h, hmore⟩ hok hstep
  exact ⟨h.of_step hok hstep, hmore.of_step h hok hstep⟩

theorem Lost.of_run (hlost : Lost k c₀)
    (hrun : Run (DeletionTask.step r) (fun d k => actsOnly d k = true) c₀ ls c) :
    Lost k c := by
  have hboth : Deleting projectId db₀ c ∧ Lost k c := by
    refine hrun.invariant (I := fun d => Deleting projectId db₀ d ∧ Lost k d)
      ⟨h₀, hlost⟩ ?_
    rintro d l d' ⟨h, hlost⟩ hok hstep
    exact ⟨h.of_step hok hstep, hlost.of_step h hok hstep⟩
  exact hboth.2

/-- A run in which a destruction fails that must not has lost an agent. -/
theorem stopsAgents_or_lost (hle : ∀ k, stopping k c₀ ≤ 1)
    (hrun : Run (DeletionTask.step r) (fun d k => actsOnly d k = true) c₀ ls c) :
    Run (DeletionTask.step r) (fun d k => stopsAgents d k = true) c₀ ls c ∨
      ∃ k, Lost k c ∧ stopping k c₀ = 1 := by
  induction hrun with
  | refl => exact .inl (.refl _)
  | @tail c c' ls l hrun hstep hok ih =>
      rcases invariant_of_run h₀ hrun with ⟨h, hmore⟩
      rcases ih with hguarded | ⟨k, hlost, hk⟩
      · by_cases hstops : stopsAgents c l = true
        · exact .inl (.tail hguarded hstep hstops)
        · have hle' : ∀ k, stopping k c ≤ 1 := fun k =>
            Nat.le_trans (hmore.stopping k) (hle k)
          rcases lost_of_step h hle' hok hstops hstep with ⟨k, hlost, hk⟩
          have hfirst := hmore.stopping k
          have hone := hle k
          exact .inr ⟨k, hlost, by omega⟩
      · exact .inr ⟨k, hlost.of_step h hok hstep, hk⟩

/-- Without such a failure an agent is stopped, or a task is left that will stop it. -/
theorem stopped_or_stopping (hk : 0 < stopping k c₀)
    (hrun : Run (DeletionTask.step r) (fun d k => stopsAgents d k = true) c₀ ls c) :
    c.shared.builds.pods k = none ∨ 0 < stopping k c := by
  have hboth : Deleting projectId db₀ c ∧
      (c.shared.builds.pods k = none ∨ 0 < stopping k c) := by
    refine hrun.invariant (I := fun d => Deleting projectId db₀ d ∧
      (d.shared.builds.pods k = none ∨ 0 < stopping k d)) ⟨h₀, .inr hk⟩ ?_
    rintro d l d' ⟨h, hor⟩ hstops hstep
    rw [stopsAgents, Bool.and_eq_true] at hstops
    refine ⟨h.of_step hstops.1 hstep, ?_⟩
    cases stopping_of_step h hstops.1 hstep k with
    | same hcount hpods _ =>
        rw [hcount, hpods]
        exact hor
    | stopped _ hpods _ => exact .inl hpods
    | failed _ hpods hfails =>
        have hnone := hstops.2
        rw [hfails, Option.all_some, Option.isNone_iff_eq_none] at hnone
        exact .inl (hpods.trans hnone)
  exact hboth.2

end Runs

/-! ## Clean deletions -/

/-- Nothing refers to the project, the agents of its running assemblies are stopped, and
the rest is as it was. -/
structure DeletedCleanly (projectId : Nat) (s s' : DeletionState) : Prop where
  references : NoReferences s'.database projectId
  agents : ∀ a ∈ s.database.panel.assemblies.rows, a.projectId = projectId →
    a.isRunning = true → s'.builds.pods a.id = none
  others : OtherProjectsKept s.database s'.database projectId

/-- A running assembly of the project that has an agent is stored as on a resource. -/
def AgentsOnResource (s : DeletionState) (projectId : Nat) : Prop :=
  ∀ a ∈ s.database.panel.assemblies.rows, a.projectId = projectId → a.isRunning = true →
    s.builds.pods a.id ≠ none → a.state.onResource = true

theorem stopping_deletionConfig (s : DeletionState) (projectId k : Nat) :
    stopping k (deletionConfig s projectId) =
      if s.database.projectOnResource projectId k then 1 else 0 :=
  List.countP_singleton

theorem projectOnResource_of_mem (hmem : a ∈ db.panel.assemblies.rows)
    (hproject : a.projectId = projectId) :
    db.projectOnResource projectId a.id = a.state.onResource := by
  have hget : db.panel.tryGetAssembly a.id = some a :=
    (db.panel.assemblies.mem_rows_iff a).mp hmem
  simp [PanelDatabase.projectOnResource, hget, hproject]

theorem exists_of_projectOnResource (h : db.projectOnResource projectId k = true) :
    ∃ a ∈ db.panel.assemblies.rows, a.id = k ∧ a.projectId = projectId ∧
      a.isRunning = true := by
  unfold PanelDatabase.projectOnResource at h
  cases hget : db.panel.tryGetAssembly k with
  | none =>
      rw [hget] at h
      cases h
  | some a =>
      rw [hget, Option.any_some, Bool.and_eq_true, decide_eq_true_eq] at h
      exact ⟨a, Space.mem_rows_of_get hget, Space.key_of_get hget, h.1,
        isRunning_of_onResource h.2⟩

/-- A finished deletion is clean exactly when nothing but modules and assemblies referred
to the project, its running assemblies with agents were stored as on a resource, and no
destruction of such an assembly has failed. -/
theorem deletion_clean_iff
    (hrun : Run (DeletionTask.step r) (fun d k => actsOnly d k = true)
      (deletionConfig s projectId) ls c) (hdone : c.tasks = []) :
    DeletedCleanly projectId s c.shared ↔
      Unlinked s.database projectId ∧ AgentsOnResource s projectId ∧
        Run (DeletionTask.step r) (fun d k => stopsAgents d k = true)
          (deletionConfig s projectId) ls c := by
  have h₀ := deleting_deletionConfig s projectId
  rcases invariant_of_run h₀ hrun with ⟨h, hmore⟩
  have hsweeps := h.sweeps_of_finished hdone
  have hzero : ∀ k, stopping k c = 0 := by
    intro k
    rw [stopping, hdone]
    rfl
  have hle : ∀ k, stopping k (deletionConfig s projectId) ≤ 1 := by
    intro k
    rw [stopping_deletionConfig]
    split <;> omega
  constructor
  · rintro ⟨hreferences, hagents, -⟩
    refine ⟨(references_of_finished hsweeps).mp hreferences, ?_, ?_⟩
    · intro a hmem hproject hrunning hpod
      by_contra hoff
      have hlost : Lost a.id (deletionConfig s projectId) := by
        refine ⟨hpod, ?_⟩
        rw [stopping_deletionConfig, projectOnResource_of_mem hmem hproject, if_neg hoff]
      exact (hlost.of_run h₀ hrun).1 (hagents a hmem hproject hrunning)
    · rcases stopsAgents_or_lost h₀ hle hrun with hguarded | ⟨k, hlost, hk⟩
      · exact hguarded
      · rw [stopping_deletionConfig] at hk
        have hon : s.database.projectOnResource projectId k = true := by
          by_contra hnot
          rw [if_neg hnot] at hk
          omega
        rcases exists_of_projectOnResource hon with ⟨a, hmem, rfl, hproject, hrunning⟩
        exact absurd (hagents a hmem hproject hrunning) hlost.1
  · rintro ⟨hunlinked, honResource, hguarded⟩
    refine ⟨(references_of_finished hsweeps).mpr hunlinked, ?_, hsweeps.otherProjectsKept⟩
    intro a hmem hproject hrunning
    by_cases hpod : s.builds.pods a.id = none
    · rcases hmore.pods a.id with hnone | hsame
      · exact hnone
      · exact hsame.trans hpod
    · have hon := honResource a hmem hproject hrunning hpod
      have hpositive : 0 < stopping a.id (deletionConfig s projectId) := by
        rw [stopping_deletionConfig, projectOnResource_of_mem hmem hproject, if_pos hon]
        omega
      rcases stopped_or_stopping h₀ hpositive hguarded with hnone | hleft
      · exact hnone
      · have hnothing := hzero a.id
        omega

/-! ## A project with one building assembly -/

namespace SampleDeletion

def rendering : Rendering where
  instant := fun _ => ""
  errorColor := fun record => record
  stackTrace := fun message => message

def cluster : ResourceIdentifier :=
  ⟨7, "cluster", .openShift⟩

def project : Project where
  id := 1
  name := "shop"
  gitResourceId := ⟨8, "git", .git⟩
  initializationResourceId := cluster
  openShiftConfiguration := none
  notificationsConfiguration := none
  externalId := ⟨"shop", cluster⟩
  creationTimeStamp := 0

def assembly : Assembly where
  id := 5
  projectId := 1
  technology := "gradle"
  version := ⟨"master", "master"⟩
  resourceId := cluster
  logId := 9
  startTimeStamp := 0
  state := .building

def resource : OpenShiftResource :=
  ⟨7, "cluster", "https://api", "apps", "registry", "user", "password"⟩

/-- The project, its assembly, and the agent of the assembly. -/
def state : DeletionState where
  database :=
    { PanelDatabase.empty with
      panel := (PanelStore.empty.putProject project).putAssembly assembly
      openShiftResources := Space.empty.put resource }
  builds := Registry.createPod {} 5 0

theorem state_assemblies : state.database.panel.assemblies.rows = [assembly] :=
  rfl

def actFirst : Move DeletionTask (Signal AssemblyEvent) :=
  .act 0 (.go 0)

/-- The thread reads and cancels the assembly. -/
def cancellation : List (Move DeletionTask (Signal AssemblyEvent)) :=
  List.replicate 5 actFirst

/-- The destruction has ended before the assembly and the project are deleted. -/
def destructionFirst : List (Move DeletionTask (Signal AssemblyEvent)) :=
  cancellation ++ .act 1 (.go 0) :: List.replicate 7 actFirst ++ List.replicate 3 actFirst

/-- The destruction begins when the project is gone. -/
def deletionFirst : List (Move DeletionTask (Signal AssemblyEvent)) :=
  cancellation ++ List.replicate 3 actFirst ++ [actFirst]

end SampleDeletion

open SampleDeletion in
theorem deletion_clean_iff_patient :
    ∃ ls c, Run (DeletionTask.step rendering) (fun d k => actsOnly d k = true)
      (deletionConfig state 1) ls c ∧ c.tasks = [] ∧ DeletedCleanly 1 state c.shared := by
  obtain ⟨ls, c, hrun, hend⟩ := exists_run_of_exec (DeletionTask.step rendering) stopsAgents
    (deletionConfig state 1) destructionFirst (fun _ d => d.tasks.isEmpty) (by decide +kernel)
  have hdone : c.tasks = [] := List.isEmpty_iff.mp hend
  have hacts : Run (DeletionTask.step rendering) (fun d k => actsOnly d k = true)
      (deletionConfig state 1) ls c :=
    hrun.mono fun _ _ hok => (Bool.and_eq_true_iff.mp hok).1
  refine ⟨ls, c, hacts, hdone, (deletion_clean_iff hacts hdone).mpr ⟨?_, ?_, hrun⟩⟩
  · exact ⟨by decide, by decide, by decide, by decide, by decide⟩
  · intro a hmem _ _ _
    rw [state_assemblies] at hmem
    rw [List.mem_singleton.mp hmem]
    rfl

/-- Every finished deletion is clean. -/
def DeletionsAreClean : Prop :=
  ∀ (r : Rendering) (projectId : Nat) (s : DeletionState)
    (ls : List (Label DeletionTask (Signal AssemblyEvent))) (c : DeletionConfig),
    Run (DeletionTask.step r) (fun d k => actsOnly d k = true) (deletionConfig s projectId) ls c →
      c.tasks = [] → DeletedCleanly projectId s c.shared

open SampleDeletion in
/-- The project is deleted before the destruction of its assembly's agent looks it up, and
the agent stays. -/
theorem deletion_leaves_agent : ¬ DeletionsAreClean := by
  intro h
  obtain ⟨ls, c, hrun, hend⟩ := exists_run_of_exec (DeletionTask.step rendering) actsOnly
    (deletionConfig state 1) deletionFirst
    (fun _ d => d.tasks.isEmpty && (d.shared.builds.pods 5).isSome) (by decide +kernel)
  rw [Bool.and_eq_true] at hend
  have hclean := h rendering 1 state ls c hrun (List.isEmpty_iff.mp hend.1)
  have hmem : assembly ∈ state.database.panel.assemblies.rows := by
    rw [state_assemblies]
    exact List.mem_singleton_self assembly
  have hnone : c.shared.builds.pods 5 = none := hclean.agents assembly hmem rfl rfl
  rw [hnone] at hend
  exact Bool.false_ne_true hend.2

end ArtPlatform
