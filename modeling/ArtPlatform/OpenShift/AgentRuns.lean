import ArtPlatform.OpenShift.AgentManager

/-!
# Agents over whole runs

Any number of starts and stops of any agents, with the cluster in between.  A start may
leave an old pod behind a new service, when it gives up the wait for the end of the pod;
but that pod is on its way out.

Main results:

- Theorem `Keeps.step`: what every step keeps of the cluster and of the start under way.
- Theorem `live_agent_served`: a pod that is not terminating is selected by the service of
  its name, which has its ports.
- Theorem `live_agent_listens`: the pod listens on the ports of the service.
- Theorem `reusable_agent_stays`: a reusable agent keeps its ports until it is stopped.
-/

namespace ArtPlatform.Agents

open Interleaving

variable {s s' : Cluster} {r : AgentRequest} {key other : AgentKey} {phase : StartPhase}
  {outcome : Outcome} {t : AgentTask} {x : Input} {ts : List AgentTask} {m m' : ManagerState}
  {c c' : Config ManagerState AgentTask} {l : Label AgentTask Input}
  {ls ls' : List (Label AgentTask Input)}

/-! ## What the cluster keeps -/

structure Cluster.Sound (s : Cluster) : Prop where
  served : ∀ key service pod, s.services key = some service → s.pods key = some pod →
    pod.terminating = false → service.Serves pod
  projects : ∀ key, (s.pods key).isSome → key.projectName ∈ s.projects

/-- There is no pod, or it is on its way out. -/
def Cluster.Podless (s : Cluster) (key : AgentKey) : Prop :=
  ∀ pod, s.pods key = some pod → pod.terminating = true

/-- The project of the agent is known to exist. -/
def StartPhase.inProject : StartPhase → Bool
  | .getProject => false
  | .createProject => false
  | _ => true

/-- The old pod has been dealt with, and the new one is not created. -/
def StartPhase.betweenPods : StartPhase → Bool
  | .awaitDeleted => true
  | .findPorts => true
  | .createAgent _ _ => true
  | .serve _ _ => true
  | .deletePublic _ _ => true
  | .createPublic _ _ => true
  | .createService _ => true
  | _ => false

/-- The pod that is going to be created. -/
def StartPhase.newPod : StartPhase → Option Pod
  | .serve _ pod => some pod
  | .deletePublic _ pod => some pod
  | .createPublic _ pod => some pod
  | .createService pod => some pod
  | .createPod pod => some pod
  | _ => none

/-- What the next steps of a start rely on. -/
structure StartPhase.Fits (r : AgentRequest) (s : Cluster) (phase : StartPhase) : Prop where
  project : phase.inProject = true → r.key.projectName ∈ s.projects
  podless : phase.betweenPods = true → s.Podless r.key
  builds : ∀ pod, phase.newPod = some pod → r.Builds pod
  served : ∀ pod, phase = .createPod pod → ∀ service, s.services r.key = some service →
    service.Serves pod

/-- What is removed is not there any more; the rest is as before. -/
structure Fewer (s s' : Cluster) : Prop where
  projects : s'.projects = s.projects
  services : ∀ key service, s'.services key = some service → s.services key = some service
  pods : ∀ key pod, s'.pods key = some pod →
    ∃ before, s.pods key = some before ∧ (pod = before ∨ pod = { before with terminating := true })

theorem fewer_of_removes (h : Removes key s s') : Fewer s s' := by
  cases h with
  | same => exact ⟨rfl, fun _ _ h => h, fun _ pod h => ⟨pod, h, .inl rfl⟩⟩
  | terminatePod =>
      refine ⟨rfl, fun _ _ h => h, fun other pod h => ?_⟩
      simp only [Cluster.terminatePod, Function.update_apply] at h
      split at h
      · rename_i hother
        obtain ⟨before, hbefore, rfl⟩ := Option.map_eq_some_iff.mp h
        exact ⟨before, hother ▸ hbefore, .inr rfl⟩
      · exact ⟨pod, h, .inl rfl⟩
  | goPod =>
      refine ⟨rfl, fun _ _ h => h, fun other pod h => ?_⟩
      simp only [Cluster.goPod, Function.update_apply] at h
      split at h
      · cases h
      · exact ⟨pod, h, .inl rfl⟩
  | deleteService =>
      refine ⟨rfl, fun other service h => ?_, fun _ pod h => ⟨pod, h, .inl rfl⟩⟩
      simp only [Cluster.deleteService, Function.update_apply] at h
      split at h
      · cases h
      · exact h
  | deleteRoute => exact ⟨rfl, fun _ _ h => h, fun _ pod h => ⟨pod, h, .inl rfl⟩⟩

theorem Cluster.Sound.fewer (h : s.Sound) (hfewer : Fewer s s') : s'.Sound := by
  constructor
  · intro key service pod hservice hpod hlive
    obtain ⟨before, hbefore, hsame | hsame⟩ := hfewer.pods key pod hpod
    · subst hsame
      exact h.served key service pod (hfewer.services key service hservice) hbefore hlive
    · rw [hsame] at hlive
      cases hlive
  · intro key hpod
    obtain ⟨pod, hpod⟩ := Option.isSome_iff_exists.mp hpod
    obtain ⟨before, hbefore, -⟩ := hfewer.pods key pod hpod
    rw [hfewer.projects]
    exact h.projects key (Option.isSome_iff_exists.mpr ⟨before, hbefore⟩)

theorem Cluster.Podless.fewer (h : s.Podless key) (hfewer : Fewer s s') : s'.Podless key := by
  intro pod hpod
  obtain ⟨before, hbefore, hsame | hsame⟩ := hfewer.pods key pod hpod
  · exact hsame ▸ h before hbefore
  · rw [hsame]

theorem StartPhase.Fits.fewer (h : phase.Fits r s) (hfewer : Fewer s s') : phase.Fits r s' where
  project := fun hphase => hfewer.projects ▸ h.project hphase
  podless := fun hphase => (h.podless hphase).fewer hfewer
  builds := h.builds
  served := fun pod hphase service hservice =>
    h.served pod hphase service (hfewer.services _ service hservice)

/-! ## One step of a start -/

theorem fits_of_project (hproject : r.key.projectName ∈ s.projects)
    (hbetween : phase.betweenPods = false) (hpod : phase.newPod = none) : phase.Fits r s where
  project := fun _ => hproject
  podless := fun h => absurd (hbetween.symm.trans h) Bool.false_ne_true
  builds := fun pod h => absurd (hpod.symm.trans h) (by simp)
  served := fun pod h => by
    subst h
    cases hpod

theorem fits_of_podless (hproject : r.key.projectName ∈ s.projects) (hpodless : s.Podless r.key)
    (hpod : phase.newPod = none) : phase.Fits r s where
  project := fun _ => hproject
  podless := fun _ => hpodless
  builds := fun pod h => absurd (hpod.symm.trans h) (by simp)
  served := fun pod h => by
    subst h
    cases hpod

theorem fits_of_builds {pod : Pod} (hproject : r.key.projectName ∈ s.projects)
    (hpodless : s.Podless r.key) (hbuilds : r.Builds pod) (hpod : phase.newPod = some pod)
    (hbetween : phase.betweenPods = true) : phase.Fits r s where
  project := fun _ => hproject
  podless := fun _ => hpodless
  builds := fun pod' h => by
    rw [hpod, Option.some.injEq] at h
    exact h ▸ hbuilds
  served := fun pod' h => by
    subst h
    cases hbetween

theorem podless_of_none (h : s.pods key = none) : s.Podless key := by
  intro pod hpod
  rw [h] at hpod
  cases hpod

theorem Cluster.Sound.terminate (h : s.Sound) (key : AgentKey) : (s.terminatePod key).Sound :=
  h.fewer (fewer_of_removes .terminatePod)

theorem podless_terminatePod (s : Cluster) (key : AgentKey) :
    (s.terminatePod key).Podless key := by
  intro pod hpod
  simp only [Cluster.terminatePod, Function.update_self] at hpod
  obtain ⟨before, -, rfl⟩ := Option.map_eq_some_iff.mp hpod
  rfl

/-- A step of a start keeps the cluster sound, and leaves what the next step relies on. -/
theorem fits_of_performs {next : StartPhase} (hsound : s.Sound) (hfits : phase.Fits r s)
    (h : Performs r s phase s' (.continues next)) : s'.Sound ∧ next.Fits r s' := by
  cases h with
  | project hproject => exact ⟨hsound, fits_of_project hproject rfl rfl⟩
  | noProject _ =>
      refine ⟨hsound, ?_⟩
      exact
        { project := fun h => by cases h
          podless := fun h => by cases h
          builds := fun _ h => by cases h
          served := fun _ h => by cases h }
  | createProject hnew =>
      have hnone : s.pods r.key = none := by
        by_contra hpod
        exact hnew (hsound.projects r.key (Option.isSome_iff_ne_none.mpr hpod))
      refine ⟨⟨hsound.served, fun key hpod => ?_⟩, ?_⟩
      · exact List.mem_cons_of_mem _ (hsound.projects key hpod)
      · exact fits_of_podless List.mem_cons_self (podless_of_none hnone) rfl
  | reuse _ _ => exact ⟨hsound, fits_of_project (hfits.project rfl) rfl rfl⟩
  | replace _ _ => exact ⟨hsound, fits_of_project (hfits.project rfl) rfl rfl⟩
  | noService _ => exact ⟨hsound, fits_of_project (hfits.project rfl) rfl rfl⟩
  | deleteRoute =>
      exact ⟨hsound.fewer (fewer_of_removes .deleteRoute),
        fits_of_project (hfits.project rfl) rfl rfl⟩
  | deleteService =>
      exact ⟨hsound.fewer (fewer_of_removes .deleteService),
        fits_of_project (hfits.project rfl) rfl rfl⟩
  | noPod hnone =>
      exact ⟨hsound, fits_of_podless (hfits.project rfl) (podless_of_none hnone) rfl⟩
  | deletePod _ =>
      exact ⟨hsound.terminate r.key,
        fits_of_podless (hfits.project rfl) (podless_terminatePod s r.key) rfl⟩
  | awaited => exact ⟨hsound, fits_of_podless (hfits.project rfl) (hfits.podless rfl) rfl⟩
  | restart hnone _ _ =>
      exact ⟨hsound, fits_of_podless (hfits.project rfl) (podless_of_none hnone) rfl⟩
  | leftPod _ => exact ⟨hsound, fits_of_project (hfits.project rfl) rfl rfl⟩
  | nothing hnone =>
      exact ⟨hsound, fits_of_podless (hfits.project rfl) (podless_of_none hnone) rfl⟩
  | findPorts => exact ⟨hsound, fits_of_podless (hfits.project rfl) (hfits.podless rfl) rfl⟩
  | @build httpPort rsocketPort free _ =>
      exact ⟨hsound, fits_of_builds (hfits.project rfl) (hfits.podless rfl)
        ⟨httpPort, rsocketPort, free, rfl⟩ rfl rfl⟩
  | @servePublic httpPort pod _ =>
      have hfewer : Fewer s (s.deleteService r.key) := fewer_of_removes .deleteService
      exact ⟨hsound.fewer hfewer, fits_of_builds (hfits.project rfl)
        ((hfits.podless rfl).fewer hfewer) (hfits.builds pod rfl) rfl rfl⟩
  | @serve httpPort pod _ =>
      have hfewer : Fewer s (s.deleteService r.key) := fewer_of_removes .deleteService
      exact ⟨hsound.fewer hfewer, fits_of_builds (hfits.project rfl)
        ((hfits.podless rfl).fewer hfewer) (hfits.builds pod rfl) rfl rfl⟩
  | @deletePublic httpPort pod =>
      have hfewer : Fewer s (s.deleteRoute r.key) := fewer_of_removes .deleteRoute
      exact ⟨hsound.fewer hfewer, fits_of_builds (hfits.project rfl)
        ((hfits.podless rfl).fewer hfewer) (hfits.builds pod rfl) rfl rfl⟩
  | @createPublic httpPort pod _ =>
      exact ⟨⟨hsound.served, hsound.projects⟩, fits_of_builds (hfits.project rfl)
        (hfits.podless rfl) (hfits.builds pod rfl) rfl rfl⟩
  | @createService pod nodePort _ =>
      obtain ⟨httpPort, rsocketPort, free, rfl⟩ := hfits.builds pod rfl
      have hpodless := hfits.podless rfl
      refine ⟨⟨fun key service old hservice hold hlive => ?_, hsound.projects⟩, ?_⟩
      · dsimp only at hservice
        rw [Function.update_apply] at hservice
        split at hservice
        · rename_i hkey
          subst hkey
          exact absurd (hpodless old hold) (by rw [hlive]; exact Bool.false_ne_true)
        · exact hsound.served key service old hservice hold hlive
      · refine
          { project := fun _ => hfits.project rfl
            podless := fun h => by cases h
            builds := hfits.builds
            served := fun pod hpod service hservice => ?_ }
        cases hpod
        dsimp only at hservice
        rw [Function.update_self, Option.some.injEq] at hservice
        exact hservice ▸ serves_build r httpPort rsocketPort free nodePort
  | @createPod pod _ =>
      refine ⟨⟨fun key service new hservice hnew hlive => ?_, fun key hpod => ?_⟩,
        fits_of_project (hfits.project rfl) rfl rfl⟩
      · dsimp only at hservice hnew
        rw [Function.update_apply] at hnew
        split at hnew
        · rename_i hkey
          subst hkey
          cases hnew
          exact hfits.served _ rfl service hservice
        · exact hsound.served key service new hservice hnew hlive
      · dsimp only at hpod
        rw [Function.update_apply] at hpod
        split at hpod
        · rename_i hkey
          exact hkey ▸ hfits.project rfl
        · exact hsound.projects key hpod
  | ready => exact ⟨hsound, fits_of_project (hfits.project rfl) rfl rfl⟩

/-- The last step of a start leaves the cluster alone. -/
theorem cluster_of_last (h : Performs r s phase s' outcome)
    (hlast : ∀ next, outcome ≠ .continues next) : s' = s := by
  cases h with
  | throws => rfl
  | running _ _ => rfl
  | read _ _ => rfl
  | _ => exact absurd rfl (hlast _)

/-! ## Whole runs -/

/-- The cluster is sound, the lock is held by the one start under way, and that start can
rely on the cluster. -/
structure Keeps (c : Config ManagerState AgentTask) : Prop where
  sound : c.shared.cluster.Sound
  lock : c.tasks.countP AgentTask.isStarting = if c.shared.locked then 1 else 0
  fits : ∀ r phase, .starting r phase ∈ c.tasks → phase.Fits r c.shared.cluster

/-- Where nobody holds the lock, no start is under way. -/
theorem Keeps.idle (h : Keeps c) (hfree : c.shared.locked = false) (r : AgentRequest)
    (phase : StartPhase) : .starting r phase ∉ c.tasks := by
  have hlock := h.lock
  rw [hfree, if_neg Bool.false_ne_true, List.countP_eq_zero] at hlock
  exact fun hmem => hlock _ hmem rfl

theorem Keeps.call (h : Keeps c) (henters : Enters c (.call t)) :
    Keeps ⟨c.shared, t :: c.tasks⟩ := by
  have hnot : t.isStarting = false := by
    cases t with
    | starting r phase => exact henters.elim
    | _ => rfl
  refine ⟨h.sound, ?_, fun r phase hmem => ?_⟩
  · dsimp only
    rw [List.countP_cons_of_neg (by rw [hnot]; exact Bool.false_ne_true)]
    exact h.lock
  · rcases List.mem_cons.mp hmem with heq | hold
    · subst heq
      cases hnot
    · exact h.fits r phase hold

/-- A step of the start that has the lock. -/
theorem Keeps.perform {others : List AgentTask} {cluster : Cluster} (h : Keeps c)
    (hpool : c.tasks.Perm (.starting r phase :: others))
    (hperform : Performs r c.shared.cluster phase cluster outcome) :
    Keeps ⟨(c.shared.settle r cluster outcome).1,
      (c.shared.settle r cluster outcome).2 ++ others⟩ := by
  have hcount := h.lock
  rw [hpool.countP_eq, List.countP_cons_of_pos (by rfl)] at hcount
  have hlocked : c.shared.locked = true := by
    by_contra hfree
    rw [if_neg hfree] at hcount
    cases hcount
  rw [if_pos hlocked] at hcount
  have hothers : others.countP AgentTask.isStarting = 0 := Nat.succ.inj hcount
  have halone : ∀ r' phase', .starting r' phase' ∉ others := fun r' phase' hmem =>
    List.countP_eq_zero.mp hothers _ hmem rfl
  have hfits := h.fits r phase (hpool.mem_iff.mpr List.mem_cons_self)
  cases outcome with
  | continues next =>
      obtain ⟨hsound, hnext⟩ := fits_of_performs h.sound hfits hperform
      refine ⟨hsound, ?_, fun r' phase' hmem => ?_⟩
      · simp only [ManagerState.settle, List.singleton_append]
        rw [List.countP_cons_of_pos (by rfl), hothers]
        exact (if_pos hlocked).symm
      · rcases List.mem_cons.mp hmem with heq | hold
        · cases heq
          exact hnext
        · exact absurd hold (halone r' phase')
  | answers ports =>
      obtain rfl := cluster_of_last hperform (by simp)
      refine ⟨h.sound, by simp [ManagerState.settle, hothers], fun r' phase' hmem => ?_⟩
      exact absurd hmem (halone r' phase')
  | throws =>
      obtain rfl := cluster_of_last hperform (by simp)
      refine ⟨h.sound, by simp [ManagerState.settle, hothers], fun r' phase' hmem => ?_⟩
      exact absurd hmem (halone r' phase')

/-- A step that only removes objects. -/
theorem Keeps.fewer {others : List AgentTask} {cluster : Cluster} (h : Keeps c)
    (hpool : c.tasks.Perm (t :: others)) (ht : t.isStarting = false)
    (hnew : ∀ u ∈ ts, u.isStarting = false) (hfewer : Fewer c.shared.cluster cluster) :
    Keeps ⟨{ c.shared with cluster := cluster }, ts ++ others⟩ := by
  refine ⟨h.sound.fewer hfewer, ?_, fun r phase hmem => ?_⟩
  · have hcount := h.lock
    rw [hpool.countP_eq,
      List.countP_cons_of_neg (by rw [ht]; exact Bool.false_ne_true)] at hcount
    dsimp only
    rw [List.countP_append, List.countP_eq_zero.mpr fun u hu => by
      rw [hnew u hu]; exact Bool.false_ne_true, Nat.zero_add]
    exact hcount
  · rcases List.mem_append.mp hmem with hts | hold
    · cases hnew _ hts
    · have hbefore := h.fits r phase (hpool.mem_iff.mpr (List.mem_cons_of_mem t hold))
      exact hbefore.fewer hfewer

/-- What every step keeps of the cluster and of the start under way. -/
theorem Keeps.step (h : Keeps c) (hstep : Step act c l c') (henters : Enters c l) :
    Keeps c' := by
  cases hstep with
  | call t => exact h.call henters
  | @act t x m' ts others hpool hact =>
      cases act_inv hact with
      | @lock r _ hfree =>
          have hcount := h.lock
          rw [hpool.countP_eq, List.countP_cons_of_neg (by exact Bool.false_ne_true), hfree,
            if_neg Bool.false_ne_true] at hcount
          refine ⟨h.sound, ?_, fun r' phase' hmem => ?_⟩
          · simp only [List.singleton_append, if_true]
            rw [List.countP_cons_of_pos (by rfl), hcount]
          · rcases List.mem_cons.mp hmem with heq | hold
            · cases heq
              exact
                { project := fun h => by cases h
                  podless := fun h => by cases h
                  builds := fun _ h => by cases h
                  served := fun _ h => by cases h }
            · exact h.fits r' phase' (hpool.mem_iff.mpr (List.mem_cons_of_mem _ hold))
      | perform hperform => exact h.perform hpool hperform
      | stop hremoves hstops =>
          refine h.fewer hpool rfl (fun u hu => ?_) (fewer_of_removes hremoves)
          obtain ⟨phase', rfl⟩ := hstops u hu
          rfl
      | gone =>
          refine h.fewer hpool rfl (fun u hu => ?_) (fewer_of_removes .goPod)
          rw [List.mem_singleton.mp hu]
          rfl

/-- A manager that has just been started, on the objects that it finds. -/
structure Fresh (c : Config ManagerState AgentTask) : Prop where
  sound : c.shared.cluster.Sound
  free : c.shared.locked = false
  tasks : c.tasks = []

theorem keeps_of_run (h : Fresh c) (hrun : Run act Enters c ls c') : Keeps c' := by
  refine hrun.invariant ⟨h.sound, ?_, fun r phase hmem => ?_⟩
    fun _ _ _ hd henters hstep => hd.step hstep henters
  · rw [h.tasks, h.free]
    rfl
  · rw [h.tasks] at hmem
    exact absurd hmem List.not_mem_nil

/-- A pod that is not terminating is selected by the service of its name, which has its
ports; what a manager leaves behind is what the next one can start from. -/
theorem live_agent_served (h : Fresh c) (hrun : Run act Enters c ls c') :
    c'.shared.cluster.Sound ∧ ∀ key service pod, c'.shared.cluster.services key = some service →
      c'.shared.cluster.pods key = some pod → pod.terminating = false → service.Serves pod := by
  have hsound := (keeps_of_run h hrun).sound
  exact ⟨hsound, hsound.served⟩

/-- A cache that the builds of a project share. -/
def cacheAgent : AgentRequest where
  key := ⟨"market", "cache"⟩
  reusable := true
  image := some "registry/agent"
  customPorts := LinkedMap.empty.put "cache-port" "GRADLE_CACHE_PORT"
  environmentVariables := LinkedMap.empty.put "GRADLE_CACHE" "true"

/-- Nothing but starts of the cache, whose calls succeed. -/
def startsCache : Label AgentTask Input → Bool
  | .call (.start r) => r = cacheAgent
  | .call .cluster => true
  | .act (.start r) _ => r.reusable
  | .act (.starting _ _) x => x.succeeds
  | _ => false

theorem enters_of_startsCache (c : Config ManagerState AgentTask) (l : Label AgentTask Input)
    (h : startsCache l = true) : Enters c l := by
  cases l with
  | call t =>
      cases t with
      | starting r phase => cases h
      | stop key phase => cases h
      | _ => trivial
  | act t x => trivial

/-- The first start of the cache, in a project that does not exist yet. -/
def firstStart : List (Move AgentTask Input) :=
  [.call .cluster, .call (.start cacheAgent), .act 0 .call, .act 0 .call, .act 0 .call,
    .act 0 (.ports 9000 10000), .act 0 (.customPorts [9500]), .act 0 .call,
    .act 0 (.nodePorts fun _ => 30000), .act 0 .call, .act 0 .call, .act 0 .call]

theorem fresh_empty : Fresh ⟨{}, []⟩ :=
  ⟨⟨by simp, by simp⟩, rfl, rfl⟩

theorem live_agent_served_firstStart :
    ∃ ls c service pod, Run act Enters ⟨{}, []⟩ ls c ∧
      c.shared.cluster.services cacheAgent.key = some service ∧
      c.shared.cluster.pods cacheAgent.key = some pod ∧ service.Serves pod := by
  have hexec : Config.exec act (fun _ l => startsCache l) ⟨{}, []⟩ firstStart = some _ := rfl
  have hrun : Run act Enters ⟨{}, []⟩ _ _ := (run_of_exec hexec).mono enters_of_startsCache
  have hserves := (live_agent_served fresh_empty hrun).2 cacheAgent.key _ _ rfl rfl rfl
  exact ⟨_, _, _, _, hrun, rfl, rfl, hserves⟩

/-! ## Where the pods listen -/

/-- No request names a variable or a port of every agent. -/
def KeepsPorts (c : Config ManagerState AgentTask) (l : Label AgentTask Input) : Prop :=
  Enters c l ∧ ∀ r, l = .call (.start r) → r.KeepsPorts

structure Listening (c : Config ManagerState AgentTask) : Prop where
  pods : ∀ key pod, c.shared.cluster.pods key = some pod → pod.Listens
  waiting : ∀ r, .start r ∈ c.tasks → r.KeepsPorts
  starting : ∀ r phase, .starting r phase ∈ c.tasks →
    r.KeepsPorts ∧ ∀ pod, phase.newPod = some pod → pod.Listens

theorem listens_fewer (h : ∀ key pod, s.pods key = some pod → pod.Listens)
    (hfewer : Fewer s s') : ∀ key pod, s'.pods key = some pod → pod.Listens := by
  intro key pod hpod
  obtain ⟨before, hbefore, rfl | rfl⟩ := hfewer.pods key pod hpod
  · exact h key pod hbefore
  · have hlistens := h key before hbefore
    exact ⟨hlistens.rsocket, hlistens.http⟩

/-- The pods that are stored are those of before, or the one that was to be created. -/
theorem listens_performs (hr : r.KeepsPorts) (hpods : ∀ key pod, s.pods key = some pod →
    pod.Listens) (hnew : ∀ pod, phase.newPod = some pod → pod.Listens)
    (h : Performs r s phase s' outcome) :
    (∀ key pod, s'.pods key = some pod → pod.Listens) ∧
      ∀ next, outcome = .continues next → ∀ pod, next.newPod = some pod → pod.Listens := by
  have hnone : ∀ (pod : Pod), none = some pod → pod.Listens := fun _ h => by cases h
  cases h with
  | throws => exact ⟨hpods, fun _ h => by cases h⟩
  | running _ _ => exact ⟨hpods, fun _ h => by cases h⟩
  | read _ _ => exact ⟨hpods, fun _ h => by cases h⟩
  | createProject _ => exact ⟨hpods, fun _ h => by cases h; exact hnone⟩
  | deleteRoute => exact ⟨hpods, fun _ h => by cases h; exact hnone⟩
  | deleteService => exact ⟨hpods, fun _ h => by cases h; exact hnone⟩
  | deletePod _ =>
      exact ⟨listens_fewer hpods (fewer_of_removes .terminatePod), fun _ h => by
        cases h
        exact hnone⟩
  | @build httpPort rsocketPort free _ =>
      refine ⟨hpods, fun _ h pod hpod => ?_⟩
      cases h
      cases hpod
      exact listens_build hr httpPort rsocketPort free
  | servePublic _ => exact ⟨hpods, fun _ h => by cases h; exact hnew⟩
  | serve _ => exact ⟨hpods, fun _ h => by cases h; exact hnew⟩
  | deletePublic => exact ⟨hpods, fun _ h => by cases h; exact hnew⟩
  | createPublic _ => exact ⟨hpods, fun _ h => by cases h; exact hnew⟩
  | createService _ => exact ⟨hpods, fun _ h => by cases h; exact hnew⟩
  | @createPod pod _ =>
      refine ⟨fun key stored hstored => ?_, fun _ h => by cases h; exact hnone⟩
      dsimp only at hstored
      rw [Function.update_apply] at hstored
      split at hstored
      · cases hstored
        exact hnew _ rfl
      · exact hpods key stored hstored
  | _ => exact ⟨hpods, fun _ h => by cases h; exact hnone⟩

theorem Listening.step (h : Listening c) (hstep : Step act c l c') (hok : KeepsPorts c l) :
    Listening c' := by
  cases hstep with
  | call t =>
      refine ⟨h.pods, fun r hmem => ?_, fun r phase hmem => ?_⟩
      · rcases List.mem_cons.mp hmem with rfl | hold
        · exact hok.2 r rfl
        · exact h.waiting r hold
      · rcases List.mem_cons.mp hmem with rfl | hold
        · exact hok.1.elim
        · exact h.starting r phase hold
  | @act t x m' ts others hpool hact =>
      have hothers : ∀ u ∈ others, u ∈ c.tasks := fun u hu =>
        hpool.mem_iff.mpr (List.mem_cons_of_mem t hu)
      have ht : t ∈ c.tasks := hpool.mem_iff.mpr List.mem_cons_self
      cases act_inv hact with
      | @lock r _ _ =>
          refine ⟨h.pods, fun r' hmem => ?_, fun r' phase' hmem => ?_⟩
          · rcases List.mem_cons.mp hmem with heq | hold
            · cases heq
            · exact h.waiting r' (hothers _ hold)
          · rcases List.mem_cons.mp hmem with heq | hold
            · cases heq
              exact ⟨h.waiting r ht, fun _ h => by cases h⟩
            · exact h.starting r' phase' (hothers _ hold)
      | @perform r phase _ cluster outcome hperform =>
          obtain ⟨hr, hnew⟩ := h.starting r phase ht
          obtain ⟨hpods, hnext⟩ := listens_performs hr h.pods hnew hperform
          cases outcome with
          | continues next =>
              refine ⟨hpods, fun r' hmem => ?_, fun r' phase' hmem => ?_⟩
              · rcases List.mem_cons.mp hmem with heq | hold
                · cases heq
                · exact h.waiting r' (hothers _ hold)
              · rcases List.mem_cons.mp hmem with heq | hold
                · cases heq
                  exact ⟨hr, hnext next rfl⟩
                · exact h.starting r' phase' (hothers _ hold)
          | answers ports =>
              exact ⟨hpods, fun r' hmem => h.waiting r' (hothers _ hmem),
                fun r' phase' hmem => h.starting r' phase' (hothers _ hmem)⟩
          | throws =>
              exact ⟨hpods, fun r' hmem => h.waiting r' (hothers _ hmem),
                fun r' phase' hmem => h.starting r' phase' (hothers _ hmem)⟩
      | stop hremoves hstops =>
          refine ⟨listens_fewer h.pods (fewer_of_removes hremoves), fun r' hmem => ?_,
            fun r' phase' hmem => ?_⟩
          · rcases List.mem_append.mp hmem with hts | hold
            · obtain ⟨phase'', heq⟩ := hstops _ hts
              cases heq
            · exact h.waiting r' (hothers _ hold)
          · rcases List.mem_append.mp hmem with hts | hold
            · obtain ⟨phase'', heq⟩ := hstops _ hts
              cases heq
            · exact h.starting r' phase' (hothers _ hold)
      | gone =>
          refine ⟨listens_fewer h.pods (fewer_of_removes .goPod), fun r' hmem => ?_,
            fun r' phase' hmem => ?_⟩
          · rcases List.mem_cons.mp hmem with heq | hold
            · cases heq
            · exact h.waiting r' (hothers _ hold)
          · rcases List.mem_cons.mp hmem with heq | hold
            · cases heq
            · exact h.starting r' phase' (hothers _ hold)

/-- The pods listen where the services send to, unless a request says otherwise. -/
theorem live_agent_listens (key : AgentKey) (h : Fresh c)
    (hpods : ∀ key pod, c.shared.cluster.pods key = some pod → pod.Listens)
    (hrun : Run act KeepsPorts c ls c') {service : Service} {pod : Pod}
    (hservice : c'.shared.cluster.services key = some service)
    (hpod : c'.shared.cluster.pods key = some pod) (hlive : pod.terminating = false) :
    pod.environment.get rsocketPortProperty =
        (firstPort service.ports rsocketPortName).map (fun port => toString port.targetPort) ∧
      pod.environment.get httpPortProperty =
        (firstPort service.ports httpPortName).map fun port => toString port.targetPort := by
  have hserves := (live_agent_served h (hrun.mono fun _ _ hok => hok.1)).2 key service pod
    hservice hpod hlive
  have hlistening : Listening c' := by
    refine hrun.invariant ⟨hpods, fun r hmem => ?_, fun r phase hmem => ?_⟩
      fun _ _ _ hd hok hstep => hd.step hstep hok
    · rw [h.tasks] at hmem
      exact absurd hmem List.not_mem_nil
    · rw [h.tasks] at hmem
      exact absurd hmem List.not_mem_nil
  have hlistens := hlistening.pods key pod hpod
  rw [hlistens.rsocket, hlistens.http, hserves.get, hserves.get]
  simp only [Option.map_map]
  exact ⟨rfl, rfl⟩

theorem keepsPorts_cacheAgent : cacheAgent.KeepsPorts where
  environment := by decide
  customVariables := by decide
  customPorts := by decide

theorem keepsPorts_of_startsCache (c : Config ManagerState AgentTask)
    (l : Label AgentTask Input) (h : startsCache l = true) : KeepsPorts c l := by
  refine ⟨enters_of_startsCache c l h, fun r hl => ?_⟩
  subst hl
  rw [of_decide_eq_true h]
  exact keepsPorts_cacheAgent

theorem live_agent_listens_firstStart :
    ∃ ls c pod, Run act KeepsPorts ⟨{}, []⟩ ls c ∧
      c.shared.cluster.pods cacheAgent.key = some pod ∧
      pod.environment.get rsocketPortProperty = some (toString 10000) := by
  have hexec : Config.exec act (fun _ l => startsCache l) ⟨{}, []⟩ firstStart = some _ := rfl
  have hrun : Run act KeepsPorts ⟨{}, []⟩ _ _ :=
    (run_of_exec hexec).mono keepsPorts_of_startsCache
  have hlistens := live_agent_listens cacheAgent.key fresh_empty (fun _ _ h => nomatch h) hrun
    rfl rfl rfl
  exact ⟨_, _, _, hrun, rfl, hlistens.1⟩

/-! ## An agent that is reused -/

/-- Nobody stops the agent or starts it anew, and its pod does not go away. -/
def Spares (key : AgentKey) (c : Config ManagerState AgentTask) (l : Label AgentTask Input) :
    Prop :=
  Enters c l ∧
    match l with
    | .act (.start r) _ => r.key = key → r.reusable = true
    | .act (.stop stopped _) _ => stopped ≠ key
    | .act .cluster (.gone gone) => gone ≠ key
    | _ => True

/-- A start that finds the service and has not missed the pod. -/
inductive Reuses (service : Service) : StartPhase → Prop
  | getProject : Reuses service .getProject
  | getService : Reuses service .getService
  | getPod : Reuses service (.getPod (some service.ports))

/-- The agent is there; whoever starts it finds it, and is answered its ports. -/
structure Stays (key : AgentKey) (service : Service)
    (before : List (AgentRequest × OpenShiftAgentPorts)) (c : Config ManagerState AgentTask) :
    Prop where
  served : c.shared.cluster.services key = some service
  pod : (c.shared.cluster.pods key).isSome
  project : key.projectName ∈ c.shared.cluster.projects
  starts : ∀ r phase, .starting r phase ∈ c.tasks → r.key = key →
    r.reusable = true ∧ Reuses service phase
  answers : ∃ more, c.shared.answers = more ++ before ∧
    ∀ e ∈ more, e.1.key = key → e.1.agentPorts service.ports = some e.2

theorem removes_other (h : Removes other s s') (hkey : key ≠ other) :
    s'.services key = s.services key ∧ s'.pods key = s.pods key ∧ s'.projects = s.projects := by
  cases h with
  | same => exact ⟨rfl, rfl, rfl⟩
  | terminatePod => exact ⟨rfl, Function.update_of_ne hkey .., rfl⟩
  | goPod => exact ⟨rfl, Function.update_of_ne hkey .., rfl⟩
  | deleteService => exact ⟨Function.update_of_ne hkey .., rfl, rfl⟩
  | deleteRoute => exact ⟨rfl, rfl, rfl⟩

/-- A start does not touch what bears another name. -/
theorem performs_other (h : Performs r s phase s' outcome) (hkey : key ≠ r.key) :
    s'.services key = s.services key ∧ s'.pods key = s.pods key ∧ s.projects ⊆ s'.projects := by
  have hsame : s.projects ⊆ s.projects := List.Subset.refl s.projects
  cases h with
  | createProject _ => exact ⟨rfl, rfl, List.subset_cons_self _ _⟩
  | deleteService => exact ⟨Function.update_of_ne hkey .., rfl, hsame⟩
  | deletePod _ => exact ⟨rfl, Function.update_of_ne hkey .., hsame⟩
  | servePublic _ => exact ⟨Function.update_of_ne hkey .., rfl, hsame⟩
  | serve _ => exact ⟨Function.update_of_ne hkey .., rfl, hsame⟩
  | createService _ => exact ⟨Function.update_of_ne hkey .., rfl, hsame⟩
  | createPod _ => exact ⟨rfl, Function.update_of_ne hkey .., hsame⟩
  | _ => exact ⟨rfl, rfl, hsame⟩

/-- A reusing start of an agent that is there changes nothing. -/
theorem performs_reuses {service : Service} (hservice : s.services r.key = some service)
    (hpod : (s.pods r.key).isSome) (hproject : r.key.projectName ∈ s.projects)
    (hreusable : r.reusable = true) (hphase : Reuses service phase)
    (h : Performs r s phase s' outcome) :
    s' = s ∧ (∀ next, outcome = .continues next → Reuses service next) ∧
      ∀ answer, outcome = .answers answer → r.agentPorts service.ports = some answer := by
  obtain ⟨pod, hpod⟩ := Option.isSome_iff_exists.mp hpod
  cases hphase with
  | getProject =>
      cases h with
      | throws => exact ⟨rfl, by simp, by simp⟩
      | project _ => exact ⟨rfl, fun _ h => (by cases h; exact .getService), by simp⟩
      | noProject hno => exact absurd hproject hno
  | getService =>
      cases h with
      | throws => exact ⟨rfl, by simp, by simp⟩
      | reuse hfound _ =>
          cases hservice.symm.trans hfound
          exact ⟨rfl, fun _ h => (by cases h; exact .getPod), by simp⟩
      | replace _ hnot => exact absurd (hreusable.symm.trans hnot) (by simp)
      | noService hno => exact absurd (hservice.symm.trans hno) (by simp)
  | getPod =>
      cases h with
      | throws => exact ⟨rfl, by simp, by simp⟩
      | running _ hanswer =>
          exact ⟨rfl, by simp, fun _ h => (by cases h; exact hanswer)⟩
      | restart hno _ _ => exact absurd (hpod.symm.trans hno) (by simp)

/-- A step of a start keeps an agent that is there. -/
theorem Stays.perform {service : Service} {before : List (AgentRequest × OpenShiftAgentPorts)}
    {others : List AgentTask} {cluster : Cluster} (h : Stays key service before c)
    (hpool : c.tasks.Perm (.starting r phase :: others))
    (hperform : Performs r c.shared.cluster phase cluster outcome) :
    Stays key service before ⟨(c.shared.settle r cluster outcome).1,
      (c.shared.settle r cluster outcome).2 ++ others⟩ := by
  have hothers : ∀ r' phase', .starting r' phase' ∈ others → r'.key = key →
      r'.reusable = true ∧ Reuses service phase' := fun r' phase' hmem =>
    h.starts r' phase' (hpool.mem_iff.mpr (List.mem_cons_of_mem _ hmem))
  have hkept : cluster.services key = some service ∧ (cluster.pods key).isSome ∧
      key.projectName ∈ cluster.projects ∧
      (r.key = key → r.reusable = true) ∧
      (∀ next, outcome = .continues next → r.key = key → Reuses service next) ∧
      ∀ answer, outcome = .answers answer → r.key = key →
        r.agentPorts service.ports = some answer := by
    by_cases hkey : r.key = key
    · subst hkey
      obtain ⟨hreusable, hphase⟩ := h.starts r phase (hpool.mem_iff.mpr List.mem_cons_self) rfl
      obtain ⟨rfl, hnext, hanswer⟩ :=
        performs_reuses h.served h.pod h.project hreusable hphase hperform
      exact ⟨h.served, h.pod, h.project, fun _ => hreusable, fun next hn _ => hnext next hn,
        fun answer ha _ => hanswer answer ha⟩
    · obtain ⟨hservice, hpod, hprojects⟩ := performs_other hperform (Ne.symm hkey)
      exact ⟨hservice.trans h.served, hpod ▸ h.pod, hprojects h.project,
        fun heq => absurd heq hkey, fun _ _ heq => absurd heq hkey,
        fun _ _ heq => absurd heq hkey⟩
  obtain ⟨hservice, hpod, hproject, hreusable, hnext, hanswer⟩ := hkept
  cases outcome with
  | continues next =>
      refine ⟨hservice, hpod, hproject, fun r' phase' hmem hr' => ?_, h.answers⟩
      rcases List.mem_cons.mp hmem with heq | hold
      · cases heq
        exact ⟨hreusable hr', hnext next rfl hr'⟩
      · exact hothers r' phase' hold hr'
  | answers ports =>
      refine ⟨hservice, hpod, hproject, hothers, ?_⟩
      obtain ⟨more, hmore, hall⟩ := h.answers
      refine ⟨(r, ports) :: more, congrArg ((r, ports) :: ·) hmore, fun e he hkey => ?_⟩
      rcases List.mem_cons.mp he with rfl | hold
      · exact hanswer ports rfl hkey
      · exact hall e hold hkey
  | throws => exact ⟨hservice, hpod, hproject, hothers, h.answers⟩

/-- A step that removes what bears another name. -/
theorem Stays.removes {service : Service} {before : List (AgentRequest × OpenShiftAgentPorts)}
    {others : List AgentTask} {cluster : Cluster} (h : Stays key service before c)
    (hpool : c.tasks.Perm (t :: others)) (hnew : ∀ u ∈ ts, u.isStarting = false)
    (hremoves : Removes other c.shared.cluster cluster) (hother : other ≠ key) :
    Stays key service before ⟨{ c.shared with cluster := cluster }, ts ++ others⟩ := by
  obtain ⟨hservice, hpod, hprojects⟩ := removes_other hremoves (Ne.symm hother)
  refine ⟨hservice.trans h.served, hpod ▸ h.pod, hprojects ▸ h.project,
    fun r' phase' hmem hr' => ?_, h.answers⟩
  rcases List.mem_append.mp hmem with hts | hold
  · cases hnew _ hts
  · exact h.starts r' phase' (hpool.mem_iff.mpr (List.mem_cons_of_mem _ hold)) hr'

theorem Stays.step {service : Service} {before : List (AgentRequest × OpenShiftAgentPorts)}
    (h : Stays key service before c) (hstep : Step act c l c') (hspares : Spares key c l) :
    Stays key service before c' := by
  obtain ⟨henters, hspares⟩ := hspares
  cases hstep with
  | call t =>
      refine ⟨h.served, h.pod, h.project, fun r' phase' hmem hr' => ?_, h.answers⟩
      rcases List.mem_cons.mp hmem with rfl | hold
      · exact henters.elim
      · exact h.starts r' phase' hold hr'
  | @act t x m' ts others hpool hact =>
      cases act_inv hact with
      | @lock r _ _ =>
          refine ⟨h.served, h.pod, h.project, fun r' phase' hmem hr' => ?_, h.answers⟩
          rcases List.mem_cons.mp hmem with heq | hold
          · cases heq
            exact ⟨hspares hr', .getProject⟩
          · exact h.starts r' phase' (hpool.mem_iff.mpr (List.mem_cons_of_mem _ hold)) hr'
      | perform hperform => exact h.perform hpool hperform
      | stop hremoves hstops =>
          refine h.removes hpool (fun u hu => ?_) hremoves hspares
          obtain ⟨phase', rfl⟩ := hstops u hu
          rfl
      | gone =>
          refine h.removes hpool (fun u hu => ?_) .goPod hspares
          rw [List.mem_singleton.mp hu]
          rfl

/-- A reusable agent keeps its ports until it is stopped: from a moment at which nobody is
starting, as long as nobody stops the agent or starts it anew and its pod stays, its service
stays, and every start of it that is answered is answered the ports of that service. -/
theorem reusable_agent_stays (key : AgentKey) (h : Fresh c)
    (hrun : Run act Enters c ls c')
    (hfree : c'.shared.locked = false) {service : Service}
    (hservice : c'.shared.cluster.services key = some service)
    (hpod : (c'.shared.cluster.pods key).isSome) {c'' : Config ManagerState AgentTask}
    (hlater : Run act (Spares key) c' ls' c'') :
    c''.shared.cluster.services key = some service ∧ (c''.shared.cluster.pods key).isSome ∧
      ∃ more, c''.shared.answers = more ++ c'.shared.answers ∧
        ∀ e ∈ more, e.1.key = key → e.1.agentPorts service.ports = some e.2 := by
  have hkeeps := keeps_of_run h hrun
  have hstays : Stays key service c'.shared.answers c'' := by
    refine hlater.invariant ⟨hservice, hpod, hkeeps.sound.projects key hpod,
      fun r phase hmem => absurd hmem (hkeeps.idle hfree r phase), [], rfl,
      fun _ he => absurd he List.not_mem_nil⟩ fun _ _ _ hd hok hstep => hd.step hstep hok
  exact ⟨hstays.served, hstays.pod, hstays.answers⟩

theorem spares_of_startsCache (c : Config ManagerState AgentTask) (l : Label AgentTask Input)
    (h : startsCache l = true) : Spares key c l := by
  refine ⟨enters_of_startsCache c l h, ?_⟩
  cases l with
  | call t => trivial
  | act t x =>
      cases t with
      | start r => exact fun _ => h
      | starting r phase => trivial
      | stop stopped phase => cases h
      | cluster => cases h

/-- Where the first start has ended. -/
def afterFirstStart : Config ManagerState AgentTask :=
  ((Config.exec act (fun _ l => startsCache l) ⟨{}, []⟩ firstStart).getD ([], ⟨{}, []⟩)).2

/-- A second build starts the cache. -/
def secondStart : List (Move AgentTask Input) :=
  [.call (.start cacheAgent), .act 0 .call, .act 0 .call, .act 0 .call, .act 0 .call]

theorem reusable_agent_stays_secondStart :
    ∃ ls ls' c service more, Run act Enters ⟨{}, []⟩ ls afterFirstStart ∧
      Run act (Spares cacheAgent.key) afterFirstStart ls' c ∧
      c.shared.cluster.services cacheAgent.key = some service ∧
      c.shared.answers = more ++ afterFirstStart.shared.answers ∧ c.shared.answers.length = 2 ∧
      ∀ e ∈ more, e.1.key = cacheAgent.key → e.1.agentPorts service.ports = some e.2 := by
  have hexec : Config.exec act (fun _ l => startsCache l) ⟨{}, []⟩ firstStart =
      some (_, afterFirstStart) := rfl
  have hrun : Run act Enters ⟨{}, []⟩ _ afterFirstStart :=
    (run_of_exec hexec).mono enters_of_startsCache
  have hexec' : Config.exec act (fun _ l => startsCache l) afterFirstStart secondStart =
      some _ := rfl
  have hlater : Run act (Spares cacheAgent.key) afterFirstStart _ _ :=
    (run_of_exec hexec').mono fun c l => spares_of_startsCache c l
  obtain ⟨hservice, -, more, hmore, hall⟩ :=
    reusable_agent_stays cacheAgent.key fresh_empty hrun rfl rfl rfl hlater
  exact ⟨_, _, _, _, more, hrun, hlater, hservice, hmore, rfl, hall⟩

end ArtPlatform.Agents
