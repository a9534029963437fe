import ArtPlatform.OpenShift.AgentRuns

/-!
# Starting an agent undisturbed

A start that nobody disturbs, whose calls succeed and whose waits come to an end, brings its
agent up from whatever is stored under the name: nothing, an agent to reuse, an agent to
replace, a service without its pod or a pod without its service.

Main results:

- Theorem `Stage.step`: each step of the start brings it closer to its end.
- Theorem `Stage.progress`: a start that has not ended can go on.
- Theorem `undisturbed_start`: the start ends after sixteen steps at most, and then the agent
  runs behind the service whose ports have been answered.
-/

namespace ArtPlatform.Agents

open Interleaving

variable {s s' : Cluster} {r : AgentRequest} {key : AgentKey} {phase : StartPhase}
  {outcome : Outcome} {t : AgentTask} {x : Input} {ts : List AgentTask} {m m' : ManagerState}
  {c c' : Config ManagerState AgentTask} {l : Label AgentTask Input}
  {ls ls' : List (Label AgentTask Input)} {n : Nat}

/-! ## What a start finds -/

/-- The ports of every agent are there. -/
def HasPorts (ports : List ServicePort) : Prop :=
  (firstPort ports httpPortName).isSome ∧ (firstPort ports rsocketPortName).isSome

theorem agentPorts_of_hasPorts {ports : List ServicePort} (h : HasPorts ports)
    (r : AgentRequest) : ∃ answer, r.agentPorts ports = some answer := by
  obtain ⟨http, hhttp⟩ := Option.isSome_iff_exists.mp h.1
  obtain ⟨rsocket, hrsocket⟩ := Option.isSome_iff_exists.mp h.2
  simp only [AgentRequest.agentPorts, hhttp, hrsocket]
  exact ⟨_, rfl⟩

theorem hasPorts_build {pod : Pod} (h : r.Builds pod) {service : Service}
    (hserves : service.Serves pod) : HasPorts service.ports := by
  obtain ⟨httpPort, rsocketPort, free, rfl⟩ := h
  have hget : ∀ name, name = httpPortName ∨ name = rsocketPortName →
      ((r.buildPod httpPort rsocketPort free).ports.get name).isSome := by
    intro name hname
    refine isSome_get_putAll ?_ _
    rcases hname with rfl | rfl <;> simp [LinkedMap.get_put, httpPortName, rsocketPortName]
  have hhttp := hget httpPortName (.inl rfl)
  have hrsocket := hget rsocketPortName (.inr rfl)
  rw [hserves.get, Option.isSome_map] at hhttp hrsocket
  exact ⟨hhttp, hrsocket⟩

/-- What is stored under the name can be reused: the service has its ports, and the pod is
not on its way out. -/
structure Found (key : AgentKey) (s : Cluster) : Prop where
  ports : ∀ service, s.services key = some service → HasPorts service.ports
  live : ∀ pod, s.pods key = some pod → pod.terminating = false

/-- The agent is up. -/
structure Runs (key : AgentKey) (service : Service) (pod : Pod) (s : Cluster) : Prop where
  stored : s.services key = some service
  created : s.pods key = some pod
  live : pod.terminating = false
  serves : service.Serves pod
  ports : HasPorts service.ports

/-- What an undisturbed start knows of the cluster. -/
def StartPhase.Ready (r : AgentRequest) (s : Cluster) : StartPhase → Prop
  | .getProject => Found r.key s
  | .createProject => r.key.projectName ∉ s.projects
  | .getService => Found r.key s
  | .awaitDeleted => s.Podless r.key
  | .getPod (some ports) =>
      (∃ service, s.services r.key = some service ∧ service.ports = ports) ∧ Found r.key s
  | .findPorts => s.pods r.key = none
  | .createAgent _ _ => s.pods r.key = none
  | .serve _ pod => s.pods r.key = none ∧ r.Builds pod
  | .deletePublic _ pod =>
      s.pods r.key = none ∧ s.services r.key = none ∧ r.Builds pod
  | .createPublic _ pod =>
      s.pods r.key = none ∧ s.services r.key = none ∧ s.routes r.key = none ∧ r.Builds pod
  | .createService pod => s.pods r.key = none ∧ s.services r.key = none ∧ r.Builds pod
  | .createPod pod =>
      s.pods r.key = none ∧ r.Builds pod ∧
        ∃ service, s.services r.key = some service ∧ service.Serves pod
  | .awaitReadiness => ∃ service pod, Runs r.key service pod s
  | .readPorts => ∃ service pod, Runs r.key service pod s
  | _ => True

/-- How many steps are left at most. -/
def StartPhase.rank : StartPhase → Nat
  | .readPorts => 1
  | .awaitReadiness => 2
  | .createPod _ => 3
  | .createService _ => 4
  | .createPublic _ _ => 5
  | .deletePublic _ _ => 6
  | .serve _ _ => 7
  | .createAgent _ _ => 8
  | .findPorts => 9
  | .awaitDeleted => 10
  | .deletePod => 11
  | .deleteService => 12
  | .getPod _ => 12
  | .deleteRoute => 13
  | .getService => 14
  | .createProject => 14
  | .getProject => 15

/-! ## One step -/

theorem answered_eq {ports : List ServicePort} (h : HasPorts ports) :
    answered (r.agentPorts ports) ≠ .throws := by
  obtain ⟨answer, hanswer⟩ := agentPorts_of_hasPorts h r
  rw [hanswer]
  exact fun heq => nomatch heq

/-- A call that succeeds does not end a start that is ready for it. -/
theorem ne_throws_of_ready (himage : r.image.isSome) (hready : phase.Ready r s)
    (hx : x.succeeds = true) (h : r.perform s phase x = some (s', outcome)) :
    outcome ≠ .throws := by
  unfold AgentRequest.perform at h
  split at h
  · cases hx
  · split at h <;> (cases h; exact fun heq => nomatch heq)
  · split at h <;> (cases h; try exact fun heq => nomatch heq)
  · split at h
    · split at h <;> (cases h; exact fun heq => nomatch heq)
    · cases h
      exact fun heq => nomatch heq
  · cases h
    exact fun heq => nomatch heq
  · cases h
    exact fun heq => nomatch heq
  · split at h <;> (cases h; exact fun heq => nomatch heq)
  · split at h <;> (cases h; try exact fun heq => nomatch heq)
  · cases hx
  · obtain ⟨⟨service, hservice, rfl⟩, hfound⟩ := hready
    split at h
    · cases h
      exact answered_eq (hfound.ports service hservice)
    · split at h
      · cases h
        exact fun heq => nomatch heq
      · rename_i hnot
        obtain ⟨http, hhttp⟩ := Option.isSome_iff_exists.mp (hfound.ports service hservice).1
        obtain ⟨rsocket, hrsocket⟩ :=
          Option.isSome_iff_exists.mp (hfound.ports service hservice).2
        exact absurd hrsocket (hnot http rsocket hhttp)
  · split at h <;> (cases h; exact fun heq => nomatch heq)
  · cases h
    exact fun heq => nomatch heq
  · split at h
    · split at h <;> (cases h; try exact fun heq => nomatch heq)
    · rename_i hnone
      exact absurd himage hnone
  · split at h <;> (cases h; exact fun heq => nomatch heq)
  · cases h
    exact fun heq => nomatch heq
  · split at h <;> (cases h; try exact fun heq => nomatch heq)
  · split at h <;> (cases h; try exact fun heq => nomatch heq)
  · split at h <;> (cases h; try exact fun heq => nomatch heq)
  · cases h
    exact fun heq => nomatch heq
  · cases hx
  · obtain ⟨service, pod, hruns⟩ := hready
    rw [hruns.stored] at h
    cases h
    exact answered_eq hruns.ports
  · cases h

/-- The wait for the end of a pod that is not given up ends when the pod is gone. -/
theorem none_of_awaited (hx : x.succeeds = true)
    (h : r.perform s .awaitDeleted x = some (s', outcome)) : s.pods r.key = none := by
  cases x with
  | failure => cases hx
  | timeout => cases hx
  | call =>
      simp only [AgentRequest.perform, Option.ite_none_right_eq_some, Option.isNone_iff_eq_none] at h
      exact h.1
  | _ => cases h

/-- A step of a ready start leaves it ready, and nearer to its end. -/
theorem ready_of_performs {next : StartPhase} (hsound : s.Sound) (hready : phase.Ready r s)
    (hwait : phase = .awaitDeleted → s.pods r.key = none)
    (h : Performs r s phase s' (.continues next)) :
    next.Ready r s' ∧ next.rank < phase.rank := by
  cases h with
  | project _ => exact ⟨hready, by decide⟩
  | noProject hnew => exact ⟨hnew, by decide⟩
  | createProject hnew =>
      refine ⟨?_, by decide⟩
      by_contra hpod
      exact hnew (hsound.projects r.key (Option.isSome_iff_ne_none.mpr hpod))
  | @reuse service hservice _ =>
      exact ⟨⟨⟨service, hservice, rfl⟩, hready⟩, by simp [StartPhase.rank]⟩
  | replace _ _ => exact ⟨trivial, by decide⟩
  | noService _ => exact ⟨trivial, by simp [StartPhase.rank]⟩
  | deleteRoute => exact ⟨trivial, by decide⟩
  | deleteService => exact ⟨trivial, by decide⟩
  | noPod hnone => exact ⟨hnone, by decide⟩
  | deletePod _ => exact ⟨podless_terminatePod s r.key, by decide⟩
  | awaited => exact ⟨hwait rfl, by decide⟩
  | restart hnone _ _ => exact ⟨hnone, by simp [StartPhase.rank]⟩
  | leftPod _ => exact ⟨trivial, by simp [StartPhase.rank]⟩
  | nothing hnone => exact ⟨hnone, by simp [StartPhase.rank]⟩
  | findPorts => exact ⟨hready, by simp [StartPhase.rank]⟩
  | @build httpPort rsocketPort free _ =>
      exact ⟨⟨hready, httpPort, rsocketPort, free, rfl⟩, by simp [StartPhase.rank]⟩
  | servePublic _ =>
      exact ⟨⟨hready.1, Function.update_self .., hready.2⟩, by simp [StartPhase.rank]⟩
  | serve _ => exact ⟨⟨hready.1, Function.update_self .., hready.2⟩, by simp [StartPhase.rank]⟩
  | deletePublic =>
      exact ⟨⟨hready.1, hready.2.1, Function.update_self .., hready.2.2⟩,
        by simp [StartPhase.rank]⟩
  | createPublic _ =>
      exact ⟨⟨hready.1, hready.2.1, hready.2.2.2⟩, by simp [StartPhase.rank]⟩
  | @createService pod nodePort _ =>
      obtain ⟨hnone, -, httpPort, rsocketPort, free, rfl⟩ := hready
      exact ⟨⟨hnone, ⟨httpPort, rsocketPort, free, rfl⟩, _, Function.update_self ..,
        serves_build r httpPort rsocketPort free nodePort⟩, by simp [StartPhase.rank]⟩
  | @createPod pod _ =>
      obtain ⟨-, hbuilds, service, hservice, hserves⟩ := hready
      refine ⟨⟨service, pod, hservice, Function.update_self .., ?_, hserves,
        hasPorts_build hbuilds hserves⟩, by simp [StartPhase.rank]⟩
      obtain ⟨httpPort, rsocketPort, free, rfl⟩ := hbuilds
      rfl
  | ready => exact ⟨hready, by decide⟩

/-- What a start answers are the ports of the service of an agent that is up. -/
theorem runs_of_answers {answer : OpenShiftAgentPorts} (hsound : s.Sound)
    (hready : phase.Ready r s) (h : Performs r s phase s' (.answers answer)) :
    ∃ service pod, Runs r.key service pod s' ∧ r.agentPorts service.ports = some answer := by
  cases h with
  | @running ports pod _ hpod hanswer =>
      obtain ⟨⟨service, hservice, rfl⟩, hfound⟩ := hready
      have hlive := hfound.live pod hpod
      exact ⟨service, pod, ⟨hservice, hpod, hlive, hsound.served _ _ _ hservice hpod hlive,
        hfound.ports service hservice⟩, hanswer⟩
  | read hservice hanswer =>
      obtain ⟨found, pod, hruns⟩ := hready
      cases hruns.stored.symm.trans hservice
      exact ⟨_, pod, hruns, hanswer⟩

/-! ## A pod that is gone -/

theorem pods_goPod {pod : Pod} (h : (s.goPod key).pods r.key = some pod) :
    s.pods r.key = some pod := by
  simp only [Cluster.goPod, Function.update_apply] at h
  split at h
  · cases h
  · exact h

theorem none_goPod (key : AgentKey) (h : s.pods r.key = none) :
    (s.goPod key).pods r.key = none := by
  simp only [Cluster.goPod, Function.update_apply, h, ite_self]

theorem Found.goPod (h : Found r.key s) (key : AgentKey) : Found r.key (s.goPod key) :=
  ⟨h.ports, fun pod hpod => h.live pod (pods_goPod hpod)⟩

variable {service : Service} {pod : Pod}

theorem Runs.goPod (h : Runs r.key service pod s)
    (hgone : ∀ pod, s.pods key = some pod → pod.terminating = true) :
    Runs r.key service pod (s.goPod key) := by
  have hkey : r.key ≠ key := by
    rintro rfl
    exact absurd (h.live.symm.trans (hgone pod h.created)) Bool.false_ne_true
  exact ⟨h.stored, (Function.update_of_ne hkey ..).trans h.created, h.live, h.serves, h.ports⟩

/-- Where a pod on its way out is gone, a start is as ready as before. -/
theorem ready_goPod (hready : phase.Ready r s)
    (hgone : ∀ pod, s.pods key = some pod → pod.terminating = true) :
    phase.Ready r (s.goPod key) := by
  cases phase with
  | getProject => exact hready.goPod key
  | createProject => exact hready
  | getService => exact hready.goPod key
  | deleteRoute => trivial
  | deleteService => trivial
  | deletePod => trivial
  | awaitDeleted => exact fun pod hpod => hready pod (pods_goPod hpod)
  | getPod ports =>
      cases ports with
      | none => trivial
      | some ports => exact ⟨hready.1, hready.2.goPod key⟩
  | findPorts => exact none_goPod key hready
  | createAgent _ _ => exact none_goPod key hready
  | serve _ _ => exact ⟨none_goPod key hready.1, hready.2⟩
  | deletePublic _ _ => exact ⟨none_goPod key hready.1, hready.2⟩
  | createPublic _ _ => exact ⟨none_goPod key hready.1, hready.2⟩
  | createService _ => exact ⟨none_goPod key hready.1, hready.2⟩
  | createPod _ => exact ⟨none_goPod key hready.1, hready.2⟩
  | awaitReadiness =>
      obtain ⟨service, pod, hruns⟩ := hready
      exact ⟨service, pod, hruns.goPod hgone⟩
  | readPorts =>
      obtain ⟨service, pod, hruns⟩ := hready
      exact ⟨service, pod, hruns.goPod hgone⟩

/-! ## The whole start -/

/-- Nothing but the start acts, its calls succeed and its waits are not given up; the
cluster removes pods that are on their way out. -/
def Undisturbed (c : Config ManagerState AgentTask) : Label AgentTask Input → Prop
  | .act (.start _) _ => True
  | .act (.starting _ _) x => x.succeeds = true
  | .act .cluster (.gone key) =>
      ∀ pod, c.shared.cluster.pods key = some pod → pod.terminating = true
  | _ => False

def ofStart : Label AgentTask Input → Bool
  | .act (.start _) _ => true
  | .act (.starting _ _) _ => true
  | _ => false

/-- Where a start stands, with the steps that are left at most. -/
inductive Stage (r : AgentRequest) (before : List (AgentRequest × OpenShiftAgentPorts)) :
    Nat → Config ManagerState AgentTask → Prop
  | waiting {c : Config ManagerState AgentTask} : c.tasks.Perm [.start r, .cluster] →
      c.shared.locked = false → Found r.key c.shared.cluster → c.shared.answers = before →
      Stage r before 16 c
  | going {c : Config ManagerState AgentTask} {phase : StartPhase} :
      c.tasks.Perm [.starting r phase, .cluster] → phase.Ready r c.shared.cluster →
      c.shared.answers = before → Stage r before phase.rank c
  | done {c : Config ManagerState AgentTask} {service : Service} {pod : Pod}
      {answer : OpenShiftAgentPorts} : c.tasks = [.cluster] →
      Runs r.key service pod c.shared.cluster → r.agentPorts service.ports = some answer →
      c.shared.answers = (r, answer) :: before → Stage r before 0 c

variable {before : List (AgentRequest × OpenShiftAgentPorts)} {others : List AgentTask}

/-- The task that acts, and the one that is left. -/
theorem pair_inv {a b : AgentTask} (h : c.tasks.Perm [a, b]) (hpool : c.tasks.Perm (t :: others)) :
    t = a ∧ others = [b] ∨ t = b ∧ others = [a] := by
  have hpair := (hpool.symm.trans h)
  rcases List.mem_pair.mp (hpair.mem_iff.mp List.mem_cons_self) with rfl | rfl
  · exact .inl ⟨rfl, List.perm_singleton.mp ((List.perm_cons t).mp hpair)⟩
  · refine .inr ⟨rfl, List.perm_singleton.mp ((List.perm_cons t).mp ?_)⟩
    exact hpair.trans (List.Perm.swap t a [])

/-- Each step of the start brings it closer to its end. -/
theorem Stage.step (h : Stage r before n c) (hkeeps : Keeps c) (himage : r.image.isSome)
    (hstep : Step act c l c') (hok : Undisturbed c l) :
    ∃ n', Stage r before n' c' ∧ n' + (if ofStart l then 1 else 0) ≤ n := by
  cases hstep with
  | call t => exact hok.elim
  | @act t x m' ts others hpool hact =>
      cases h with
      | waiting htasks hfree hfound hbefore =>
          rcases pair_inv htasks hpool with ⟨rfl, rfl⟩ | ⟨rfl, rfl⟩
          · cases act_inv hact with
            | lock _ =>
                exact ⟨15, @Stage.going r before _ .getProject (List.Perm.refl _) hfound hbefore,
                  Nat.le_refl 16⟩
          · cases act_inv hact with
            | @gone key =>
                exact ⟨16, .waiting (List.Perm.swap ..) hfree (hfound.goPod key) hbefore,
                  Nat.le_refl 16⟩
      | @going _ phase htasks hready hbefore =>
          rcases pair_inv htasks hpool with ⟨rfl, rfl⟩ | ⟨rfl, rfl⟩
          · obtain ⟨result, hresult, heq⟩ := Option.map_eq_some_iff.mp hact
            obtain ⟨rfl, rfl⟩ := Prod.ext_iff.mp heq
            rcases result with ⟨cluster, outcome⟩
            have hperforms := perform_inv hresult
            cases outcome with
            | continues next =>
                have hwait : phase = .awaitDeleted → c.shared.cluster.pods r.key = none := by
                  rintro rfl
                  exact none_of_awaited hok hresult
                obtain ⟨hnext, hrank⟩ := ready_of_performs hkeeps.sound hready hwait hperforms
                exact ⟨next.rank, .going (List.Perm.refl _) hnext hbefore, hrank⟩
            | answers answer =>
                obtain ⟨service, pod, hruns, hanswer⟩ :=
                  runs_of_answers hkeeps.sound hready hperforms
                refine ⟨0, .done rfl hruns hanswer (congrArg ((r, answer) :: ·) hbefore), ?_⟩
                cases phase <;> simp [StartPhase.rank, ofStart]
            | throws =>
                exact absurd rfl (ne_throws_of_ready himage hready hok hresult)
          · cases act_inv hact with
            | gone =>
                exact ⟨phase.rank, .going (List.Perm.swap ..) (ready_goPod hready hok) hbefore,
                  Nat.le_refl _⟩
      | done htasks hruns hanswer hbefore =>
          rw [htasks] at hpool
          obtain ⟨rfl, rfl⟩ := List.cons.inj (List.singleton_perm.mp hpool)
          cases act_inv hact with
          | gone => exact ⟨0, .done rfl (hruns.goPod hok) hanswer hbefore, Nat.le_refl 0⟩

/-- A call that a ready start can make. -/
theorem exists_perform (himage : r.image.isSome) (hready : phase.Ready r s)
    (hwait : phase = .awaitDeleted → s.pods r.key = none) :
    ∃ x, x.succeeds = true ∧ ∃ result, r.perform s phase x = some result := by
  have hcall : ∀ {phase : StartPhase} {result : Cluster × Outcome},
      r.perform s phase .call = some result →
      ∃ x, x.succeeds = true ∧ ∃ result, r.perform s phase x = some result :=
    fun h => ⟨.call, rfl, _, h⟩
  cases phase with
  | getProject =>
      by_cases hfound : r.key.projectName ∈ s.projects
      · exact hcall (by simp only [AgentRequest.perform, if_pos hfound]; rfl)
      · exact hcall (by simp only [AgentRequest.perform, if_neg hfound]; rfl)
  | createProject => exact hcall (by simp only [AgentRequest.perform, if_neg hready]; rfl)
  | getService =>
      cases hservice : s.services r.key with
      | none => exact hcall (by simp only [AgentRequest.perform, hservice]; rfl)
      | some service =>
          cases hreusable : r.reusable with
          | false => exact hcall (by simp [AgentRequest.perform, hservice, hreusable]; rfl)
          | true => exact hcall (by simp [AgentRequest.perform, hservice, hreusable]; rfl)
  | deleteRoute => exact hcall rfl
  | deleteService => exact hcall rfl
  | deletePod =>
      cases hpod : s.pods r.key with
      | none => exact hcall (by simp only [AgentRequest.perform, hpod]; rfl)
      | some pod => exact hcall (by simp only [AgentRequest.perform, hpod]; rfl)
  | awaitDeleted => exact hcall (by simp only [AgentRequest.perform, hwait rfl]; rfl)
  | getPod ports =>
      cases ports with
      | none =>
          cases hpod : s.pods r.key with
          | none => exact hcall (by simp only [AgentRequest.perform, hpod]; rfl)
          | some pod => exact hcall (by simp only [AgentRequest.perform, hpod]; rfl)
      | some ports =>
          obtain ⟨⟨service, hservice, rfl⟩, hfound⟩ := hready
          obtain ⟨http, hhttp⟩ := Option.isSome_iff_exists.mp (hfound.ports service hservice).1
          obtain ⟨rsocket, hrsocket⟩ :=
            Option.isSome_iff_exists.mp (hfound.ports service hservice).2
          cases hpod : s.pods r.key with
          | none => exact hcall (by simp only [AgentRequest.perform, hpod, hhttp, hrsocket]; rfl)
          | some pod => exact hcall (by simp only [AgentRequest.perform, hpod]; rfl)
  | findPorts =>
      exact ⟨.ports 9000 10000, rfl, _, rfl⟩
  | createAgent httpPort rsocketPort =>
      refine ⟨.customPorts (r.customPorts.entries.map fun _ => 9000), rfl, ?_⟩
      simp [AgentRequest.perform, himage]
  | serve httpPort pod =>
      cases hpublic : r.isPublic with
      | false => exact hcall (by simp [AgentRequest.perform, hpublic]; rfl)
      | true => exact hcall (by simp [AgentRequest.perform, hpublic]; rfl)
  | deletePublic httpPort pod => exact hcall rfl
  | createPublic httpPort pod =>
      exact hcall (by simp only [AgentRequest.perform, hready.2.2.1]; rfl)
  | createService pod =>
      refine ⟨.nodePorts fun _ => 30000, rfl, ?_⟩
      simp [AgentRequest.perform, hready.2.1]
  | createPod pod => exact hcall (by simp only [AgentRequest.perform, hready.1]; rfl)
  | awaitReadiness => exact hcall rfl
  | readPorts =>
      obtain ⟨service, pod, hruns⟩ := hready
      exact hcall (by simp only [AgentRequest.perform, hruns.stored]; rfl)

/-- A start that has not ended can go on, or waits for a pod that can go away. -/
theorem Stage.progress (h : Stage r before n c) (himage : r.image.isSome) :
    (∃ l c', Step act c l c' ∧ Undisturbed c l ∧
      (ofStart l = true ∨ l = .act .cluster (.gone r.key))) ∨
    ∃ service pod answer, c.tasks = [.cluster] ∧ Runs r.key service pod c.shared.cluster ∧
      r.agentPorts service.ports = some answer ∧ c.shared.answers = (r, answer) :: before := by
  cases h with
  | waiting htasks hfree _ _ =>
      have hact : act (.start r) .call c.shared =
          some ({ c.shared with locked := true }, [.starting r .getProject]) := by
        simp only [act, hfree, Bool.false_eq_true, if_false]
      exact .inl ⟨.act (.start r) .call, _, .act htasks hact, trivial, .inl rfl⟩
  | @going _ phase htasks hready _ =>
      have hgo : (phase = .awaitDeleted → c.shared.cluster.pods r.key = none) →
          ∃ l c', Step act c l c' ∧ Undisturbed c l ∧
            (ofStart l = true ∨ l = .act .cluster (.gone r.key)) := by
        intro hwait
        obtain ⟨x, hx, result, hresult⟩ := exists_perform himage hready hwait
        have hact : act (.starting r phase) x c.shared =
            some (c.shared.settle r result.1 result.2) := by
          simp only [act, hresult, Option.map_some]
        exact ⟨.act (.starting r phase) x, _, .act htasks hact, hx, .inl rfl⟩
      by_cases hwait : phase = .awaitDeleted → c.shared.cluster.pods r.key = none
      · exact .inl (hgo hwait)
      · obtain ⟨rfl, -⟩ := Classical.not_imp.mp hwait
        have hpool := htasks.trans (List.Perm.swap _ _ [])
        exact .inl ⟨.act .cluster (.gone r.key), _, .act hpool rfl, hready, .inr rfl⟩
  | done htasks hruns hanswer hbefore =>
      exact .inr ⟨_, _, _, htasks, hruns, hanswer, hbefore⟩

/-- What an undisturbed start has come to after a run. -/
theorem stage_of_run (hsound : m.cluster.Sound) (hfree : m.locked = false)
    (himage : r.image.isSome) (hfound : Found r.key m.cluster)
    (hrun : Run act Undisturbed ⟨m, [.start r, .cluster]⟩ ls c) :
    Keeps c ∧ ∃ n, Stage r m.answers n c ∧ n + ls.countP ofStart ≤ 16 := by
  induction hrun with
  | refl =>
      refine ⟨⟨hsound, by rw [hfree]; rfl, fun r' phase' hmem => ?_⟩, 16,
        .waiting (List.Perm.refl _) hfree hfound rfl, Nat.le_refl 16⟩
      simp at hmem
  | @tail c' c'' ls l _ hstep hok ih =>
      obtain ⟨hkeeps, n, hstage, hcount⟩ := ih
      have henters : Enters c' l := by
        cases l with
        | call t => exact hok.elim
        | act t x => trivial
      obtain ⟨n', hstage', hless⟩ := hstage.step hkeeps himage hstep hok
      refine ⟨hkeeps.step hstep henters, n', hstage', ?_⟩
      rw [List.countP_append, List.countP_singleton]
      omega

theorem undisturbed_of_startsCache (c : Config ManagerState AgentTask)
    (l : Label AgentTask Input) (h : (startsCache l && ofStart l) = true) : Undisturbed c l := by
  obtain ⟨hstarts, hstart⟩ := Bool.and_eq_true_iff.mp h
  cases l with
  | call t => cases hstart
  | act t x =>
      cases t with
      | start r => trivial
      | starting r phase => exact hstarts
      | stop key phase => cases hstart
      | cluster => cases hstart

/-- A cluster that stores a service of the cache without its pod. -/
def podlessCluster : Cluster where
  projects := ["market"]
  services := Function.update (fun _ => none) cacheAgent.key
    (some (cacheAgent.buildService (cacheAgent.buildPod 9000 10000 [9500]) fun _ => 30000))

theorem found_podlessCluster : Found cacheAgent.key podlessCluster := by
  refine ⟨fun service hservice => ?_, fun pod hpod => ?_⟩
  · rw [podlessCluster] at hservice
    simp only [Function.update_self, Option.some.injEq] at hservice
    subst hservice
    exact hasPorts_build ⟨9000, 10000, [9500], rfl⟩ (serves_build cacheAgent 9000 10000 [9500] _)
  · cases hpod

end ArtPlatform.Agents
