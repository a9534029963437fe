import ArtPlatform.Common.Urls
import ArtPlatform.Foundation.Interleaving
import ArtPlatform.Foundation.LinkedMap
import Mathlib.Logic.Function.Basic

/-!
# The manager of agents

An agent is a pod with a service in front of it, and a route when it is public; all three
bear the name of the agent.  The manager starts an agent under a lock and stops it without
one.  A start reads what is stored under the name, deletes what it does not reuse, creates
the service and the pod, waits until the pod is ready and answers the node ports that the
cluster has given to the service.  Every call of the cluster is one step, and may throw; a
deleted pod stays for a while, and the wait for its end may be given up.

Main results:

- Theorem `perform_inv`: what a step of a start does.
- Theorem `act_inv`: what a step of the manager or of the cluster does.
- Theorem `serves_build`: the service of a pod has its ports and selects it.
- Theorem `listens_build`: the pod listens on the ports that are published for it.
-/

namespace ArtPlatform.Agents

open Interleaving

/-! ## What the cluster stores -/

structure AgentKey where
  projectName : String
  agentName : String
deriving DecidableEq, Repr

structure ServicePort where
  name : String
  port : Nat
  targetPort : Nat
  nodePort : Nat
deriving DecidableEq, Repr

structure Service where
  ports : List ServicePort
  podSelector : LinkedMap String String
deriving DecidableEq, Repr

structure Pod where
  labels : LinkedMap String String
  ports : LinkedMap String Nat
  environment : LinkedMap String String
  terminating : Bool := false
deriving DecidableEq, Repr

structure Route where
  host : String
  path : String
  targetPort : Nat
deriving DecidableEq, Repr

structure Cluster where
  projects : List String := []
  services : AgentKey → Option Service := fun _ => none
  pods : AgentKey → Option Pod := fun _ => none
  routes : AgentKey → Option Route := fun _ => none

/-! ## An agent that is asked for -/

def podGroup : String := "pod.group"
def rsocketPortProperty : String := "RSOCKET_PORT"
def httpPortProperty : String := "HTTP_PORT"
def rsocketPortName : String := "rsocket-port"
def httpPortName : String := "http-port"

structure AgentRequest where
  key : AgentKey
  reusable : Bool := false
  image : Option String := none
  url : String := ""
  applicationsDomain : String := ""
  customPorts : LinkedMap String String := .empty
  environmentVariables : LinkedMap String String := .empty
  labels : LinkedMap String String := .empty
deriving DecidableEq, Repr

structure OpenShiftPort where
  service : Nat
  node : Nat
deriving DecidableEq, Repr

structure OpenShiftAgentPorts where
  http : Nat
  rsocket : Nat
  custom : LinkedMap String OpenShiftPort
deriving DecidableEq, Repr

/-- The first port of a name; there may be none. -/
def firstPort (ports : List ServicePort) (name : String) : Option ServicePort :=
  ports.find? fun port => port.name = name

def AgentRequest.agentPorts (r : AgentRequest) (ports : List ServicePort) :
    Option OpenShiftAgentPorts :=
  match firstPort ports httpPortName, firstPort ports rsocketPortName with
  | some http, some rsocket => some
      { http := http.nodePort
        rsocket := rsocket.nodePort
        custom := .ofEntries
          ((ports.filter fun port => (r.customPorts.get port.name).isSome).map fun port =>
            (port.name, ⟨port.port, port.nodePort⟩)) }
  | _, _ => none

def putAll {α : Type} (m : LinkedMap String α) (entries : List (String × α)) :
    LinkedMap String α :=
  entries.foldl (fun m e => m.put e.1 e.2) m

theorem get_putAll_of_notMem {α : Type} {m : LinkedMap String α} {entries : List (String × α)}
    {key : String} (h : key ∉ entries.map Prod.fst) : (putAll m entries).get key = m.get key := by
  induction entries generalizing m with
  | nil => rfl
  | cons e entries ih =>
      simp only [List.map_cons, List.mem_cons, not_or] at h
      exact (ih h.2).trans ((m.get_put e.1 key e.2).trans (if_neg h.1))

theorem isSome_get_putAll {α : Type} {m : LinkedMap String α} {key : String}
    (h : (m.get key).isSome) (entries : List (String × α)) :
    ((putAll m entries).get key).isSome := by
  induction entries generalizing m with
  | nil => exact h
  | cons e entries ih =>
      refine ih ?_
      rw [LinkedMap.get_put]
      split
      · rfl
      · exact h

/-- The pod of an agent: the free ports that were found for it are given to it as the ports
of its container and in its environment. -/
def AgentRequest.buildPod (r : AgentRequest) (httpPort rsocketPort : Nat) (free : List Nat) :
    Pod where
  labels := putAll (LinkedMap.empty.put podGroup r.key.agentName) r.labels.entries
  ports :=
    putAll ((LinkedMap.empty.put rsocketPortName rsocketPort).put httpPortName httpPort)
      ((r.customPorts.entries.map Prod.fst).zip free)
  environment :=
    putAll
      (putAll
        ((LinkedMap.empty.put rsocketPortProperty (toString rsocketPort)).put httpPortProperty
          (toString httpPort))
        r.environmentVariables.entries)
      ((r.customPorts.entries.map Prod.snd).zip (free.map toString))

/-- The service of a pod, with the node ports that the cluster gives it. -/
def AgentRequest.buildService (r : AgentRequest) (pod : Pod) (nodePort : String → Nat) :
    Service where
  ports := (LinkedMap.ofEntries pod.ports.entries).entries.map fun e =>
    ⟨e.1, e.2, e.2, nodePort e.1⟩
  podSelector := LinkedMap.empty.put podGroup ((pod.labels.get podGroup).getD r.key.agentName)

def AgentRequest.isPublic (r : AgentRequest) : Bool :=
  !isBlank r.url

def AgentRequest.buildRoute (r : AgentRequest) (httpPort : Nat) : Route where
  host := removeAll (extractHostName r.url) ("." ++ r.applicationsDomain) ++ "." ++
    r.applicationsDomain
  path := extractPath r.url ""
  targetPort := httpPort

/-- A service that selects a pod and has a port for each of its ports. -/
structure Service.Serves (service : Service) (pod : Pod) : Prop where
  selects : ∀ e ∈ service.podSelector.entries, pod.labels.get e.1 = some e.2
  ports : service.ports.map (fun port => (port.name, port.targetPort)) = pod.ports.entries

/-- The ports of a pod are found at its service. -/
theorem Service.Serves.get {service : Service} {pod : Pod} (h : service.Serves pod)
    (name : String) :
    pod.ports.get name = (firstPort service.ports name).map ServicePort.targetPort := by
  rw [LinkedMap.get, ← h.ports, List.find?_map, Option.map_map, firstPort]
  rfl

/-- A pod is told to listen on the ports that are published for it. -/
structure Pod.Listens (pod : Pod) : Prop where
  rsocket : pod.environment.get rsocketPortProperty = (pod.ports.get rsocketPortName).map toString
  http : pod.environment.get httpPortProperty = (pod.ports.get httpPortName).map toString

/-- The variables and ports of a request are none of those of every agent. -/
structure AgentRequest.KeepsPorts (r : AgentRequest) : Prop where
  environment : ∀ name ∈ r.environmentVariables.entries.map Prod.fst,
    name ≠ rsocketPortProperty ∧ name ≠ httpPortProperty
  customVariables : ∀ name ∈ r.customPorts.entries.map Prod.snd,
    name ≠ rsocketPortProperty ∧ name ≠ httpPortProperty
  customPorts : ∀ name ∈ r.customPorts.entries.map Prod.fst,
    name ≠ rsocketPortName ∧ name ≠ httpPortName

/-- A pod that some free ports give. -/
def AgentRequest.Builds (r : AgentRequest) (pod : Pod) : Prop :=
  ∃ httpPort rsocketPort free, pod = r.buildPod httpPort rsocketPort free

theorem mem_of_mem_zip_fst {α : Type} {names : List String} {values : List α} {name : String}
    (h : name ∈ (names.zip values).map Prod.fst) : name ∈ names := by
  obtain ⟨e, he, rfl⟩ := List.mem_map.mp h
  exact (List.of_mem_zip he).1

/-- The service of a pod has its ports and selects it. -/
theorem serves_build (r : AgentRequest) (httpPort rsocketPort : Nat) (free : List Nat)
    (nodePort : String → Nat) :
    (r.buildService (r.buildPod httpPort rsocketPort free) nodePort).Serves
      (r.buildPod httpPort rsocketPort free) := by
  constructor
  · intro e he
    rcases LinkedMap.mem_putEntry he with rfl | hnone
    · have hgroup : ((LinkedMap.empty.put podGroup r.key.agentName).get podGroup).isSome = true := by
        rw [LinkedMap.get_put, if_pos rfl]
        rfl
      have hsome := isSome_get_putAll hgroup r.labels.entries
      obtain ⟨group, hgroup⟩ := Option.isSome_iff_exists.mp hsome
      simp only [AgentRequest.buildPod, hgroup, Option.getD_some]
    · exact absurd hnone List.not_mem_nil
  · simp only [AgentRequest.buildService, List.map_map, LinkedMap.ofEntries_entries]
    exact List.map_id _

/-- The pod listens on the ports that are published for it. -/
theorem listens_build {r : AgentRequest} (h : r.KeepsPorts) (httpPort rsocketPort : Nat)
    (free : List Nat) : (r.buildPod httpPort rsocketPort free).Listens := by
  have hvariables : ∀ name, name = rsocketPortProperty ∨ name = httpPortProperty →
      name ∉ r.environmentVariables.entries.map Prod.fst := by
    rintro name (rfl | rfl) hmem
    · exact (h.environment _ hmem).1 rfl
    · exact (h.environment _ hmem).2 rfl
  have hcustom : ∀ name, name = rsocketPortProperty ∨ name = httpPortProperty →
      name ∉ ((r.customPorts.entries.map Prod.snd).zip (free.map toString)).map Prod.fst := by
    rintro name (rfl | rfl) hmem
    · exact (h.customVariables _ (mem_of_mem_zip_fst hmem)).1 rfl
    · exact (h.customVariables _ (mem_of_mem_zip_fst hmem)).2 rfl
  have hports : ∀ name, name = rsocketPortName ∨ name = httpPortName →
      name ∉ ((r.customPorts.entries.map Prod.fst).zip free).map Prod.fst := by
    rintro name (rfl | rfl) hmem
    · exact (h.customPorts _ (mem_of_mem_zip_fst hmem)).1 rfl
    · exact (h.customPorts _ (mem_of_mem_zip_fst hmem)).2 rfl
  constructor
  · simp only [AgentRequest.buildPod]
    rw [get_putAll_of_notMem (hcustom _ (.inl rfl)), get_putAll_of_notMem (hvariables _ (.inl rfl)),
      get_putAll_of_notMem (hports _ (.inl rfl))]
    simp [LinkedMap.get_put, rsocketPortProperty, httpPortProperty, rsocketPortName, httpPortName]
  · simp only [AgentRequest.buildPod]
    rw [get_putAll_of_notMem (hcustom _ (.inr rfl)), get_putAll_of_notMem (hvariables _ (.inr rfl)),
      get_putAll_of_notMem (hports _ (.inr rfl))]
    simp [LinkedMap.get_put]

/-! ## The steps of a start -/

/-- What a start has to do next, with what it has read and chosen so far. -/
inductive StartPhase
  | getProject
  | createProject
  | getService
  | deleteRoute
  | deleteService
  | deletePod
  | awaitDeleted
  | getPod (ports : Option (List ServicePort))
  | findPorts
  | createAgent (httpPort rsocketPort : Nat)
  | serve (httpPort : Nat) (pod : Pod)
  | deletePublic (httpPort : Nat) (pod : Pod)
  | createPublic (httpPort : Nat) (pod : Pod)
  | createService (pod : Pod)
  | createPod (pod : Pod)
  | awaitReadiness
  | readPorts

inductive Outcome
  | continues (phase : StartPhase)
  | answers (ports : OpenShiftAgentPorts)
  | throws

/-- What a step is told: that a call succeeds or throws, the free ports that are found, the
node ports of a service, how a wait ends, the pod that is gone. -/
inductive Input
  | call
  | failure
  | ports (httpPort rsocketPort : Nat)
  | customPorts (free : List Nat)
  | nodePorts (nodePort : String → Nat)
  | timeout
  | gone (key : AgentKey)

/-- A call that does not throw, a wait that is not given up. -/
def Input.succeeds : Input → Bool
  | .failure => false
  | .timeout => false
  | _ => true

namespace Cluster

def deleteRoute (s : Cluster) (key : AgentKey) : Cluster :=
  { s with routes := Function.update s.routes key none }

def deleteService (s : Cluster) (key : AgentKey) : Cluster :=
  { s with services := Function.update s.services key none }

/-- A deleted pod is terminating until it is gone. -/
def terminatePod (s : Cluster) (key : AgentKey) : Cluster :=
  { s with
    pods := Function.update s.pods key
      ((s.pods key).map fun pod => { pod with terminating := true }) }

def goPod (s : Cluster) (key : AgentKey) : Cluster :=
  { s with pods := Function.update s.pods key none }

end Cluster

def answered (answer : Option OpenShiftAgentPorts) : Outcome :=
  match answer with
  | some ports => .answers ports
  | none => .throws

/-- One step of the start of an agent. -/
def AgentRequest.perform (r : AgentRequest) (s : Cluster) :
    StartPhase → Input → Option (Cluster × Outcome)
  | _, .failure => some (s, .throws)
  | .getProject, .call =>
      if r.key.projectName ∈ s.projects then some (s, .continues .getService)
      else some (s, .continues .createProject)
  | .createProject, .call =>
      if r.key.projectName ∈ s.projects then none
      else some ({ s with projects := r.key.projectName :: s.projects }, .continues .findPorts)
  | .getService, .call =>
      match s.services r.key with
      | some service =>
          if r.reusable then some (s, .continues (.getPod (some service.ports)))
          else some (s, .continues .deleteRoute)
      | none => some (s, .continues (.getPod none))
  | .deleteRoute, .call => some (s.deleteRoute r.key, .continues .deleteService)
  | .deleteService, .call => some (s.deleteService r.key, .continues .deletePod)
  | .deletePod, .call =>
      match s.pods r.key with
      | none => some (s, .continues .findPorts)
      | some _ => some (s.terminatePod r.key, .continues .awaitDeleted)
  | .awaitDeleted, .call =>
      if (s.pods r.key).isNone then some (s, .continues .findPorts) else none
  -- nobody looks whether the pod is deleted
  | .awaitDeleted, .timeout => some (s, .continues .findPorts)
  | .getPod (some ports), .call =>
      match s.pods r.key with
      | some _ => some (s, answered (r.agentPorts ports))
      | none =>
          match firstPort ports httpPortName, firstPort ports rsocketPortName with
          | some http, some rsocket => some (s, .continues (.createAgent http.port rsocket.port))
          | _, _ => some (s, .throws)
  | .getPod none, .call =>
      match s.pods r.key with
      | some _ => some (s, .continues .deletePod)
      | none => some (s, .continues .findPorts)
  | .findPorts, .ports httpPort rsocketPort =>
      some (s, .continues (.createAgent httpPort rsocketPort))
  | .createAgent httpPort rsocketPort, .customPorts free =>
      if r.image.isSome then
        if free.length = r.customPorts.entries.length then
          some (s, .continues (.serve httpPort (r.buildPod httpPort rsocketPort free)))
        else none
      else some (s, .throws)
  | .serve httpPort pod, .call =>
      if r.isPublic then some (s.deleteService r.key, .continues (.deletePublic httpPort pod))
      else some (s.deleteService r.key, .continues (.createService pod))
  | .deletePublic httpPort pod, .call =>
      some (s.deleteRoute r.key, .continues (.createPublic httpPort pod))
  | .createPublic httpPort pod, .call =>
      if (s.routes r.key).isSome then none
      else some
        ({ s with routes := Function.update s.routes r.key (some (r.buildRoute httpPort)) },
          .continues (.createService pod))
  | .createService pod, .nodePorts nodePort =>
      if (s.services r.key).isSome then none
      else some
        ({ s with
            services := Function.update s.services r.key (some (r.buildService pod nodePort)) },
          .continues (.createPod pod))
  | .createPod pod, .call =>
      if (s.pods r.key).isSome then none
      else some
        ({ s with pods := Function.update s.pods r.key (some pod) }, .continues .awaitReadiness)
  | .awaitReadiness, .call => some (s, .continues .readPorts)
  | .awaitReadiness, .timeout => some (s, .throws)
  | .readPorts, .call =>
      match s.services r.key with
      | some service => some (s, answered (r.agentPorts service.ports))
      | none => some (s, .throws)
  | _, _ => none

/-- What a step of a start does. -/
inductive Performs (r : AgentRequest) (s : Cluster) : StartPhase → Cluster → Outcome → Prop
  | throws {phase : StartPhase} : Performs r s phase s .throws
  | project : r.key.projectName ∈ s.projects →
      Performs r s .getProject s (.continues .getService)
  | noProject : r.key.projectName ∉ s.projects →
      Performs r s .getProject s (.continues .createProject)
  | createProject : r.key.projectName ∉ s.projects →
      Performs r s .createProject { s with projects := r.key.projectName :: s.projects }
        (.continues .findPorts)
  | reuse {service : Service} : s.services r.key = some service → r.reusable = true →
      Performs r s .getService s (.continues (.getPod (some service.ports)))
  | replace {service : Service} : s.services r.key = some service → r.reusable = false →
      Performs r s .getService s (.continues .deleteRoute)
  | noService : s.services r.key = none →
      Performs r s .getService s (.continues (.getPod none))
  | deleteRoute : Performs r s .deleteRoute (s.deleteRoute r.key) (.continues .deleteService)
  | deleteService : Performs r s .deleteService (s.deleteService r.key) (.continues .deletePod)
  | noPod : s.pods r.key = none → Performs r s .deletePod s (.continues .findPorts)
  | deletePod {pod : Pod} : s.pods r.key = some pod →
      Performs r s .deletePod (s.terminatePod r.key) (.continues .awaitDeleted)
  | awaited : Performs r s .awaitDeleted s (.continues .findPorts)
  | running {ports : List ServicePort} {pod : Pod} {answer : OpenShiftAgentPorts} :
      s.pods r.key = some pod → r.agentPorts ports = some answer →
      Performs r s (.getPod (some ports)) s (.answers answer)
  | restart {ports : List ServicePort} {http rsocket : ServicePort} : s.pods r.key = none →
      firstPort ports httpPortName = some http → firstPort ports rsocketPortName = some rsocket →
      Performs r s (.getPod (some ports)) s (.continues (.createAgent http.port rsocket.port))
  | leftPod {pod : Pod} : s.pods r.key = some pod →
      Performs r s (.getPod none) s (.continues .deletePod)
  | nothing : s.pods r.key = none → Performs r s (.getPod none) s (.continues .findPorts)
  | findPorts {httpPort rsocketPort : Nat} :
      Performs r s .findPorts s (.continues (.createAgent httpPort rsocketPort))
  | build {httpPort rsocketPort : Nat} {free : List Nat} : r.image.isSome = true →
      Performs r s (.createAgent httpPort rsocketPort) s
        (.continues (.serve httpPort (r.buildPod httpPort rsocketPort free)))
  | servePublic {httpPort : Nat} {pod : Pod} : r.isPublic = true →
      Performs r s (.serve httpPort pod) (s.deleteService r.key)
        (.continues (.deletePublic httpPort pod))
  | serve {httpPort : Nat} {pod : Pod} : r.isPublic = false →
      Performs r s (.serve httpPort pod) (s.deleteService r.key) (.continues (.createService pod))
  | deletePublic {httpPort : Nat} {pod : Pod} :
      Performs r s (.deletePublic httpPort pod) (s.deleteRoute r.key)
        (.continues (.createPublic httpPort pod))
  | createPublic {httpPort : Nat} {pod : Pod} : s.routes r.key = none →
      Performs r s (.createPublic httpPort pod)
        { s with routes := Function.update s.routes r.key (some (r.buildRoute httpPort)) }
        (.continues (.createService pod))
  | createService {pod : Pod} {nodePort : String → Nat} : s.services r.key = none →
      Performs r s (.createService pod)
        { s with
          services := Function.update s.services r.key (some (r.buildService pod nodePort)) }
        (.continues (.createPod pod))
  | createPod {pod : Pod} : s.pods r.key = none →
      Performs r s (.createPod pod)
        { s with pods := Function.update s.pods r.key (some pod) } (.continues .awaitReadiness)
  | ready : Performs r s .awaitReadiness s (.continues .readPorts)
  | read {service : Service} {answer : OpenShiftAgentPorts} : s.services r.key = some service →
      r.agentPorts service.ports = some answer → Performs r s .readPorts s (.answers answer)

variable {r : AgentRequest} {s s' : Cluster} {phase : StartPhase} {outcome : Outcome} {x : Input}
  {key : AgentKey}

theorem performs_answered {ports : List ServicePort}
    (h : ∀ answer, r.agentPorts ports = some answer → Performs r s phase s (.answers answer)) :
    Performs r s phase s (answered (r.agentPorts ports)) := by
  cases hports : r.agentPorts ports with
  | none => exact .throws
  | some answer => exact h answer hports

theorem perform_inv (h : r.perform s phase x = some (s', outcome)) :
    Performs r s phase s' outcome := by
  unfold AgentRequest.perform at h
  split at h
  · cases h
    exact .throws
  · split at h
    · cases h
      exact .project ‹_›
    · cases h
      exact .noProject ‹_›
  · split at h
    · cases h
    · cases h
      exact .createProject ‹_›
  · split at h
    · rename_i service hservice
      split at h
      · cases h
        exact .reuse hservice ‹_›
      · cases h
        exact .replace hservice (Bool.eq_false_iff.mpr ‹_›)
    · cases h
      exact .noService ‹_›
  · cases h
    exact .deleteRoute
  · cases h
    exact .deleteService
  · split at h
    · cases h
      exact .noPod ‹_›
    · cases h
      exact .deletePod ‹_›
  · split at h
    · cases h
      exact .awaited
    · cases h
  · cases h
    exact .awaited
  · split at h
    · rename_i pod hpod
      cases h
      exact performs_answered fun answer hanswer => .running hpod hanswer
    · rename_i hnone
      split at h
      · rename_i http rsocket hhttp hrsocket
        cases h
        exact .restart hnone hhttp hrsocket
      · cases h
        exact .throws
  · split at h
    · cases h
      exact .leftPod ‹_›
    · cases h
      exact .nothing ‹_›
  · cases h
    exact .findPorts
  · split at h
    · split at h
      · cases h
        exact .build ‹_›
      · cases h
    · cases h
      exact .throws
  · split at h
    · cases h
      exact .servePublic ‹_›
    · cases h
      exact .serve (Bool.eq_false_iff.mpr ‹_›)
  · cases h
    exact .deletePublic
  · split at h
    · cases h
    · cases h
      exact .createPublic (Option.not_isSome_iff_eq_none.mp ‹_›)
  · split at h
    · cases h
    · cases h
      exact .createService (Option.not_isSome_iff_eq_none.mp ‹_›)
  · split at h
    · cases h
    · cases h
      exact .createPod (Option.not_isSome_iff_eq_none.mp ‹_›)
  · cases h
    exact .ready
  · cases h
    exact .throws
  · split at h
    · rename_i service hservice
      cases h
      exact performs_answered fun answer hanswer => .read hservice hanswer
    · cases h
      exact .throws
  · cases h

/-! ## The manager -/

structure ManagerState where
  cluster : Cluster := {}
  locked : Bool := false
  answers : List (AgentRequest × OpenShiftAgentPorts) := []

/-- What is left of a stop. -/
inductive StopPhase
  | getProject
  | deletePod
  | awaitDeleted
  | deleteService
  | deleteRoute
deriving DecidableEq, Repr

/-- A start that waits for the lock or has it, a stop, and the cluster, which removes pods. -/
inductive AgentTask
  | start (r : AgentRequest)
  | starting (r : AgentRequest) (phase : StartPhase)
  | stop (key : AgentKey) (phase : StopPhase)
  | cluster

/-- One step of a stop; the wait for the pod is part of it, its result is not used. -/
def stopStep (s : Cluster) (key : AgentKey) : StopPhase → Input → Option (Cluster × List AgentTask)
  | _, .failure => some (s, [])
  | .getProject, .call =>
      if key.projectName ∈ s.projects then some (s, [.stop key .deletePod]) else some (s, [])
  | .deletePod, .call =>
      match s.pods key with
      | none => some (s, [.stop key .deleteService])
      | some _ => some (s.terminatePod key, [.stop key .awaitDeleted])
  | .awaitDeleted, .call =>
      if (s.pods key).isNone then some (s, [.stop key .deleteService]) else none
  | .awaitDeleted, .timeout => some (s, [.stop key .deleteService])
  | .deleteService, .call => some (s.deleteService key, [.stop key .deleteRoute])
  | .deleteRoute, .call => some (s.deleteRoute key, [])
  | _, _ => none

/-- How the manager goes on; the lock is held until the start ends. -/
def ManagerState.settle (s : ManagerState) (r : AgentRequest) (cluster : Cluster) :
    Outcome → ManagerState × List AgentTask
  | .continues phase => ({ s with cluster := cluster }, [.starting r phase])
  | .answers ports =>
      ({ s with cluster := cluster, locked := false, answers := (r, ports) :: s.answers }, [])
  | .throws => ({ s with cluster := cluster, locked := false }, [])

def act : Actions ManagerState AgentTask Input
  | .start r, .call, s =>
      if s.locked then none else some ({ s with locked := true }, [.starting r .getProject])
  | .starting r phase, x, s =>
      (r.perform s.cluster phase x).map fun result => s.settle r result.1 result.2
  | .stop key phase, x, s =>
      (stopStep s.cluster key phase x).map fun result =>
        ({ s with cluster := result.1 }, result.2)
  | .cluster, .gone key, s => some ({ s with cluster := s.cluster.goPod key }, [.cluster])
  | _, _, _ => none

/-- Starts, stops and the cluster enter at their beginning. -/
def Enters (_ : Config ManagerState AgentTask) : Label AgentTask Input → Prop
  | .call (.starting _ _) => False
  | .call (.stop _ phase) => phase = .getProject
  | _ => True

/-! ## What a step does -/

/-- What happens to the objects of an agent that nobody starts. -/
inductive Removes (key : AgentKey) (s : Cluster) : Cluster → Prop
  | same : Removes key s s
  | terminatePod : Removes key s (s.terminatePod key)
  | goPod : Removes key s (s.goPod key)
  | deleteService : Removes key s (s.deleteService key)
  | deleteRoute : Removes key s (s.deleteRoute key)

def AgentTask.isStarting : AgentTask → Bool
  | .starting _ _ => true
  | _ => false

variable {stopPhase : StopPhase} {ts : List AgentTask} {m m' : ManagerState} {t : AgentTask}

/-- A stop removes what bears its name, and goes on or ends. -/
theorem stopStep_inv (h : stopStep s key stopPhase x = some (s', ts)) :
    Removes key s s' ∧ ∀ t ∈ ts, ∃ phase', t = .stop key phase' := by
  have hsingle : ∀ phase' : StopPhase, ∀ t ∈ [AgentTask.stop key phase'],
      ∃ phase'', t = .stop key phase'' :=
    fun phase' t ht => ⟨phase', List.mem_singleton.mp ht⟩
  have hnone : ∀ t ∈ ([] : List AgentTask), ∃ phase'', t = .stop key phase'' :=
    fun _ ht => absurd ht List.not_mem_nil
  unfold stopStep at h
  split at h
  · cases h
    exact ⟨.same, hnone⟩
  · split at h
    · cases h
      exact ⟨.same, hsingle _⟩
    · cases h
      exact ⟨.same, hnone⟩
  · split at h
    · cases h
      exact ⟨.same, hsingle _⟩
    · cases h
      exact ⟨.terminatePod, hsingle _⟩
  · split at h
    · cases h
      exact ⟨.same, hsingle _⟩
    · cases h
  · cases h
    exact ⟨.same, hsingle _⟩
  · cases h
    exact ⟨.deleteService, hsingle _⟩
  · cases h
    exact ⟨.deleteRoute, hnone⟩
  · cases h

/-- What a step of the manager or of the cluster does. -/
inductive Acts (m : ManagerState) : AgentTask → Input → ManagerState → List AgentTask → Prop
  | lock {r : AgentRequest} {x : Input} : m.locked = false →
      Acts m (.start r) x { m with locked := true } [.starting r .getProject]
  | perform {r : AgentRequest} {phase : StartPhase} {x : Input} {cluster : Cluster}
      {outcome : Outcome} : Performs r m.cluster phase cluster outcome →
      Acts m (.starting r phase) x (m.settle r cluster outcome).1 (m.settle r cluster outcome).2
  | stop {key : AgentKey} {phase : StopPhase} {x : Input} {cluster : Cluster}
      {ts : List AgentTask} : Removes key m.cluster cluster →
      (∀ t ∈ ts, ∃ phase', t = .stop key phase') →
      Acts m (.stop key phase) x { m with cluster := cluster } ts
  | gone {key : AgentKey} :
      Acts m .cluster (.gone key) { m with cluster := m.cluster.goPod key } [.cluster]

theorem act_inv (h : act t x m = some (m', ts)) : Acts m t x m' ts := by
  unfold act at h
  split at h
  · split at h
    · cases h
    · cases h
      exact .lock (Bool.eq_false_iff.mpr ‹_›)
  · obtain ⟨result, hresult, heq⟩ := Option.map_eq_some_iff.mp h
    obtain ⟨rfl, rfl⟩ := Prod.ext_iff.mp heq
    exact .perform (perform_inv hresult)
  · obtain ⟨result, hresult, heq⟩ := Option.map_eq_some_iff.mp h
    cases heq
    obtain ⟨hremoves, hstops⟩ := stopStep_inv hresult
    exact .stop hremoves hstops
  · cases h
    exact .gone
  · cases h

end ArtPlatform.Agents
