import ArtPlatform.Common.Urls
import ArtPlatform.Foundation.Space
import Mathlib.Data.Finmap

/-!
# The OpenShift namespace of a project

What the OpenShift client stores for a project: deployment configs with their pod
template, the running pods, config maps, secrets, services and routes.  Every kind
of object has one object of a name.  The client stores what the configurators set,
so a stored object is the record that was built.

A Kotlin map is a finite map: its equality is the equality of the maps, whatever the
order of the entries.

Main results:

- Theorem `eraseTriggers_putEntry`: the value of a trigger variable is not seen once
  the trigger values are erased.
-/

namespace ArtPlatform

namespace Agent

/-! ## Maps -/

/-- A map from texts. -/
abbrev StringMap (α : Type) :=
  Finmap fun _ : String => α

/-- `toMap`: of two entries of one key the later one counts. -/
def toMap {α : Type} (entries : List (String × α)) : StringMap α :=
  entries.foldl (fun m e => m.insert e.1 e.2) ∅

theorem toMap_append_singleton {α : Type} (entries : List (String × α)) (e : String × α) :
    toMap (entries ++ [e]) = (toMap entries).insert e.1 e.2 := by
  simp [toMap]

/-- A key that no entry has is not found. -/
theorem lookup_toMap_eq_none {α : Type} {entries : List (String × α)} {k : String}
    (h : ∀ e ∈ entries, e.1 ≠ k) : (toMap entries).lookup k = none := by
  induction entries using List.reverseRecOn with
  | nil => rfl
  | append_singleton entries e ih =>
      have hne : k ≠ e.1 := (h e (by simp)).symm
      rw [toMap_append_singleton, Finmap.lookup_insert_of_ne _ hne]
      exact ih fun f hf => h f (List.mem_append_left _ hf)

/-- A key whose entries have one value is found with it. -/
theorem lookup_toMap_eq_some {α : Type} {entries : List (String × α)} {k : String} {v : α}
    (hmem : k ∈ entries.map Prod.fst) (hvalue : ∀ e ∈ entries, e.1 = k → e.2 = v) :
    (toMap entries).lookup k = some v := by
  induction entries using List.reverseRecOn with
  | nil => cases hmem
  | append_singleton entries e ih =>
      rw [toMap_append_singleton]
      by_cases hk : e.1 = k
      · have hv : e.2 = v := hvalue e (by simp) hk
        rw [← hk, hv]
        exact Finmap.lookup_insert _
      · rw [Finmap.lookup_insert_of_ne _ (Ne.symm hk)]
        apply ih
        · simpa [Ne.symm hk] using hmem
        · exact fun f hf => hvalue f (List.mem_append_left _ hf)

/-- `put` on a map that keeps the order in which its keys came. -/
def putEntry {α : Type} (entries : List (String × α)) (k : String) (v : α) :
    List (String × α) :=
  if k ∈ entries.map Prod.fst then
    entries.map fun e => if e.1 = k then (k, v) else e
  else entries ++ [(k, v)]

/-! ## Pods and their template -/

structure ContainerPort where
  name : String
  containerPort : Nat
  protocol : String
deriving DecidableEq, Repr

structure VolumeMount where
  name : String
  mountPath : String
  readOnly : Bool
deriving DecidableEq, Repr

structure Probe where
  path : Option String
  port : Nat
  scheme : String
  initialDelaySeconds : Nat
  timeoutSeconds : Nat
  periodSeconds : Nat
  successThreshold : Nat
  failureThreshold : Nat
deriving DecidableEq, Repr

structure Container where
  name : String
  image : String
  imagePullPolicy : String
  environment : List (String × String)
  ports : Finset ContainerPort
  volumeMounts : Finset VolumeMount
  commandArgs : Option (List String)
  livenessProbe : Option Probe
  readinessProbe : Option Probe
deriving DecidableEq

/-- A volume mounts a config map, a secret, or an empty directory. -/
structure Volume where
  name : String
  configMap : Option String
  secret : Option String
deriving DecidableEq, Repr

structure PodTemplate where
  containers : List Container
  volumes : Finset Volume
deriving DecidableEq

structure Pod where
  name : String
  containers : List Container
deriving DecidableEq

/-- `IPod.images`: the images of the containers, in their order. -/
def Pod.images (pod : Pod) : List String :=
  pod.containers.map Container.image

structure DeploymentConfig where
  name : String
  replicas : Nat
  replicaSelector : StringMap String
  template : PodTemplate
deriving DecidableEq

/-! ## Configuration, secrets and the network -/

structure ConfigMap where
  name : String
  data : StringMap String
deriving DecidableEq

structure Secret where
  name : String
  data : StringMap (List UInt8)
deriving DecidableEq

structure ServicePort where
  name : String
  port : Nat
  targetPort : Nat
  nodePort : Option Nat
deriving DecidableEq, Repr

inductive OpenShiftServiceType
  | clusterIp
  | loadBalancer
  | externalName
  | nodePort
deriving DecidableEq, Repr

structure Service where
  name : String
  type : OpenShiftServiceType
  clusterIP : Option String
  selector : StringMap String
  ports : List ServicePort
deriving DecidableEq

/-- A route; an absent path is the empty text. -/
structure Route where
  name : String
  serviceName : String
  host : String
  path : String
  port : Option Nat
deriving DecidableEq, Repr

instance : Keyed DeploymentConfig String := ⟨DeploymentConfig.name⟩
instance : Keyed ConfigMap String := ⟨ConfigMap.name⟩
instance : Keyed Secret String := ⟨Secret.name⟩
instance : Keyed Service String := ⟨Service.name⟩
instance : Keyed Route String := ⟨Route.name⟩

structure OpenShiftNamespace where
  deploymentConfigs : Space DeploymentConfig
  pods : List Pod
  configMaps : Space ConfigMap
  secrets : Space Secret
  services : Space Service
  routes : Space Route

def emptyNamespace : OpenShiftNamespace where
  deploymentConfigs := .empty
  pods := []
  configMaps := .empty
  secrets := .empty
  services := .empty
  routes := .empty

/-- The pods of a deployment: the name without the deployment's number and the pod's
own postfix, the pods that deploy it left out. -/
def OpenShiftNamespace.getDeploymentPods (ns : OpenShiftNamespace) (name : String) :
    List Pod :=
  ns.pods.filter fun pod =>
    substringBeforeLast (substringBeforeLast pod.name '-') '-' = name &&
      !endsWith pod.name "-deploy"

/-- `Secret.extractSecretData`: an absent key reads as the empty content. -/
def Secret.extractSecretData (secret : Secret) (dataKey : String) : List UInt8 :=
  (secret.data.lookup dataKey).getD []

def Secret.size (secret : Secret) : Nat :=
  secret.data.keys.card

/-! ## Configurations built by the configurators -/

structure OpenShiftProbes where
  probePath : Option String := none
  livenessProbe : Bool := false
  readinessProbe : Bool := false
deriving DecidableEq, Repr

structure OpenShiftPodConfiguration where
  containers : List Container := []
  volumes : Finset Volume := ∅
  probes : OpenShiftProbes := {}

structure OpenShiftDeploymentConfiguration where
  replicas : Nat := 0
  replicaSelector : StringMap String := ∅
  podConfiguration : OpenShiftPodConfiguration := {}

def httpProbe (path : Option String) : Probe where
  path := path
  port := 10000
  scheme := "HTTP"
  initialDelaySeconds := 10
  timeoutSeconds := 10
  periodSeconds := 10
  successThreshold := 1
  failureThreshold := 4

/-- The specification of a pod: the probes are set on every container. -/
def buildPod (configuration : OpenShiftPodConfiguration) : PodTemplate where
  containers := configuration.containers.map fun container =>
    { container with
      livenessProbe :=
        if configuration.probes.livenessProbe then
          some (httpProbe configuration.probes.probePath)
        else none
      readinessProbe :=
        if configuration.probes.readinessProbe then
          some (httpProbe configuration.probes.probePath)
        else none }
  volumes := configuration.volumes

/-- A container configured under a name replaces the one of that name in its place. -/
def putContainer (containers : List Container) (container : Container) : List Container :=
  if container.name ∈ containers.map Container.name then
    containers.map fun c => if c.name = container.name then container else c
  else containers ++ [container]

def buildDeploymentConfig (name : String) (configuration : OpenShiftDeploymentConfiguration) :
    DeploymentConfig where
  name := name
  replicas := configuration.replicas
  replicaSelector := configuration.replicaSelector
  template := buildPod configuration.podConfiguration

def createDeploymentConfig (name : String) (configuration : OpenShiftDeploymentConfiguration)
    (ns : OpenShiftNamespace) : OpenShiftNamespace :=
  { ns with
    deploymentConfigs :=
      ns.deploymentConfigs.put (buildDeploymentConfig name configuration) }

/-- An update without containers keeps the pod template. -/
def updateDeploymentConfig (name : String) (configuration : OpenShiftDeploymentConfiguration)
    (ns : OpenShiftNamespace) : OpenShiftNamespace :=
  match ns.deploymentConfigs.get name with
  | some current =>
      { ns with
        deploymentConfigs := ns.deploymentConfigs.put
          { current with
            replicaSelector := configuration.replicaSelector
            replicas := configuration.replicas
            template :=
              if configuration.podConfiguration.containers = [] then current.template
              else buildPod configuration.podConfiguration } }
  | none => createDeploymentConfig name configuration ns

/-! ## Trigger variables -/

def DEPLOYMENT_TRIGGER_VARIABLE_NAME : String :=
  "TRIGGER"

def isTrigger (variableName : String) : Bool :=
  startsWith variableName DEPLOYMENT_TRIGGER_VARIABLE_NAME

/-- The variables with the random values of the triggers blanked out. -/
def eraseTriggers (environment : List (String × String)) : List (String × String) :=
  environment.map fun entry =>
    if isTrigger entry.1 then (entry.1, "") else entry

/-- The value of a trigger variable is not seen once the trigger values are erased. -/
theorem eraseTriggers_putEntry (environment : List (String × String)) {k : String}
    (hk : isTrigger k = true) (v : String) :
    eraseTriggers (putEntry environment k v) = putEntry (eraseTriggers environment) k "" := by
  have hnames : (eraseTriggers environment).map Prod.fst = environment.map Prod.fst := by
    rw [eraseTriggers, List.map_map]
    refine List.map_congr_left fun entry _ => ?_
    simp only [Function.comp]
    split <;> rfl
  unfold putEntry
  rw [hnames]
  split
  · simp only [eraseTriggers, List.map_map]
    refine List.map_congr_left fun entry _ => ?_
    simp only [Function.comp]
    by_cases hname : entry.1 = k
    · simp [hname, hk]
    · by_cases htrigger : isTrigger entry.1 = true <;> simp [hname, htrigger]
  · simp [eraseTriggers, hk]

end Agent

end ArtPlatform
