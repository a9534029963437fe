import ArtPlatform.Agent.OpenShiftNamespace

/-!
# What an update of a deployment config changes

A configurator of a deployment config is a sequence of calls of its setters, on a
configuration that starts with the defaults.  The update writes the replica selector and
the replica count of the configuration whether they were set or not, and the pod template
only when the configuration has containers.

Main results:

- Theorem `updateDeploymentConfig_changesOnlySet_iff`: exactly when an update keeps the
  attributes that its configurator does not set.
- Theorem `replicas_clears_selector`: a configurator that sets the replica count only
  clears the replica selector.
-/

namespace ArtPlatform

namespace Agent

/-! ## Configurators -/

/-- A call of `OpenShiftDeploymentConfigurator`.  The pod comes configured, with its
labels beside the part of it that reaches the template. -/
inductive DeploymentSetter
  | replicas (replicas : Nat)
  | pod (labels : StringMap String) (configuration : OpenShiftPodConfiguration)
  | label (name value : String)
  | replicaSelectorEntry (name value : String)
  | replicaSelector (selector : StringMap String)

/-- An attribute of a deployment config that an update can write. -/
inductive DeploymentAttribute
  | replicaSelector
  | replicas
  | podTemplate
deriving DecidableEq, Repr

namespace DeploymentSetter

def apply (configuration : OpenShiftDeploymentConfiguration) :
    DeploymentSetter → OpenShiftDeploymentConfiguration
  | replicas n => { configuration with replicas := n }
  | pod labels podConfiguration =>
      { configuration with podConfiguration := podConfiguration, replicaSelector := labels }
  -- the labels of the deployment config itself are not read by the update
  | label _ _ => configuration
  | replicaSelectorEntry name value =>
      { configuration with replicaSelector := configuration.replicaSelector.insert name value }
  | replicaSelector selector => { configuration with replicaSelector := selector }

/-- The attributes that a call sets. -/
def sets : DeploymentSetter → DeploymentAttribute → Bool
  | replicas _, .replicas => true
  | pod _ _, .podTemplate => true
  | pod _ _, .replicaSelector => true
  | replicaSelectorEntry _ _, .replicaSelector => true
  | replicaSelector _, .replicaSelector => true
  | _, _ => false

end DeploymentSetter

/-- The calls of a configurator, in their order. -/
structure DeploymentConfigurator where
  calls : List DeploymentSetter

namespace DeploymentConfigurator

def configuration (configurator : DeploymentConfigurator) : OpenShiftDeploymentConfiguration :=
  configurator.calls.foldl DeploymentSetter.apply {}

def sets (configurator : DeploymentConfigurator) (attr : DeploymentAttribute) : Bool :=
  configurator.calls.any fun call => call.sets attr

end DeploymentConfigurator

/-! ## Attributes that no call sets -/

/-- What a reading of the configuration gives, as long as no call sets the attribute
that it reads. -/
theorem read_foldl_of_not_sets {α : Type} {attr : DeploymentAttribute}
    (read : OpenShiftDeploymentConfiguration → α)
    (hread : ∀ configuration call, call.sets attr = false →
      read (DeploymentSetter.apply configuration call) = read configuration)
    {calls : List DeploymentSetter} (h : (calls.any fun call => call.sets attr) = false)
    (configuration : OpenShiftDeploymentConfiguration) :
    read (calls.foldl DeploymentSetter.apply configuration) = read configuration := by
  induction calls generalizing configuration with
  | nil => rfl
  | cons call rest ih =>
      rw [List.any_cons, Bool.or_eq_false_iff] at h
      rw [List.foldl_cons, ih h.2]
      exact hread configuration call h.1

variable {configurator : DeploymentConfigurator}

theorem replicaSelector_of_not_sets (h : configurator.sets .replicaSelector = false) :
    configurator.configuration.replicaSelector = ∅ := by
  apply read_foldl_of_not_sets OpenShiftDeploymentConfiguration.replicaSelector _ h
  intro configuration call hcall
  cases call <;> first | rfl | cases hcall

theorem replicas_of_not_sets (h : configurator.sets .replicas = false) :
    configurator.configuration.replicas = 0 := by
  apply read_foldl_of_not_sets OpenShiftDeploymentConfiguration.replicas _ h
  intro configuration call hcall
  cases call <;> first | rfl | cases hcall

theorem podConfiguration_of_not_sets (h : configurator.sets .podTemplate = false) :
    configurator.configuration.podConfiguration = {} := by
  apply read_foldl_of_not_sets OpenShiftDeploymentConfiguration.podConfiguration _ h
  intro configuration call hcall
  cases call <;> first | rfl | cases hcall

/-! ## The update -/

/-- The deployment config that an update stores in the place of an existing one. -/
def DeploymentConfig.updated (current : DeploymentConfig)
    (configuration : OpenShiftDeploymentConfiguration) : DeploymentConfig :=
  { current with
    replicaSelector := configuration.replicaSelector
    replicas := configuration.replicas
    template :=
      if configuration.podConfiguration.containers = [] then current.template
      else buildPod configuration.podConfiguration }

/-- Each attribute that the configurator does not set has its old value. -/
structure DeploymentConfig.KeepsUnset (configurator : DeploymentConfigurator)
    (current after : DeploymentConfig) : Prop where
  name : after.name = current.name
  replicaSelector : configurator.sets .replicaSelector = false →
    after.replicaSelector = current.replicaSelector
  replicas : configurator.sets .replicas = false → after.replicas = current.replicas
  template : configurator.sets .podTemplate = false → after.template = current.template

/-- The namespace changes in the attributes of one deployment config that its
configurator sets, and nowhere else. -/
structure OpenShiftNamespace.ChangesOnlySet (configurator : DeploymentConfigurator)
    (name : String) (ns ns' : OpenShiftNamespace) : Prop where
  deployment : ∀ current, ns.deploymentConfigs.get name = some current →
    ∃ after, ns'.deploymentConfigs.get name = some after ∧
      DeploymentConfig.KeepsUnset configurator current after
  otherDeployments : ∀ other, other ≠ name →
    ns'.deploymentConfigs.get other = ns.deploymentConfigs.get other
  pods : ns'.pods = ns.pods
  configMaps : ns'.configMaps = ns.configMaps
  secrets : ns'.secrets = ns.secrets
  services : ns'.services = ns.services
  routes : ns'.routes = ns.routes

theorem DeploymentConfig.keepsUnset_updated_iff (configurator : DeploymentConfigurator)
    (current : DeploymentConfig) :
    DeploymentConfig.KeepsUnset configurator current
        (current.updated configurator.configuration) ↔
      (configurator.sets .replicaSelector = true ∨ current.replicaSelector = ∅) ∧
        (configurator.sets .replicas = true ∨ current.replicas = 0) := by
  constructor
  · intro h
    constructor
    · by_cases hset : configurator.sets .replicaSelector = true
      · exact .inl hset
      · have hunset : configurator.sets .replicaSelector = false := by simpa using hset
        exact .inr ((h.replicaSelector hunset).symm.trans (replicaSelector_of_not_sets hunset))
    · by_cases hset : configurator.sets .replicas = true
      · exact .inl hset
      · have hunset : configurator.sets .replicas = false := by simpa using hset
        exact .inr ((h.replicas hunset).symm.trans (replicas_of_not_sets hunset))
  · rintro ⟨hselector, hreplicas⟩
    constructor
    · rfl
    · intro hunset
      have hcurrent : current.replicaSelector = ∅ := by simpa [hunset] using hselector
      exact (replicaSelector_of_not_sets hunset).trans hcurrent.symm
    · intro hunset
      have hcurrent : current.replicas = 0 := by simpa [hunset] using hreplicas
      exact (replicas_of_not_sets hunset).trans hcurrent.symm
    · intro hunset
      simp [DeploymentConfig.updated, podConfiguration_of_not_sets hunset]

theorem updateDeploymentConfig_of_get {name : String} {ns : OpenShiftNamespace}
    {current : DeploymentConfig} (h : ns.deploymentConfigs.get name = some current)
    (configuration : OpenShiftDeploymentConfiguration) :
    updateDeploymentConfig name configuration ns =
      { ns with deploymentConfigs := ns.deploymentConfigs.put (current.updated configuration) } := by
  unfold updateDeploymentConfig
  rw [h]
  rfl

/-- An update keeps what its configurator does not set exactly when the attributes that
it always writes are set, or had their default value before. -/
theorem updateDeploymentConfig_changesOnlySet_iff (configurator : DeploymentConfigurator)
    {name : String} {ns : OpenShiftNamespace} {current : DeploymentConfig}
    (h : ns.deploymentConfigs.get name = some current) :
    ns.ChangesOnlySet configurator name
        (updateDeploymentConfig name configurator.configuration ns) ↔
      (configurator.sets .replicaSelector = true ∨ current.replicaSelector = ∅) ∧
        (configurator.sets .replicas = true ∨ current.replicas = 0) := by
  have hname : current.name = name := Space.key_of_get h
  have hkey : Keyed.key (current.updated configurator.configuration) = name := hname
  rw [← DeploymentConfig.keepsUnset_updated_iff, updateDeploymentConfig_of_get h]
  have hself : (ns.deploymentConfigs.put (current.updated configurator.configuration)).get name =
      some (current.updated configurator.configuration) := by
    rw [Space.get_put, if_pos hkey.symm]
  constructor
  · intro hchanges
    obtain ⟨after, hafter, hkeeps⟩ := hchanges.deployment current h
    have heq : current.updated configurator.configuration = after :=
      Option.some.inj (hself.symm.trans hafter)
    rw [heq]
    exact hkeeps
  · intro hkeeps
    constructor
    · intro current' hcurrent'
      have heq : current = current' := Option.some.inj (h.symm.trans hcurrent')
      rw [← heq]
      exact ⟨_, hself, hkeeps⟩
    · intro other hother
      apply Space.get_put_of_ne
      rw [hkey]
      exact hother
    all_goals rfl

/-! ## Scaling a deployment -/

namespace DeploymentConfiguratorSample

def group : StringMap String :=
  toMap [("group", "api")]

def api : DeploymentConfig where
  name := "api"
  replicas := 1
  replicaSelector := group
  template := { containers := [], volumes := ∅ }

def ns : OpenShiftNamespace :=
  { emptyNamespace with deploymentConfigs := Space.empty.put api }

def scaled : DeploymentConfigurator :=
  ⟨[.replicas 2]⟩

def grouped : DeploymentConfigurator :=
  ⟨[.replicaSelector group, .replicas 2]⟩

end DeploymentConfiguratorSample

open DeploymentConfiguratorSample

theorem updateDeploymentConfig_changesOnlySet_sample :
    ns.ChangesOnlySet grouped "api" (updateDeploymentConfig "api" grouped.configuration ns) :=
  (updateDeploymentConfig_changesOnlySet_iff grouped (by rfl)).mpr
    ⟨.inl rfl, .inl rfl⟩

/-- A configurator that sets the replica count only clears the replica selector. -/
theorem replicas_clears_selector :
    ¬ ns.ChangesOnlySet scaled "api" (updateDeploymentConfig "api" scaled.configuration ns) := by
  intro h
  obtain ⟨after, hafter, hkeeps⟩ := h.deployment api rfl
  have heq : { api with replicas := 2, replicaSelector := ∅ } = after := Option.some.inj hafter
  have hselector : (∅ : StringMap String) = group := by
    rw [← heq] at hkeeps
    exact hkeeps.replicaSelector rfl
  have hlookup : (∅ : StringMap String).lookup "group" = some "api" := by
    rw [hselector]
    exact lookup_toMap_eq_some (by simp) (by simp)
  cases hlookup

end Agent

end ArtPlatform
