import ArtPlatform.Common.Urls
import Mathlib.Data.List.Basic

/-!
# The latest pods of a deployment

The cluster names a pod `<deployment>-<version>-<suffix>`.  The pods of the latest
version of a deployment are found by the beginning of the name and by the decimal at
its end, so the pods of a deployment with a longer name, or of a version whose decimal
ends with the latest one, can be among them.  Readiness is polled from these pods.

Main results:

- Theorem `confusable_podName_iff`: which pods, named as the cluster names them, are
  taken for latest ones.
- Theorem `readiness_own_iff`: exactly when a sequence of polls looks at the own latest
  pods only.
- Theorem `readiness_of_neighbour`: a deployment that is reported as failed for the pod
  of another one.
-/

namespace ArtPlatform

namespace OpenShift

inductive Failure
  | nullPointer
deriving DecidableEq, Repr

/-! ## Pods and deployments -/

/-- The statuses that a test looks for; all others answer alike. -/
inductive OpenShiftContainerStatus
  | crashLoopBackOff
  | error
  | running
  | ready
  | imagePullBackOff
  | unknown
deriving DecidableEq, Repr

namespace OpenShiftContainerStatus

def failed (status : OpenShiftContainerStatus) : Bool :=
  status = crashLoopBackOff || status = error || status = imagePullBackOff

def isReady (status : OpenShiftContainerStatus) : Bool :=
  status = ready || status = running

end OpenShiftContainerStatus

structure Pod where
  name : String
  status : String
deriving DecidableEq, Repr

/-- The status of that name, whatever the case of its letters. -/
def Pod.containerStatus (pod : Pod) : OpenShiftContainerStatus :=
  match pod.status.toLower with
  | "crashloopbackoff" => .crashLoopBackOff
  | "error" => .error
  | "running" => .running
  | "ready" => .ready
  | "imagepullbackoff" => .imagePullBackOff
  | _ => .unknown

structure DeploymentConfig where
  name : String
  latestVersionNumber : Nat
deriving DecidableEq, Repr

structure Namespace where
  deploymentConfigs : List DeploymentConfig
  pods : List Pod

namespace Namespace

def getDeploymentConfig (ns : Namespace) (name : String) : Option DeploymentConfig :=
  ns.deploymentConfigs.find? fun config => config.name = name

/-- The pod belongs to the deployment of a new version, not to the version itself. -/
def isDeployer (pod : Pod) : Bool :=
  endsWith pod.name "-deploy"

/-- The deployment config is read again for every pod. -/
def filterLatest (ns : Namespace) (name : String) : List Pod → Except Failure (List Pod)
  | [] => .ok []
  | pod :: pods =>
      match ns.getDeploymentConfig name with
      | none => .error .nullPointer
      | some config =>
          (filterLatest ns name pods).map fun latestPods =>
            if endsWith (substringBeforeLast pod.name '-')
                (toString config.latestVersionNumber) then
              pod :: latestPods
            else latestPods

def getLatestDeploymentPods (ns : Namespace) (name : String) : Except Failure (List Pod) :=
  ns.filterLatest name
    (ns.pods.filter fun pod => startsWith pod.name name && !isDeployer pod)

end Namespace

/-! ## Waiting for readiness -/

structure OpenShiftDeploymentPodWaitingConfiguration where
  name : String
  minimalPodCount : Nat
  timeoutMillis : Nat

/-- What one turn of the loop sees: the namespace, and the time that has passed when
the turn ends. -/
structure Poll where
  ns : Namespace
  elapsedMillis : Nat

/-- The answer of the loop, none while it goes on polling. -/
def waitForLatestDeploymentPodsReadiness
    (configuration : OpenShiftDeploymentPodWaitingConfiguration) :
    List Poll → Except Failure (Option Bool)
  | [] => .ok none
  | poll :: polls =>
      match poll.ns.getLatestDeploymentPods configuration.name with
      | .error e => .error e
      | .ok latestPods =>
          if latestPods.any fun pod => pod.containerStatus.failed then .ok (some false)
          else if configuration.minimalPodCount ≤
              (latestPods.filter fun pod => pod.containerStatus.isReady).length then
            .ok (some true)
          else if configuration.timeoutMillis ≤ poll.elapsedMillis then .ok (some false)
          else waitForLatestDeploymentPodsReadiness configuration polls

/-! ## The pods of one version -/

/-- The name of a pod of one version of a deployment. -/
def podName (name : String) (version : Nat) (suffix : String) : String :=
  name ++ "-" ++ toString version ++ "-" ++ suffix

/-- The pod is one of the given version of the deployment, and does not deploy it. -/
def IsPodOf (name : String) (version : Nat) (pod : Pod) : Prop :=
  Namespace.isDeployer pod = false ∧
    ∃ suffix : String, '-' ∉ suffix.toList ∧ pod.name = podName name version suffix

/-- The pod is taken for one of the given version: its name starts with the
deployment's, and what is before the last dash ends with the version, but is not the
deployment's name with the version. -/
def Confusable (name : String) (version : Nat) (pod : Pod) : Prop :=
  Namespace.isDeployer pod = false ∧ startsWith pod.name name = true ∧
    endsWith (substringBeforeLast pod.name '-') (toString version) = true ∧
    substringBeforeLast pod.name '-' ≠ name ++ "-" ++ toString version

theorem podName_eq (name : String) (version : Nat) (suffix : String) :
    podName name version suffix =
      name ++ "-" ++ toString version ++ String.singleton '-' ++ suffix := by
  have hdash : String.singleton '-' = "-" := by decide
  rw [hdash, podName]

theorem isPodOf_iff (name : String) (version : Nat) (pod : Pod) :
    IsPodOf name version pod ↔ Namespace.isDeployer pod = false ∧
      substringBeforeLast pod.name '-' = name ++ "-" ++ toString version := by
  refine and_congr_right fun _ => ?_
  constructor
  · rintro ⟨suffix, hsuffix, hname⟩
    rw [hname, podName_eq]
    exact substringBeforeLast_append _ suffix hsuffix
  · intro hbefore
    by_cases hdash : '-' ∈ pod.name.toList
    · obtain ⟨suffix, hsuffix, hname⟩ := exists_of_mem_delimiter hdash
      rw [hbefore, ← podName_eq] at hname
      exact ⟨suffix, hsuffix, hname⟩
    · rw [substringBeforeLast_of_notMem hdash] at hbefore
      rw [hbefore] at hdash
      exact absurd (by simp) hdash

instance (name : String) (version : Nat) : DecidablePred (IsPodOf name version) :=
  fun pod => decidable_of_iff' _ (isPodOf_iff name version pod)

instance (name : String) (version : Nat) : DecidablePred (Confusable name version) :=
  fun _ => inferInstanceAs (Decidable (_ ∧ _ ∧ _ ∧ _))

/-- The pods of a version pass both tests. -/
theorem IsPodOf.tests {name : String} {version : Nat} {pod : Pod}
    (h : IsPodOf name version pod) : startsWith pod.name name = true ∧
      endsWith (substringBeforeLast pod.name '-') (toString version) = true := by
  have hbefore := ((isPodOf_iff name version pod).mp h).2
  obtain ⟨-, suffix, -, hname⟩ := h
  constructor
  · rw [startsWith_iff, hname]
    simp [podName]
  · rw [hbefore, endsWith_iff, String.toList_append]
    exact List.suffix_append _ _

/-- What the two tests let pass are the pods of the version and the confusable ones. -/
theorem tests_iff (name : String) (version : Nat) (pod : Pod) :
    ((startsWith pod.name name && !Namespace.isDeployer pod) = true ∧
        endsWith (substringBeforeLast pod.name '-') (toString version) = true) ↔
      IsPodOf name version pod ∨ Confusable name version pod := by
  constructor
  · rintro ⟨hfirst, hends⟩
    rw [Bool.and_eq_true, Bool.not_eq_true'] at hfirst
    by_cases hbefore : substringBeforeLast pod.name '-' = name ++ "-" ++ toString version
    · exact .inl ((isPodOf_iff name version pod).mpr ⟨hfirst.2, hbefore⟩)
    · exact .inr ⟨hfirst.2, hfirst.1, hends, hbefore⟩
  · rintro (hown | ⟨hdeployer, hstarts, hends, -⟩)
    · have htests := hown.tests
      exact ⟨by simp [htests.1, hown.1], htests.2⟩
    · exact ⟨by simp [hstarts, hdeployer], hends⟩

/-- Exactly the own pods of the version are not confusable. -/
theorem IsPodOf.not_confusable {name : String} {version : Nat} {pod : Pod}
    (h : IsPodOf name version pod) : ¬ Confusable name version pod := by
  intro hconfusable
  exact hconfusable.2.2.2 ((isPodOf_iff name version pod).mp h).2

/-! ## Reading the own pods only -/

theorem filterLatest_eq {ns : Namespace} {name : String} {config : DeploymentConfig}
    (h : ns.getDeploymentConfig name = some config) (pods : List Pod) :
    ns.filterLatest name pods = .ok (pods.filter fun pod =>
      endsWith (substringBeforeLast pod.name '-') (toString config.latestVersionNumber)) := by
  induction pods with
  | nil => rfl
  | cons pod pods ih =>
      simp only [Namespace.filterLatest, h, ih, Except.map, List.filter_cons]

/-- What is read are the pods of the latest version and the confusable ones. -/
theorem getLatestDeploymentPods_eq {ns : Namespace} {name : String}
    {config : DeploymentConfig} (h : ns.getDeploymentConfig name = some config) :
    ns.getLatestDeploymentPods name = .ok (ns.pods.filter fun pod =>
      IsPodOf name config.latestVersionNumber pod ∨
        Confusable name config.latestVersionNumber pod) := by
  unfold Namespace.getLatestDeploymentPods
  rw [filterLatest_eq h, List.filter_filter]
  congr 1
  refine List.filter_congr fun pod _ => ?_
  rw [Bool.eq_iff_iff, decide_eq_true_iff, ← tests_iff, Bool.and_eq_true, and_comm]

/-- The own latest pods of a deployment are what is read. -/
def Namespace.ReadsOwnPods (ns : Namespace) (name : String) : Prop :=
  ∀ config, ns.getDeploymentConfig name = some config →
    ns.getLatestDeploymentPods name =
      .ok (ns.pods.filter fun pod => IsPodOf name config.latestVersionNumber pod)

/-- No pod is confusable with the latest ones of the deployment. -/
def Namespace.NoneConfusable (ns : Namespace) (name : String) : Prop :=
  ∀ config, ns.getDeploymentConfig name = some config →
    ∀ pod ∈ ns.pods, ¬ Confusable name config.latestVersionNumber pod

theorem readsOwnPods_iff (ns : Namespace) (name : String) :
    ns.ReadsOwnPods name ↔ ns.NoneConfusable name := by
  refine forall₂_congr fun config hconfig => ?_
  rw [getLatestDeploymentPods_eq hconfig, Except.ok.injEq]
  constructor
  · intro hsame pod hpod hconfusable
    have hread : pod ∈ ns.pods.filter fun pod =>
        IsPodOf name config.latestVersionNumber pod ∨
          Confusable name config.latestVersionNumber pod :=
      List.mem_filter.mpr ⟨hpod, decide_eq_true (.inr hconfusable)⟩
    rw [hsame] at hread
    have hown : IsPodOf name config.latestVersionNumber pod := by
      simpa using (List.mem_filter.mp hread).2
    exact hown.not_confusable hconfusable
  · intro hnone
    refine List.filter_congr fun pod hpod => ?_
    rw [decide_eq_decide]
    exact or_iff_left (hnone pod hpod)

/-- The namespace with the own latest pods of a deployment only. -/
def Namespace.withOwnPods (ns : Namespace) (name : String) : Namespace :=
  match ns.getDeploymentConfig name with
  | none => ns
  | some config =>
      { ns with pods := ns.pods.filter fun pod =>
          IsPodOf name config.latestVersionNumber pod }

/-- Where no pod is confusable, the other pods do not matter. -/
theorem getLatestDeploymentPods_withOwnPods {ns : Namespace} {name : String}
    (h : ns.NoneConfusable name) :
    (ns.withOwnPods name).getLatestDeploymentPods name =
      ns.getLatestDeploymentPods name := by
  unfold Namespace.withOwnPods
  cases hconfig : ns.getDeploymentConfig name with
  | none => rfl
  | some config =>
      have hown : Namespace.getDeploymentConfig
          { ns with pods := ns.pods.filter fun pod =>
              decide (IsPodOf name config.latestVersionNumber pod) } name =
            some config := hconfig
      have hread := (readsOwnPods_iff ns name).mpr h config hconfig
      dsimp only
      rw [getLatestDeploymentPods_eq hown, hread, List.filter_filter, Except.ok.injEq]
      refine List.filter_congr fun pod hpod => ?_
      have hnot := h config hconfig pod hpod
      simp [hnot]

def Poll.withOwnPods (poll : Poll) (name : String) : Poll :=
  { poll with ns := poll.ns.withOwnPods name }

theorem wait_withOwnPods (configuration : OpenShiftDeploymentPodWaitingConfiguration)
    {polls : List Poll} (h : ∀ poll ∈ polls, poll.ns.NoneConfusable configuration.name) :
    waitForLatestDeploymentPodsReadiness configuration
        (polls.map fun poll => poll.withOwnPods configuration.name) =
      waitForLatestDeploymentPodsReadiness configuration polls := by
  induction polls with
  | nil => rfl
  | cons poll polls ih =>
      have hhead := getLatestDeploymentPods_withOwnPods (h poll List.mem_cons_self)
      have htail := ih fun p hp => h p (List.mem_cons_of_mem poll hp)
      simp only [List.map_cons, waitForLatestDeploymentPodsReadiness, Poll.withOwnPods]
      rw [hhead]
      simp only [Poll.withOwnPods] at htail
      rw [htail]

/-- Every poll reads the own latest pods, and the answer is the one that they give
without any other pod. -/
def ReadinessOwn (configuration : OpenShiftDeploymentPodWaitingConfiguration)
    (polls : List Poll) : Prop :=
  (∀ poll ∈ polls, poll.ns.ReadsOwnPods configuration.name) ∧
    waitForLatestDeploymentPodsReadiness configuration
        (polls.map fun poll => poll.withOwnPods configuration.name) =
      waitForLatestDeploymentPodsReadiness configuration polls

/-- Readiness looks at the own latest pods exactly while no pod is confusable. -/
theorem readiness_own_iff (configuration : OpenShiftDeploymentPodWaitingConfiguration)
    (polls : List Poll) :
    ReadinessOwn configuration polls ↔
      ∀ poll ∈ polls, poll.ns.NoneConfusable configuration.name := by
  constructor
  · rintro ⟨hread, -⟩ poll hpoll
    exact (readsOwnPods_iff _ _).mp (hread poll hpoll)
  · intro hnone
    refine ⟨?_, wait_withOwnPods configuration hnone⟩
    intro poll hpoll
    exact (readsOwnPods_iff _ _).mpr (hnone poll hpoll)

/-! ## Pods named by the cluster -/

theorem dash_notMem_toString (n : Nat) : '-' ∉ (toString n).toList := by
  intro h
  have hdigits : '-' ∈ Nat.toDigits 10 n := by simpa using h
  have hdigit := Nat.isDigit_of_mem_toDigits (by decide) (by decide) hdigits
  exact absurd hdigit (by decide)

/-- A pod of a version is confusable with the latest ones exactly when it belongs to
another deployment or version, the deployment's name begins its name, and the latest
version's decimal ends its version's. -/
theorem confusable_podName_iff (name : String) (latest : Nat) {deployment suffix : String}
    {version : Nat} (hsuffix : '-' ∉ suffix.toList) (status : String) :
    Confusable name latest ⟨podName deployment version suffix, status⟩ ↔
      suffix ≠ "deploy" ∧ startsWith (podName deployment version suffix) name = true ∧
        endsWith (toString version) (toString latest) = true ∧
        ¬ (deployment = name ∧ version = latest) := by
  have hdeployer : Namespace.isDeployer ⟨podName deployment version suffix, status⟩ = false ↔
      suffix ≠ "deploy" := by
    rw [← Bool.not_eq_true, not_iff_not, Namespace.isDeployer, podName_eq]
    have hdeploy : "-deploy" = String.singleton '-' ++ "deploy" := by decide
    rw [hdeploy, endsWith_delimiter_iff hsuffix (by decide)]
  have hbefore : substringBeforeLast (podName deployment version suffix) '-' =
      deployment ++ "-" ++ toString version := by
    rw [podName_eq]
    exact substringBeforeLast_append _ suffix hsuffix
  have hdash : String.singleton '-' = "-" := by decide
  have hversion : endsWith (deployment ++ "-" ++ toString version) (toString latest) =
      endsWith (toString version) (toString latest) := by
    rw [← hdash]
    exact endsWith_append_delimiter (dash_notMem_toString latest)
  have hsame : deployment ++ "-" ++ toString version = name ++ "-" ++ toString latest ↔
      deployment = name ∧ version = latest := by
    rw [← hdash, append_delimiter_inj (dash_notMem_toString version)
      (dash_notMem_toString latest)]
    exact and_congr_right fun _ => toString_nat_inj
  unfold Confusable
  rw [hdeployer, hbefore, hversion, ← hsame]

/-- Version 2 of `app` runs; a pod of `app-gateway` in its version 12 crashes. -/
def appAndGateway : Namespace where
  deploymentConfigs := [⟨"app", 2⟩, ⟨"app-gateway", 12⟩]
  pods := [⟨podName "app" 2 "x7k2p", "Running"⟩,
    ⟨podName "app-gateway" 12 "q8z4m", "CrashLoopBackOff"⟩]

/-- Waiting for `app` is answered by the crash of the other deployment, and would
succeed by the own pods. -/
theorem readiness_of_neighbour :
    waitForLatestDeploymentPodsReadiness ⟨"app", 1, 60000⟩ [⟨appAndGateway, 0⟩] =
        .ok (some false) ∧
      waitForLatestDeploymentPodsReadiness ⟨"app", 1, 60000⟩
          [⟨appAndGateway.withOwnPods "app", 0⟩] = .ok (some true) ∧
      ¬ ReadinessOwn ⟨"app", 1, 60000⟩ [⟨appAndGateway, 0⟩] := by
  have hread : waitForLatestDeploymentPodsReadiness ⟨"app", 1, 60000⟩ [⟨appAndGateway, 0⟩] =
      .ok (some false) := by decide +kernel
  have hown : waitForLatestDeploymentPodsReadiness ⟨"app", 1, 60000⟩
      [⟨appAndGateway.withOwnPods "app", 0⟩] = .ok (some true) := by decide +kernel
  refine ⟨hread, hown, ?_⟩
  rintro ⟨-, hsame⟩
  have hdiffer := hown.symm.trans (hsame.trans hread)
  cases hdiffer

end OpenShift

end ArtPlatform
