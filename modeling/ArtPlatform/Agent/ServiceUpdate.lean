import ArtPlatform.Agent.OpenShiftUpdater

/-!
# Updating a service

The updater compares a module's service with the ports of the request, and deletes
and creates the service anew when it finds a difference.  What a created service
becomes is the cluster's matter: it grants the cluster address and the node ports that
were requested, and chooses the others.

The comparison never finds a port with an external port, and finds one without only
while the service has no node port for it.  A created service has a node port for
every port, so it is created again by every update after that.

Main results:

- Theorem `runCalls_id`: with nothing chosen by the cluster, the calls of an update
  make the services that the updater asks for.
- Theorem `get_servicesAfter`: the module's service after an update.
- Theorem `updateService_idempotent_iff`: exactly when an update leaves a service alone
  that is as requested, and when a second update leaves alone what the first one left.
- Theorem `requested_service_recreated`: a service that is as requested is created anew.
-/

namespace ArtPlatform

namespace Agent

/-! ## The cluster -/

/-- What the cluster chooses for a created service: a cluster address, and for every
port a node port that the service does not request, no two alike. -/
structure Cluster where
  clusterIP : Service → String
  nodePort : Service → Nat → Nat
  free : ∀ service port, some (nodePort service port) ∉ service.ports.map ServicePort.nodePort
  apart : ∀ service, Function.Injective (nodePort service)

/-- A port of a created service, with the requested node port or the chosen one. -/
def Cluster.grantPort (cluster : Cluster) (service : Service) (servicePort : ServicePort) :
    ServicePort :=
  { servicePort with
    nodePort := some (servicePort.nodePort.getD (cluster.nodePort service servicePort.port)) }

/-- A created service of node ports. -/
def Cluster.create (cluster : Cluster) (service : Service) : Service :=
  { service with
    clusterIP := some (service.clusterIP.getD (cluster.clusterIP service))
    ports := service.ports.map (cluster.grantPort service) }

def requestedNodePorts (service : Service) : List Nat :=
  service.ports.filterMap ServicePort.nodePort

def highestNodePort (service : Service) : Nat :=
  (requestedNodePorts service).foldr Nat.max 0

theorem le_highestNodePort {service : Service} {nodePort : Nat}
    (h : nodePort ∈ requestedNodePorts service) : nodePort ≤ highestNodePort service := by
  unfold highestNodePort
  generalize requestedNodePorts service = nodePorts at h
  induction nodePorts with
  | nil => cases h
  | cons first rest ih =>
      rw [List.foldr_cons]
      rcases List.mem_cons.mp h with rfl | hrest
      · exact Nat.le_max_left _ _
      · exact (ih hrest).trans (Nat.le_max_right _ _)

/-- A node port above a bound and above all that the service requests. -/
def nodePortAbove (bound : Nat) (service : Service) (port : Nat) : Nat :=
  bound + highestNodePort service + port + 1

theorem nodePortAbove_free (bound : Nat) (service : Service) (port : Nat) :
    some (nodePortAbove bound service port) ∉ service.ports.map ServicePort.nodePort := by
  intro h
  obtain ⟨servicePort, hmem, heq⟩ := List.mem_map.mp h
  have hrequested : nodePortAbove bound service port ∈ requestedNodePorts service :=
    List.mem_filterMap.mpr ⟨servicePort, hmem, heq⟩
  have hle := le_highestNodePort hrequested
  unfold nodePortAbove at hle
  omega

theorem nodePortAbove_injective (bound : Nat) (service : Service) :
    Function.Injective (nodePortAbove bound service) := by
  intro port port' h
  unfold nodePortAbove at h
  omega

theorem nodePortAbove_ne (bound : Nat) (service : Service) (port : Nat) :
    nodePortAbove bound service port ≠ bound := by
  unfold nodePortAbove
  omega

/-- A cluster that chooses node ports above a bound. -/
def Cluster.choosingAbove (bound : Nat) : Cluster where
  clusterIP _ := "10.0.0.1"
  nodePort := nodePortAbove bound
  free := nodePortAbove_free bound
  apart := nodePortAbove_injective bound

/-! ## The calls of an update -/

inductive ServiceCall
  | delete (name : String)
  | create (service : Service)

/-- `deleteService`: a service that is not there is not deleted. -/
def deleteService (services : Space Service) (name : String) : List ServiceCall :=
  ((services.get name).map fun service => ServiceCall.delete service.name).toList

/-- The call on the services, where `create` makes the created service. -/
def performCall (create : Service → Service) (services : Space Service) :
    ServiceCall → Space Service
  | .delete name => services.delete name
  | .create service => services.put (create service)

def runCalls (create : Service → Service) (services : Space Service)
    (calls : List ServiceCall) : Space Service :=
  calls.foldl (performCall create) services

namespace OpenShiftUpdater

variable (u : OpenShiftUpdater) (services : Space Service)

/-- The calls of `updateService`. -/
def updateServiceCalls : List ServiceCall :=
  if u.ports = [] then deleteService services u.name
  else if (services.get u.name).any u.serviceEquals then []
  else deleteService services u.name ++ [.create u.configuredService]

/-- The services after `updateService` on a cluster. -/
def servicesAfter (cluster : Cluster) : Space Service :=
  runCalls cluster.create services (u.updateServiceCalls services)

/-! ## The services after an update -/

theorem runCalls_deleteService (create : Service → Service) (name : String) :
    runCalls create services (deleteService services name) = services.delete name := by
  unfold runCalls deleteService
  cases hget : services.get name with
  | none => exact (Space.delete_of_get_eq_none hget).symm
  | some service =>
      have hname : service.name = name := Space.key_of_get hget
      simp [performCall, hname]

/-- The services after the calls, whatever a created service becomes. -/
theorem runCalls_updateServiceCalls (create : Service → Service) :
    runCalls create services (u.updateServiceCalls services) =
      if u.ports = [] then services.delete u.name
      else if (services.get u.name).any u.serviceEquals then services
      else (services.delete u.name).put (create u.configuredService) := by
  unfold updateServiceCalls
  split
  · exact runCalls_deleteService services create u.name
  · split
    · rfl
    · have hdelete := runCalls_deleteService services create u.name
      unfold runCalls at hdelete ⊢
      simp only [List.foldl_append, hdelete, List.foldl_cons, List.foldl_nil, performCall]

/-- With nothing chosen by the cluster, the calls make the services that the updater
asks for. -/
theorem runCalls_id :
    runCalls id services (u.updateServiceCalls services) = u.updatedServices services :=
  u.runCalls_updateServiceCalls services id

/-- The module's service after an update. -/
theorem get_servicesAfter (cluster : Cluster) :
    (u.servicesAfter services cluster).get u.name =
      if u.ports = [] then none
      else if (services.get u.name).any u.serviceEquals then services.get u.name
      else some (cluster.create u.configuredService) := by
  unfold servicesAfter
  rw [runCalls_updateServiceCalls]
  split
  · exact services.get_delete_self u.name
  · split
    · rfl
    · exact Space.get_put_self _ (cluster.create u.configuredService)

/-! ## The comparison -/

/-- The comparison finds the ports without an external port that have no node port
yet, and no other. -/
theorem serviceEquals_iff (service : Service) :
    u.serviceEquals service = true ↔
      service.clusterIP = u.internalIp ∧ ∀ port ∈ u.ports, port.externalPort = none ∧
        ∃ servicePort ∈ service.ports, servicePort.port = port.internalPort ∧
          servicePort.nodePort = none := by
  have hport : ∀ port : PortMapping, service.ports.any (servicePortEquals port) = true ↔
      port.externalPort = none ∧ ∃ servicePort ∈ service.ports,
        servicePort.port = port.internalPort ∧ servicePort.nodePort = none := by
    intro port
    cases hexternal : port.externalPort with
    | none => simp [servicePortEquals, hexternal, @eq_comm _ port.internalPort]
    | some external => simp [servicePortEquals, hexternal]
  simp only [serviceEquals, Bool.and_eq_true, decide_eq_true_eq, List.all_eq_true, hport]

/-- Every port of a created service has a node port, so a service that was created for
some ports is never found equal to them. -/
theorem serviceEquals_create (cluster : Cluster) (h : u.ports ≠ []) (service : Service) :
    u.serviceEquals (cluster.create service) = false := by
  apply Bool.eq_false_iff.mpr
  intro hequals
  obtain ⟨port, hport⟩ := List.exists_mem_of_ne_nil _ h
  obtain ⟨-, hports⟩ := (u.serviceEquals_iff _).mp hequals
  obtain ⟨-, servicePort, hmem, -, hnone⟩ := hports port hport
  obtain ⟨granted, -, rfl⟩ := List.mem_map.mp hmem
  cases hnone

/-! ## Idempotence -/

/-- The service has the requested cluster address, and exactly the requested ports with
their node ports. -/
def HasRequested (service : Service) : Prop :=
  service.clusterIP = u.internalIp ∧
    ∀ port external, PortMapping.mk port external ∈ u.ports ↔
      ∃ servicePort ∈ service.ports,
        servicePort.port = port ∧ servicePort.nodePort = external

/-- An update neither deletes nor creates a service that is as requested, and a second
update with the same request neither deletes nor creates anything. -/
def Idempotent (cluster : Cluster) (service : Service) : Prop :=
  (u.HasRequested service → u.updateServiceCalls services = []) ∧
    u.updateServiceCalls (u.servicesAfter services cluster) = []

theorem deleteService_eq_nil_iff (name : String) :
    deleteService services name = [] ↔ services.get name = none := by
  simp [deleteService]

theorem updateServiceCalls_eq_nil_iff :
    u.updateServiceCalls services = [] ↔
      (u.ports = [] ∧ services.get u.name = none) ∨
        (u.ports ≠ [] ∧ (services.get u.name).any u.serviceEquals = true) := by
  unfold updateServiceCalls
  by_cases hports : u.ports = []
  · simp [hports, deleteService_eq_nil_iff]
  · by_cases hequals : (services.get u.name).any u.serviceEquals = true
    · simp [hports, hequals]
    · simp [hports, hequals]

/-- With ports, the second update finds nothing to do exactly when the first found
nothing to do. -/
theorem updateServiceCalls_servicesAfter_iff (cluster : Cluster) (h : u.ports ≠ []) :
    u.updateServiceCalls (u.servicesAfter services cluster) = [] ↔
      (services.get u.name).any u.serviceEquals = true := by
  rw [updateServiceCalls_eq_nil_iff, get_servicesAfter]
  by_cases hequals : (services.get u.name).any u.serviceEquals = true
  · simp [h, hequals]
  · simp [h, hequals, u.serviceEquals_create cluster h]

/-- An update leaves a service alone that is as requested, and a second update what the
first one left, exactly in two cases: a request without ports finds a service that is
not as requested, or a request asks for no external port and finds the service under its
cluster address with its ports and without node ports for them. -/
theorem updateService_idempotent_iff (cluster : Cluster) (service : Service)
    (h : services.get u.name = some service) :
    u.Idempotent services cluster service ↔
      (u.ports = [] ∧ ¬u.HasRequested service) ∨
        (u.ports ≠ [] ∧ service.clusterIP = u.internalIp ∧
          ∀ port ∈ u.ports, port.externalPort = none ∧
            ∃ servicePort ∈ service.ports, servicePort.port = port.internalPort ∧
              servicePort.nodePort = none) := by
  rw [← serviceEquals_iff]
  unfold Idempotent
  by_cases hports : u.ports = []
  · have hfirst : u.updateServiceCalls services ≠ [] := by
      simp [updateServiceCalls_eq_nil_iff, hports, h]
    have hsecond : u.updateServiceCalls (u.servicesAfter services cluster) = [] := by
      simp [updateServiceCalls_eq_nil_iff, get_servicesAfter, hports]
    simp [hports, hfirst, hsecond]
  · have hfirst : u.updateServiceCalls services = [] ↔ u.serviceEquals service = true := by
      simp [updateServiceCalls_eq_nil_iff, hports, h]
    have hsecond := u.updateServiceCalls_servicesAfter_iff services cluster hports
    simp only [h, Option.any_some] at hsecond
    rw [hfirst, hsecond]
    simp only [hports, false_and, ne_eq, not_false_eq_true, true_and, false_or]
    constructor
    · exact fun hboth => hboth.2
    · exact fun hequals => ⟨fun _ => hequals, hequals⟩

namespace SampleService

/-- The updater of a module `api` with one port. -/
private def updaterOf (port : PortMapping) : OpenShiftUpdater where
  resource := ⟨1, "apps.example"⟩
  name := "api"
  image := "registry/api:1.0"
  workingDirectory := "/module/shop/api"
  replicationsCount := 1
  internalIp := some "10.0.0.7"
  ports := [port]

/-- The service of the module `api` on port 80. -/
private def serviceWith (nodePort : Option Nat) : Service where
  name := "api"
  type := .nodePort
  clusterIP := some "10.0.0.7"
  selector := ∅
  ports := [⟨"tcp-80", 80, 80, nodePort⟩]

private def servicesWith (nodePort : Option Nat) : Space Service :=
  Space.empty.put (serviceWith nodePort)

end SampleService

open SampleService

/-- A service without node ports is left alone by a request for its port. -/
theorem updateService_idempotent_unexposed :
    (updaterOf ⟨80, none⟩).Idempotent (servicesWith none) (Cluster.choosingAbove 30000)
      (serviceWith none) := by
  apply ((updaterOf ⟨80, none⟩).updateService_idempotent_iff (servicesWith none)
    (Cluster.choosingAbove 30000) (serviceWith none) rfl).mpr
  right
  refine ⟨List.cons_ne_nil _ _, rfl, ?_⟩
  simp [updaterOf, serviceWith]

/-- A service on port 80 with the node port 30080 is deleted and created anew by a
request for exactly that. -/
theorem requested_service_recreated :
    ¬ ∀ (u : OpenShiftUpdater) (services : Space Service) (cluster : Cluster)
      (service : Service), services.get u.name = some service →
        u.Idempotent services cluster service := by
  intro h
  obtain ⟨hkept, -⟩ := h (updaterOf ⟨80, some 30080⟩) (servicesWith (some 30080))
    (Cluster.choosingAbove 30000) (serviceWith (some 30080)) rfl
  have hrequested : (updaterOf ⟨80, some 30080⟩).HasRequested (serviceWith (some 30080)) := by
    constructor
    · rfl
    · intro port external
      simp [updaterOf, serviceWith, eq_comm]
  have hcalls := hkept hrequested
  cases hcalls

end OpenShiftUpdater

end Agent

end ArtPlatform
