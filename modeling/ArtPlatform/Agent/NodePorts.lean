import ArtPlatform.Agent.ServiceUpdate
import ArtPlatform.Foundation.LinkedMap
import ArtPlatform.ManagementPanel.ModuleIdentity

/-!
# The node ports of a module

The node ports of a module pass through an update in four stages.  The panel keeps the
mappings of the ports that the new configuration lists, and sends the module to the
agent.  The agent merges the published port, the mapped ports and the others into the
ports of the updater.  The updater leaves the service alone or creates it anew, and the
cluster grants what was requested.  In the end the agent reports the node ports of the
service, and the panel stores them as the module's mappings.

The port of the module's address need not be one of its ports.  Its mapping does not
pass the first stage, so the cluster chooses its node port anew.

Main results:

- Theorem `mem_requestedPorts`: the ports of the updater.
- Theorem `get_nodePortMapping_create`: the node ports of a created service.
- Theorem `updateDeploymentOn_id`: with nothing chosen by the cluster, the update is
  that of the updater.
- Theorem `keepsNodePorts_iff`: the updates of a module keep its node ports exactly when
  every mapped port is one of the configured ports.
- Theorem `mem_portMappings_moduleAfterUpdates`: what a sequence of updates keeps.
- Theorem `published_node_port_lost`: an update that loses the node port of the address.
-/

namespace ArtPlatform

namespace Agent

/-! ## The requested ports -/

theorem mem_addPort {ports : List PortMapping} {port added : PortMapping} :
    port ∈ addPort ports added ↔ port ∈ ports ∨ port = added := by
  unfold addPort
  split
  · constructor
    · exact .inl
    · rintro (hmem | rfl)
      · exact hmem
      · assumption
  · simp

theorem mem_foldl_addPort (added : List PortMapping) {ports : List PortMapping}
    {port : PortMapping} : port ∈ added.foldl addPort ports ↔ port ∈ ports ∨ port ∈ added := by
  induction added generalizing ports with
  | nil => simp
  | cons first added ih =>
      rw [List.foldl_cons, ih, mem_addPort, List.mem_cons, or_assoc]

/-- The ports of the updater: the published one, the mapped ones, and the others. -/
theorem mem_requestedPorts {m : Module} {port : PortMapping} :
    port ∈ requestedPorts m ↔
      (∃ url, publishedUrl m = some url ∧ port = publishedPort m url) ∨
        port ∈ m.portMappings ∨
        (port.internalPort ∈ m.ports ∧ port.externalPort = none ∧
          ∀ mapping ∈ m.portMappings, mapping.internalPort ≠ port.internalPort) := by
  have hpublished : port ∈ ((publishedUrl m).map (publishedPort m)).toList ↔
      ∃ url, publishedUrl m = some url ∧ port = publishedPort m url := by
    simp [eq_comm]
  have hinternal : port ∈ (m.ports.filter fun p =>
      m.portMappings.all fun external => external.internalPort ≠ p).map
        (fun p => PortMapping.mk p none) ↔
      port.internalPort ∈ m.ports ∧ port.externalPort = none ∧
        ∀ mapping ∈ m.portMappings, mapping.internalPort ≠ port.internalPort := by
    rcases port with ⟨internalPort, externalPort⟩
    simp only [List.mem_map, List.mem_filter, List.all_eq_true, decide_eq_true_eq,
      PortMapping.mk.injEq]
    constructor
    · rintro ⟨p, ⟨hmem, happart⟩, rfl, rfl⟩
      exact ⟨hmem, rfl, happart⟩
    · rintro ⟨hmem, rfl, happart⟩
      exact ⟨internalPort, ⟨hmem, happart⟩, rfl, rfl⟩
  unfold requestedPorts
  rw [mem_foldl_addPort, hpublished, List.mem_append, hinternal]

/-- No two mappings of one internal port, as in the map that an agent reports. -/
def PortsApart (portMappings : List PortMapping) : Prop :=
  (portMappings.map PortMapping.internalPort).Nodup

theorem PortsApart.eq_of_internalPort {portMappings : List PortMapping}
    (h : PortsApart portMappings) {mapping other : PortMapping}
    (hmapping : mapping ∈ portMappings) (hother : other ∈ portMappings)
    (hport : mapping.internalPort = other.internalPort) : mapping = other :=
  List.inj_on_of_nodup_map h hmapping hother hport

/-- A mapped port is requested with its mapping, and not otherwise. -/
theorem eq_of_mem_requestedPorts {m : Module} (happart : PortsApart m.portMappings)
    {mapping port : PortMapping} (hmapping : mapping ∈ m.portMappings)
    (hport : port ∈ requestedPorts m) (hsame : port.internalPort = mapping.internalPort) :
    port = mapping := by
  rcases mem_requestedPorts.mp hport with ⟨url, -, rfl⟩ | hmem | ⟨-, -, hunmapped⟩
  · have hfind : m.portMappings.find? (fun other => other.internalPort = url.port) =
        some mapping := by
      have hsome : (m.portMappings.find? fun other =>
          other.internalPort = url.port).isSome = true := by
        apply List.find?_isSome.mpr
        exact ⟨mapping, hmapping, decide_eq_true hsame.symm⟩
      obtain ⟨other, hother⟩ := Option.isSome_iff_exists.mp hsome
      have hinternal : other.internalPort = url.port := by simpa using List.find?_some hother
      have heq := happart.eq_of_internalPort (List.mem_of_find?_eq_some hother) hmapping
        (hinternal.trans hsame)
      rw [hother, heq]
    have hexternal : (publishedPort m url).externalPort = mapping.externalPort := by
      simp [publishedPort, hfind]
    rcases mapping with ⟨internalPort, externalPort⟩
    rcases hsame with rfl
    rcases hexternal with rfl
    rfl
  · exact happart.eq_of_internalPort hmem hmapping hsame
  · exact absurd hsame.symm (hunmapped mapping hmapping)

/-- A port without a mapping is requested without an external port. -/
theorem externalPort_of_unmapped {m : Module} {port : PortMapping}
    (hport : port ∈ requestedPorts m)
    (hunmapped : ∀ mapping ∈ m.portMappings, mapping.internalPort ≠ port.internalPort) :
    port.externalPort = none := by
  rcases mem_requestedPorts.mp hport with ⟨url, -, rfl⟩ | hmem | ⟨-, hnone, -⟩
  · have hurl : ∀ mapping ∈ m.portMappings, mapping.internalPort ≠ url.port := hunmapped
    have hfind : m.portMappings.find? (fun other => other.internalPort = url.port) = none := by
      simpa using hurl
    simp [publishedPort, hfind]
  · exact absurd rfl (hunmapped port hmem)
  · exact hnone

/-! ## The ports of the created service -/

theorem servicePortName_inj {port port' : Nat} :
    OpenShiftUpdater.servicePortName port = OpenShiftUpdater.servicePortName port' ↔
      port = port' := by
  unfold OpenShiftUpdater.servicePortName
  rw [String.append_right_inj, toString_nat_inj]

/-- Putting ports under their names keeps one entry a port. -/
theorem mem_foldl_putEntry (ports : List Nat) {e : String × Nat} :
    e ∈ ports.foldl (fun entries port =>
        putEntry entries (OpenShiftUpdater.servicePortName port) port) [] ↔
      ∃ port ∈ ports, e = (OpenShiftUpdater.servicePortName port, port) := by
  induction ports using List.reverseRecOn generalizing e with
  | nil => simp
  | append_singleton ports added ih =>
      rw [List.foldl_concat]
      generalize ports.foldl _ _ = entries at ih
      unfold putEntry
      split
      · rename_i hname
        obtain ⟨old, hold, hnamed⟩ := List.mem_map.mp hname
        obtain ⟨port, hport, rfl⟩ := ih.mp hold
        obtain rfl : port = added := servicePortName_inj.mp hnamed
        have hsame : entries.map (fun e => if e.1 = OpenShiftUpdater.servicePortName port then
            (OpenShiftUpdater.servicePortName port, port) else e) = entries := by
          refine (List.map_congr_left fun e he => ?_).trans (List.map_id entries)
          obtain ⟨other, -, rfl⟩ := ih.mp he
          by_cases hother : other = port
          · simp [hother]
          · simp [servicePortName_inj, hother]
        rw [hsame, ih]
        constructor
        · rintro ⟨other, hother, he⟩
          exact ⟨other, List.mem_append_left _ hother, he⟩
        · rintro ⟨other, hother, he⟩
          have hmem : other ∈ ports := by
            rcases List.mem_append.mp hother with hold | hnew
            · exact hold
            · rwa [List.mem_singleton.mp hnew]
          exact ⟨other, hmem, he⟩
      · simp [ih, or_and_right, exists_or]

namespace OpenShiftUpdater

variable (u : OpenShiftUpdater)

/-- The node port that the service requests for a port. -/
def requestedNodePort (port : Nat) : Option Nat :=
  (toMap (u.ports.filterMap fun mapping => mapping.externalPort.map fun external =>
    (servicePortName mapping.internalPort, external))).lookup (servicePortName port)

/-- The service that is created has the requested ports. -/
theorem mem_configuredService_ports {servicePort : ServicePort} :
    servicePort ∈ u.configuredService.ports ↔
      ∃ port ∈ u.ports.map PortMapping.internalPort,
        servicePort = ⟨servicePortName port, port, port, u.requestedNodePort port⟩ := by
  have hfold : u.ports.foldl (fun entries port => putEntry entries
      (servicePortName port.internalPort) port.internalPort) [] =
      (u.ports.map PortMapping.internalPort).foldl (fun entries port =>
        putEntry entries (servicePortName port) port) [] := by
    rw [List.foldl_map]
  simp only [configuredService, hfold, List.mem_map (l := List.foldl _ _ _)]
  constructor
  · rintro ⟨e, he, rfl⟩
    obtain ⟨port, hport, rfl⟩ := (mem_foldl_putEntry _).mp he
    exact ⟨port, hport, rfl⟩
  · rintro ⟨port, hport, rfl⟩
    exact ⟨_, (mem_foldl_putEntry _).mpr ⟨port, hport, rfl⟩, rfl⟩

/-- The node port of a port whose mappings agree. -/
theorem requestedNodePort_eq_some {port external : Nat}
    (hmem : PortMapping.mk port (some external) ∈ u.ports)
    (hagree : ∀ mapping ∈ u.ports, mapping.internalPort = port →
      mapping.externalPort = some external) : u.requestedNodePort port = some external := by
  apply lookup_toMap_eq_some
  · exact List.mem_map.mpr ⟨(servicePortName port, external),
      List.mem_filterMap.mpr ⟨_, hmem, rfl⟩, rfl⟩
  · intro e he hname
    obtain ⟨mapping, hmapping, hentry⟩ := List.mem_filterMap.mp he
    obtain ⟨external', hexternal', rfl⟩ := Option.map_eq_some_iff.mp hentry
    have hsame := hagree mapping hmapping (servicePortName_inj.mp hname)
    exact Option.some.inj (hexternal'.symm.trans hsame)

theorem requestedNodePort_eq_none {port : Nat}
    (hnone : ∀ mapping ∈ u.ports, mapping.internalPort = port →
      mapping.externalPort = none) : u.requestedNodePort port = none := by
  apply lookup_toMap_eq_none
  intro e he hname
  obtain ⟨mapping, hmapping, hentry⟩ := List.mem_filterMap.mp he
  obtain ⟨external, hexternal, rfl⟩ := Option.map_eq_some_iff.mp hentry
  have hnone' := hnone mapping hmapping (servicePortName_inj.mp hname)
  rw [hexternal] at hnone'
  cases hnone'

end OpenShiftUpdater

/-! ## The reported node ports -/

/-- `port.port to port.nodePort.toInt()`, which fails for a port without a node port. -/
def nodePortEntry (servicePort : ServicePort) : Except Failure (Nat × Nat) :=
  match servicePort.nodePort with
  | some nodePort => .ok (servicePort.port, nodePort)
  | none => .error .nullPointer

/-- The node ports of a service, by port. -/
def nodePortMapping (service : Service) : Except Failure (LinkedMap Nat Nat) := do
  let entries ← service.ports.mapM nodePortEntry
  pure (LinkedMap.ofEntries entries)

theorem mapM_nodePortEntry_grantPort (cluster : Cluster) (service : Service)
    (ports : List ServicePort) :
    (ports.map (cluster.grantPort service)).mapM nodePortEntry =
      .ok (ports.map fun servicePort => (servicePort.port,
        servicePort.nodePort.getD (cluster.nodePort service servicePort.port))) := by
  induction ports with
  | nil => rfl
  | cons servicePort ports ih =>
      rw [List.map_cons, List.mapM_cons, ih]
      rfl

/-- A service that was created reports for every requested port the node port that was
requested, or else the one that the cluster chose. -/
theorem get_nodePortMapping_create (u : OpenShiftUpdater) (cluster : Cluster) :
    ∃ mapping, nodePortMapping (cluster.create u.configuredService) = .ok mapping ∧
      ∀ port, mapping.get port =
        if port ∈ u.ports.map PortMapping.internalPort then
          some ((u.requestedNodePort port).getD (cluster.nodePort u.configuredService port))
        else none := by
  have hentries := mapM_nodePortEntry_grantPort cluster u.configuredService
    u.configuredService.ports
  generalize hlist : u.configuredService.ports.map (fun servicePort => (servicePort.port,
    servicePort.nodePort.getD (cluster.nodePort u.configuredService servicePort.port))) =
      entries at hentries
  have hmem : ∀ port external, (port, external) ∈ entries ↔
      port ∈ u.ports.map PortMapping.internalPort ∧
        external = (u.requestedNodePort port).getD
          (cluster.nodePort u.configuredService port) := by
    intro port external
    rw [← hlist]
    constructor
    · intro h
      obtain ⟨servicePort, hservicePort, heq⟩ := List.mem_map.mp h
      obtain ⟨port', hport', rfl⟩ := u.mem_configuredService_ports.mp hservicePort
      cases heq
      exact ⟨hport', rfl⟩
    · rintro ⟨hport, rfl⟩
      exact List.mem_map.mpr ⟨_, u.mem_configuredService_ports.mpr ⟨port, hport, rfl⟩, rfl⟩
  refine ⟨LinkedMap.ofEntries entries, ?_, ?_⟩
  · have hports : (cluster.create u.configuredService).ports.mapM nodePortEntry =
        .ok entries := hentries
    unfold nodePortMapping
    rw [hports]
    rfl
  · intro port
    split
    · rename_i hport
      have hkey : port ∈ entries.map Prod.fst :=
        List.mem_map.mpr ⟨_, (hmem port _).mpr ⟨hport, rfl⟩, rfl⟩
      obtain ⟨external, hget, hentry⟩ := LinkedMap.exists_get_ofEntries hkey
      rw [hget, ((hmem port external).mp hentry).2]
    · rename_i hport
      cases hget : (LinkedMap.ofEntries entries).get port with
      | none => rfl
      | some external =>
          have hentry := LinkedMap.mem_of_mem_ofEntries (LinkedMap.get_eq_some_iff.mp hget)
          exact absurd ((hmem port external).mp hentry).1 hport

/-- A service reports its node ports only when every port has one. -/
theorem nodePort_ne_none_of_mapM {ports : List ServicePort} {entries : List (Nat × Nat)}
    (h : ports.mapM nodePortEntry = .ok entries) :
    ∀ servicePort ∈ ports, servicePort.nodePort ≠ none := by
  induction ports generalizing entries with
  | nil => simp
  | cons first ports ih =>
      rw [List.mapM_cons] at h
      obtain ⟨entry, hentry, hrest⟩ := exists_of_bind_eq_ok h
      obtain ⟨entries', hentries', -⟩ := exists_of_bind_eq_ok hrest
      intro servicePort hmem
      rcases List.mem_cons.mp hmem with rfl | hlater
      · intro hnone
        simp [nodePortEntry, hnone] at hentry
      · exact ih hentries' servicePort hlater

/-- A service that the comparison finds equal does not report its node ports: it has
none for the requested ports. -/
theorem nodePortMapping_of_serviceEquals {u : OpenShiftUpdater} {service : Service}
    (hports : u.ports ≠ []) (h : u.serviceEquals service = true) (mapping : LinkedMap Nat Nat) :
    nodePortMapping service ≠ .ok mapping := by
  intro hok
  obtain ⟨entries, hentries, -⟩ := exists_of_bind_eq_ok hok
  obtain ⟨port, hport⟩ := List.exists_mem_of_ne_nil _ hports
  obtain ⟨-, servicePort, hmem, -, hnone⟩ := ((u.serviceEquals_iff service).mp h).2 port hport
  exact nodePort_ne_none_of_mapM hentries servicePort hmem hnone

/-! ## The update on a cluster -/

/-- What an update meets: the OpenShift client, the choices of the cluster, the random
values of the triggers, and whether enough pods get ready. -/
structure Surroundings where
  client : OpenShiftClient
  cluster : Cluster
  triggers : OpenShiftUpdater.Triggers
  ready : Bool

inductive UpdateFailure
  | failed (failure : Failure)
  | updatingFailed (message : String)

structure OpenShiftUpdateResult where
  clusterIp : Option String := none
  routeUrl : Option String := none
  nodePortMapping : LinkedMap Nat Nat := LinkedMap.empty

namespace OpenShiftUpdater

variable (u : OpenShiftUpdater)

/-- `updateDeployment`, where `create` makes the created service. -/
def updateDeploymentOn (create : Service → Service) (client : OpenShiftClient)
    (triggers : Triggers) (ns : OpenShiftNamespace) : Except Failure OpenShiftNamespace :=
  (u.updateDeployment client triggers ns).map fun ns' =>
    { ns' with services := runCalls create ns.services (u.updateServiceCalls ns.services) }

/-- The address of the route, with the protocol of the published one. -/
def routeUrl : Option String :=
  u.routePath.map fun routePath =>
    substringBeforeText routePath "://" ++ "://" ++ u.hostName routePath ++
      extractPath routePath ""

def update (surroundings : Surroundings) (ns : OpenShiftNamespace) :
    Except UpdateFailure OpenShiftUpdateResult := do
  let ns' ← (u.updateDeploymentOn surroundings.cluster.create surroundings.client
    surroundings.triggers ns).mapError .failed
  if surroundings.ready then
    match ns'.services.get u.name with
    | some service => do
        let nodePortMapping ← (nodePortMapping service).mapError .failed
        pure ⟨service.clusterIP, u.routeUrl, nodePortMapping⟩
    | none => pure { routeUrl := u.routeUrl }
  else
    .error (.updatingFailed ("Ready pods count less than '" ++ toString u.replicationsCount ++
      "' after timeout duration"))

/-- The services are those that the updater asks for, on every way of the update. -/
theorem updateDeployment_services {client : OpenShiftClient} {triggers : Triggers}
    {ns ns' : OpenShiftNamespace} (hports : u.ports = [] → u.routePath = none)
    (h : u.updateDeployment client triggers ns = .ok ns') :
    ns'.services = u.updatedServices ns.services := by
  rcases u.updateDeployment_eq_ok triggers ns h with hfull | ⟨current, hfast⟩
  · rw [u.fullUpdate_eq triggers ns hports] at hfull
    obtain ⟨routes, -, rfl⟩ := exists_of_map_eq_ok hfull
    exact (updateDeploymentConfig_network _ _ _).2
  · rw [u.fastUpdate_eq] at hfast
    obtain ⟨routes, -, rfl⟩ := exists_of_map_eq_ok hfast
    rfl

/-- With nothing chosen by the cluster, the update is that of the updater. -/
theorem updateDeploymentOn_id (client : OpenShiftClient) (triggers : Triggers)
    (ns : OpenShiftNamespace) (hports : u.ports = [] → u.routePath = none) :
    u.updateDeploymentOn id client triggers ns = u.updateDeployment client triggers ns := by
  unfold updateDeploymentOn
  cases hupdate : u.updateDeployment client triggers ns with
  | error e => rfl
  | ok ns' =>
      have hservices := u.updateDeployment_services hports hupdate
      rw [runCalls_id, ← hservices]
      rfl

/-- The reported node ports are those of the module's service after the update. -/
theorem nodePortMapping_of_update {surroundings : Surroundings} {ns : OpenShiftNamespace}
    {result : OpenShiftUpdateResult} (h : u.update surroundings ns = .ok result) :
    match (u.servicesAfter ns.services surroundings.cluster).get u.name with
    | some service => nodePortMapping service = .ok result.nodePortMapping
    | none => result.nodePortMapping = LinkedMap.empty := by
  obtain ⟨ns', hns', hrest⟩ := exists_of_bind_eq_ok h
  have hservices : ns'.services = u.servicesAfter ns.services surroundings.cluster := by
    obtain ⟨updated, -, rfl⟩ := exists_of_map_eq_ok (eq_ok_of_mapError_eq_ok hns')
    rfl
  rw [← hservices]
  split at hrest
  · cases hget : ns'.services.get u.name with
    | none =>
        rw [hget] at hrest
        cases hrest
        rfl
    | some service =>
        rw [hget] at hrest
        obtain ⟨mapping, hmapping, hok⟩ := exists_of_bind_eq_ok hrest
        cases hok
        exact eq_ok_of_mapError_eq_ok hmapping
  · cases hrest

/-- An update that succeeds reports for every requested port the requested node port, or
else the one that the cluster chose: it has created the service. -/
theorem get_nodePortMapping_of_update {surroundings : Surroundings} {ns : OpenShiftNamespace}
    {result : OpenShiftUpdateResult} (h : u.update surroundings ns = .ok result) (port : Nat) :
    result.nodePortMapping.get port =
      if port ∈ u.ports.map PortMapping.internalPort then
        some ((u.requestedNodePort port).getD
          (surroundings.cluster.nodePort u.configuredService port))
      else none := by
  have hreported := u.nodePortMapping_of_update h
  rw [get_servicesAfter] at hreported
  by_cases hports : u.ports = []
  · rw [if_pos hports] at hreported
    have hempty : result.nodePortMapping = LinkedMap.empty := hreported
    simp [hempty, hports]
  · by_cases hany : (ns.services.get u.name).any u.serviceEquals = true
    · obtain ⟨service, hget, hequals⟩ := (Option.any_eq_true _ _).mp hany
      rw [if_neg hports, if_pos hany, hget] at hreported
      exact absurd hreported (nodePortMapping_of_serviceEquals hports hequals _)
    · rw [if_neg hports, if_neg hany] at hreported
      obtain ⟨mapping, hmapping, hget⟩ := get_nodePortMapping_create u surroundings.cluster
      have hok : Except.ok mapping = Except.ok result.nodePortMapping :=
        hmapping.symm.trans hreported
      cases hok
      exact hget port

end OpenShiftUpdater

/-! ## The mappings that the panel stores -/

/-- What the module manager emits. -/
def OpenShiftUpdateResult.report (result : OpenShiftUpdateResult) : AgentReport where
  clusterIp := result.clusterIp.filter fun clusterIp => !isBlank clusterIp
  routeUrl := result.routeUrl.filter fun routeUrl => !isBlank routeUrl
  nodePortMapping := result.nodePortMapping.entries.map fun entry => ⟨entry.1, some entry.2⟩

/-- The agent emits once when it has updated the module, and completes; else it fails. -/
def updateAnswer (now : Nat) : Except UpdateFailure OpenShiftUpdateResult → AgentAnswer
  | .ok result => ⟨[result.report], true, now⟩
  | .error _ => ⟨[], false, now⟩

/-- The module of the agent's request. -/
def updatingModule (m : Module) (configuration : ModuleConfiguration) : Module :=
  emittedModule .update (ModuleRequest.started (.update configuration) m) []

/-- The updater of a module's update; the rest of the agent's request is the panel's. -/
def moduleUpdater (resource : OpenShiftResource) (request : AgentModuleUpdateRequest)
    (m : Module) (configuration : ModuleConfiguration) : OpenShiftUpdater :=
  updateOnOpenShift resource { request with newModule := updatingModule m configuration }

/-- The module that is stored after an update. -/
def moduleAfterUpdate (surroundings : Surroundings) (resource : OpenShiftResource)
    (request : AgentModuleUpdateRequest) (ns : OpenShiftNamespace) (now : Nat) (m : Module)
    (configuration : ModuleConfiguration) : Module :=
  ModuleRequest.finished (.update configuration)
    (updateAnswer now ((moduleUpdater resource request m configuration).update surroundings ns)) m

section Mappings

variable {surroundings : Surroundings} {resource : OpenShiftResource}
  {request : AgentModuleUpdateRequest} {ns : OpenShiftNamespace} {now : Nat} {m : Module}
  {configuration : ModuleConfiguration}

/-- The mappings of the agent's request are those of the configured ports. -/
theorem mem_portMappings_updatingModule {mapping : PortMapping} :
    mapping ∈ (updatingModule m configuration).portMappings ↔
      mapping ∈ m.portMappings ∧ mapping.internalPort ∈ configuration.ports := by
  simp [updatingModule, emittedModule, ModuleRequest.started, createUpdatedModule]

theorem portsApart_updatingModule (h : PortsApart m.portMappings) :
    PortsApart (updatingModule m configuration).portMappings :=
  h.sublist (List.filter_sublist.map PortMapping.internalPort)

/-- A failed update stores the mappings of the agent's request. -/
theorem portMappings_of_error {failure : UpdateFailure}
    (h : (moduleUpdater resource request m configuration).update surroundings ns =
      .error failure) :
    (moduleAfterUpdate surroundings resource request ns now m configuration).portMappings =
      (updatingModule m configuration).portMappings := by
  unfold moduleAfterUpdate
  rw [h]
  rfl

/-- A successful update stores the reported mappings. -/
theorem portMappings_of_ok {result : OpenShiftUpdateResult}
    (h : (moduleUpdater resource request m configuration).update surroundings ns =
      .ok result) :
    (moduleAfterUpdate surroundings resource request ns now m configuration).portMappings =
      result.report.nodePortMapping := by
  unfold moduleAfterUpdate
  rw [h]
  rfl

theorem mem_report_iff {result : OpenShiftUpdateResult} {port external : Nat} :
    PortMapping.mk port (some external) ∈ result.report.nodePortMapping ↔
      result.nodePortMapping.get port = some external := by
  rw [LinkedMap.get_eq_some_iff]
  constructor
  · intro h
    obtain ⟨entry, hentry, heq⟩ := List.mem_map.mp h
    cases heq
    exact hentry
  · intro h
    exact List.mem_map.mpr ⟨(port, external), h, rfl⟩

/-- The mappings of a module stay apart over an update. -/
theorem portsApart_moduleAfterUpdate (h : PortsApart m.portMappings) :
    PortsApart
      (moduleAfterUpdate surroundings resource request ns now m configuration).portMappings := by
  cases hupdate : (moduleUpdater resource request m configuration).update surroundings ns with
  | error failure =>
      rw [portMappings_of_error hupdate]
      exact portsApart_updatingModule h
  | ok result =>
      rw [portMappings_of_ok hupdate]
      unfold PortsApart OpenShiftUpdateResult.report
      rw [List.map_map]
      exact result.nodePortMapping.nodup

/-- A mapping of a configured port is stored again, whether the update succeeds or not. -/
theorem mem_portMappings_moduleAfterUpdate (happart : PortsApart m.portMappings)
    {port external : Nat} (hmapping : PortMapping.mk port (some external) ∈ m.portMappings)
    (hport : port ∈ configuration.ports) :
    PortMapping.mk port (some external) ∈
      (moduleAfterUpdate surroundings resource request ns now m configuration).portMappings := by
  have hkept : PortMapping.mk port (some external) ∈
      (updatingModule m configuration).portMappings :=
    mem_portMappings_updatingModule.mpr ⟨hmapping, hport⟩
  cases hupdate : (moduleUpdater resource request m configuration).update surroundings ns with
  | error failure =>
      rw [portMappings_of_error hupdate]
      exact hkept
  | ok result =>
      have hrequested : PortMapping.mk port (some external) ∈
          (moduleUpdater resource request m configuration).ports :=
        mem_requestedPorts.mpr (.inr (.inl hkept))
      have hgranted : (moduleUpdater resource request m configuration).requestedNodePort port =
          some external := by
        apply OpenShiftUpdater.requestedNodePort_eq_some _ hrequested
        intro other hother hsame
        have heq := eq_of_mem_requestedPorts (portsApart_updatingModule happart) hkept hother hsame
        exact congrArg PortMapping.externalPort heq
      rw [portMappings_of_ok hupdate, mem_report_iff,
        OpenShiftUpdater.get_nodePortMapping_of_update _ hupdate,
        if_pos (List.mem_map.mpr ⟨_, hrequested, rfl⟩), hgranted]
      rfl

/-- A mapping whose port is not configured is not stored again, whether the update
succeeds or not, unless the cluster happens to choose its node port. -/
theorem notMem_portMappings_moduleAfterUpdate {port external : Nat}
    (hport : port ∉ configuration.ports)
    (hchosen : surroundings.cluster.nodePort
      (moduleUpdater resource request m configuration).configuredService port ≠ external) :
    PortMapping.mk port (some external) ∉
      (moduleAfterUpdate surroundings resource request ns now m configuration).portMappings := by
  have hunmapped : ∀ mapping ∈ (updatingModule m configuration).portMappings,
      mapping.internalPort ≠ port := by
    rintro mapping hmem rfl
    exact hport (mem_portMappings_updatingModule.mp hmem).2
  cases hupdate : (moduleUpdater resource request m configuration).update surroundings ns with
  | error failure =>
      rw [portMappings_of_error hupdate]
      exact fun hmem => hunmapped _ hmem rfl
  | ok result =>
      have hnone : (moduleUpdater resource request m configuration).requestedNodePort port =
          none := by
        apply OpenShiftUpdater.requestedNodePort_eq_none
        rintro requested hrequested rfl
        exact externalPort_of_unmapped hrequested hunmapped
      rw [portMappings_of_ok hupdate, mem_report_iff,
        OpenShiftUpdater.get_nodePortMapping_of_update _ hupdate, hnone]
      intro h
      split at h
      · exact hchosen (Option.some.inj h)
      · cases h

end Mappings

/-! ## Keeping the node ports -/

/-- Every mapping to a node port is stored again by every update to the configuration. -/
def KeepsNodePorts (m : Module) (configuration : ModuleConfiguration) : Prop :=
  ∀ surroundings resource request ns now, ∀ mapping ∈ m.portMappings,
    mapping.externalPort.isSome = true →
      mapping ∈
        (moduleAfterUpdate surroundings resource request ns now m configuration).portMappings

/-- A cluster that chooses node ports above a bound, and pods that get ready. -/
private def readySurroundings (bound : Nat) : Surroundings where
  client := ⟨fun _ => [], id⟩
  cluster := Cluster.choosingAbove bound
  triggers := ⟨"first", "second"⟩
  ready := true

private def plainRequest (m : Module) : AgentModuleUpdateRequest where
  projectId := m.externalId
  skipChangesCheck := none
  newModule := m
  additionalFiles := []
  configurationFiles := []
  applications := none
  probesConfiguration := none

/-- The updates of a module to a configuration keep its node ports exactly when every
port that is mapped to one is among the configured ports.  For a configuration that
leaves the ports unchanged these are the module's own. -/
theorem keepsNodePorts_iff (m : Module) (configuration : ModuleConfiguration)
    (happart : PortsApart m.portMappings) :
    KeepsNodePorts m configuration ↔
      ∀ mapping ∈ m.portMappings, mapping.externalPort.isSome = true →
        mapping.internalPort ∈ configuration.ports := by
  constructor
  · intro hkeeps mapping hmapping hsome
    obtain ⟨port, externalPort⟩ := mapping
    obtain ⟨external, rfl⟩ := Option.isSome_iff_exists.mp hsome
    by_contra hport
    have hstored := hkeeps (readySurroundings external) ⟨1, "apps.example"⟩ (plainRequest m)
      emptyNamespace 0 _ hmapping hsome
    exact notMem_portMappings_moduleAfterUpdate hport
      (nodePortAbove_ne external _ port) hstored
  · intro hports surroundings resource request ns now mapping hmapping hsome
    have hport := hports mapping hmapping hsome
    obtain ⟨port, externalPort⟩ := mapping
    obtain ⟨external, rfl⟩ := Option.isSome_iff_exists.mp hsome
    exact mem_portMappings_moduleAfterUpdate happart hmapping hport

/-- One update of a module with all that it meets. -/
structure ModuleUpdate where
  surroundings : Surroundings
  resource : OpenShiftResource
  request : AgentModuleUpdateRequest
  ns : OpenShiftNamespace
  now : Nat
  configuration : ModuleConfiguration

/-- The module that is stored after a sequence of updates. -/
def moduleAfterUpdates (m : Module) (updates : List ModuleUpdate) : Module :=
  updates.foldl (fun m update => moduleAfterUpdate update.surroundings update.resource
    update.request update.ns update.now m update.configuration) m

/-- While its port stays configured, a mapping is stored after every sequence of
updates, failed ones included. -/
theorem mem_portMappings_moduleAfterUpdates {m : Module} (happart : PortsApart m.portMappings)
    {port external : Nat} (hmapping : PortMapping.mk port (some external) ∈ m.portMappings)
    (updates : List ModuleUpdate)
    (hports : ∀ update ∈ updates, port ∈ update.configuration.ports) :
    PortMapping.mk port (some external) ∈ (moduleAfterUpdates m updates).portMappings := by
  induction updates generalizing m with
  | nil => exact hmapping
  | cons update updates ih =>
      have hport := hports update List.mem_cons_self
      apply ih
      · exact portsApart_moduleAfterUpdate happart
      · exact mem_portMappings_moduleAfterUpdate happart hmapping hport
      · exact fun later hlater => hports later (List.mem_cons_of_mem update hlater)

namespace SampleAddress

/-- A module with one port, and with an address on another one. -/
private def publishedModule : Module :=
  { createModule asciiLowerCase SampleModule.installation 1 0 with
    url := some ⟨"http://api.apps.example", 80⟩
    portMappings := [⟨80, some 30080⟩, ⟨8080, some 30081⟩] }

private def withoutAddress : Module :=
  { publishedModule with
    url := none
    portMappings := [⟨8080, some 30081⟩] }

/-- The module's service, exposed as its mappings say. -/
private def publishedService : Service where
  name := publishedModule.name
  type := .nodePort
  clusterIP := some "10.0.0.7"
  selector := ∅
  ports := [⟨"tcp-80", 80, 80, some 30080⟩, ⟨"tcp-8080", 8080, 8080, some 30081⟩]

private def publishedNamespace : OpenShiftNamespace :=
  createDeploymentConfig publishedModule.name {}
    { emptyNamespace with services := Space.empty.put publishedService }

/-- The configuration of a module with one more pod. -/
private def scaledConfiguration (m : Module) : ModuleConfiguration :=
  { SampleModule.installation.configuration with
    url := m.url
    count := 2 }

end SampleAddress

open SampleAddress

/-- A module without an address keeps the node port of its port. -/
theorem keepsNodePorts_withoutAddress :
    KeepsNodePorts withoutAddress (scaledConfiguration withoutAddress) := by
  apply (keepsNodePorts_iff withoutAddress (scaledConfiguration withoutAddress)
    (List.nodup_singleton 8080)).mpr
  intro mapping hmapping hsome
  rw [List.mem_singleton.mp hmapping]
  exact List.mem_singleton_self 8080

/-- An update of the count alone loses the node port of the address, whose port is not
one of the module's ports. -/
theorem published_node_port_lost :
    ¬ ∀ (m : Module) (configuration : ModuleConfiguration), PortsApart m.portMappings →
      configuration.ports = m.ports → configuration.url = m.url →
        KeepsNodePorts m configuration := by
  intro h
  have hapart : PortsApart publishedModule.portMappings := by
    simp [PortsApart, publishedModule]
  have hkeeps := h publishedModule (scaledConfiguration publishedModule) hapart rfl rfl
  have hstored := hkeeps (readySurroundings 30080) ⟨1, "apps.example"⟩
    (plainRequest publishedModule) publishedNamespace 0 ⟨80, some 30080⟩ List.mem_cons_self rfl
  have hport : 80 ∉ (scaledConfiguration publishedModule).ports := by decide
  exact notMem_portMappings_moduleAfterUpdate hport
    (nodePortAbove_ne 30080 _ 80) hstored

end Agent

end ArtPlatform
