import ArtPlatform.ManagementPanel.ModuleService

/-!
# The deployment that an operation addresses

The agent finds a module's deployment by a name that it takes from the module of
the request: an update takes the module's name, every other operation the id of
its external identifier.  The installation's factory normalizes that id and the
update's factory does not.

Main results:

- Theorem `deploymentName_constant_iff`: the operations of a module's life address
  one deployment if and only if normalization leaves its name alone or the module
  is neither updated nor refreshed.
- Theorem `update_misses_deployment`: otherwise an update addresses another one.
-/

namespace ArtPlatform

/-- The module that the request stores before its asynchronous body. -/
def ModuleRequest.started (request : ModuleRequest) (m : Module) : Module :=
  match request with
  | .update configuration =>
      { createUpdatedModule m configuration m.portMappings with state := .updateStarted }
  | _ => { m with state := request.operation.startedState }

/-- How the agent answers: its emissions, and whether it completes. -/
structure AgentAnswer where
  reports : List AgentReport
  completed : Bool
  now : Nat

/-- The module of the agent's request, after its emissions. -/
def emittedModule (operation : ModuleOperation) (started : Module)
    (reports : List AgentReport) : Module :=
  reports.foldl (fun m report => report.apply m)
    { started with state := operation.inProgressState }

/-- The module that is stored when the operation has ended. -/
def ModuleRequest.finished (request : ModuleRequest) (answer : AgentAnswer) (m : Module) :
    Module :=
  { emittedModule request.operation (request.started m) answer.reports with
    state := if answer.completed then request.operation.finalState else .invalid
    updateTimeStamp := answer.now }

/-- The name under which the agent looks for the deployment. -/
def deploymentName (operation : ModuleOperation) (m : Module) : String :=
  match operation with
  | .update => m.name
  | .install | .stop | .restart | .delete => m.externalId.id

/-- The names that a sequence of operations addresses, each operation starting from
the module that the one before has stored. -/
def deploymentNames : Module → List (ModuleRequest × AgentAnswer) → List String
  | _, [] => []
  | m, (request, answer) :: rest =>
      deploymentName request.operation (request.started m) ::
        deploymentNames (request.finished answer m) rest

/-- The names that an installation and the operations after it address. -/
def deploymentNamesOfLife (toLowerCase : String → String)
    (request : ModuleInstallationRequest) (id now : Nat) (answer : AgentAnswer)
    (steps : List (ModuleRequest × AgentAnswer)) : List String :=
  deploymentNames (createModule toLowerCase request id now) ((.reinstall, answer) :: steps)

/-! ## Names of a stored module -/

/-- Every update of the sequence keeps the module's name. -/
def KeepsName (name : String) (steps : List (ModuleRequest × AgentAnswer)) : Prop :=
  ∀ step ∈ steps, ∀ configuration, step.1 = .update configuration →
    configuration.name = name

/-- The requests that the agent carries out under the module's name. -/
def ModuleRequest.isUpdate (request : ModuleRequest) : Bool :=
  request.operation = .update

theorem name_emittedModule (operation : ModuleOperation) (started : Module)
    (reports : List AgentReport) :
    (emittedModule operation started reports).name = started.name ∧
      (emittedModule operation started reports).externalId = started.externalId := by
  unfold emittedModule
  generalize hm : { started with state := operation.inProgressState } = m
  have hstart : m.name = started.name ∧ m.externalId = started.externalId := by
    rw [← hm]
    exact ⟨rfl, rfl⟩
  clear hm
  induction reports generalizing m with
  | nil => exact hstart
  | cons report reports ih => exact ih (report.apply m) hstart

/-- Whatever the agent answers, the stored names are those of the started module. -/
theorem name_finished (request : ModuleRequest) (answer : AgentAnswer) (m : Module) :
    (request.finished answer m).name = (request.started m).name ∧
      (request.finished answer m).externalId = (request.started m).externalId :=
  name_emittedModule request.operation (request.started m) answer.reports

/-- A request that keeps the name keeps the external id too, unless it is an update:
then the id is the name. -/
theorem externalId_started {request : ModuleRequest} {m : Module}
    (hkeep : ∀ configuration, request = .update configuration →
      configuration.name = m.name) :
    (request.started m).name = m.name ∧
      ((request.started m).externalId = m.externalId ∨
        request.isUpdate = true ∧ (request.started m).externalId.id = m.name) := by
  cases request with
  | update configuration =>
      have hname := hkeep configuration rfl
      exact ⟨hname, .inr ⟨rfl, hname⟩⟩
  | _ => exact ⟨rfl, .inl rfl⟩

theorem deploymentName_of_isUpdate {request : ModuleRequest} (h : request.isUpdate = true)
    (m : Module) : deploymentName request.operation m = m.name := by
  have hop : request.operation = .update := by simpa [ModuleRequest.isUpdate] using h
  rw [hop]
  rfl

theorem deploymentName_of_not_isUpdate {request : ModuleRequest}
    (h : request.isUpdate = false) (m : Module) :
    deploymentName request.operation m = m.externalId.id := by
  cases request <;> first | rfl | cases h

/-! ## Sequences of operations -/

variable {name : String} {m : Module} {step : ModuleRequest × AgentAnswer}
  {steps : List (ModuleRequest × AgentAnswer)}

theorem keepsName_cons (h : KeepsName name (step :: steps)) :
    (∀ configuration, step.1 = .update configuration → configuration.name = name) ∧
      KeepsName name steps :=
  ⟨h step List.mem_cons_self, fun s hs => h s (List.mem_cons_of_mem step hs)⟩

/-- A module whose external id is its name is addressed by it in every operation. -/
theorem deploymentNames_of_id_eq_name (hname : m.name = name) (hid : m.externalId.id = name)
    (hkeep : KeepsName name steps) : ∀ a ∈ deploymentNames m steps, a = name := by
  induction steps generalizing m with
  | nil => exact fun a ha => absurd ha List.not_mem_nil
  | cons step steps ih =>
      obtain ⟨request, answer⟩ := step
      obtain ⟨hupdate, hrest⟩ := keepsName_cons hkeep
      obtain ⟨hstarted, hexternal⟩ := externalId_started (hname ▸ hupdate)
      have hid' : (request.started m).externalId.id = name := by
        rcases hexternal with hsame | ⟨-, hnew⟩
        · rw [hsame, hid]
        · rw [hnew, hname]
      obtain ⟨hfinished, hfinishedId⟩ := name_finished request answer m
      intro a ha
      rcases List.mem_cons.mp ha with rfl | ha
      · cases hop : request.isUpdate with
        | true => rw [deploymentName_of_isUpdate hop, hstarted, hname]
        | false => rw [deploymentName_of_not_isUpdate hop, hid']
      · refine ih ?_ ?_ hrest a ha
        · rw [hfinished, hstarted, hname]
        · rw [hfinishedId, hid']

/-- Without updates every operation addresses the external id. -/
theorem deploymentNames_of_no_update (hnone : ∀ s ∈ steps, s.1.isUpdate = false) :
    ∀ a ∈ deploymentNames m steps, a = m.externalId.id := by
  induction steps generalizing m with
  | nil => exact fun a ha => absurd ha List.not_mem_nil
  | cons step steps ih =>
      obtain ⟨request, answer⟩ := step
      have hop : request.isUpdate = false := hnone _ List.mem_cons_self
      have hid : (request.started m).externalId = m.externalId := by
        cases request <;> first | rfl | cases hop
      obtain ⟨-, hfinished⟩ := name_finished request answer m
      intro a ha
      rcases List.mem_cons.mp ha with rfl | ha
      · rw [deploymentName_of_not_isUpdate hop, hid]
      · have htail := ih (m := request.finished answer m)
          (fun s hs => hnone s (List.mem_cons_of_mem _ hs)) a ha
        rw [htail, hfinished, hid]

/-- An update somewhere in the sequence addresses the module's name. -/
theorem name_mem_deploymentNames (hname : m.name = name) (hkeep : KeepsName name steps)
    (hupdate : ∃ s ∈ steps, s.1.isUpdate = true) : name ∈ deploymentNames m steps := by
  induction steps generalizing m with
  | nil =>
      obtain ⟨s, hs, -⟩ := hupdate
      cases hs
  | cons step steps ih =>
      obtain ⟨request, answer⟩ := step
      obtain ⟨hkept, hrest⟩ := keepsName_cons hkeep
      obtain ⟨hstarted, -⟩ := externalId_started (hname ▸ hkept)
      cases hop : request.isUpdate with
      | true =>
          refine List.mem_cons.mpr (.inl ?_)
          rw [deploymentName_of_isUpdate hop, hstarted, hname]
      | false =>
          obtain ⟨s, hs, hisUpdate⟩ := hupdate
          have htail : s ∈ steps := by
            rcases List.mem_cons.mp hs with rfl | hs
            · rw [hop] at hisUpdate
              cases hisUpdate
            · exact hs
          obtain ⟨hfinished, -⟩ := name_finished request answer m
          refine List.mem_cons_of_mem _ (ih ?_ hrest ⟨s, htail, hisUpdate⟩)
          rw [hfinished, hstarted, hname]

/-! ## One deployment for the whole life -/

/-- All operations of a module's life address the same deployment. -/
def AddressesOneDeployment (toLowerCase : String → String)
    (request : ModuleInstallationRequest) (id now : Nat) (answer : AgentAnswer)
    (steps : List (ModuleRequest × AgentAnswer)) : Prop :=
  ∀ a ∈ deploymentNamesOfLife toLowerCase request id now answer steps,
    ∀ b ∈ deploymentNamesOfLife toLowerCase request id now answer steps, a = b

/-- The operations of a module's life address one deployment if and only if
normalization leaves its name alone or the module is neither updated nor refreshed. -/
theorem deploymentName_constant_iff (toLowerCase : String → String)
    (request : ModuleInstallationRequest) (id now : Nat) (answer : AgentAnswer)
    (steps : List (ModuleRequest × AgentAnswer))
    (hkeep : KeepsName request.configuration.name steps) :
    AddressesOneDeployment toLowerCase request id now answer steps ↔
      normalizeNameToId toLowerCase request.configuration.name = request.configuration.name ∨
        ∀ s ∈ steps, s.1.isUpdate = false := by
  have hfirst : ∀ configuration, ModuleRequest.reinstall = .update configuration →
      configuration.name = request.configuration.name := fun _ h => by cases h
  have hlife : KeepsName request.configuration.name ((.reinstall, answer) :: steps) := by
    intro s hs configuration heq
    rcases List.mem_cons.mp hs with rfl | hs
    · exact hfirst configuration heq
    · exact hkeep s hs configuration heq
  constructor
  · intro hone
    by_cases hupdate : ∃ s ∈ steps, s.1.isUpdate = true
    · left
      obtain ⟨s, hs, hisUpdate⟩ := hupdate
      refine hone _ List.mem_cons_self _ ?_
      exact name_mem_deploymentNames rfl hlife
        ⟨s, List.mem_cons_of_mem _ hs, hisUpdate⟩
    · right
      intro s hs
      by_contra hnot
      exact hupdate ⟨s, hs, by simpa using hnot⟩
  · rintro (hnormal | hnone) a ha b hb
    · have hall := deploymentNames_of_id_eq_name
        (m := createModule toLowerCase request id now) rfl hnormal hlife
      rw [hall a ha, hall b hb]
    · have hlifeNone : ∀ s ∈ (ModuleRequest.reinstall, answer) :: steps,
          s.1.isUpdate = false := by
        intro s hs
        rcases List.mem_cons.mp hs with rfl | hs
        · rfl
        · exact hnone s hs
      have hall := deploymentNames_of_no_update
        (m := createModule toLowerCase request id now) hlifeNone
      rw [hall a ha, hall b hb]

/-! ## A name with a dot -/

open SampleModule (installation)

private def success : AgentAnswer :=
  ⟨[], true, 0⟩

/-- A module that is only stopped and restarted keeps its deployment. -/
theorem deploymentName_constant_restarted :
    AddressesOneDeployment asciiLowerCase installation 1 0 success
      [(.stop, success), (.restart, success)] := by
  refine (deploymentName_constant_iff asciiLowerCase installation 1 0 success _ ?_).mpr
    (.inr ?_)
  · intro s hs configuration heq
    simp only [List.mem_cons, List.not_mem_nil, or_false] at hs
    rcases hs with rfl | rfl <;> cases heq
  · intro s hs
    simp only [List.mem_cons, List.not_mem_nil, or_false] at hs
    rcases hs with rfl | rfl <;> rfl

/-- Every life of a module whose updates keep its name addresses one deployment. -/
def DeploymentIdentityIsStable : Prop :=
  ∀ toLowerCase request id now answer steps,
    KeepsName request.configuration.name steps →
      AddressesOneDeployment toLowerCase request id now answer steps

/-- A module named `api.v2` is installed as `api-v2` and refreshed as `api.v2`. -/
theorem update_misses_deployment : ¬ DeploymentIdentityIsStable := by
  intro h
  have hkeep : KeepsName "api.v2" [(.refresh, success)] := by
    intro s hs configuration heq
    rw [List.mem_singleton.mp hs] at heq
    cases heq
  have hone := h asciiLowerCase installation 1 0 success [(.refresh, success)] hkeep
  have hsame := hone "api-v2" (by decide) "api.v2" (by decide)
  exact absurd hsame (by decide)

end ArtPlatform
